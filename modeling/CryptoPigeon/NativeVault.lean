import CryptoPigeon.AndroidCommitJournal
import CryptoPigeon.SecureVault

/-! # Password changes of the Android vault

`NativeVault.changePassword` stages the new tree and replaces the old one by a journalled
commit. A vault whose seventh share is at the relay first uploads the new backup and
deletes the old one; if the old one stays, the new one is withdrawn. The third share and
the device key are kept under an alias of each split, and only those of a removed stage
are deleted, so they are no part of the state. -/
namespace NativeVault

open FaultyProgram VaultTree
open SecureVault (Record versionOf advance)
open AndroidCommitJournal (Journal OperationFaults)

/-- `files` are the root, the directories beside it and the two flags of the operation. -/
structure State where
  files : AndroidCommitJournal.State
  memory : Option Config
  unlocked : Bool
  oldRecord : Option Record
  newRecord : Option Record
  held : List Provisioning

/-- `stage` is the copy of the tree with its new shares, `afterCommit` the opening with the
new password. -/
structure Faults extends OperationFaults where
  download : Fault
  sync : Fault
  save : Fault
  saveStaged : Fault
  load : Fault
  deriving DecidableEq, Repr

def noFaults : Faults := ⟨AndroidCommitJournal.noFaults, .none, .none, .none, .none, .none⟩

def sharePaths : List Path := [.f1, .metadata, .f4, .f6]

/-- The files `NativeFragments.scatter` writes. -/
def scatter (p : Provisioning) : List Write :=
  [.put .f1 (.share p), .erase .metadata, .put .metadata (.share p), .erase .f3,
    .put .f4 (.share p), .put .f6 (.share p)]

def onFiles {α : Type} : Program AndroidCommitJournal.State α → Program State α :=
  within State.files (fun t s => { s with files := t })

/-- What the requests to the relay and `saveConfig` of the open vault work on. -/
def session (s : State) : SecureVault.State :=
  ⟨s.files.root, none, none, s.memory, s.unlocked, s.oldRecord, s.newRecord, s.held⟩

def setSession (t : SecureVault.State) (s : State) : State :=
  ⟨{ s.files with root := t.root, vault := t.root }, t.memory, t.unlocked, t.oldRecord, t.newRecord,
    t.held⟩

def onSession {α : Type} : Program SecureVault.State α → Program State α :=
  within session setSession

/-- The faults of the requests that both clients make. -/
def Faults.session (F : Faults) : SecureVault.Faults :=
  { SecureVault.noFaults with sync := F.sync, save := F.save }

def requireUnused (fault : Fault) : Program State Unit :=
  onSession (SecureVault.requireUnused fault)

/-- `prepareUpload` and `uploadPreparedBackup`: the next version is uploaded, and once the
answer is seen it is assigned and saved. -/
def syncBackup (c : Config) (F : Faults) : Program State Unit :=
  onSession (SecureVault.syncBackup c F.session)

def copyAndScatter (names : Journal) (ws : List Write) (F : Faults) : Program State Unit := do
  let s ← read
  match s.files.root with
  | none => throwing
  | some t =>
    onFiles (AndroidCommitJournal.stageTree names.stage (stagedFrom t (scatter .next ++ ws)) F.stage)

def saveStage (names : Journal) (c : Config) (s : AndroidCommitJournal.State) :
    AndroidCommitJournal.State :=
  AndroidCommitJournal.setStage names.stage ((s.stages names.stage).map (saveConfig c)) s

/-- `staged.syncBackup`, after which `uploaded` is set. -/
def uploadStaged (names : Journal) (F : Faults) : Program State Unit := do
  onSession (SecureVault.putNew F.upload)
  onFiles (atomically (saveStage names ⟨.next, false, true, 1⟩) F.saveStaged)
  onFiles (update (AndroidCommitJournal.setFlags true false))

def deleteOld (version : Nat) (F : Faults) : Program State Unit := do
  onSession (SecureVault.deleteOld version F.deleteOld)
  onFiles (update (AndroidCommitJournal.setFlags true true))

/-- The relay deletes the version the stage has uploaded. -/
def deleteNew (fault : Fault) : Program State Unit := do
  let s ← read
  if s.newRecord.isSome ∧ versionOf s.newRecord = 1 then
    remotely (fun s => { s with newRecord := none }) fault
  else do
    attempt fault
    throwing

/-- What follows a deletion of the old backup that fails. -/
def withdraw (F : Faults) : Program State Unit := do
  deleteNew F.deleteNew
  onFiles (update (AndroidCommitJournal.setFlags false false))
  throwing

def lock (s : State) : State := { s with unlocked := false }

def forget (s : State) : State := { s with memory := none }

def readConfig (s : State) : State := { s with memory := s.files.root.bind configOf }

def unlock (s : State) : State := { s with unlocked := true }

def handOver (s : State) : State := { s with held := s.held ++ [.next] }

/-- The commit, `initialize` and `open` with the new password. -/
def swapTrees (names : Journal) (F : Faults) : Program State Unit := do
  attempt F.close
  update lock
  onFiles (AndroidCommitJournal.commit names F.toOperationFaults)
  update forget
  attempt F.load
  update readConfig
  attempt F.afterCommit
  update unlock

def changeExternal (names : Journal) (F : Faults) : Program State Unit := do
  copyAndScatter names [.put .config (.config ⟨.next, true, false, 0⟩)] F
  swapTrees names F

def changeCloud (names : Journal) (c : Config) (F : Faults) : Program State Unit := do
  requireUnused F.download
  syncBackup c F
  copyAndScatter names [] F
  uploadStaged names F
  orElse (deleteOld (c.backupVersion + 1) F) (withdraw F)
  swapTrees names F

/-- `if(stage.exists()&&!uploaded&&!oldDeleted)cleanup(staged)`. -/
def release (names : Journal) (F : Faults) : Program State Unit :=
  onFiles (AndroidCommitJournal.releaseStage names.stage F.toOperationFaults
    fun uploaded oldDeleted => uploaded || oldDeleted)

def changePassword (names : Journal) (F : Faults) : Program State Unit := do
  onFiles (update (AndroidCommitJournal.setFlags false false))
  andFinally
    (do
      attempt F.prepare
      let s ← read
      match s.memory with
      | none => throwing
      | some c =>
        if s.unlocked = false then throwing
        else if c.external = true ∨ c.cloudBackup = false then changeExternal names F
        else changeCloud names c F)
    (release names F)
  update handOver

end NativeVault
