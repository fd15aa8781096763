import CryptoPigeon.FaultyProgram
import CryptoPigeon.VaultTree

/-! # The desktop vault and its replacement

`restoreSecure`, `importStorage` and `changeSecurePassword` build a tree in a stage beside
`rootDir`, rename `rootDir` aside and the stage into its place. A password change of a
vault whose seventh share is at the relay uploads the new backup and deletes the old one
before it. A vault from before the seven shares has its configuration rewritten in place.
Renames are atomic and every operation may throw or be cut by a crash. -/
namespace SecureVault

open FaultyProgram VaultTree

/-- A row of `vault_backups`: the split whose seventh share it carries, and its version. -/
structure Record where
  share : Provisioning
  version : Nat
  deriving DecidableEq, Repr

/-- `stage` and `aside` are the directories of the operation at hand, which takes new
names; `memory` is `this.config`; `held` are the splits whose client share and
seventh-share file the user has been given. The records are those under the lookup tokens
of the old and the new password. -/
structure State where
  root : Option Tree
  stage : Option Tree
  aside : Option Tree
  memory : Option Config
  unlocked : Bool
  oldRecord : Option Record
  newRecord : Option Record
  held : List Provisioning
  deriving DecidableEq, Repr

structure Faults where
  prepare : Fault
  download : Fault
  sync : Fault
  save : Fault
  build : Fault
  upload : Fault
  saveStaged : Fault
  deleteOld : Fault
  close : Fault
  aside : Fault
  install : Fault
  rollback : Fault
  load : Fault
  unlock : Fault
  cleanup : Fault
  deriving DecidableEq, Repr

def noFaults : Faults :=
  ⟨.none, .none, .none, .none, .none, .none, .none, .none, .none, .none, .none, .none, .none,
    .none, .none⟩

def sharePaths : List Path := [.f1, .metadata, .f3, .f4, .f6]

/-- The files `HorcruxStore.scatter` writes. -/
def scatter (p : Provisioning) : List Write :=
  [.put .f1 (.share p), .erase .metadata, .put .metadata (.share p), .put .f3 (.share p),
    .put .f4 (.share p), .put .f6 (.share p)]

/-- The files staged from a snapshot; the configuration is saved last. -/
def restoreWrites (v : Snapshot) (c : Config) : List Write :=
  .put .database (.bytes v.database) :: scatter c.provisioning ++
    v.attachments.map (fun a => .put (.attachment a.1) (.bytes a.2)) ++
    [.put .config (.config c)]

def moveAside (s : State) : State := { s with root := none, aside := s.root }

def installStage (s : State) : State := { s with root := s.stage, stage := none }

def moveBack (s : State) : State := { s with root := s.aside, aside := none }

def lock (s : State) : State := { s with unlocked := false }

def takeNames (s : State) : State := { s with stage := none, aside := none }

/-- A missing configuration leaves `this.config` as it is. -/
def readConfig (s : State) : State :=
  match s.root.bind configOf with
  | none => s
  | some c => { s with memory := some c }

def handOver (s : State) : State := { s with held := s.held ++ [.next] }

def stageTree (b : Staging) : Fault → Program State Unit :=
  gradually (fun n s => { s with stage := some (b.progress n) })
    (fun s => { s with stage := some b.full })

/-- `rm(stage,{recursive:true,force:true})`. -/
def removeStage : Fault → Program State Unit :=
  gradually (fun n s => { s with stage := s.stage.map (List.drop n) })
    (fun s => { s with stage := none })

def requireLocked : Program State Unit := do
  let s ← read
  if s.unlocked then throwing else done ()

/-- `if(existsSync(this.rootDir))await rename(this.rootDir,…)`. -/
def moveAsideIfPresent (F : Faults) : Program State Unit := do
  let s ← read
  if s.root.isSome then atomically moveAside F.aside else done ()

/-- `initialize` and the unlock after a swap. -/
def reopen (F : Faults) : Program State Unit := do
  attempt F.load
  update readConfig
  attempt F.unlock
  update (fun s => { s with unlocked := true })

/-- `version` is that of the downloaded backup. -/
def restoreSecure (v : Snapshot) (version : Nat) (F : Faults) : Program State Unit := do
  requireLocked
  update takeNames
  andFinally
    (do
      attempt F.prepare
      stageTree (stagedFrom [] (restoreWrites v ⟨.next, true, false, version⟩)) F.build
      attempt F.close
      moveAsideIfPresent F
      atomically installStage F.install
      reopen F)
    (removeStage F.cleanup)
  update handOver

/-- The rollback of `importStorage`, after which the failure is thrown again. -/
def rollBack (F : Faults) : Program State Unit := do
  let s ← read
  if s.aside.isSome then do
    atomically moveBack F.rollback
    throwing
  else throwing

def importStorage (v : Snapshot) (F : Faults) : Program State Unit := do
  requireLocked
  update takeNames
  andFinally
    (do
      attempt F.prepare
      stageTree (stagedFrom [] (restoreWrites v ⟨.next, true, false, 0⟩)) F.build
      attempt F.close
      moveAsideIfPresent F
      orElse (atomically installStage F.install) (rollBack F)
      reopen F)
    (removeStage F.cleanup)
  update handOver

def versionOf (r : Option Record) : Nat :=
  match r with
  | none => 0
  | some r => r.version

/-- The relay takes the version after the one it has; the body carries the vault's share. -/
def putOld (c : Config) (fault : Fault) : Program State Unit := do
  let s ← read
  if c.backupVersion = versionOf s.oldRecord then
    remotely (fun s => { s with oldRecord := some ⟨c.provisioning, c.backupVersion + 1⟩ }) fault
  else do
    attempt fault
    throwing

def advance (c : Config) : Config := { c with backupVersion := c.backupVersion + 1 }

/-- `saveConfig`: a temporary file and a rename. -/
def saveRoot (c : Config) (s : State) : State := { s with root := s.root.map (saveConfig c) }

/-- `syncBackup`: only an answer that is seen advances `backupVersion`. -/
def syncBackup (c : Config) (F : Faults) : Program State Unit := do
  putOld c F.sync
  update (fun s => { s with memory := some (advance c) })
  atomically (saveRoot (advance c)) F.save

/-- `if(await this.download(nextKeys))throw …`. -/
def requireUnused (fault : Fault) : Program State Unit := do
  attempt fault
  let s ← read
  if s.newRecord.isSome then throwing else done ()

/-- The first version under the new lookup token. -/
def putNew (fault : Fault) : Program State Unit := do
  let s ← read
  if versionOf s.newRecord = 0 then
    remotely (fun s => { s with newRecord := some ⟨.next, 1⟩ }) fault
  else do
    attempt fault
    throwing

def saveStage (c : Config) (s : State) : State := { s with stage := s.stage.map (saveConfig c) }

/-- `staged.syncBackup`, the first to write the staged configuration. -/
def uploadStaged (F : Faults) : Program State Unit := do
  putNew F.upload
  atomically (saveStage ⟨.next, false, true, 1⟩) F.saveStaged

/-- The relay deletes the version named only. -/
def deleteOld (version : Nat) (fault : Fault) : Program State Unit := do
  let s ← read
  if s.oldRecord.isSome ∧ versionOf s.oldRecord = version then
    remotely (fun s => { s with oldRecord := none }) fault
  else do
    attempt fault
    throwing

/-- The swap of `changeSecurePassword`, with nothing to undo it. -/
def swapTrees (F : Faults) : Program State Unit := do
  attempt F.close
  update lock
  atomically moveAside F.aside
  atomically installStage F.install
  reopen F

def copyAndScatter (ws : List Write) (F : Faults) : Program State Unit := do
  let s ← read
  match s.root with
  | none => throwing
  | some t => stageTree (stagedFrom t (scatter .next ++ ws)) F.build

def changeExternal (F : Faults) : Program State Unit := do
  copyAndScatter [.put .config (.config ⟨.next, true, false, 0⟩)] F
  swapTrees F

def changeCloud (c : Config) (F : Faults) : Program State Unit := do
  requireUnused F.download
  syncBackup c F
  copyAndScatter [] F
  uploadStaged F
  deleteOld (c.backupVersion + 1) F.deleteOld
  swapTrees F

def changeSecurePassword (F : Faults) : Program State Unit := do
  update takeNames
  andFinally
    (do
      attempt F.prepare
      let s ← read
      match s.memory with
      | none => throwing
      | some c =>
        if s.unlocked = false then throwing
        else if c.external = true ∨ c.cloudBackup = false then changeExternal F
        else changeCloud c F)
    (removeStage F.cleanup)
  update handOver

/-- The configuration file of a vault without shares: the password its key is wrapped
under, or a text that does not parse. -/
inductive LegacyFile where
  | whole (wrapped : Provisioning)
  | torn
  deriving DecidableEq, Repr

structure LegacyState where
  file : LegacyFile
  memory : Provisioning
  deriving DecidableEq, Repr

structure LegacyFaults where
  rewrap : Fault
  write : Fault
  deriving DecidableEq, Repr

/-- `writeFile` truncates the file and then writes it. -/
def writeConfig : Fault → Program LegacyState Unit :=
  gradually (fun n s => if n = 0 then s else { s with file := .torn })
    (fun s => { s with file := .whole s.memory })

/-- `this.config` is assigned before it is written. -/
def rewriteConfig (F : LegacyFaults) : Program LegacyState Unit := do
  update (fun s => { s with memory := .next })
  writeConfig F.write

/-- `Vault.changePassword`: the old password must unwrap the key of `this.config`. -/
def changePassword (F : LegacyFaults) : Program LegacyState Unit := do
  attempt F.rewrap
  let s ← read
  if s.memory = .previous then rewriteConfig F else throwing

section Requests

variable {P R E C : State → Prop} {c : Config} {fault : Fault} {old new : Option Record}

/-- What the check of the new password's records can do. -/
theorem requireUnused_spec (hnew : ∀ s, P s → s.newRecord = new)
    (hthrows : fault.Throws ∨ (fault = .none ∧ new ≠ none) → ∀ s, P s → E s)
    (hcrashes : fault.Crashes → ∀ s, P s → C s) :
    Triple P (requireUnused fault) (fun _ s => (fault = .none ∧ new = none) ∧ P s) E C := by
  refine Triple.bind (Q := fun _ s => fault = .none ∧ P s) (Triple.attempt_cases
    (fun hnone s hs => ⟨hnone, hs⟩) (fun ht => hthrows (.inl ht)) hcrashes) fun _ => ?_
  refine Triple.assuming fun hnone => Triple.read fun r hr => ?_
  rw [hnew r hr]
  refine Triple.ite (fun hsome => Triple.throwing fun s hs => ?_) fun hfree => Triple.done fun s hs => ?_
  · exact hthrows (.inr ⟨hnone, Option.isSome_iff_ne_none.mp hsome⟩) s hs.1
  · exact ⟨⟨hnone, by simpa using hfree⟩, hs.1⟩

/-- What the upload of the vault's backup can do: refused, lost, cut or answered. -/
theorem putOld_spec (hold : ∀ s, P s → s.oldRecord = old)
    (hput : ∀ s, P s → R { s with oldRecord := some ⟨c.provisioning, c.backupVersion + 1⟩ })
    (hrefused : c.backupVersion ≠ versionOf old ∨ ¬fault.Applied → ¬fault.Crashes →
      ∀ s, P s → E s)
    (hlost : c.backupVersion = versionOf old → fault.Throws → fault.Applied → ∀ s, R s → E s)
    (hcut : c.backupVersion ≠ versionOf old ∨ ¬fault.Applied → fault.Crashes → ∀ s, P s → C s)
    (hcrashed : c.backupVersion = versionOf old → fault.Crashes → fault.Applied → ∀ s, R s → C s) :
    Triple P (putOld c fault)
      (fun _ s => (c.backupVersion = versionOf old ∧ fault = .none) ∧ R s) E C := by
  refine Triple.read fun r hr => ?_
  rw [hold r hr]
  refine Triple.ite (fun hversion => ?_) fun hversion => ?_
  · exact Triple.remotely_cases (fun hnone s hs => ⟨⟨hversion, hnone⟩, hput s hs.1⟩)
      (fun ht s hs => ⟨fun hnot => hrefused (.inr hnot) ht.not_crashes s hs.1,
        fun happ => hlost hversion ht happ _ (hput s hs.1)⟩)
      (fun hc s hs => ⟨fun hnot => hcut (.inr hnot) hc s hs.1,
        fun happ => hcrashed hversion hc happ _ (hput s hs.1)⟩)
  · refine Triple.bind (Q := fun _ s => fault = .none ∧ P s) (Triple.attempt_cases
      (fun hnone s hs => ⟨hnone, hs.1⟩)
      (fun ht s hs => hrefused (.inl hversion) ht.not_crashes s hs.1)
      (fun hc s hs => hcut (.inl hversion) hc s hs.1)) fun _ => ?_
    exact Triple.assuming fun hnone => Triple.throwing fun s hs =>
      hrefused (.inl hversion) (by rw [hnone]; exact id) s hs

/-- What the first upload under the new password can do. -/
theorem putNew_spec (hnew : ∀ s, P s → s.newRecord = none)
    (hput : ∀ s, P s → R { s with newRecord := some ⟨.next, 1⟩ })
    (hrefused : ¬fault.Applied → fault.Throws → ∀ s, P s → E s)
    (hlost : fault.Applied → fault.Throws → ∀ s, R s → E s)
    (hcut : ¬fault.Applied → fault.Crashes → ∀ s, P s → C s)
    (hcrashed : fault.Applied → fault.Crashes → ∀ s, R s → C s) :
    Triple P (putNew fault) (fun _ s => fault = .none ∧ R s) E C := by
  refine Triple.read fun r hr => ?_
  rw [hnew r hr, if_pos (show versionOf none = 0 from rfl)]
  exact Triple.remotely_cases (fun hnone s hs => ⟨hnone, hput s hs.1⟩)
    (fun ht s hs => ⟨fun hnot => hrefused hnot ht s hs.1, fun happ => hlost happ ht _ (hput s hs.1)⟩)
    (fun hc s hs => ⟨fun hnot => hcut hnot hc s hs.1, fun happ => hcrashed happ hc _ (hput s hs.1)⟩)

/-- What the deletion of the version the relay has can do. -/
theorem deleteOld_spec {p : Provisioning} {n : Nat}
    (hold : ∀ s, P s → s.oldRecord = some ⟨p, n⟩)
    (hdelete : ∀ s, P s → R { s with oldRecord := none })
    (hrefused : ¬fault.Applied → fault.Throws → ∀ s, P s → E s)
    (hlost : fault.Applied → fault.Throws → ∀ s, R s → E s)
    (hcut : ¬fault.Applied → fault.Crashes → ∀ s, P s → C s)
    (hcrashed : fault.Applied → fault.Crashes → ∀ s, R s → C s) :
    Triple P (deleteOld n fault) (fun _ s => fault = .none ∧ R s) E C := by
  refine Triple.read fun r hr => ?_
  rw [hold r hr, if_pos ⟨rfl, rfl⟩]
  exact Triple.remotely_cases (fun hnone s hs => ⟨hnone, hdelete s hs.1⟩)
    (fun ht s hs =>
      ⟨fun hnot => hrefused hnot ht s hs.1, fun happ => hlost happ ht _ (hdelete s hs.1)⟩)
    (fun hc s hs =>
      ⟨fun hnot => hcut hnot hc s hs.1, fun happ => hcrashed happ hc _ (hdelete s hs.1)⟩)

end Requests

section Trees

variable {t : Tree} {c : Config} {v : Snapshot} {p : Provisioning} {path : Path}

theorem scatter_share (h : path ∈ sharePaths) :
    fileAt (applyWrites (scatter p) t) path = some (.share p) := by
  simp only [sharePaths, List.mem_cons, List.not_mem_nil, or_false] at h
  rcases h with rfl | rfl | rfl | rfl | rfl <;>
    simp [scatter, applyWrites, fileAt_write, Write.path, Write.content]

theorem scatter_other (h : path ∉ sharePaths) :
    fileAt (applyWrites (scatter p) t) path = fileAt t path := by
  refine fileAt_untouched fun w hw heq => h ?_
  simp only [scatter, List.mem_cons, List.not_mem_nil, or_false] at hw
  subst heq
  rcases hw with rfl | rfl | rfl | rfl | rfl | rfl <;> simp [sharePaths, Write.path]

/-- A new split over the data of a vault, once its configuration is saved. -/
theorem scattered_whole (h : Whole sharePaths c v t) (d : Config) :
    Whole sharePaths d v (saveConfig d (applyWrites (scatter d.provisioning) t)) := by
  refine ⟨fileAt_saveConfig, fun path hpath => ?_, ?_, fun a ha => ?_⟩
  · rw [fileAt_saveConfig_other (by rintro rfl; exact absurd hpath (by decide))]
    exact scatter_share hpath
  · rw [fileAt_saveConfig_other (by decide), scatter_other (by decide)]
    exact h.database
  · rw [fileAt_saveConfig_other (by simp), scatter_other (by simp [sharePaths])]
    exact h.attachments a ha

theorem attachment_written {l : List (String × List UInt8)} (h : (l.map Prod.fst).Nodup)
    {a : String × List UInt8} (ha : a ∈ l) :
    fileAt (applyWrites (l.map (fun a => .put (.attachment a.1) (.bytes a.2))) t)
      (.attachment a.1) = some (.bytes a.2) := by
  obtain ⟨before, after, rfl⟩ := List.append_of_mem ha
  rw [List.map_append, List.map_cons]
  refine fileAt_last (w := .put (.attachment a.1) (.bytes a.2)) fun u hu => ?_
  obtain ⟨b, hb, rfl⟩ := List.mem_map.mp hu
  rw [List.map_append, List.map_cons, List.nodup_append] at h
  have hne : b.1 ≠ a.1 := fun heq =>
    (List.nodup_cons.mp h.2.1).1 (heq ▸ List.mem_map_of_mem hb)
  simpa [Write.path] using hne

def stagedData (v : Snapshot) (p : Provisioning) : Tree :=
  applyWrites (v.attachments.map (fun a => .put (.attachment a.1) (.bytes a.2)))
    (applyWrites (.put .database (.bytes v.database) :: scatter p) [])

theorem restored_full : (stagedFrom [] (restoreWrites v c)).full =
    saveConfig c (stagedData v c.provisioning) := by
  change applyWrites (restoreWrites v c) [] = _
  unfold restoreWrites
  rw [applyWrites_append, applyWrites_append]
  rfl

/-- A tree staged from a snapshot is the whole new vault. -/
theorem restored_whole :
    Whole sharePaths c v (saveConfig c (stagedData v c.provisioning)) := by
  have hdata (path : Path) (hpath : ∀ name, path ≠ .attachment name) :
      fileAt (stagedData v c.provisioning) path =
        fileAt (applyWrites (.put .database (.bytes v.database) :: scatter c.provisioning) [])
          path := by
    refine fileAt_untouched fun w hw heq => ?_
    obtain ⟨a, _, rfl⟩ := List.mem_map.mp hw
    exact hpath a.1 heq.symm
  refine ⟨fileAt_saveConfig, fun path hpath => ?_, ?_, fun a ha => ?_⟩
  · have hne : path ≠ .config := by rintro rfl; exact absurd hpath (by decide)
    have hname (name : String) : path ≠ .attachment name := by
      rintro rfl
      simp [sharePaths] at hpath
    rw [fileAt_saveConfig_other hne, hdata path hname]
    exact scatter_share hpath
  · rw [fileAt_saveConfig_other (by decide), hdata .database (by simp)]
    exact scatter_other (by decide)
  · rw [fileAt_saveConfig_other (by simp)]
    exact attachment_written v.distinct ha

end Trees

end SecureVault
