import CryptoPigeon.NativeVault
import CryptoPigeon.DesktopPasswordChange

/-! # Password changes of the Android vault

A written journal makes the next construction install the stage, whose client share nobody
has, so a failing change is harmless only before the journal or with the stage wholly
removed again. A new backup that is withdrawn leaves the vault in step with the old one. -/
namespace AndroidPasswordChange

open FaultyProgram VaultTree PasswordChange NativeVault
open SecureVault (versionOf advance)
open AndroidCommitJournal (Journal Fresh recoverCommit noRecoveryFaults)

def viewOf (s : State) : View :=
  ⟨s.files.root, s.memory, s.unlocked, s.oldRecord, s.newRecord, s.held⟩

/-- The constructor throws if its recovery does. -/
def restart (s : State) : State :=
  match recoverCommit noRecoveryFaults s.files with
  | .returned _ t => { s with files := t, memory := t.root.bind configOf, unlocked := false }
  | .threw t => { s with files := t, memory := none, unlocked := false }
  | .crashed t => { s with files := t, memory := none, unlocked := false }

/-- A locked vault is opened for a later change. -/
def opened (s : State) : State :=
  match s.unlocked, s.memory with
  | false, some c => { s with memory := some ((viewOf s).reopened c), unlocked := true }
  | _, _ => s

/-- A later change without faults, with the names it draws, returns. -/
def Retries (again : Journal) (s : State) : Prop :=
  (changePassword again noFaults (opened s)).Returned

/-- No stage is journalled, and the recovery name of the later change is free. -/
structure Sound (again : Journal) (s : State) : Prop where
  quiet : ∀ j, s.files.journal = some j → s.files.stages j.stage = none
  free : s.files.recoveries again.recovery = none

/-- The process does not outlive a change that fails with the stage there. -/
def Dies (F : Faults) (fault : Fault) : Prop :=
  fault.Crashes ∨ F.cleanup.Crashes ∨ (F.cleanup = .none ∧ F.deleteDeviceKey.Crashes)

def Commits (F : Faults) : Prop :=
  F.recovery.readJournal = .none ∧ F.recovery.moveAside = .none ∧ F.recovery.install = .none ∧
    F.recovery.deleteJournal = .none ∧ F.load = .none ∧ F.afterCommit = .none

/-- With an external seventh share: the change succeeds, or the journal is not written, or
the stage is wholly removed before anything is moved. `d` is the configuration on disk and
`c` the one in memory. -/
def ExternalHarmless (d c : Config) (F : Faults) : Prop :=
  if F.prepare ≠ .none then F.prepare.Crashes ∨ c = d
  else if F.stage ≠ .none then Dies F F.stage ∨ c = d
  else if F.close ≠ .none then Dies F F.close ∨ c = d
  else if ¬F.writeJournal.TookPlace then Dies F F.writeJournal ∨ c = d
  else if F.writeJournal ≠ .none then False
  else if F.recovery.readJournal.Throws ∨
      (F.recovery.readJournal = .none ∧ F.recovery.moveAside.Throws) then
    F.cleanup = .none ∧ (F.deleteDeviceKey.Crashes ∨ c = d)
  else if F.recovery.readJournal = .none ∧ F.recovery.moveAside = .none ∧
      F.recovery.install.Throws then
    F.cleanup = .none ∧ F.deleteDeviceKey.Crashes
  else Commits F

/-- With the seventh share at the relay: the change succeeds, or the upload of the new
backup is not carried out or withdrawn, nor that of the old vault without its answer, nor
its version kept in memory only. -/
def CloudHarmless (s : State) (d c : Config) (F : Faults) : Prop :=
  if F.prepare ≠ .none then F.prepare.Crashes ∨ c = d
  else if F.download ≠ .none ∨ s.newRecord ≠ none then F.download.Crashes ∨ c = d
  else if c.backupVersion ≠ versionOf s.oldRecord ∨ ¬F.sync.Applied then F.sync.Crashes ∨ c = d
  else if F.sync ≠ .none then F.sync.Crashes
  else if F.save ≠ .none then F.save.Crashes ∨ advance c = d
  else if F.stage ≠ .none then True
  else if F.upload ≠ .none then ¬F.upload.Applied
  else if F.saveStaged ≠ .none then False
  else if F.deleteOld ≠ .none then
    F.deleteOld.Throws ∧ ¬F.deleteOld.Applied ∧ F.deleteNew.Applied
  else F.close = .none ∧ F.writeJournal = .none ∧ Commits F

def Harmless (s : State) (d c : Config) (F : Faults) : Prop :=
  if Relayed c then CloudHarmless s d c F else ExternalHarmless d c F

section Decidability

variable (s : State) (d c : Config) (F : Faults)

instance (fault : Fault) : Decidable (Dies F fault) := inferInstanceAs (Decidable (_ ∨ _))

instance : Decidable (Commits F) := inferInstanceAs (Decidable (_ ∧ _))

instance : Decidable (ExternalHarmless d c F) := by
  delta ExternalHarmless
  infer_instance

instance : Decidable (CloudHarmless s d c F) := by
  delta CloudHarmless
  infer_instance

instance : Decidable (Harmless s d c F) := inferInstanceAs (Decidable (ite _ _ _))

end Decidability

section Recovery

open AndroidCommitJournal

variable {s : AndroidCommitJournal.State} {j names : Journal} {f : RecoveryFaults}

/-- A recovery that finds the tree at the root and no stage only drops the journal. -/
theorem recoverCommit_keeps (hj : s.journal = some j) (hstage : s.stages j.stage = none)
    (hroot : s.root.isSome) :
    recoverCommit noRecoveryFaults s = .returned () (deleteJournal s) := by
  simp [recoverCommit, placeTrees, rollBack, noRecoveryFaults, bind_bind, hj, hstage, hroot]

theorem recoverCommit_installs (hj : s.journal = some j) (hstage : (s.stages j.stage).isSome)
    (hfree : s.root.isSome → s.recoveries j.recovery = none) :
    recoverCommit noRecoveryFaults s =
      .returned () (deleteJournal (installStage j.stage
        (if s.root.isSome then moveAside j.recovery s else s))) := by
  cases hroot : s.root with
  | some t =>
    have hold := hfree (by rw [hroot]; rfl)
    simp [recoverCommit, placeTrees, makeRoom, install, noRecoveryFaults, bind_bind, hj, hstage,
      hroot, hold, moveAside]
  | none =>
    simp [recoverCommit, placeTrees, makeRoom, install, noRecoveryFaults, bind_bind, hj, hstage,
      hroot]

theorem recoverCommit_restores (hj : s.journal = some j) (hstage : s.stages j.stage = none)
    (hroot : s.root = none) (hold : (s.recoveries j.recovery).isSome) :
    recoverCommit noRecoveryFaults s =
      .returned () (deleteJournal (moveBack j.recovery s)) := by
  have hsome : s.recoveries j.recovery ≠ none := Option.isSome_iff_ne_none.mp hold
  simp [recoverCommit, placeTrees, rollBack, noRecoveryFaults, bind_bind, hj, hstage, hroot, hsome]

end Recovery

section Commit

open AndroidCommitJournal

variable {names : Journal} {F : OperationFaults} {s : AndroidCommitJournal.State}

/-! The states a commit passes through from a vault `s` that is staged. -/

def cleared (names : Journal) (s : AndroidCommitJournal.State) : AndroidCommitJournal.State :=
  AndroidCommitJournal.moveAside names.recovery (writeJournal names s)

def installed (names : Journal) (s : AndroidCommitJournal.State) : AndroidCommitJournal.State :=
  AndroidCommitJournal.installStage names.stage (cleared names s)

inductive CommitThrew (names : Journal) (F : OperationFaults) (s : AndroidCommitJournal.State) :
    AndroidCommitJournal.State → Prop
  | unwritten : F.writeJournal.Throws → CommitThrew names F s s
  | written : F.writeJournal = .none → F.recovery.readJournal.Throws ∨
      (F.recovery.readJournal = .none ∧ F.recovery.moveAside.Throws) →
      CommitThrew names F s (writeJournal names s)
  | cleared : F.writeJournal = .none → F.recovery.readJournal = .none →
      F.recovery.moveAside = .none → F.recovery.install.Throws →
      CommitThrew names F s (cleared names s)
  | installed : F.writeJournal = .none → F.recovery.readJournal = .none →
      F.recovery.moveAside = .none → F.recovery.install = .none →
      F.recovery.deleteJournal.Throws → CommitThrew names F s (installed names s)

inductive CommitCrashed (names : Journal) (F : OperationFaults) (s : AndroidCommitJournal.State) :
    AndroidCommitJournal.State → Prop
  | unwritten : F.writeJournal.Crashes → ¬F.writeJournal.TookPlace → CommitCrashed names F s s
  | written : (F.writeJournal.Crashes ∧ F.writeJournal.TookPlace) ∨ (F.writeJournal = .none ∧
      (F.recovery.readJournal.Crashes ∨
        (F.recovery.readJournal = .none ∧ F.recovery.moveAside.Crashes))) →
      CommitCrashed names F s (writeJournal names s)
  | cleared : F.writeJournal = .none → F.recovery.readJournal = .none →
      F.recovery.moveAside.Crashes ∨
        (F.recovery.moveAside = .none ∧ F.recovery.install.Crashes) →
      CommitCrashed names F s (cleared names s)
  | installed : F.writeJournal = .none → F.recovery.readJournal = .none →
      F.recovery.moveAside = .none →
      F.recovery.install.Crashes ∨
        (F.recovery.install = .none ∧ F.recovery.deleteJournal.Crashes) →
      CommitCrashed names F s (installed names s)
  | finished : F.writeJournal = .none → F.recovery.readJournal = .none →
      F.recovery.moveAside = .none → F.recovery.install = .none →
      F.recovery.deleteJournal.Crashes → CommitCrashed names F s (deleteJournal (installed names s))

/-- Where a commit of a whole stage over a root can end. -/
theorem commit_spec (hroot : s.root.isSome) (hstage : (s.stages names.stage).isSome)
    (hfree : s.recoveries names.recovery = none) :
    Triple (fun t => t = s) (commit names F)
      (fun _ t => (F.writeJournal = .none ∧ F.recovery.readJournal = .none ∧
        F.recovery.moveAside = .none ∧ F.recovery.install = .none ∧
        F.recovery.deleteJournal = .none) ∧ t = deleteJournal (installed names s))
      (CommitThrew names F s) (CommitCrashed names F s) := by
  refine Triple.bind (Q := fun _ t => F.writeJournal = .none ∧ t = writeJournal names s)
    (Triple.atomically_cases (fun hw t ht => ⟨hw, ht ▸ rfl⟩) (fun hw t ht => ht ▸ .unwritten hw)
      (fun hw hnot t ht => ht ▸ .unwritten hw hnot)
      (fun hw htook t ht => ht ▸ .written (.inl ⟨hw, htook⟩))) fun _ => ?_
  refine Triple.assuming fun hw => Triple.read fun r hr => ?_
  subst hr
  refine Triple.bind (Q := fun _ t => F.recovery.readJournal = .none ∧ t = writeJournal names s)
    (Triple.attempt_cases (fun hread t ht => ⟨hread, ht.1⟩)
      (fun hread t ht => ht.1 ▸ .written hw (.inl hread))
      (fun hread t ht => ht.1 ▸ .written (.inr ⟨hw, .inl hread⟩))) fun _ => ?_
  refine Triple.assuming fun hread => Triple.bind (Q := fun _ t => (F.recovery.moveAside = .none ∧
    F.recovery.install = .none) ∧ t = installed names s) (Triple.read fun r hr => ?_) fun _ => ?_
  · subst hr
    rw [if_pos (show ((writeJournal names s).stages names.stage).isSome = true from hstage)]
    refine Triple.bind (Q := fun _ t => F.recovery.moveAside = .none ∧ t = cleared names s)
      (Triple.read fun r hr => ?_) fun _ => Triple.assuming fun hmove => Triple.read fun r hr => ?_
    · rw [hr.1, if_pos (show (writeJournal names s).root.isSome = true from hroot),
        if_neg (by simp [writeJournal, hfree])]
      refine Triple.atomically_cases (fun hmove t ht => ⟨hmove, ?_⟩) (fun hmove t ht => ?_)
        (fun hmove _ t ht => ?_) (fun hmove _ t ht => ?_)
      · rw [ht.1.1]
        rfl
      · rw [ht.1.1]
        exact .written hw (.inr ⟨hread, hmove⟩)
      · rw [ht.1.1]
        exact .written (.inr ⟨hw, .inr ⟨hread, hmove⟩⟩)
      · rw [ht.1.1]
        exact .cleared hw hread (.inl hmove)
    · subst hr
      rw [if_neg (by simp [cleared, AndroidCommitJournal.moveAside])]
      refine Triple.atomically_cases (fun hinstall t ht => ⟨⟨hmove, hinstall⟩, ?_⟩)
        (fun hinstall t ht => ?_) (fun hinstall _ t ht => ?_) (fun hinstall _ t ht => ?_)
      · rw [ht.1]
        rfl
      · rw [ht.1]
        exact .cleared hw hread hmove hinstall
      · rw [ht.1]
        exact .cleared hw hread (.inr ⟨hmove, hinstall⟩)
      · rw [ht.1]
        exact .installed hw hread hmove (.inl hinstall)
  · refine Triple.assuming fun hboth => ?_
    obtain ⟨hmove, hinstall⟩ := hboth
    exact Triple.atomically_cases
      (fun hdelete t ht => ⟨⟨hw, hread, hmove, hinstall, hdelete⟩, ht ▸ rfl⟩)
      (fun hdelete t ht => ht ▸ .installed hw hread hmove hinstall hdelete)
      (fun hdelete _ t ht => ht ▸ .installed hw hread hmove (.inr ⟨hinstall, hdelete⟩))
      (fun hdelete _ t ht => ht ▸ .finished hw hread hmove hinstall hdelete)

end Commit

section Retrying

variable {names : Journal} {s : State} {c : Config} {t : Tree}

/-- What a change without faults needs of the directories. -/
structure Able (names : Journal) (s : State) : Prop where
  root : s.files.root.isSome
  free : s.files.recoveries names.recovery = none

def AbleStaged (names : Journal) (s : State) : Prop :=
  Able names s ∧ (s.files.stages names.stage).isSome

theorem copyAndScatter_returns {ws : List Write} {I : State → Prop} (hI : ∀ s, I s → Able names s)
    (hkeep : ∀ s x, I s → I { s with files := AndroidCommitJournal.setStage names.stage x s.files }) :
    Triple I (copyAndScatter names ws noFaults)
      (fun _ s => I s ∧ (s.files.stages names.stage).isSome) (fun _ => False) (fun _ => False) := by
  refine Triple.read fun r hr => ?_
  obtain ⟨t, hroot⟩ := Option.isSome_iff_exists.mp (hI r hr).root
  rw [hroot]
  refine Triple.within fun s hs => Triple.gradually (fun _ u hu => ⟨?_, ?_⟩) nofun nofun
  · rw [hu]
    exact hkeep s _ hs.1
  · simp [AndroidCommitJournal.setStage]

theorem attempt_returns {I : State → Prop} :
    Triple I (attempt .none) (fun _ => I) (fun _ => False) (fun _ => False) :=
  fun _ hs => hs

theorem swapTrees_returns :
    Triple (AbleStaged names) (swapTrees names noFaults) (fun _ _ => True) (fun _ => False)
      (fun _ => False) := by
  refine Triple.bind (attempt_returns (I := AbleStaged names)) fun _ => ?_
  refine Triple.bind (Q := fun _ => AbleStaged names) (Triple.update fun _ hs =>
    ⟨⟨hs.1.root, hs.1.free⟩, hs.2⟩) fun _ => ?_
  refine Triple.bind (Q := fun _ _ => True) (Triple.within fun s hs => ?_) fun _ => ?_
  · refine (commit_spec hs.1.root hs.2 hs.1.free).consequence (fun _ h => h) (fun _ _ _ => trivial)
      (fun u hu => ?_) fun u hu => ?_
    · cases hu with
      | unwritten hw => exact hw
      | written _ hr => exact hr.elim id And.right
      | cleared _ _ _ hi => exact hi
      | installed _ _ _ _ hd => exact hd
    · cases hu with
      | unwritten hw => exact hw
      | written hw => exact hw.elim And.left fun h => h.2.elim id And.right
      | cleared _ _ h => exact h.elim id And.right
      | installed _ _ _ h => exact h.elim id And.right
      | finished _ _ _ _ hd => exact hd
  refine Triple.bind (Q := fun _ _ => True) (Triple.update fun _ _ => trivial) fun _ => ?_
  refine Triple.bind (attempt_returns (I := fun _ => True)) fun _ => ?_
  refine Triple.bind (Q := fun _ _ => True) (Triple.update fun _ _ => trivial) fun _ => ?_
  exact Triple.bind (attempt_returns (I := fun _ => True)) fun _ => Triple.update fun _ _ => trivial

theorem changeExternal_returns :
    Triple (Able names) (changeExternal names noFaults) (fun _ _ => True) (fun _ => False)
      (fun _ => False) :=
  Triple.bind (copyAndScatter_returns (fun _ h => h) fun _ _ h => ⟨h.root, h.free⟩) fun _ =>
    swapTrees_returns

/-- The relay takes the next version, and nothing is under the new password. -/
structure InStep (names : Journal) (c : Config) (s : State) : Prop where
  able : Able names s
  newRecord : s.newRecord = none
  version : c.backupVersion = versionOf s.oldRecord

/-- The relay has the version after the one the change began with. -/
structure Advanced (names : Journal) (c : Config) (s : State) : Prop where
  able : Able names s
  newRecord : s.newRecord = none
  oldRecord : s.oldRecord = some ⟨c.provisioning, c.backupVersion + 1⟩

theorem syncBackup_returns :
    Triple (InStep names c) (syncBackup c noFaults) (fun _ => Advanced names c) (fun _ => False)
      (fun _ => False) := by
  refine Triple.within fun s hs => ?_
  have hversion := hs.version
  refine ((syncBackup_spec (w := PasswordChange.viewOf (session s)) (fun hv _ _ _ => ?_) nofun nofun
    nofun nofun nofun).weaken fun _ u hu => ?_).strengthen fun u hu => congrArg _ hu
  · exact hv.elim (fun hne => hne hversion) fun hnot => hnot trivial
  · have hroot : u.root = s.files.root.map (saveConfig (advance c)) := congrArg View.root hu.2
    refine ⟨⟨?_, hs.able.free⟩, (congrArg View.newRecord hu.2).trans hs.newRecord,
      congrArg View.oldRecord hu.2⟩
    change u.root.isSome
    rw [hroot, Option.isSome_map]
    exact hs.able.root

theorem requireUnused_returns :
    Triple (InStep names c) (requireUnused .none) (fun _ => InStep names c) (fun _ => False)
      (fun _ => False) := by
  refine Triple.within fun s hs => ?_
  have hnew (u : SecureVault.State) (hu : u = session s) : u.newRecord = none := by
    rw [hu]
    exact hs.newRecord
  refine (SecureVault.requireUnused_spec hnew (fun h => ?_) nofun).weaken fun _ u hu => ?_
  · exact (h.elim id fun h => h.2 rfl).elim
  · rw [hu.2]
    exact ⟨⟨hs.able.root, hs.able.free⟩, hs.newRecord, hs.version⟩

theorem changeCloud_returns :
    Triple (InStep names c) (changeCloud names c noFaults) (fun _ _ => True) (fun _ => False)
      (fun _ => False) := by
  refine Triple.bind requireUnused_returns fun _ => Triple.bind syncBackup_returns fun _ => ?_
  refine Triple.bind (copyAndScatter_returns (fun _ h => h.able) fun _ _ h =>
    ⟨⟨h.able.root, h.able.free⟩, h.newRecord, h.oldRecord⟩) fun _ => ?_
  refine Triple.bind (Q := fun _ s => AbleStaged names s ∧
    s.oldRecord = some ⟨c.provisioning, c.backupVersion + 1⟩) ?_ fun _ => ?_
  · refine Triple.bind (Q := fun _ s => AbleStaged names s ∧
      s.oldRecord = some ⟨c.provisioning, c.backupVersion + 1⟩) (Triple.within fun s hs => ?_) fun _ => ?_
    · refine (SecureVault.putNew_spec (R := fun u => u = { session s with newRecord := some ⟨.next, 1⟩ })
        (fun u hu => ?_) (fun u hu => by rw [hu]) (fun _ h => absurd h Fault.not_none_throws)
        (fun _ h => absurd h Fault.not_none_throws) (fun _ h => absurd h Fault.not_none_crashes)
        fun _ h => absurd h Fault.not_none_crashes).weaken fun _ u hu => ?_
      · rw [hu]
        exact hs.1.newRecord
      · rw [hu.2]
        exact ⟨⟨⟨hs.1.able.root, hs.1.able.free⟩, hs.2⟩, hs.1.oldRecord⟩
    refine Triple.bind (Q := fun _ s => AbleStaged names s ∧
      s.oldRecord = some ⟨c.provisioning, c.backupVersion + 1⟩) (Triple.within fun s hs => ?_) fun _ => ?_
    · refine Triple.atomically_cases (fun _ u hu => ?_) (fun h => h.elim) (fun h => h.elim)
        fun h => h.elim
      rw [hu]
      refine ⟨⟨⟨hs.1.1.root, hs.1.1.free⟩, ?_⟩, hs.2⟩
      have hstage := hs.1.2
      simpa [saveStage, AndroidCommitJournal.setStage] using hstage
    · exact Triple.within fun s hs => Triple.update fun u hu => by
        rw [hu]
        exact ⟨⟨⟨hs.1.1.root, hs.1.1.free⟩, hs.1.2⟩, hs.2⟩
  refine Triple.bind (Q := fun _ => AbleStaged names) (Triple.orElse (I := fun _ => False)
    (Triple.bind (Q := fun _ => AbleStaged names) (Triple.within fun s hs => ?_) fun _ => ?_)
    fun _ h => h.elim) fun _ => swapTrees_returns
  · refine (SecureVault.deleteOld_spec (p := c.provisioning)
      (R := fun u => u = { session s with oldRecord := none })
      (fun u hu => ?_) (fun u hu => by rw [hu]) (fun _ h => absurd h Fault.not_none_throws)
        (fun _ h => absurd h Fault.not_none_throws) (fun _ h => absurd h Fault.not_none_crashes)
        fun _ h => absurd h Fault.not_none_crashes).weaken fun _ u hu => ?_
    · rw [hu]
      exact hs.2
    · rw [hu.2]
      exact ⟨⟨hs.1.1.root, hs.1.1.free⟩, hs.1.2⟩
  · exact Triple.within fun s hs => Triple.update fun u hu => by
      rw [hu]
      exact ⟨⟨hs.1.root, hs.1.free⟩, hs.2⟩

theorem changeCloud_refused (h : s.newRecord ≠ none ∨ c.backupVersion ≠ versionOf s.oldRecord) :
    ¬(changeCloud names c noFaults s).Returned := by
  have hunused : Triple (fun u => u = s) (requireUnused .none)
      (fun _ u => s.newRecord = none ∧ session u = session s) (fun _ => True) (fun _ => True) :=
    Triple.within fun u hu => (SecureVault.requireUnused_spec (fun t ht => congrArg _ ht)
      (fun _ _ _ => trivial) (fun _ _ _ => trivial)).weaken fun _ t ht =>
        ⟨by rw [← hu]; exact ht.1.2, by rw [ht.2, hu]; rfl⟩
  refine Triple.not_returns (P := fun u => u = s) (Triple.bind hunused fun _ =>
    Triple.assuming fun hnew => Triple.bind (Q := fun _ _ => False) (Triple.within fun u hu => ?_)
      fun _ _ h => h.elim) rfl
  have hversion : c.backupVersion ≠ versionOf s.oldRecord := h.resolve_left fun hne => hne hnew
  refine ((syncBackup_spec (w := PasswordChange.viewOf (session s)) (fun _ _ _ _ => trivial)
    (fun _ _ _ _ => trivial) (fun _ _ _ _ _ => trivial) (fun _ _ _ _ _ => trivial)
    (fun _ _ _ _ => trivial) fun _ _ _ _ => trivial).weaken fun _ t ht =>
      hversion ht.1.1).strengthen fun t ht => ?_
  rw [ht, hu]

theorem release_returns (s : State) : (release names noFaults s).Returned := by
  suffices Triple (fun _ => True) (release names noFaults) (fun _ _ => True) (fun _ => False)
      (fun _ => False) from this.returns trivial
  refine Triple.within fun s _ => Triple.read fun r _ => ?_
  split
  · exact Triple.bind (Q := fun _ _ => True) (Triple.gradually (fun _ _ _ => trivial) nofun nofun)
      fun _ => fun _ _ => trivial
  · exact Triple.done fun _ _ => trivial

/-- The `finally` block and the new shares fail no change. -/
theorem body_returns_iff (p : Program State Unit) :
    ((do
      onFiles (update (AndroidCommitJournal.setFlags false false))
      andFinally p (release names noFaults)
      update handOver : Program State Unit) s).Returned ↔
      (p { s with files := AndroidCommitJournal.setFlags false false s.files }).Returned :=
  (returned_bind_update handOver
    { s with files := AndroidCommitJournal.setFlags false false s.files } _).trans
      (andFinally_returned_iff _ release_returns)

/-- A change without faults from an unlocked vault. -/
theorem change_returns_iff (hroot : s.files.root = some t) (hmemory : s.memory = some c)
    (hunlocked : s.unlocked = true) (hfree : s.files.recoveries names.recovery = none) :
    (changePassword names noFaults s).Returned ↔
      (Relayed c → s.newRecord = none ∧ c.backupVersion = versionOf s.oldRecord) := by
  refine (body_returns_iff _).trans ?_
  generalize hstart : ({ s with files := AndroidCommitJournal.setFlags false false s.files } :
    State) = u
  have hmemory : u.memory = some c := by rw [← hstart]; exact hmemory
  have hunlocked : ¬u.unlocked = false := by simp [← hstart, hunlocked]
  have hable : Able names u := by
    rw [← hstart]
    refine ⟨?_, hfree⟩
    change s.files.root.isSome
    rw [hroot]
    rfl
  have hrecords : s.newRecord = u.newRecord ∧ s.oldRecord = u.oldRecord := by simp [← hstart]
  rw [show noFaults.prepare = .none from rfl, attempt_none_bind, read_bind, hmemory]
  dsimp only
  rw [if_neg hunlocked, hrecords.1, hrecords.2]
  by_cases hrelayed : Relayed c
  · rw [if_neg hrelayed]
    refine ⟨fun h _ => ?_, fun h => changeCloud_returns.returns ⟨hable, (h hrelayed).1, (h hrelayed).2⟩⟩
    by_contra hnot
    exact changeCloud_refused (not_and_or.mp hnot) h
  · rw [if_pos (not_not.mp hrelayed)]
    exact iff_of_true (changeExternal_returns.returns hable) fun h => absurd h hrelayed

/-- A vault that is opened again knows the version of its backup. -/
theorem retries_iff (hroot : s.files.root = some t) (hmemory : s.memory = some c)
    (hfree : s.files.recoveries names.recovery = none) :
    Retries names s ↔ (viewOf s).Unobstructed c := by
  unfold Retries opened View.Unobstructed
  rw [hmemory]
  cases hunlocked : s.unlocked with
  | true => simpa [viewOf, hunlocked] using change_returns_iff hroot hmemory hunlocked hfree
  | false =>
    refine (change_returns_iff
      (s := { s with memory := some ((viewOf s).reopened c), unlocked := true }) hroot rfl rfl
        hfree).trans ?_
    cases hexternal : c.external with
    | true => simp [View.reopened, Relayed, hexternal]
    | false => simp [View.reopened, Relayed, hexternal, viewOf, hunlocked]

/-- A later change first asks whether the new password has a backup. -/
theorem retries_unused (hmemory : s.memory = some c) (hrelayed : Relayed c) (h : Retries names s) :
    s.newRecord = none := by
  have hused (u : State) (m : Config) (hm : u.memory = some m) (hm' : Relayed m)
      (hu : (changePassword names noFaults u).Returned) : u.newRecord = none := by
    by_contra hnew
    refine absurd ((body_returns_iff _).mp hu) ?_
    rw [show noFaults.prepare = .none from rfl, attempt_none_bind, read_bind]
    dsimp only
    rw [hm]
    dsimp only
    split
    · exact id
    · rw [if_neg hm']
      exact changeCloud_refused (.inl hnew)
  obtain ⟨m, hm, hm', hrecord⟩ : ∃ m, (opened s).memory = some m ∧ Relayed m ∧
      (opened s).newRecord = s.newRecord := by
    unfold opened
    rw [hmemory]
    cases s.unlocked with
    | true => exact ⟨c, hmemory, hrelayed, rfl⟩
    | false => exact ⟨_, rfl, View.relayed_reopened hrelayed, rfl⟩
  rw [← hrecord]
  exact hused (opened s) m hm hm' h

end Retrying

theorem restart_keeps {s : State}
    (hquiet : ∀ j, s.files.journal = some j → s.files.stages j.stage = none)
    (hroot : s.files.root.isSome) :
    ∃ t, recoverCommit noRecoveryFaults s.files = .returned () t ∧ t.root = s.files.root ∧
      t.recoveries = s.files.recoveries ∧ t.journal = none := by
  cases hj : s.files.journal with
  | none => exact ⟨s.files, AndroidCommitJournal.recoverCommit_idle _ hj, rfl, rfl, hj⟩
  | some j => exact ⟨_, recoverCommit_keeps hj (hquiet j hj) hroot, rfl, rfl, rfl⟩

def android (again : Journal) : Vault State where
  shares := sharePaths
  view := viewOf
  Sound := Sound again
  restart := restart
  Retries := Retries again
  sound_restart s hs hroot := by
    obtain ⟨t, hrun, _, hrecoveries, hj⟩ := restart_keeps hs.quiet hroot
    unfold restart
    rw [hrun]
    refine ⟨fun j h => ?_, (congrFun hrecoveries _).trans hs.free⟩
    cases hj.symm.trans h
  view_restart s hs hroot := by
    obtain ⟨t, hrun, ht, _⟩ := restart_keeps hs.quiet hroot
    unfold restart
    rw [hrun]
    simp [viewOf, View.restarted, ht]
  retries_iff _ _ _ hs hroot hmemory := retries_iff hroot hmemory hs.free
  unused _ _ := retries_unused

section Failures

variable {v : Snapshot} {names again : Journal} {s₀ s : State} {d c : Config} {F : Faults} {H : Prop}

/-- What a throw of the body leaves to the `finally` block. -/
def Closing (v : Snapshot) (names again : Journal) (s₀ : State) (F : Faults) (H : Prop) (s : State) :
    Prop :=
  (release names F s).Satisfies (fun _ t => ((android again).client v).Thrown s₀ t ↔ H)
    (fun t => ((android again).client v).Thrown s₀ t ↔ H)
    (fun t => ((android again).client v).Crashed s₀ t ↔ H)

/-- The block deletes nothing of a stage that is not there or has been uploaded. -/
def Kept (names : Journal) (s : State) : Prop :=
  s.files.stages names.stage = none ∨ s.files.uploaded = true

theorem release_kept (hkept : Kept names s) : release names F s = .returned () s := by
  have hguard : ¬((s.files.stages names.stage).isSome &&
      !(s.files.uploaded || s.files.oldDeleted)) = true := by
    rcases hkept with hnone | hup
    · simp [hnone]
    · simp [hup]
  unfold release onFiles within AndroidCommitJournal.releaseStage
  rw [read_bind, if_neg hguard]
  rfl

theorem closing_of_kept (hkept : Kept names s)
    (h : ((android again).client v).Thrown s₀ s ↔ H) : Closing v names again s₀ F H s := by
  unfold Closing
  rw [release_kept hkept]
  exact h

def withStage (names : Journal) (x : Option Tree) (s : State) : State :=
  { s with files := AndroidCommitJournal.setStage names.stage x s.files }

/-- Otherwise the stage is removed, perhaps in part, and then its device key. -/
theorem closing_of_removed (hflags : s.files.uploaded = false ∧ s.files.oldDeleted = false)
    (hstage : (s.files.stages names.stage).isSome)
    (hremoved : F.cleanup = .none → ¬F.deleteDeviceKey.Crashes →
      (((android again).client v).Thrown s₀ (withStage names none s) ↔ H))
    (hkey : F.cleanup = .none → F.deleteDeviceKey.Crashes →
      (((android again).client v).Crashed s₀ (withStage names none s) ↔ H))
    (hcut : ∀ n, F.cleanup = .throws n → (((android again).client v).Thrown s₀
      (withStage names ((s.files.stages names.stage).map (List.drop n)) s) ↔ H))
    (hdied : ∀ n, F.cleanup = .crashes n → (((android again).client v).Crashed s₀
      (withStage names ((s.files.stages names.stage).map (List.drop n)) s) ↔ H)) :
    Closing v names again s₀ F H s := by
  suffices Triple (fun u => u = s) (release names F)
      (fun _ t => ((android again).client v).Thrown s₀ t ↔ H)
      (fun t => ((android again).client v).Thrown s₀ t ↔ H)
      (fun t => ((android again).client v).Crashed s₀ t ↔ H) from this s rfl
  refine Triple.within fun u hu => Triple.read fun r hr => ?_
  subst hu
  subst hr
  rw [if_pos (by simp [hflags, hstage])]
  refine Triple.bind (Q := fun _ t => F.cleanup = .none ∧
    t = AndroidCommitJournal.setStage names.stage none u.files) (Triple.gradually
      (fun hnone t ht => ⟨hnone, by rw [ht.1]⟩) (fun n hf t ht => ?_) fun n hf t ht => ?_) fun _ => ?_
  · rw [ht.1]
    exact hcut n hf
  · rw [ht.1]
    exact hdied n hf
  · refine Triple.assuming fun hnone => Triple.attempt_cases (fun hk t ht => ?_) (fun hk t ht => ?_)
      fun hk t ht => ?_
    · rw [ht]
      exact hremoved hnone (by rw [hk]; exact id)
    · rw [ht]
      exact hremoved hnone hk.not_crashes
    · rw [ht]
      exact hkey hnone hk

theorem restart_of_run {t : AndroidCommitJournal.State}
    (h : recoverCommit noRecoveryFaults s.files = .returned () t) :
    restart s = { s with files := t, memory := t.root.bind configOf, unlocked := false } := by
  unfold restart
  rw [h]

/-- The directories before a commit: the stage is the operation's own. -/
structure Idle (names : Journal) (s : State) : Prop where
  unlisted : ∀ j, s.files.journal = some j → j.stage ≠ names.stage
  free : s.files.recoveries names.recovery = none
  flags : s.files.uploaded = false ∧ s.files.oldDeleted = false

theorem Idle.withStage (h : Idle names s) (x : Option Tree) : Idle names (withStage names x s) :=
  ⟨h.unlisted, h.free, h.flags⟩

theorem sound_withStage (hs : Sound again s)
    (hunlisted : ∀ j, s.files.journal = some j → j.stage ≠ names.stage) (x : Option Tree) :
    Sound again (withStage names x s) := by
  refine ⟨fun j hj => ?_, hs.free⟩
  have hne := hunlisted j hj
  simpa [AndroidPasswordChange.withStage, AndroidCommitJournal.setStage, hne] using hs.quiet j hj

theorem Undone.withStage (hidle : Idle names s) (hs : Undone (android again) s₀ s) (x : Option Tree) :
    Undone (android again) s₀ (withStage names x s) :=
  ⟨sound_withStage hs.1 hidle.unlisted x, hs.2⟩

/-- From here on every failure is fatal and nothing is cleaned up. -/
theorem attempt_fatal {I : State → Prop} {fault : Fault}
    (hfatal : ∀ s, I s → Fatal (android again) v s₀ s ∧ Kept names s) (hH : H → fault = .none) :
    Triple I (attempt fault) (fun _ s => fault = .none ∧ I s) (Closing v names again s₀ F H)
      (fun s => ((android again).client v).Crashed s₀ s ↔ H) :=
  Triple.attempt_cases (fun hnone _ h => ⟨hnone, h⟩)
    (fun ht s h => closing_of_kept (hfatal s h).2
      ((hfatal s h).1.thrown_iff fun hh => ht.ne_none (hH hh)))
    (fun hc s h => (hfatal s h).1.crashed_iff fun hh => hc.ne_none (hH hh))

/-- `initialize` and the opening of the new vault. -/
theorem reopen_fatal {I : State → Prop}
    (hfatal : ∀ s, I s → Fatal (android again) v s₀ s ∧ Kept names s)
    (hforget : ∀ s, I s → I (forget s)) (hread : ∀ s, I s → I (readConfig s))
    (hunlock : ∀ s, I s → I (unlock s)) (hH : H ↔ F.load = .none ∧ F.afterCommit = .none) :
    Triple I
      (do
        update forget
        attempt F.load
        update readConfig
        attempt F.afterCommit
        update unlock)
      (fun _ s => H ∧ Kept names s) (Closing v names again s₀ F H)
      (fun s => ((android again).client v).Crashed s₀ s ↔ H) := by
  refine Triple.bind (Q := fun _ => I) (Triple.update hforget) fun _ => ?_
  refine Triple.bind (attempt_fatal hfatal fun h => (hH.mp h).1) fun _ => ?_
  refine Triple.assuming fun hload => Triple.bind (Q := fun _ => I) (Triple.update hread) fun _ => ?_
  refine Triple.bind (attempt_fatal hfatal fun h => (hH.mp h).2) fun _ => ?_
  exact Triple.assuming fun hafter => Triple.update fun s hs =>
    ⟨hH.mpr ⟨hload, hafter⟩, (hfatal _ (hunlock s hs)).2⟩

/-- The change recovers as its body does, the `finally` block included. -/
theorem change_recovers {Pre : State → Prop} {p : Program State Unit}
    (hbody : Triple Pre p (fun _ s => H ∧ Kept names s) (Closing v names again s₀ F H)
      (fun s => ((android again).client v).Crashed s₀ s ↔ H)) (hs : Pre s) :
    ((android again).client v).Recovers s₀
      ((do andFinally p (release names F); update handOver : Program State Unit) s) ↔ H := by
  have hclosed : Triple Pre (andFinally p (release names F)) (fun _ _ => H)
      (fun s => ((android again).client v).Thrown s₀ s ↔ H)
      (fun s => ((android again).client v).Crashed s₀ s ↔ H) := by
    refine Triple.andFinally hbody (fun _ t ht => ?_) fun _ ht => ht
    rw [release_kept ht.2]
    exact ht.1
  exact Client.recovers_iff _ (Triple.bind hclosed fun _ => Triple.update fun _ h => h) hs

/-- A throw with a stage of an unwritten journal. -/
theorem staged_undone_closing (h : (android again).Unlocked v d c s₀)
    (hs : Undone (android again) s₀ s) (hidle : Idle names s)
    (hstage : (s.files.stages names.stage).isSome)
    (hH : H ↔ F.cleanup.Crashes ∨ (F.cleanup = .none ∧ F.deleteDeviceKey.Crashes) ∨ c = d) :
    Closing v names again s₀ F H s := by
  have hundone (x : Option Tree) := Undone.withStage hidle hs x
  refine closing_of_removed hidle.flags hstage (fun hnone hkey => ?_) (fun hnone hkey => ?_)
    (fun n hf => ?_) (fun n hf => ?_)
  · rw [hH, (hundone none).thrown_iff h]
    simp [hnone, hkey]
  · exact iff_of_true ((hundone none).crashed h) (hH.mpr (.inr (.inl ⟨hnone, hkey⟩)))
  · rw [hH, (hundone _).thrown_iff h]
    simp [hf, Fault.Crashes]
  · exact iff_of_true ((hundone _).crashed h) (hH.mpr (.inl (by rw [hf]; trivial)))

end Failures

section External

variable {v : Snapshot} {names again : Journal} {s₀ s : State} {d c : Config} {F : Faults} {H : Prop}

/-- Trees of the new split only, or without a configuration. -/
def OfNext (x : Option Tree) : Prop :=
  ∀ t m, x = some t → configOf t = some m → m.provisioning = .next

/-- The old vault with the stage of the new split whole beside it. -/
structure ReadyToCommit (names again : Journal) (s₀ s : State) : Prop where
  undone : Undone (android again) s₀ s
  idle : Idle names s
  stage : ∃ u, s.files.stages names.stage = some (saveConfig ⟨.next, true, false, 0⟩ u)

/-- What is cut off a stage leaves no configuration of another split. -/
theorem ofNext_drop {u : Tree} (n : Nat) :
    OfNext ((some (saveConfig ⟨.next, true, false, 0⟩ u)).map (List.drop n)) := by
  intro t m ht hm
  obtain rfl := Option.some.inj ht
  cases n with
  | zero =>
    rw [List.drop_zero, configOf_saveConfig] at hm
    obtain rfl := Option.some.inj hm
    rfl
  | succ n =>
    rw [configOf, fileAt_drop_saveConfig] at hm
    cases hm

/-- The state of a commit inside the whole state. -/
def atCommit (f : AndroidCommitJournal.State → AndroidCommitJournal.State) (s : State) : State :=
  { s with files := f s.files }

/-- Once the stage is journalled a restart installs whatever is left of it. -/
theorem journalled_lost {j : Journal} {r : State} {x : Option Tree} (hx : x.isSome) (hnext : OfNext x)
    (hunknown : .next ∉ r.held) (hj : r.files.journal = some j)
    (hstage : r.files.stages j.stage = x)
    (hfree : r.files.root.isSome → r.files.recoveries j.recovery = none) :
    ¬((android again).client v).Crashed s₀ r := by
  have hrun := recoverCommit_installs hj (by rw [hstage]; exact hx) hfree
  refine lost_not_recoverable (V := android again) (s := restart r) ⟨?_, ?_⟩
  · rw [restart_of_run hrun]
    intro t m ht hm
    refine hnext t m ?_ hm
    rw [← hstage, ← ht]
    change r.files.stages j.stage =
      (if r.files.root.isSome then AndroidCommitJournal.moveAside j.recovery r.files
        else r.files).stages j.stage
    split <;> rfl
  · rw [restart_of_run hrun]
    exact hunknown

theorem ReadyToCommit.unknown (h : (android again).Unlocked v d c s₀)
    (hs : ReadyToCommit names again s₀ s) : .next ∉ s.held := by
  rw [show s.held = s₀.held from congrArg View.held hs.undone.2]
  exact h.unknown

theorem ReadyToCommit.root (h : (android again).Unlocked v d c s₀)
    (hs : ReadyToCommit names again s₀ s) : s.files.root.isSome := by
  obtain ⟨t, hroot, _⟩ := (hs.undone.keeps h).root
  have hroot : s.files.root = some t := hroot
  rw [hroot]
  rfl

/-- A throw between the journal and the first rename. -/
theorem written_closing (h : (android again).Unlocked v d c s₀) (hs : ReadyToCommit names again s₀ s)
    (hH : H ↔ F.cleanup = .none ∧ (F.deleteDeviceKey.Crashes ∨ c = d)) :
    Closing v names again s₀ F H (atCommit (AndroidCommitJournal.writeJournal names) s) := by
  obtain ⟨u, hstage⟩ := hs.stage
  have hunknown : .next ∉ s.held := hs.unknown h
  have hundone : Undone (android again) s₀
      (withStage names none (atCommit (AndroidCommitJournal.writeJournal names) s)) := by
    refine ⟨⟨fun j hj => ?_, hs.undone.1.free⟩, hs.undone.2⟩
    obtain rfl := Option.some.inj hj
    simp [withStage, AndroidCommitJournal.setStage]
  have hlost (n : Nat) : ¬((android again).client v).Crashed s₀ (withStage names
      (((atCommit (AndroidCommitJournal.writeJournal names) s).files.stages names.stage).map
        (List.drop n)) (atCommit (AndroidCommitJournal.writeJournal names) s)) := by
    have hdrop := ofNext_drop (u := u) n
    rw [← hstage] at hdrop
    refine journalled_lost (j := names) ?_ hdrop hunknown rfl ?_ fun _ => hs.idle.free
    · rw [hstage]
      rfl
    · exact Function.update_self names.stage _ _
  refine closing_of_removed hs.idle.flags (by
    change (s.files.stages names.stage).isSome
    rw [hstage]
    rfl) (fun hnone hkey => ?_) (fun hnone hkey => ?_) (fun n hf => ?_) (fun n hf => ?_)
  · rw [hH, hundone.thrown_iff h]
    simp [hnone, hkey]
  · exact iff_of_true (hundone.crashed h) (hH.mpr ⟨hnone, .inl hkey⟩)
  · exact iff_of_false (fun ht => hlost n ht.restarted) (by simp [hH, hf])
  · exact iff_of_false (hlost n) (by simp [hH, hf])

/-- A restart moves the old tree back if the stage is wholly gone. -/
theorem cleared_restored (h : (android again).Unlocked v d c s₀) (hs : ReadyToCommit names again s₀ s) :
    ((android again).client v).Crashed s₀ (withStage names none (atCommit (cleared names) s)) := by
  obtain ⟨t, hroot⟩ := Option.isSome_iff_exists.mp (hs.root h)
  have hrecovery : (cleared names s.files).recoveries names.recovery = s.files.root :=
    Function.update_self names.recovery _ _
  have hrun := recoverCommit_restores (j := names)
    (s := (withStage names none (atCommit (cleared names) s)).files) rfl
    (Function.update_self names.stage _ _) rfl (by
      change ((cleared names s.files).recoveries names.recovery).isSome
      rw [hrecovery, hroot]
      rfl)
  have hview : viewOf (restart (withStage names none (atCommit (cleared names) s))) =
      (viewOf s).restarted := by
    rw [restart_of_run hrun]
    change View.mk ((cleared names s.files).recoveries names.recovery)
      (((cleared names s.files).recoveries names.recovery).bind configOf) _ _ _ _ = _
    rw [hrecovery]
    rfl
  have hsound : Sound again (restart (withStage names none (atCommit (cleared names) s))) := by
    rw [restart_of_run hrun]
    refine ⟨nofun, ?_⟩
    change Function.update (Function.update s.files.recoveries names.recovery s.files.root)
      names.recovery none again.recovery = none
    by_cases heq : again.recovery = names.recovery
    · rw [heq, Function.update_self]
    · rw [Function.update_of_ne heq, Function.update_of_ne heq]
      exact hs.undone.1.free
  have hkeeps : (viewOf s).Keeps sharePaths v d c := hs.undone.keeps h
  have hrestarted : (viewOf (restart (withStage names none (atCommit (cleared names) s)))).Keeps
      sharePaths v d d := hview ▸ hkeeps.restarted
  have hretry (hretries : Retries again s₀) : (viewOf (restart (withStage names none
      (atCommit (cleared names) s)))).Unobstructed d := by
    rw [hview]
    exact fun hd => ⟨(hs.undone.unobstructed h hretries (hkeeps.relayed_iff.mp hd)).1, nofun⟩
  exact keeps_recoverable (V := android again) hsound hrestarted hretry

/-- A throw of the second rename. -/
theorem cleared_closing (h : (android again).Unlocked v d c s₀) (hs : ReadyToCommit names again s₀ s)
    (hH : H ↔ F.cleanup = .none ∧ F.deleteDeviceKey.Crashes) :
    Closing v names again s₀ F H (atCommit (cleared names) s) := by
  obtain ⟨u, hstage⟩ := hs.stage
  have hunknown : .next ∉ s.held := hs.unknown h
  have hbare (x : Option Tree) : ¬((android again).client v).Thrown s₀
      (withStage names x (atCommit (cleared names) s)) := fun ht =>
    lost_not_recoverable (V := android again)
      (s := withStage names x (atCommit (cleared names) s)) ⟨nofun, hunknown⟩ ht.recoverable
  have hlost (n : Nat) : ¬((android again).client v).Crashed s₀ (withStage names
      (((atCommit (cleared names) s).files.stages names.stage).map (List.drop n))
        (atCommit (cleared names) s)) := by
    have hdrop := ofNext_drop (u := u) n
    rw [← hstage] at hdrop
    refine journalled_lost (j := names) ?_ hdrop hunknown rfl ?_ nofun
    · rw [hstage]
      rfl
    · exact Function.update_self names.stage _ _
  refine closing_of_removed hs.idle.flags (by
    change (s.files.stages names.stage).isSome
    rw [hstage]
    rfl) (fun hnone hkey => ?_) (fun hnone hkey => ?_) (fun n hf => ?_) (fun n hf => ?_)
  · exact iff_of_false (hbare none) (by simp [hH, hkey])
  · exact iff_of_true (cleared_restored h hs) (hH.mpr ⟨hnone, hkey⟩)
  · exact iff_of_false (hbare _) (by simp [hH, hf])
  · exact iff_of_false (hlost n) (by simp [hH, hf])

/-- The new tree is at the root and nothing is staged. -/
structure Swapped (names : Journal) (s : State) : Prop where
  lost : (viewOf s).Lost
  root : s.files.root.isSome
  stage : s.files.stages names.stage = none
  quiet : ∀ j, s.files.journal = some j → s.files.stages j.stage = none

theorem Swapped.fatal (h : Swapped names s) : Fatal (android again) v s₀ s ∧ Kept names s := by
  refine ⟨⟨lost_not_recoverable h.lost, ?_⟩, .inl h.stage⟩
  obtain ⟨t, hrun, hroot, _⟩ := restart_keeps h.quiet h.root
  refine lost_not_recoverable (V := android again) (s := restart s) ?_
  rw [restart_of_run hrun]
  exact ⟨fun u m hu => h.lost.root u m (hroot.symm.trans hu), h.lost.held⟩

theorem installed_swapped (h : (android again).Unlocked v d c s₀)
    (hs : ReadyToCommit names again s₀ s) : Swapped names (atCommit (installed names) s) := by
  obtain ⟨u, hstage⟩ := hs.stage
  have hnone : (installed names s.files).stages names.stage = none :=
    Function.update_self names.stage _ _
  have hunknown : .next ∉ s.held := hs.unknown h
  refine ⟨⟨fun t m ht hm => ?_, hunknown⟩, ?_, hnone, fun j hj => ?_⟩
  · obtain rfl := Option.some.inj (hstage.symm.trans ht)
    rw [configOf_saveConfig] at hm
    obtain rfl := Option.some.inj hm
    rfl
  · change (s.files.stages names.stage).isSome
    rw [hstage]
    rfl
  · obtain rfl := Option.some.inj hj
    exact hnone

theorem finished_swapped (h : (android again).Unlocked v d c s₀)
    (hs : ReadyToCommit names again s₀ s) :
    Swapped names (atCommit (fun f => AndroidCommitJournal.deleteJournal (installed names f)) s) := by
  have hswapped := installed_swapped h hs
  exact ⟨hswapped.lost, hswapped.root, hswapped.stage, nofun⟩

theorem dies_throws {fault : Fault} (ht : fault.Throws) :
    Dies F fault ↔ F.cleanup.Crashes ∨ (F.cleanup = .none ∧ F.deleteDeviceKey.Crashes) :=
  or_iff_right ht.not_crashes

/-- Unchanged, with no stage yet. -/
structure Unstaged (names again : Journal) (s₀ s : State) : Prop where
  undone : Undone (android again) s₀ s
  idle : Idle names s
  stage : s.files.stages names.stage = none

theorem copyAndScatter_undone (h : (android again).Unlocked v d c s₀)
    (hH : F.stage ≠ .none → (H ↔ Dies F F.stage ∨ c = d)) :
    Triple (Unstaged names again s₀)
      (copyAndScatter names [.put .config (.config ⟨.next, true, false, 0⟩)] F)
      (fun _ s => F.stage = .none ∧ ReadyToCommit names again s₀ s) (Closing v names again s₀ F H)
      (fun s => ((android again).client v).Crashed s₀ s ↔ H) := by
  refine Triple.read fun r hr => ?_
  obtain ⟨t, hroot, _⟩ := (hr.undone.keeps h).root
  have hroot : r.files.root = some t := hroot
  rw [hroot]
  refine Triple.within fun s hs => Triple.gradually (fun hnone u hu => ⟨hnone, ?_⟩)
    (fun n hf u hu => ?_) (fun n hf u hu => ?_)
  · rw [hu]
    refine ⟨Undone.withStage hs.1.idle hs.1.undone _, hs.1.idle.withStage _,
      applyWrites (scatter .next) t, (Function.update_self names.stage _ _).trans ?_⟩
    exact congrArg some (applyWrites_append _ _)
  · have ht : F.stage.Throws := by rw [hf]; trivial
    rw [hu]
    refine staged_undone_closing h (Undone.withStage hs.1.idle hs.1.undone _)
      (hs.1.idle.withStage _) ?_ (by rw [hH ht.ne_none, dies_throws ht, or_assoc])
    simp [AndroidCommitJournal.setStage]
  · have hc : F.stage.Crashes := by rw [hf]; trivial
    rw [hu]
    exact iff_of_true ((Undone.withStage hs.1.idle hs.1.undone _).crashed h)
      ((hH hc.ne_none).mpr (.inl (.inl hc)))

theorem ReadyToCommit.staged (hs : ReadyToCommit names again s₀ s) :
    (s.files.stages names.stage).isSome := by
  obtain ⟨u, hstage⟩ := hs.stage
  rw [hstage]
  rfl

theorem attempt_ready (h : (android again).Unlocked v d c s₀) {fault : Fault}
    (hH : fault ≠ .none → (H ↔ Dies F fault ∨ c = d)) :
    Triple (ReadyToCommit names again s₀) (attempt fault)
      (fun _ s => fault = .none ∧ ReadyToCommit names again s₀ s) (Closing v names again s₀ F H)
      (fun s => ((android again).client v).Crashed s₀ s ↔ H) := by
  refine Triple.attempt_cases (fun hnone s hs => ⟨hnone, hs⟩) (fun ht s hs => ?_) (fun hc s hs => ?_)
  · exact staged_undone_closing h hs.undone hs.idle hs.staged
      (by rw [hH ht.ne_none, dies_throws ht, or_assoc])
  · exact iff_of_true (hs.undone.crashed h) ((hH hc.ne_none).mpr (.inl (.inl hc)))

/-- The commit, with what each of its ends leaves. -/
theorem commit_ends (h : (android again).Unlocked v d c s₀) (hprepare : F.prepare = .none)
    (hstaged : F.stage = .none) (hclose : F.close = .none) :
    Triple (ReadyToCommit names again s₀)
      (onFiles (AndroidCommitJournal.commit names F.toOperationFaults))
      (fun _ s => (ExternalHarmless d c F ↔ F.load = .none ∧ F.afterCommit = .none) ∧ Swapped names s)
      (Closing v names again s₀ F (ExternalHarmless d c F))
      (fun s => ((android again).client v).Crashed s₀ s ↔ ExternalHarmless d c F) := by
  refine Triple.within fun s hs => ?_
  refine (commit_spec (hs.root h) hs.staged hs.idle.free).consequence (fun _ ht => ht)
    (fun _ t ht => ?_) (fun t ht => ?_) (fun t ht => ?_)
  · obtain ⟨⟨hw, hr, hm, hi, hd⟩, rfl⟩ := ht
    exact ⟨by simp [ExternalHarmless, Commits, hprepare, hstaged, hclose, hw, hr, hm, hi, hd],
      finished_swapped h hs⟩
  · cases ht with
    | unwritten hw =>
      exact staged_undone_closing h hs.undone hs.idle hs.staged (by
        rw [← or_assoc, ← dies_throws hw]
        simp [ExternalHarmless, hprepare, hstaged, hclose, hw.not_tookPlace])
    | written hw hr =>
      exact written_closing h hs (by
        simp [ExternalHarmless, hprepare, hstaged, hclose, hw, hr])
    | cleared hw hr hm hi =>
      exact cleared_closing h hs (by
        simp [ExternalHarmless, hprepare, hstaged, hclose, hw, hr, hm, hi])
    | installed hw hr hm hi hd =>
      have hends : Fatal (android again) v s₀ _ ∧ Kept names _ := (installed_swapped h hs).fatal
      exact closing_of_kept hends.2 (hends.1.thrown_iff (by
        simp [ExternalHarmless, Commits, hprepare, hstaged, hclose, hw, hr, hm, hi, hd.ne_none]))
  · have hunknown : .next ∉ s.held := hs.unknown h
    obtain ⟨u, hstage⟩ := hs.stage
    have hnext : OfNext (s.files.stages names.stage) := by
      rw [hstage]
      exact ofNext_drop 0
    cases ht with
    | unwritten hw hnot =>
      exact iff_of_true (hs.undone.crashed h) (by
        simp [ExternalHarmless, Dies, hprepare, hstaged, hclose, hw, hnot])
    | written hw =>
      refine iff_of_false (journalled_lost (j := names) hs.staged hnext hunknown rfl rfl
        fun _ => hs.idle.free) ?_
      rcases hw with ⟨hw, htook⟩ | ⟨hw, hr | ⟨hr, hm⟩⟩
      · simp [ExternalHarmless, hprepare, hstaged, hclose, htook, hw.ne_none]
      · simp [ExternalHarmless, Commits, hprepare, hstaged, hclose, hw, hr.not_throws, hr.ne_none]
      · simp [ExternalHarmless, Commits, hprepare, hstaged, hclose, hw, hr, hm.not_throws, hm.ne_none]
    | cleared hw hr hm =>
      refine iff_of_false (journalled_lost (j := names) hs.staged hnext hunknown rfl rfl nofun) ?_
      rcases hm with hm | ⟨hm, hi⟩
      · simp [ExternalHarmless, Commits, hprepare, hstaged, hclose, hw, hr, hm.not_throws, hm.ne_none]
      · simp [ExternalHarmless, Commits, hprepare, hstaged, hclose, hw, hr, hm, hi.not_throws,
          hi.ne_none]
    | installed hw hr hm hi =>
      refine (installed_swapped h hs).fatal.1.crashed_iff ?_
      rcases hi with hi | ⟨hi, hd⟩
      · simp [ExternalHarmless, Commits, hprepare, hstaged, hclose, hw, hr, hm, hi.not_throws,
          hi.ne_none]
      · simp [ExternalHarmless, Commits, hprepare, hstaged, hclose, hw, hr, hm, hi, hd.ne_none]
    | finished hw hr hm hi hd =>
      exact (finished_swapped h hs).fatal.1.crashed_iff (by
        simp [ExternalHarmless, Commits, hprepare, hstaged, hclose, hw, hr, hm, hi, hd.ne_none])

theorem Swapped.of_same {r : State} (h : Swapped names s) (hfiles : r.files = s.files)
    (hheld : r.held = s.held) : Swapped names r := by
  refine ⟨⟨fun t m ht hm => h.lost.root t m ?_ hm, ?_⟩, ?_, ?_, ?_⟩
  · rw [← ht]
    exact congrArg AndroidCommitJournal.State.root hfiles.symm
  · change .next ∉ r.held
    rw [hheld]
    exact h.lost.held
  · rw [hfiles]
    exact h.root
  · rw [hfiles]
    exact h.stage
  · rw [hfiles]
    exact h.quiet

theorem changeExternal_ends (h : (android again).Unlocked v d c s₀) (hprepare : F.prepare = .none) :
    Triple (Unstaged names again s₀) (changeExternal names F)
      (fun _ s => ExternalHarmless d c F ∧ Kept names s)
      (Closing v names again s₀ F (ExternalHarmless d c F))
      (fun s => ((android again).client v).Crashed s₀ s ↔ ExternalHarmless d c F) := by
  refine Triple.bind (copyAndScatter_undone h fun hb => by
    simp [ExternalHarmless, hprepare, hb]) fun _ => Triple.assuming fun hstaged => ?_
  refine Triple.bind (attempt_ready h fun hc => by
    simp [ExternalHarmless, hprepare, hstaged, hc]) fun _ => Triple.assuming fun hclose => ?_
  refine Triple.bind (Q := fun _ => ReadyToCommit names again s₀) (Triple.update fun s hs =>
    ⟨⟨⟨hs.undone.1.quiet, hs.undone.1.free⟩,
      congrArg (fun w : View => { w with unlocked := false }) hs.undone.2⟩,
      ⟨hs.idle.unlisted, hs.idle.free, hs.idle.flags⟩, hs.stage⟩) fun _ => ?_
  refine Triple.bind (commit_ends h hprepare hstaged hclose) fun _ => Triple.assuming fun hH => ?_
  exact reopen_fatal (fun s hs => hs.fatal) (fun s hs => hs.of_same rfl rfl)
    (fun s hs => hs.of_same rfl rfl) (fun s hs => hs.of_same rfl rfl) hH

end External

end AndroidPasswordChange
