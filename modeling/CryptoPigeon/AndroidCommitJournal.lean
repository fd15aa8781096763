import CryptoPigeon.TransitionSystem
import CryptoPigeon.FaultyProgram
import CryptoPigeon.VaultTree
import Mathlib.Logic.Function.Basic

/-! # The journalled commit of the Android vault

`NativeVault` stages a whole tree beside the root, records the stage and a recovery name
in a journal and lets `recoverCommit` move the directories. The same recovery runs at
every construction. Directories are moved by atomic renames; staging and `deleteTree`
can stop anywhere. `vault` and `staged` are history: the tree last in use at the root
and the full tree of each journalled stage. -/
namespace AndroidCommitJournal

open FaultyProgram TransitionSystem VaultTree

inductive StageKind where
  | create
  | restore
  | rotate
  deriving DecidableEq, Repr

/-- A sibling `root.<kind>-<hex>` or `root.before-<kind>-<hex>`; the suffix is random. -/
structure SiblingName where
  kind : StageKind
  suffix : Nat
  deriving DecidableEq, Repr

structure Journal where
  stage : SiblingName
  recovery : SiblingName
  deriving DecidableEq, Repr

structure State where
  root : Option Tree
  stages : SiblingName → Option Tree
  recoveries : SiblingName → Option Tree
  journal : Option Journal
  uploaded : Bool
  oldDeleted : Bool
  vault : Option Tree
  staged : SiblingName → Option Tree

/-- A tree is held if it is at the root or at some recovery name. -/
def State.Holds (s : State) (tree : Tree) : Prop :=
  s.root = some tree ∨ ∃ r, s.recoveries r = some tree

def moveAside (r : SiblingName) (s : State) : State :=
  { s with root := none, recoveries := Function.update s.recoveries r s.root }

def installStage (n : SiblingName) (s : State) : State :=
  { s with root := s.stages n, stages := Function.update s.stages n none, vault := s.stages n }

def moveBack (r : SiblingName) (s : State) : State :=
  { s with root := s.recoveries r, recoveries := Function.update s.recoveries r none }

def deleteJournal (s : State) : State := { s with journal := none }

def writeJournal (names : Journal) (s : State) : State :=
  { s with
    journal := some names
    staged := Function.update s.staged names.stage (s.stages names.stage) }

def setStage (n : SiblingName) (tree : Option Tree) (s : State) : State :=
  { s with stages := Function.update s.stages n tree }

structure RecoveryFaults where
  readJournal : Fault
  moveAside : Fault
  install : Fault
  moveBack : Fault
  deleteJournal : Fault
  deriving DecidableEq, Repr

/-- `if(root.exists()){if(old.exists())throw …;move(root,old);}` -/
def makeRoom (j : Journal) (f : RecoveryFaults) : Program State Unit := do
  let s ← read
  if s.root.isSome then
    if (s.recoveries j.recovery).isSome then throwing
    else atomically (moveAside j.recovery) f.moveAside
  else done ()

/-- `NativeIo.move` refuses an existing target before it renames. -/
def install (j : Journal) (f : RecoveryFaults) : Program State Unit := do
  let s ← read
  if s.root.isSome then throwing else atomically (installStage j.stage) f.install

def rollBack (j : Journal) (f : RecoveryFaults) : Program State Unit := do
  let s ← read
  if s.root.isSome then done ()
  else if (s.recoveries j.recovery).isNone then throwing
  else atomically (moveBack j.recovery) f.moveBack

/-- Recovery infers how far the last commit got from which directories exist. -/
def placeTrees (j : Journal) (f : RecoveryFaults) : Program State Unit := do
  let s ← read
  if (s.stages j.stage).isSome then do
    makeRoom j f
    install j f
  else rollBack j f

def recoverCommit (f : RecoveryFaults) : Program State Unit := do
  let s ← read
  match s.journal with
  | none => done ()
  | some j => do
    attempt f.readJournal
    placeTrees j f
    atomically deleteJournal f.deleteJournal

structure OperationFaults where
  prepare : Fault
  stage : Fault
  upload : Fault
  deleteOld : Fault
  deleteNew : Fault
  close : Fault
  writeJournal : Fault
  recovery : RecoveryFaults
  afterCommit : Fault
  cleanup : Fault
  deleteDeviceKey : Fault
  deriving DecidableEq, Repr

def stageTree (n : SiblingName) (build : Staging) : Fault → Program State Unit :=
  gradually (fun k => setStage n (some (build.progress k))) (setStage n (some build.full))

/-- `deleteTree` removes the children one by one and the directory itself last. -/
def deleteTree (n : SiblingName) : Fault → Program State Unit :=
  gradually (fun k s => setStage n ((s.stages n).map (List.drop k)) s) (setStage n none)

def cleanup (n : SiblingName) (f : OperationFaults) : Program State Unit := do
  deleteTree n f.cleanup
  attempt f.deleteDeviceKey

def commit (names : Journal) (f : OperationFaults) : Program State Unit := do
  atomically (writeJournal names) f.writeJournal
  recoverCommit f.recovery

def setFlags (uploaded oldDeleted : Bool) (s : State) : State :=
  { s with uploaded := uploaded, oldDeleted := oldDeleted }

/-- The `finally` block: `if(stage.exists()&&!keeps)cleanup(staged)`. -/
def releaseStage (n : SiblingName) (f : OperationFaults) (keeps : Bool → Bool → Bool) :
    Program State Unit := do
  let s ← read
  if (s.stages n).isSome && !keeps s.uploaded s.oldDeleted then cleanup n f else done ()

/-- The shape shared by the operations that replace the tree: what they publish before
the commit and which flags make the `finally` block keep the stage are their own. -/
def replaceTree (names : Journal) (build : Staging) (f : OperationFaults)
    (publish : Program State Unit) (keeps : Bool → Bool → Bool) : Program State Unit := do
  update (setFlags false false)
  andFinally
    (do
      attempt f.prepare
      stageTree names.stage build f.stage
      publish
      attempt f.close
      commit names f
      attempt f.afterCommit)
    (releaseStage names.stage f keeps)

def create (names : Journal) (build : Staging) (f : OperationFaults) : Program State Unit :=
  replaceTree names build f
    (do attempt f.upload; update (setFlags true false))
    (fun uploaded _ => uploaded)

def createExternal (names : Journal) (build : Staging) (f : OperationFaults) :
    Program State Unit :=
  replaceTree names build f (done ()) (fun _ _ => false)

def importStorage (names : Journal) (build : Staging) (f : OperationFaults) :
    Program State Unit :=
  replaceTree names build f (done ()) (fun _ _ => false)

/-- `uploaded` is declared and tested but never assigned. -/
def restore (names : Journal) (build : Staging) (f : OperationFaults) : Program State Unit :=
  replaceTree names build f (done ()) (fun uploaded _ => uploaded)

def changePasswordExternal (names : Journal) (build : Staging) (f : OperationFaults) :
    Program State Unit :=
  replaceTree names build f (done ()) (fun uploaded oldDeleted => uploaded || oldDeleted)

/-- The new backup is uploaded and the old one deleted before the trees are swapped; if
the old one stays, the new one is withdrawn and the failure is thrown again. -/
def changePasswordCloud (names : Journal) (build : Staging) (f : OperationFaults) :
    Program State Unit :=
  replaceTree names build f
    (do
      attempt f.upload
      update (setFlags true false)
      orElse
        (do attempt f.deleteOld; update (setFlags true true))
        (do attempt f.deleteNew; update (setFlags false false); throwing))
    (fun uploaded oldDeleted => uploaded || oldDeleted)

inductive Method where
  | create
  | createExternal
  | importStorage
  | restore
  | changePasswordExternal
  | changePasswordCloud
  deriving DecidableEq, Repr

def Method.run : Method → Journal → Staging → OperationFaults → Program State Unit
  | .create => AndroidCommitJournal.create
  | .createExternal => AndroidCommitJournal.createExternal
  | .importStorage => AndroidCommitJournal.importStorage
  | .restore => AndroidCommitJournal.restore
  | .changePasswordExternal => AndroidCommitJournal.changePasswordExternal
  | .changePasswordCloud => AndroidCommitJournal.changePasswordCloud

/-- `construct` is `new NativeVault` on the root; `use` is any write of the open vault. -/
inductive Event where
  | run (m : Method) (names : Journal) (build : Staging) (f : OperationFaults)
  | construct (f : RecoveryFaults)
  | use (tree : Tree)

/-- The random suffixes have not been used before. -/
structure Fresh (s : State) (names : Journal) : Prop where
  stage : s.stages names.stage = none
  recovery : s.recoveries names.recovery = none
  unlisted : ∀ j, s.journal = some j → j.stage ≠ names.stage

def Enabled (s : State) : Event → Prop
  | .run _ names _ _ => Fresh s names
  | .construct _ => True
  | .use _ => s.root.isSome

def next (s : State) : Event → State
  | .run m names build f => (m.run names build f s).state
  | .construct f => (recoverCommit f s).state
  | .use tree => { s with root := some tree, vault := some tree }

/-- Any tree or none at the root, nothing pending. -/
def Initial (s : State) : Prop :=
  s.journal = none ∧ s.vault = s.root ∧ ∀ n, s.staged n = none

def system : System State Event := ⟨Initial, Enabled, next⟩

/-- What the directories look like between any two moves: the journalled stage is whole
or gone, and the vault's tree is at the root or waits where recovery will find it. -/
structure Consistent (s : State) : Prop where
  whole : ∀ j, s.journal = some j →
    s.stages j.stage = none ∨ s.stages j.stage = s.staged j.stage
  at_root : s.root.isSome → s.vault = s.root
  aside : s.root = none → ∀ j, s.journal = some j →
    s.recoveries j.recovery = none ∨ s.recoveries j.recovery = s.vault
  idle : s.root = none → s.journal = none → s.vault = none
  kept : ∀ tree, s.vault = some tree → s.Holds tree

/-- Consistency together with everything held when the event began; `A` is what the
caller knows of the two flags. -/
structure Keeping (s₀ : State) (A : Bool → Bool → Prop) (s : State) : Prop where
  consistent : Consistent s
  holds : ∀ tree, s₀.Holds tree → s.Holds tree
  flags : A s.uploaded s.oldDeleted

theorem initial_consistent {s : State} (h : Initial s) : Consistent s := by
  obtain ⟨hj, hv, -⟩ := h
  refine ⟨?_, fun _ => hv, ?_, fun hr _ => by rw [hv, hr], fun tree ht => Or.inl ?_⟩
  · intro j h; rw [hj] at h; cases h
  · intro _ j h; rw [hj] at h; cases h
  · rw [← hv, ht]

section Moves

variable {s₀ s : State} {A : Bool → Bool → Prop}

theorem moveAside_keeping {j : Journal} (h : Keeping s₀ A s)
    (hj : s.journal = some j) (hr : s.recoveries j.recovery = none) (hs : s.root.isSome) :
    Keeping s₀ A (moveAside j.recovery s) := by
  have hv := h.consistent.at_root hs
  have move : ∀ tree, s.Holds tree → (moveAside j.recovery s).Holds tree := by
    rintro tree (ht | ⟨r, ht⟩)
    · exact Or.inr ⟨j.recovery, by simpa [moveAside] using ht⟩
    · have hne : r ≠ j.recovery := by
        rintro rfl
        rw [hr] at ht; cases ht
      exact Or.inr ⟨r, by simpa [moveAside, hne] using ht⟩
  refine ⟨⟨h.consistent.whole, fun hn => ?_, ?_, ?_, ?_⟩, fun tree ht => move tree (h.holds tree ht), h.flags⟩
  · simp [moveAside] at hn
  · intro _ k hk
    change s.journal = some k at hk
    obtain rfl : j = k := Option.some.inj (hj.symm.trans hk)
    right
    simpa [moveAside] using hv.symm
  · intro _ hn
    change s.journal = none at hn
    rw [hj] at hn; cases hn
  · intro tree ht
    exact move tree (h.consistent.kept tree ht)

theorem installStage_keeping {n : SiblingName} (h : Keeping s₀ A s)
    (hr : s.root = none) (hs : (s.stages n).isSome) :
    Keeping s₀ A (installStage n s) := by
  refine ⟨⟨?_, fun _ => rfl, ?_, ?_, fun tree ht => Or.inl ht⟩, ?_, h.flags⟩
  · intro j hj
    by_cases hn : j.stage = n
    · left; simp [installStage, hn]
    · rcases h.consistent.whole j hj with hw | hw
      · left; simpa [installStage, hn] using hw
      · right; simpa [installStage, hn] using hw
  · intro hn
    change s.stages n = none at hn
    rw [hn] at hs; cases hs
  · intro hn
    change s.stages n = none at hn
    rw [hn] at hs; cases hs
  · intro tree ht
    rcases h.holds tree ht with hx | hx
    · rw [hr] at hx; cases hx
    · exact Or.inr hx

theorem moveBack_keeping {j : Journal} (h : Keeping s₀ A s)
    (hj : s.journal = some j) (hr : s.root = none) (hs : (s.recoveries j.recovery).isSome) :
    Keeping s₀ A (moveBack j.recovery s) := by
  have hv : s.recoveries j.recovery = s.vault := by
    rcases h.consistent.aside hr j hj with hx | hx
    · rw [hx] at hs; cases hs
    · exact hx
  have move : ∀ tree, s.Holds tree → (moveBack j.recovery s).Holds tree := by
    rintro tree (ht | ⟨r, ht⟩)
    · rw [hr] at ht; cases ht
    · by_cases hne : r = j.recovery
      · subst hne; exact Or.inl ht
      · exact Or.inr ⟨r, by simpa [moveBack, hne] using ht⟩
  refine ⟨⟨h.consistent.whole, fun _ => hv.symm, ?_, ?_, ?_⟩, fun tree ht => move tree (h.holds tree ht), h.flags⟩
  · intro hn
    change s.recoveries j.recovery = none at hn
    rw [hn] at hs; cases hs
  · intro hn
    change s.recoveries j.recovery = none at hn
    rw [hn] at hs; cases hs
  · intro tree ht
    exact move tree (h.consistent.kept tree ht)

theorem deleteJournal_keeping (h : Keeping s₀ A s) (hr : s.root.isSome) :
    Keeping s₀ A (deleteJournal s) := by
  refine ⟨⟨?_, h.consistent.at_root, ?_, ?_, h.consistent.kept⟩, h.holds, h.flags⟩
  · intro j hj; cases hj
  · intro _ j hj; cases hj
  · intro hn
    change s.root = none at hn
    rw [hn] at hr; cases hr

end Moves

/-- The recovery throws while the journalled stage is still in its place. -/
def LeavesStage (s : State) (j : Journal) (f : RecoveryFaults) : Prop :=
  f.readJournal.Throws ∨
    (f.readJournal = .none ∧
      ((s.root.isSome ∧ ((s.recoveries j.recovery).isSome ∨ f.moveAside.Throws)) ∨
        ((s.root.isSome → f.moveAside = .none) ∧ f.install.Throws)))

section Recovery

variable {s₀ : State} {A : Bool → Bool → Prop} {j : Journal} {f : RecoveryFaults}

/-- A recovery of `j` has begun and moved nothing yet. -/
structure Recovering (s₀ : State) (A : Bool → Bool → Prop) (j : Journal) (s : State) :
    Prop where
  keeping : Keeping s₀ A s
  journal : s.journal = some j
  root : s.root = s₀.root
  recoveries : s.recoveries = s₀.recoveries

theorem makeRoom_triple (hread : f.readJournal = .none) :
    Triple (fun s => Recovering s₀ A j s ∧ (s.stages j.stage).isSome) (makeRoom j f)
      (fun _ s => (Keeping s₀ A s ∧ s.journal = some j ∧ s.root = none ∧
        (s.stages j.stage).isSome) ∧ (s₀.root.isSome → f.moveAside = .none))
      (fun s => Keeping s₀ A s ∧ LeavesStage s₀ j f) (Keeping s₀ A) := by
  unfold makeRoom
  refine Triple.read (fun r hr => ?_)
  obtain ⟨hr, hstage⟩ := hr
  refine Triple.ite (fun hroot => Triple.ite (fun hold => ?_) (fun hold => ?_)) (fun hroot => ?_)
  · refine Triple.throwing ?_
    rintro s ⟨-, rfl⟩
    rw [hr.root] at hroot
    rw [hr.recoveries] at hold
    exact ⟨hr.keeping, Or.inr ⟨hread, Or.inl ⟨hroot, Or.inl hold⟩⟩⟩
  · have hfree : r.recoveries j.recovery = none := by simpa using hold
    refine Triple.atomically ?_ ?_ ?_
    · rintro hf s ⟨-, rfl⟩
      exact ⟨⟨moveAside_keeping hr.keeping hr.journal hfree hroot, hr.journal, rfl, hstage⟩,
        fun _ => hf⟩
    · rintro hf s ⟨-, rfl⟩
      rw [hr.root] at hroot
      exact ⟨hr.keeping, Or.inr ⟨hread, Or.inl ⟨hroot, Or.inr hf⟩⟩⟩
    · rintro s ⟨-, rfl⟩
      exact ⟨hr.keeping, moveAside_keeping hr.keeping hr.journal hfree hroot⟩
  · refine Triple.done ?_
    rintro s ⟨-, rfl⟩
    refine ⟨⟨hr.keeping, hr.journal, by simpa using hroot, hstage⟩, fun h => ?_⟩
    rw [hr.root] at hroot
    exact absurd h hroot

theorem install_triple (hread : f.readJournal = .none) :
    Triple
      (fun s => (Keeping s₀ A s ∧ s.journal = some j ∧ s.root = none ∧
        (s.stages j.stage).isSome) ∧ (s₀.root.isSome → f.moveAside = .none))
      (install j f)
      (fun _ s => Keeping s₀ A s ∧ s.root.isSome ∧ s.stages j.stage = none)
      (fun s => Keeping s₀ A s ∧ LeavesStage s₀ j f) (Keeping s₀ A) := by
  unfold install
  refine Triple.read (fun r hr => ?_)
  obtain ⟨⟨hk, -, hroot, hstage⟩, hroom⟩ := hr
  refine Triple.ite (fun h => ?_) (fun _ => ?_)
  · rw [hroot] at h; cases h
  have hmove := installStage_keeping hk hroot hstage
  refine Triple.atomically ?_ ?_ ?_
  · rintro - s ⟨-, rfl⟩
    exact ⟨hmove, hstage, by simp [installStage]⟩
  · rintro hf s ⟨-, rfl⟩
    exact ⟨hk, Or.inr ⟨hread, Or.inr ⟨hroom, hf⟩⟩⟩
  · rintro s ⟨-, rfl⟩
    exact ⟨hk, hmove⟩

theorem rollBack_triple :
    Triple (fun s => Recovering s₀ A j s ∧ s.stages j.stage = none) (rollBack j f)
      (fun _ s => Keeping s₀ A s ∧ s.root.isSome ∧ s.stages j.stage = none)
      (fun s => Keeping s₀ A s ∧ s.stages j.stage = none) (Keeping s₀ A) := by
  unfold rollBack
  refine Triple.read (fun r hr => ?_)
  obtain ⟨hr, hstage⟩ := hr
  refine Triple.ite (fun hroot => ?_) (fun hroot => Triple.ite (fun _ => ?_) (fun hold => ?_))
  · refine Triple.done ?_
    rintro s ⟨-, rfl⟩
    exact ⟨hr.keeping, hroot, hstage⟩
  · refine Triple.throwing ?_
    rintro s ⟨-, rfl⟩
    exact ⟨hr.keeping, hstage⟩
  · have hsome : (r.recoveries j.recovery).isSome := by simpa [Option.isSome_iff_ne_none] using hold
    have hnone : r.root = none := by simpa using hroot
    have hmove := moveBack_keeping hr.keeping hr.journal hnone hsome
    refine Triple.atomically ?_ ?_ ?_
    · rintro - s ⟨-, rfl⟩
      exact ⟨hmove, hsome, hstage⟩
    · rintro - s ⟨-, rfl⟩
      exact ⟨hr.keeping, hstage⟩
    · rintro s ⟨-, rfl⟩
      exact ⟨hr.keeping, hmove⟩

/-- Every outcome of the directory moves, and when the stage can still be in its place
after a throw. -/
theorem placeTrees_triple (hread : f.readJournal = .none) :
    Triple (Recovering s₀ A j) (placeTrees j f)
      (fun _ s => Keeping s₀ A s ∧ s.root.isSome ∧ s.stages j.stage = none)
      (fun s => Keeping s₀ A s ∧ (s.stages j.stage = none ∨ LeavesStage s₀ j f))
      (Keeping s₀ A) := by
  unfold placeTrees
  refine Triple.read (fun r hr => Triple.ite (fun hstage => ?_) (fun hstage => ?_))
  · refine (Triple.bind (makeRoom_triple hread) (fun _ => install_triple hread)).consequence
      ?_ (fun _ s h => h) (fun s h => ⟨h.1, Or.inr h.2⟩) (fun s h => h)
    rintro s ⟨h, rfl⟩
    exact ⟨h, hstage⟩
  · refine rollBack_triple.consequence ?_ (fun _ s h => h) (fun s h => ⟨h.1, Or.inl h.2⟩)
      (fun s h => h)
    rintro s ⟨h, rfl⟩
    exact ⟨h, by simpa using hstage⟩

theorem recoverCommit_triple :
    Triple (Recovering s₀ A j) (recoverCommit f)
      (fun _ s => Keeping s₀ A s ∧ s.stages j.stage = none)
      (fun s => Keeping s₀ A s ∧ (s.stages j.stage = none ∨ LeavesStage s₀ j f))
      (Keeping s₀ A) := by
  unfold recoverCommit
  refine Triple.read (fun r hr => ?_)
  rw [hr.journal]
  refine Triple.bind (Q := fun _ s => f.readJournal = .none ∧ Recovering s₀ A j s)
    (Triple.attempt ?_ ?_ ?_) (fun _ => ?_)
  · rintro hf s ⟨hs, -⟩
    exact ⟨hf, hs⟩
  · rintro hf s ⟨hs, -⟩
    exact ⟨hs.keeping, Or.inr (Or.inl hf)⟩
  · rintro s ⟨hs, -⟩
    exact hs.keeping
  · refine Triple.assuming (fun hread => Triple.bind (placeTrees_triple hread) (fun _ => ?_))
    refine Triple.atomically ?_ ?_ ?_
    · rintro - s ⟨hk, hroot, hstage⟩
      exact ⟨deleteJournal_keeping hk hroot, hstage⟩
    · rintro - s ⟨hk, -, hstage⟩
      exact ⟨hk, Or.inl hstage⟩
    · rintro s ⟨hk, hroot, -⟩
      exact ⟨hk, deleteJournal_keeping hk hroot⟩

end Recovery

/-- The journal, if there is one, names another stage. -/
def Unlisted (n : SiblingName) (s : State) : Prop := ∀ j, s.journal = some j → j.stage ≠ n

/-- The commit was reached and threw with the journal written and the stage in place. -/
def CommitLeavesStage (s : State) (names : Journal) (f : OperationFaults) : Prop :=
  f.prepare = .none ∧ f.stage = .none ∧ f.close = .none ∧ f.writeJournal = .none ∧
    LeavesStage s names f.recovery

section Operations

variable {s₀ s : State} {A B : Bool → Bool → Prop} {names : Journal} {n : SiblingName}
variable {f : OperationFaults} {keeps : Bool → Bool → Bool}

theorem setFlags_keeping {u o : Bool} (h : Keeping s₀ A s) (hb : B u o) :
    Keeping s₀ B (setFlags u o s) :=
  ⟨⟨h.consistent.whole, h.consistent.at_root, h.consistent.aside, h.consistent.idle,
    h.consistent.kept⟩, h.holds, hb⟩

theorem Keeping.weaken (h : Keeping s₀ A s) (hb : ∀ u o, A u o → B u o) : Keeping s₀ B s :=
  ⟨h.consistent, h.holds, hb _ _ h.flags⟩

/-- A stage may change freely as long as every journalled stage stays whole or goes. -/
theorem setStage_keeping {tree : Option Tree} (h : Keeping s₀ A s)
    (hn : Unlisted n s ∨ tree = none ∨ tree = s.stages n) : Keeping s₀ A (setStage n tree s) := by
  refine ⟨⟨?_, h.consistent.at_root, h.consistent.aside, h.consistent.idle,
    h.consistent.kept⟩, h.holds, h.flags⟩
  intro j hj
  by_cases he : j.stage = n
  · rcases hn with hn | rfl | rfl
    · exact absurd he (hn j hj)
    · left; simp [setStage, he]
    · rcases h.consistent.whole j hj with hw | hw
      · left; rw [he] at hw; simp [setStage, he, hw]
      · right; rw [he] at hw; simp [setStage, he, hw]
  · rcases h.consistent.whole j hj with hw | hw
    · left; simpa [setStage, he] using hw
    · right; simpa [setStage, he] using hw

/-- Before the commit the operation has only touched its own unlisted stage. -/
structure Preparing (s₀ : State) (A : Bool → Bool → Prop) (n : SiblingName) (s : State) :
    Prop where
  keeping : Keeping s₀ A s
  root : s.root = s₀.root
  recoveries : s.recoveries = s₀.recoveries
  unlisted : Unlisted n s

theorem setFlags_preparing {u o : Bool} (h : Preparing s₀ A n s) (hb : B u o) :
    Preparing s₀ B n (setFlags u o s) :=
  ⟨setFlags_keeping h.keeping hb, h.root, h.recoveries, h.unlisted⟩

theorem stageTree_triple {build : Staging} {fault : Fault} :
    Triple (Preparing s₀ A n) (stageTree n build fault)
      (fun _ s => fault = .none ∧ Preparing s₀ A n s)
      (Preparing s₀ A n) (Keeping s₀ A) := by
  have stay : ∀ s tree, Preparing s₀ A n s → Preparing s₀ A n (setStage n tree s) :=
    fun s tree h => ⟨setStage_keeping h.keeping (Or.inl h.unlisted), h.root, h.recoveries,
      h.unlisted⟩
  refine Triple.gradually ?_ ?_ ?_
  · intro hf s h
    exact ⟨hf, stay s _ h⟩
  · intro k _ s h
    exact stay s _ h
  · intro k _ s h
    exact (stay s _ h).keeping

theorem writeJournal_recovering (hfree : s₀.recoveries names.recovery = none)
    (h : Preparing s₀ A names.stage s) : Recovering s₀ A names (writeJournal names s) := by
  refine ⟨⟨⟨?_, h.keeping.consistent.at_root, ?_, ?_, h.keeping.consistent.kept⟩,
    h.keeping.holds, h.keeping.flags⟩, rfl, h.root, h.recoveries⟩
  · intro j hj
    obtain rfl : names = j := Option.some.inj hj
    right; simp [writeJournal]
  · intro _ j hj
    obtain rfl : names = j := Option.some.inj hj
    left
    change s.recoveries names.recovery = none
    rw [h.recoveries, hfree]
  · intro _ hj; cases hj

theorem commit_triple (hfree : s₀.recoveries names.recovery = none) :
    Triple (Preparing s₀ A names.stage) (commit names f)
      (fun _ s => Keeping s₀ A s ∧ s.stages names.stage = none)
      (fun s => Keeping s₀ A s ∧ (Unlisted names.stage s ∨ s.stages names.stage = none ∨
        (f.writeJournal = .none ∧ LeavesStage s₀ names f.recovery)))
      (Keeping s₀ A) := by
  unfold commit
  refine Triple.bind (Q := fun _ s => f.writeJournal = .none ∧ Recovering s₀ A names s)
    (Triple.atomically ?_ ?_ ?_) (fun _ => Triple.assuming (fun hw => ?_))
  · intro hf s h
    exact ⟨hf, writeJournal_recovering hfree h⟩
  · intro _ s h
    exact ⟨h.keeping, Or.inl h.unlisted⟩
  · intro s h
    exact ⟨h.keeping, (writeJournal_recovering hfree h).keeping⟩
  · refine recoverCommit_triple.consequence (fun s h => h) (fun _ s h => h) ?_ (fun s h => h)
    rintro s ⟨hk, hs | hs⟩
    · exact ⟨hk, Or.inr (Or.inl hs)⟩
    · exact ⟨hk, Or.inr (Or.inr ⟨hw, hs⟩)⟩

/-- After a throw the stage may be cleaned up only if no partial tree can be left under
a name the journal holds. -/
def Disposable (s₀ : State) (n : SiblingName) (f : OperationFaults)
    (keeps : Bool → Bool → Bool) (s : State) : Prop :=
  Keeping s₀ (fun _ _ => True) s ∧ (Unlisted n s ∨ s.stages n = none ∨
    keeps s.uploaded s.oldDeleted = true ∨ ¬f.cleanup.CutsShort)

theorem cleanup_triple :
    Triple (fun s => Keeping s₀ A s ∧ (Unlisted n s ∨ ¬f.cleanup.CutsShort)) (cleanup n f)
      (fun _ => Keeping s₀ A) (Keeping s₀ A) (Keeping s₀ A) := by
  have part : ∀ k s, Keeping s₀ A s → (Unlisted n s ∨ ¬0 < k) →
      Keeping s₀ A (setStage n ((s.stages n).map (List.drop k)) s) := by
    intro k s h hs
    rcases hs with hs | hs
    · exact setStage_keeping h (Or.inl hs)
    · obtain rfl : k = 0 := by omega
      refine setStage_keeping h (Or.inr (Or.inr ?_))
      cases s.stages n <;> simp
  unfold cleanup
  refine Triple.bind (Q := fun _ => Keeping s₀ A) (Triple.gradually ?_ ?_ ?_) (fun _ => ?_)
  · rintro - s ⟨h, -⟩
    exact setStage_keeping h (Or.inr (Or.inl rfl))
  · rintro k hf s ⟨h, hs⟩
    rw [hf] at hs
    exact part k s h hs
  · rintro k hf s ⟨h, hs⟩
    rw [hf] at hs
    exact part k s h hs
  · exact Triple.attempt (fun _ s h => h) (fun _ s h => h) (fun s h => h)

theorem releaseStage_triple :
    Triple (Disposable s₀ n f keeps) (releaseStage n f keeps)
      (fun _ => Keeping s₀ (fun _ _ => True)) (Keeping s₀ (fun _ _ => True))
      (Keeping s₀ (fun _ _ => True)) := by
  unfold releaseStage
  refine Triple.read (fun r hr => Triple.ite (fun hc => ?_) (fun _ => ?_))
  · refine cleanup_triple.strengthen ?_
    rintro s ⟨-, rfl⟩
    obtain ⟨hk, hs⟩ := hr
    simp only [Bool.and_eq_true, Bool.not_eq_true'] at hc
    refine ⟨hk, ?_⟩
    rcases hs with hs | hs | hs | hs
    · exact Or.inl hs
    · rw [hs] at hc; cases hc.1
    · rw [hs] at hc; cases hc.2
    · exact Or.inr hs
  · refine Triple.done ?_
    rintro s ⟨-, rfl⟩
    exact hr.1

/-- One replacement keeps everything, whatever fails, unless its cleanup is cut short on
a stage that the journal still names. `A` is what publishing establishes of the flags. -/
theorem replaceTree_triple {build : Staging} {publish : Program State Unit}
    (hs : Consistent s₀) (hfresh : Fresh s₀ names)
    (hpub : Triple (Preparing s₀ (fun _ _ => True) names.stage) publish
      (fun _ => Preparing s₀ A names.stage)
      (Preparing s₀ (fun _ _ => True) names.stage) (Keeping s₀ (fun _ _ => True)))
    (hsafe : (∀ u o, A u o → keeps u o = true) ∨
      (CommitLeavesStage s₀ names f → ¬f.cleanup.CutsShort)) :
    Triple (fun s => s = s₀) (replaceTree names build f publish keeps)
      (fun _ => Keeping s₀ (fun _ _ => True)) (Keeping s₀ (fun _ _ => True))
      (Keeping s₀ (fun _ _ => True)) := by
  have unlisted : ∀ s, Preparing s₀ (fun _ _ => True) names.stage s →
      Disposable s₀ names.stage f keeps s := fun s h => ⟨h.keeping, Or.inl h.unlisted⟩
  have forget : ∀ s, Keeping s₀ A s → Keeping s₀ (fun _ _ => True) s :=
    fun s h => h.weaken (fun _ _ _ => trivial)
  have prepared : ∀ s, Preparing s₀ A names.stage s →
      Preparing s₀ (fun _ _ => True) names.stage s :=
    fun s h => ⟨forget s h.keeping, h.root, h.recoveries, h.unlisted⟩
  unfold replaceTree
  refine Triple.bind (Q := fun _ => Preparing s₀ (fun _ _ => True) names.stage)
    (Triple.update ?_) (fun _ => ?_)
  · rintro s rfl
    exact setFlags_preparing (A := fun _ _ => True)
      ⟨⟨hs, fun _ h => h, trivial⟩, rfl, rfl, hfresh.unlisted⟩ trivial
  refine Triple.andFinally (Q := fun _ s => Keeping s₀ (fun _ _ => True) s ∧
    s.stages names.stage = none) (I := Disposable s₀ names.stage f keeps) ?_ ?_ ?_
  · refine Triple.bind (Q := fun _ s => f.prepare = .none ∧
      Preparing s₀ (fun _ _ => True) names.stage s)
      (Triple.attempt (fun hf s h => ⟨hf, h⟩) (fun _ => unlisted) (fun s h => h.keeping))
      (fun _ => Triple.assuming (fun hprepare => ?_))
    refine Triple.bind (stageTree_triple.consequence (fun s h => h) (fun _ s h => h)
      unlisted (fun s h => h)) (fun _ => Triple.assuming (fun hstage => ?_))
    refine Triple.bind (hpub.consequence (fun s h => h) (fun _ s h => h) unlisted
      (fun s h => h)) (fun _ => ?_)
    refine Triple.bind (Q := fun _ s => f.close = .none ∧ Preparing s₀ A names.stage s)
      (Triple.attempt (fun hf s h => ⟨hf, h⟩) (fun _ s h => unlisted s (prepared s h))
        (fun s h => (prepared s h).keeping)) (fun _ => Triple.assuming (fun hclose => ?_))
    refine Triple.bind (Q := fun _ s => Keeping s₀ (fun _ _ => True) s ∧
      s.stages names.stage = none) ((commit_triple hfresh.recovery).consequence
        (fun s h => h) (fun _ s h => ⟨forget s h.1, h.2⟩) ?_ forget) (fun _ => ?_)
    · rintro s ⟨hk, hcases⟩
      refine ⟨forget s hk, ?_⟩
      rcases hcases with hu | hn | ⟨hw, hl⟩
      · exact Or.inl hu
      · exact Or.inr (Or.inl hn)
      · rcases hsafe with hkeep | hwhole
        · exact Or.inr (Or.inr (Or.inl (hkeep _ _ hk.flags)))
        · exact Or.inr (Or.inr (Or.inr (hwhole ⟨hprepare, hstage, hclose, hw, hl⟩)))
    · exact Triple.attempt (fun _ s h => h) (fun _ s h => ⟨h.1, Or.inr (Or.inl h.2)⟩)
        (fun s h => h.1)
  · intro _
    exact releaseStage_triple.strengthen (fun s h => ⟨h.1, Or.inr (Or.inl h.2)⟩)
  · exact releaseStage_triple

theorem publish_nothing :
    Triple (Preparing s₀ A n) (done ()) (fun _ => Preparing s₀ A n) (Preparing s₀ A n)
      (Keeping s₀ A) :=
  Triple.done (fun _ h => h)

theorem create_publish_triple {g : OperationFaults} :
    Triple (Preparing s₀ A n) (do attempt g.upload; update (setFlags true false))
      (fun _ => Preparing s₀ (fun uploaded _ => uploaded = true) n) (Preparing s₀ A n)
      (Keeping s₀ A) := by
  refine Triple.bind (Q := fun _ => Preparing s₀ A n)
    (Triple.attempt (fun _ _ h => h) (fun _ _ h => h) (fun _ h => h.keeping)) (fun _ => ?_)
  exact Triple.update (fun _ h => setFlags_preparing h rfl)

theorem rotate_publish_triple {g : OperationFaults} :
    Triple (Preparing s₀ (fun _ _ => True) n)
      (do
        attempt g.upload
        update (setFlags true false)
        orElse
          (do attempt g.deleteOld; update (setFlags true true))
          (do attempt g.deleteNew; update (setFlags false false); throwing))
      (fun _ => Preparing s₀ (fun uploaded _ => uploaded = true) n)
      (Preparing s₀ (fun _ _ => True) n) (Keeping s₀ (fun _ _ => True)) := by
  have free : ∀ u o s, Preparing s₀ (fun _ _ => True) n s →
      Preparing s₀ (fun _ _ => True) n (setFlags u o s) :=
    fun u o s h => setFlags_preparing h trivial
  refine Triple.bind (Q := fun _ => Preparing s₀ (fun _ _ => True) n)
    (Triple.attempt (fun _ _ h => h) (fun _ _ h => h) (fun _ h => h.keeping)) (fun _ => ?_)
  refine Triple.bind (Q := fun _ => Preparing s₀ (fun _ _ => True) n)
    (Triple.update (free true false)) (fun _ => ?_)
  refine Triple.orElse (I := Preparing s₀ (fun _ _ => True) n) ?_ ?_
  · refine Triple.bind (Q := fun _ => Preparing s₀ (fun _ _ => True) n)
      (Triple.attempt (fun _ _ h => h) (fun _ _ h => h) (fun _ h => h.keeping)) (fun _ => ?_)
    exact Triple.update (fun _ h => setFlags_preparing h rfl)
  · refine Triple.bind (Q := fun _ => Preparing s₀ (fun _ _ => True) n)
      (Triple.attempt (fun _ _ h => h) (fun _ _ h => h) (fun _ h => h.keeping)) (fun _ => ?_)
    refine Triple.bind (Q := fun _ => Preparing s₀ (fun _ _ => True) n)
      (Triple.update (free false false)) (fun _ => ?_)
    exact Triple.throwing (fun _ h => h)

end Operations

/-- Operations whose `finally` block still deletes the stage once commit has begun. -/
def Method.CleansUp : Method → Prop
  | .create | .changePasswordCloud => False
  | .createExternal | .importStorage | .restore | .changePasswordExternal => True

/-- Either the failing commit does not leave a journalled stage behind, or the cleanup
that follows removes all of it or nothing. -/
def Allowed (s : State) : Event → Prop
  | .run m names _ f => m.CleansUp → CommitLeavesStage s names f → ¬f.cleanup.CutsShort
  | .construct _ => True
  | .use _ => True

theorem run_keeping {s : State} {m : Method} {names : Journal} {build : Staging}
    {f : OperationFaults} (hs : Consistent s) (he : Fresh s names)
    (ha : m.CleansUp → CommitLeavesStage s names f → ¬f.cleanup.CutsShort) :
    Keeping s (fun _ _ => True) (m.run names build f s).state := by
  cases m with
  | create =>
    exact (replaceTree_triple hs he create_publish_triple
      (Or.inl (fun _ _ h => h))).state_of rfl
  | createExternal =>
    exact (replaceTree_triple hs he publish_nothing (Or.inr (ha trivial))).state_of rfl
  | importStorage =>
    exact (replaceTree_triple hs he publish_nothing (Or.inr (ha trivial))).state_of rfl
  | restore =>
    exact (replaceTree_triple hs he publish_nothing (Or.inr (ha trivial))).state_of rfl
  | changePasswordExternal =>
    exact (replaceTree_triple hs he publish_nothing (Or.inr (ha trivial))).state_of rfl
  | changePasswordCloud =>
    exact (replaceTree_triple hs he rotate_publish_triple
      (Or.inl (fun u o (h : u = true) => by simp [h]))).state_of rfl

theorem recoverCommit_idle {s : State} (f : RecoveryFaults) (h : s.journal = none) :
    recoverCommit f s = .returned () s := by
  unfold recoverCommit
  rw [read_bind, h]
  rfl

theorem construct_keeping {s : State} {f : RecoveryFaults} (hs : Consistent s) :
    Keeping s (fun _ _ => True) (recoverCommit f s).state := by
  have hk : Keeping s (fun _ _ => True) s := ⟨hs, fun _ h => h, trivial⟩
  cases hj : s.journal with
  | none => rw [recoverCommit_idle f hj]; exact hk
  | some j =>
    refine (recoverCommit_triple (j := j) (f := f) |>.consequence (fun s h => h)
      (fun _ s h => h.1) (fun s h => h.1) (fun s h => h)).state_of ?_
    exact ⟨hk, hj, rfl, rfl⟩

theorem step_preserves_consistent {s : State} {e : Event} (hs : Consistent s)
    (he : Enabled s e) (ha : Allowed s e) : Consistent (next s e) := by
  cases e with
  | run m names build f => exact (run_keeping hs he ha).consistent
  | construct f => exact (construct_keeping hs).consistent
  | use tree =>
    refine ⟨hs.whole, fun _ => rfl, fun h => ?_, fun h => ?_, fun t ht => Or.inl ht⟩
    · cases h
    · cases h

theorem reachable_consistent {s : State} (h : Reachable (system.Within Allowed) s) :
    Consistent s := by
  refine reachable_invariant (fun s hi => ?_) (fun s e hs he => ?_) h
  · exact initial_consistent hi
  · exact step_preserves_consistent hs he.1 he.2

theorem makeRoom_returned {s t : State} {j : Journal} {f : RecoveryFaults}
    (h : makeRoom j f s = .returned () t) : t.stages = s.stages := by
  unfold makeRoom at h
  rw [read_bind] at h
  split at h
  · split at h
    · cases h
    · rw [(atomically_returned h).2]; rfl
  · cases h; rfl

theorem install_returned {s t : State} {j : Journal} {f : RecoveryFaults}
    (h : install j f s = .returned () t) : t.root = s.stages j.stage := by
  unfold install at h
  rw [read_bind] at h
  split at h
  · cases h
  · rw [(atomically_returned h).2]; rfl

theorem rollBack_returned {s t : State} {j : Journal} {f : RecoveryFaults}
    (h : rollBack j f s = .returned () t) :
    (s.root.isSome ∧ t.root = s.root) ∨
      (s.root = none ∧ (s.recoveries j.recovery).isSome ∧ t.root = s.recoveries j.recovery) := by
  unfold rollBack at h
  rw [read_bind] at h
  split at h
  · next hr => cases h; exact Or.inl ⟨hr, rfl⟩
  · next hr =>
    split at h
    · cases h
    · next ho =>
      rw [(atomically_returned h).2]
      exact Or.inr ⟨by simpa using hr, by simpa [Option.isSome_iff_ne_none] using ho, rfl⟩

/-- What a recovery that returns leaves at the root. -/
theorem recoverCommit_recovers {s t : State} {f : RecoveryFaults} (hs : Consistent s)
    (h : recoverCommit f s = .returned () t) :
    t.root = s.vault ∨
      ∃ j tree, s.journal = some j ∧ s.staged j.stage = some tree ∧ t.root = some tree := by
  cases hj : s.journal with
  | none =>
    rw [recoverCommit_idle f hj] at h
    cases h
    left
    cases hr : s.root with
    | none => exact (hs.idle hr hj).symm
    | some tree => rw [hs.at_root (by rw [hr]; rfl), hr]
  | some j =>
    unfold recoverCommit at h
    rw [read_bind, hj] at h
    obtain ⟨_, u, hu, hrest⟩ := bind_returned h
    obtain ⟨_, v, hv, hdelete⟩ := bind_returned hrest
    obtain rfl : u = s := (atomically_returned hu).2
    have hroot : t.root = v.root := by rw [(atomically_returned hdelete).2]; rfl
    unfold placeTrees at hv
    rw [read_bind] at hv
    split at hv
    · next hstage =>
      obtain ⟨_, w, hw, hinstall⟩ := bind_returned hv
      right
      rcases hs.whole j hj with hn | hn
      · rw [hn] at hstage; cases hstage
      · obtain ⟨tree, ht⟩ := Option.isSome_iff_exists.mp hstage
        refine ⟨j, tree, rfl, by rw [← hn, ht], ?_⟩
        rw [hroot, install_returned hinstall, makeRoom_returned hw, ht]
    · left
      rcases rollBack_returned hv with ⟨hr, hv⟩ | ⟨hr, ho, hv⟩
      · rw [hroot, hv, hs.at_root hr]
      · rcases hs.aside hr j hj with hn | hn
        · rw [hn] at ho; cases ho
        · rw [hroot, hv, hn]

/-- What the journal promises of a state: only a whole tree can be installed, a recovery
that returns leaves the previous or the fully staged tree, and no tree is deleted. -/
structure Safe (s : State) : Prop where
  installs_whole : ∀ j tree, s.journal = some j → s.stages j.stage = some tree →
    s.staged j.stage = some tree
  recovered : ∀ f t, recoverCommit f s = .returned () t → t.root = s.vault ∨
    ∃ j tree, s.journal = some j ∧ s.staged j.stage = some tree ∧ t.root = some tree
  vault_held : ∀ tree, s.vault = some tree → s.Holds tree
  never_deleted : ∀ e, Enabled s e → Allowed s e → (∀ tree, e ≠ .use tree) →
    ∀ tree, s.Holds tree → (next s e).Holds tree

theorem Consistent.safe {s : State} (hs : Consistent s) : Safe s := by
  refine ⟨?_, fun _ _ h => recoverCommit_recovers hs h, hs.kept, ?_⟩
  · intro j tree hj ht
    rcases hs.whole j hj with hn | hn
    · rw [hn] at ht; cases ht
    · rw [← hn, ht]
  · intro e he ha hu
    cases e with
    | run m names build f => exact (run_keeping hs he ha).holds
    | construct f => exact (construct_keeping hs).holds
    | use tree => exact absurd rfl (hu tree)

/-- Whatever throws or crashes, in every run in which no cleanup is cut short on a stage
that a failed commit left in the journal. -/
theorem journalled_commit_safe {s : State} (h : Reachable (system.Within Allowed) s) :
    Safe s :=
  (reachable_consistent h).safe

def noRecoveryFaults : RecoveryFaults := ⟨.none, .none, .none, .none, .none⟩

def noFaults : OperationFaults :=
  ⟨.none, .none, .none, .none, .none, .none, .none, noRecoveryFaults, .none, .none, .none⟩

/-- A vault at rest, with nothing staged. -/
def atRest (root : Option Tree) : State :=
  ⟨root, fun _ => none, fun _ => none, none, false, false, root, fun _ => none⟩

theorem atRest_reachable (M : System State Event) (root : Option Tree)
    (h : M.Initial = Initial) : Reachable M (atRest root) := by
  refine reachable_initial ?_
  rw [h]
  exact ⟨rfl, rfl, fun _ => rfl⟩

theorem atRest_enabled (root : Option Tree) (m : Method) (names : Journal) (build : Staging)
    (f : OperationFaults) : system.Enabled (atRest root) (.run m names build f) :=
  ⟨rfl, rfl, fun _ hj => by cases hj⟩

def previousVault : State := atRest (some [⟨.database, .bytes [0]⟩])

def restoreEvent (f : OperationFaults) : Event :=
  .run .restore ⟨⟨.restore, 1⟩, ⟨.restore, 2⟩⟩
    ⟨fun _ => [], [⟨.f4, .share .next⟩, ⟨.database, .bytes [2]⟩]⟩ f

theorem restore_reachable (f : OperationFaults) :
    Reachable system (next previousVault (restoreEvent f)) :=
  reachable_step (atRest_reachable system _ rfl) (atRest_enabled _ _ _ _ f)

theorem journalled_commit_safe_after_restore :
    Safe (next previousVault (restoreEvent noFaults)) := by
  have hr : Reachable (system.Within Allowed) previousVault := atRest_reachable _ _ rfl
  have he : (system.Within Allowed).Enabled previousVault (restoreEvent noFaults) :=
    ⟨atRest_enabled _ _ _ _ _, fun _ _ hc => hc⟩
  exact journalled_commit_safe (reachable_step hr he)

/-- The install rename throws, and `deleteTree` stops after one file of the stage. -/
def cutFaults : OperationFaults :=
  { noFaults with
    recovery := { noRecoveryFaults with install := .throws 0 }
    cleanup := .throws 1 }

/-- The next construction installs the half-deleted stage as the vault. -/
theorem cut_cleanup_is_installed :
    Reachable system (next previousVault (restoreEvent cutFaults)) ∧
    ¬Safe (next previousVault (restoreEvent cutFaults)) ∧
    (next (next previousVault (restoreEvent cutFaults)) (.construct noRecoveryFaults)).root =
      some [⟨.database, .bytes [2]⟩] := by
  refine ⟨restore_reachable cutFaults, fun h => ?_, by decide⟩
  have hwhole := h.installs_whole ⟨⟨.restore, 1⟩, ⟨.restore, 2⟩⟩ [⟨.database, .bytes [2]⟩]
    (by decide) (by decide)
  revert hwhole
  decide

end AndroidCommitJournal
