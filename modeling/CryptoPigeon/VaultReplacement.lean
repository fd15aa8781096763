import CryptoPigeon.SecureVault

/-! # Whether a desktop vault is replaced all or nothing

Where an operation ends is decided by the first of its operations that fails: while the
stage is written, with the stage whole, between the two renames, or with the stage
installed. Only an end between the renames leaves no vault at the root. -/
namespace VaultReplacement

open FaultyProgram VaultTree SecureVault

/-- The same vault, perhaps with its version counter saved. -/
inductive Continues (a : Tree) : Tree → Prop
  | same : Continues a a
  | saved {c : Config} (version : Nat) : configOf a = some c →
      Continues a (saveConfig { c with backupVersion := version } a)

/-- The root is as it was. -/
def RootHeld (s₀ s : State) : Prop :=
  (s₀.root = none ∧ s.root = none) ∨
    ∃ a b, s₀.root = some a ∧ s.root = some b ∧ Continues a b

/-- A whole tree of the new split over the data `v`. -/
def New (v : Snapshot) (b : Tree) : Prop :=
  ∃ c, c.provisioning = .next ∧ Whole sharePaths c v b

/-- At the root is the previous vault or the new one, and the previous one is somewhere. -/
structure AllOrNothing (v : Snapshot) (s₀ s : State) : Prop where
  root : RootHeld s₀ s ∨ ∃ b, s.root = some b ∧ New v b
  kept : ∀ a, s₀.root = some a → ∃ b, Continues a b ∧ (s.root = some b ∨ s.aside = some b)

def NewKept (v : Snapshot) (s : State) : Prop :=
  ∃ b, New v b ∧ (s.root = some b ∨ s.stage = some b)

inductive Point where
  | staging
  | staged
  | between
  | installed
  deriving DecidableEq, Repr

/-- Where an operation ends, and whether by a throw, after which the stage is removed. -/
structure Ending where
  point : Point
  threw : Bool
  deriving DecidableEq, Repr

/-- The two renames and what surrounds them; `present` says that there was a root. -/
def swapEnding (present : Bool) (F : Faults) : Ending :=
  if F.close ≠ .none then ⟨.staged, decide F.close.Throws⟩
  else if present = true ∧ ¬F.aside.TookPlace then ⟨.staged, decide F.aside.Throws⟩
  else if present = true ∧ F.aside ≠ .none then ⟨.between, false⟩
  else if F.install.TookPlace then ⟨.installed, false⟩
  else ⟨if present then .between else .staged, decide F.install.Throws⟩

def restoreEnding (present : Bool) (F : Faults) : Ending :=
  if F.prepare ≠ .none ∨ F.build ≠ .none then ⟨.staging, false⟩ else swapEnding present F

/-- As `restoreEnding`, with the rollback of a failing second rename. -/
def importEnding (present : Bool) (F : Faults) : Ending :=
  if F.prepare ≠ .none ∨ F.build ≠ .none then ⟨.staging, false⟩
  else if (swapEnding present F).point = .between ∧ F.aside = .none ∧ F.install.Throws then
    ⟨if F.rollback.TookPlace then .staged else .between, decide ¬F.rollback.Crashes⟩
  else swapEnding present F

def changeEnding (s : State) (c : Config) (F : Faults) : Ending :=
  if c.external = true ∨ c.cloudBackup = false then
    if F.prepare ≠ .none ∨ F.build ≠ .none then ⟨.staging, false⟩ else swapEnding true F
  else if F.prepare ≠ .none ∨ F.download ≠ .none ∨ s.newRecord ≠ none ∨ F.sync ≠ .none ∨
      c.backupVersion ≠ versionOf s.oldRecord ∨ F.save ≠ .none ∨ F.build ≠ .none ∨
      F.upload ≠ .none ∨ F.saveStaged ≠ .none then ⟨.staging, false⟩
  else if F.deleteOld ≠ .none then ⟨.staged, decide F.deleteOld.Throws⟩
  else swapEnding true F

/-- The root is as it was and nothing is aside. -/
structure Held (s₀ s : State) : Prop where
  root : RootHeld s₀ s
  aside : s.aside = none

/-- The stage is there, whole. -/
def StagedNew (v : Snapshot) (s : State) : Prop :=
  ∃ c t, s.stage = some (saveConfig c t) ∧ New v (saveConfig c t)

/-- The root is free, and what was there is aside. -/
structure Cleared (v : Snapshot) (s₀ s : State) : Prop where
  root : s.root = none
  aside : ∀ a, s₀.root = some a → ∃ b, Continues a b ∧ s.aside = some b
  bare : s₀.root = none → s.aside = none
  stage : StagedNew v s

structure Installed (v : Snapshot) (s₀ s : State) : Prop where
  root : ∃ b, s.root = some b ∧ New v b
  aside : ∀ a, s₀.root = some a → ∃ b, Continues a b ∧ s.aside = some b
  stage : s.stage = none

def At (v : Snapshot) (s₀ : State) : Point → State → Prop
  | .staging, s => Held s₀ s
  | .staged, s => Held s₀ s ∧ StagedNew v s
  | .between, s => s₀.root ≠ none ∧ Cleared v s₀ s
  | .installed, s => Installed v s₀ s

/-- The body ended where the faults say, with the exit they say. -/
def Ended (v : Snapshot) (s₀ : State) (e : Ending) (threw : Bool) (s : State) : Prop :=
  At v s₀ e.point s ∧ (e.point = .staged ∨ e.point = .between → e.threw = threw)

/-- The body returned, with the new tree installed. -/
def Done (v : Snapshot) (s₀ : State) (e : Ending) (s : State) : Prop :=
  e.point = .installed ∧ Installed v s₀ s

section Swap

variable {v : Snapshot} {s₀ : State} {F : Faults} {e : Ending}

theorem swapEnding_installed {present : Bool} (hclose : F.close = .none)
    (haside : present = true → F.aside = .none) (htook : F.install.TookPlace) :
    (swapEnding present F).point = .installed := by
  cases present with
  | true => simp [swapEnding, hclose, haside rfl, htook]
  | false => simp [swapEnding, hclose, htook]

theorem swapEnding_cut {present : Bool} (hclose : F.close = .none)
    (haside : present = true → F.aside = .none) (hcut : ¬F.install.TookPlace) :
    swapEnding present F =
      ⟨if present then .between else .staged, decide F.install.Throws⟩ := by
  cases present with
  | true => simp [swapEnding, hclose, haside rfl, hcut]
  | false => simp [swapEnding, hclose, hcut]

theorem held_kept {s : State} (h : RootHeld s₀ s) :
    ∀ a, s₀.root = some a → ∃ b, Continues a b ∧ s.root = some b := by
  intro a ha
  rcases h with ⟨hnone, _⟩ | ⟨a', b, ha', hb, hc⟩
  · rw [hnone] at ha
    cases ha
  · rw [ha'] at ha
    cases ha
    exact ⟨b, hc, hb⟩

theorem held_none {s : State} (h : RootHeld s₀ s) : s.root = none ↔ s₀.root = none := by
  rcases h with ⟨h₀, h⟩ | ⟨a, b, h₀, h, _⟩ <;> simp [h₀, h]

theorem moveAside_cleared {s : State} (h : Held s₀ s) (hstage : StagedNew v s) :
    Cleared v s₀ (moveAside s) :=
  ⟨rfl, held_kept h.root, (held_none h.root).mpr, hstage⟩

theorem installStage_installed {s : State} (h : Cleared v s₀ s) : Installed v s₀ (installStage s) := by
  obtain ⟨c, t, hstage, hnew⟩ := h.stage
  exact ⟨⟨saveConfig c t, hstage, hnew⟩, h.aside, rfl⟩

/-- After the swap nothing but the memory changes. -/
theorem reopen_installed (he : e.point = .installed) :
    Triple (Installed v s₀) (reopen F) (fun _ => Done v s₀ e)
      (Ended v s₀ e true) (Ended v s₀ e false) := by
  have hended (threw : Bool) (s : State) (h : Installed v s₀ s) : Ended v s₀ e threw s := by
    refine ⟨?_, fun hp => ?_⟩
    · rw [he]
      exact h
    · rw [he] at hp
      exact hp.elim nofun nofun
  refine Triple.bind (Triple.attempt (Q := fun _ => Installed v s₀) (fun _ _ h => h)
    (fun _ => hended true) (hended false)) fun _ => ?_
  refine Triple.bind (Q := fun _ => Installed v s₀) (Triple.update fun s h => ?_) fun _ => ?_
  · unfold readConfig
    split
    · exact h
    · exact ⟨h.root, h.aside, h.stage⟩
  · exact Triple.bind (Triple.attempt (Q := fun _ => Installed v s₀) (fun _ _ h => h)
      (fun _ => hended true) (hended false)) fun _ =>
      Triple.update fun s h => ⟨he, h.root, h.aside, h.stage⟩

/-- Where a swap ends that leaves the root free. -/
theorem cleared_ended {s : State} {threw : Bool} (h : Cleared v s₀ s)
    (he : e = ⟨if s₀.root.isSome then .between else .staged, threw⟩) : Ended v s₀ e threw s := by
  subst he
  refine ⟨?_, fun _ => rfl⟩
  cases hroot : s₀.root with
  | none => exact ⟨⟨.inl ⟨hroot, h.root⟩, h.bare hroot⟩, h.stage⟩
  | some a => exact ⟨by simp [hroot], h⟩

theorem install_ended (htook : F.install.TookPlace → e.point = .installed)
    (hcut : ¬F.install.TookPlace →
      e = ⟨if s₀.root.isSome then .between else .staged, decide F.install.Throws⟩) :
    Triple (Cleared v s₀) (do atomically installStage F.install; reopen F)
      (fun _ => Done v s₀ e) (Ended v s₀ e true) (Ended v s₀ e false) := by
  by_cases hplace : F.install.TookPlace
  · have hpoint := htook hplace
    refine Triple.bind (Q := fun _ => Installed v s₀) (Triple.atomically_cases
      (fun _ _ h => installStage_installed h) (fun hthrows => absurd hplace hthrows.not_tookPlace)
      (fun _ hnot => absurd hplace hnot) (fun _ _ s h => ?_)) fun _ => reopen_installed hpoint
    refine ⟨?_, fun hp => ?_⟩
    · rw [hpoint]
      exact installStage_installed h
    · rw [hpoint] at hp
      exact hp.elim nofun nofun
  · have hend := hcut hplace
    refine Triple.bind (Q := fun _ _ => False) (Triple.atomically_cases
      (fun hnone => absurd (hnone ▸ trivial) hplace) (fun hthrows s h => ?_)
      (fun hcrash _ s h => ?_) (fun _ htp => absurd htp hplace)) fun _ _ h => h.elim
    · exact cleared_ended h (by simpa [hthrows] using hend)
    · have hnot : ¬F.install.Throws := fun hthrows => hthrows.not_crashes hcrash
      exact cleared_ended h (by simpa [hnot] using hend)

/-- The stage is whole and the root as it was. -/
def Ready (v : Snapshot) (s₀ s : State) : Prop := Held s₀ s ∧ StagedNew v s

theorem ready_ended {s : State} {threw : Bool} (h : Ready v s₀ s) (he : e = ⟨.staged, threw⟩) :
    Ended v s₀ e threw s := by
  subst he
  exact ⟨h, fun _ => rfl⟩

/-- The rename of the root, and what follows a failure of it. -/
theorem moveAside_ended (hcut : ¬F.aside.TookPlace → e = ⟨.staged, decide F.aside.Throws⟩)
    (hafter : F.aside ≠ .none → F.aside.TookPlace → e = ⟨.between, false⟩)
    (hroot : s₀.root.isSome) :
    Triple (Ready v s₀) (atomically moveAside F.aside)
      (fun _ s => F.aside = .none ∧ Cleared v s₀ s) (Ended v s₀ e true) (Ended v s₀ e false) := by
  refine Triple.atomically_cases (fun hnone s h => ⟨hnone, moveAside_cleared h.1 h.2⟩)
    (fun hthrows s h => ?_) (fun hcrash hnot s h => ?_) (fun hcrash htook s h => ?_)
  · exact ready_ended h (by simpa [hthrows] using hcut hthrows.not_tookPlace)
  · have hthrows : ¬F.aside.Throws := fun hthrows => hthrows.not_crashes hcrash
    exact ready_ended h (by simpa [hthrows] using hcut hnot)
  · refine cleared_ended (moveAside_cleared h.1 h.2) ?_
    rw [if_pos hroot]
    exact hafter hcrash.ne_none htook

theorem close_ended (hcut : F.close ≠ .none → e = ⟨.staged, decide F.close.Throws⟩) :
    Triple (Ready v s₀) (attempt F.close) (fun _ s => F.close = .none ∧ Ready v s₀ s)
      (Ended v s₀ e true) (Ended v s₀ e false) := by
  refine Triple.attempt_cases (fun hnone s h => ⟨hnone, h⟩) (fun hthrows s h => ?_)
    (fun hcrash s h => ?_)
  · exact ready_ended h (by simpa [hthrows] using hcut hthrows.ne_none)
  · have hthrows : ¬F.close.Throws := fun hthrows => hthrows.not_crashes hcrash
    exact ready_ended h (by simpa [hthrows] using hcut hcrash.ne_none)

/-- The swap of `changeSecurePassword`. -/
theorem swapTrees_ended (hroot : s₀.root.isSome) :
    Triple (Ready v s₀) (swapTrees F) (fun _ => Done v s₀ (swapEnding true F))
      (Ended v s₀ (swapEnding true F) true) (Ended v s₀ (swapEnding true F) false) := by
  refine Triple.bind (close_ended fun h => by simp [swapEnding, h]) fun _ => ?_
  refine Triple.assuming fun hclose => ?_
  refine Triple.bind (Q := fun _ => Ready v s₀) (Triple.update fun s h =>
    ⟨⟨h.1.root, h.1.aside⟩, h.2⟩) fun _ => ?_
  refine Triple.bind (moveAside_ended (fun h => by simp [swapEnding, hclose, h])
    (fun hne h => by simp [swapEnding, hclose, h, hne]) hroot) fun _ => ?_
  refine Triple.assuming fun haside => ?_
  refine install_ended (swapEnding_installed hclose fun _ => haside) fun hcut => ?_
  rw [hroot]
  exact swapEnding_cut hclose (fun _ => haside) hcut

end Swap

section Staging

variable {v : Snapshot} {s₀ : State} {F : Faults} {e : Ending}

theorem held_ended {s : State} {threw : Bool} (h : Held s₀ s) (he : e.point = .staging) :
    Ended v s₀ e threw s := by
  refine ⟨?_, fun hp => ?_⟩
  · rw [he]
    exact h
  · rw [he] at hp
    exact hp.elim nofun nofun

/-- An operation that leaves the root alone and comes before the stage is whole. -/
theorem attempt_staging {fault : Fault} (hcut : fault ≠ .none → e.point = .staging) :
    Triple (Held s₀) (attempt fault) (fun _ s => fault = .none ∧ Held s₀ s)
      (Ended v s₀ e true) (Ended v s₀ e false) :=
  Triple.attempt_cases (fun hnone _ h => ⟨hnone, h⟩)
    (fun hthrows _ h => held_ended h (hcut hthrows.ne_none))
    (fun hcrash _ h => held_ended h (hcut hcrash.ne_none))

theorem stageTree_staging {b : Staging} {fault : Fault} {P : State → Prop}
    (hP : ∀ s, P s → Held s₀ s) (hcut : fault ≠ .none → e.point = .staging) :
    Triple P (stageTree b fault)
      (fun _ s => fault = .none ∧ ∃ u, P u ∧ s = { u with stage := some b.full })
      (Ended v s₀ e true) (Ended v s₀ e false) := by
  refine Triple.gradually (fun hnone s h => ⟨hnone, s, h, rfl⟩) (fun n hf s h => ?_)
    (fun n hf s h => ?_)
  · exact held_ended ⟨(hP s h).root, (hP s h).aside⟩ (hcut (by rw [hf]; nofun))
  · exact held_ended ⟨(hP s h).root, (hP s h).aside⟩ (hcut (by rw [hf]; nofun))

/-- The stage of both ways of restoring. -/
theorem restored_ready {c : Config} (hc : c.provisioning = .next)
    (hcut : F.build ≠ .none → e.point = .staging) :
    Triple (Held s₀) (stageTree (stagedFrom [] (restoreWrites v c)) F.build)
      (fun _ s => F.build = .none ∧ Ready v s₀ s)
      (Ended v s₀ e true) (Ended v s₀ e false) := by
  refine (stageTree_staging (fun _ h => h) hcut).weaken ?_
  rintro _ s ⟨hbuild, u, hu, rfl⟩
  refine ⟨hbuild, ⟨hu.root, hu.aside⟩, c, stagedData v c.provisioning, ?_, c, hc, restored_whole⟩
  exact congrArg some restored_full

/-- `moveAside` where there may be no root. -/
theorem moveAsideIfPresent_ended
    (hcut : s₀.root.isSome → ¬F.aside.TookPlace → e = ⟨.staged, decide F.aside.Throws⟩)
    (hafter : s₀.root.isSome → F.aside ≠ .none → F.aside.TookPlace → e = ⟨.between, false⟩) :
    Triple (Ready v s₀) (moveAsideIfPresent F)
      (fun _ s => (s₀.root.isSome → F.aside = .none) ∧ Cleared v s₀ s)
      (Ended v s₀ e true) (Ended v s₀ e false) := by
  refine Triple.read fun r hr => ?_
  have hnone := held_none hr.1.root
  refine Triple.ite (fun hpresent => ?_) (fun habsent => ?_)
  · have hroot : s₀.root.isSome := by
      rw [Option.isSome_iff_ne_none] at hpresent ⊢
      exact fun h₀ => hpresent (hnone.mpr h₀)
    refine ((moveAside_ended (hcut hroot) (hafter hroot) hroot).strengthen fun s h => h.1).weaken ?_
    exact fun _ s h => ⟨fun _ => h.1, h.2⟩
  · have h₀ : s₀.root = none := hnone.mp (by simpa using habsent)
    refine Triple.done fun s h => ⟨fun hroot => ?_, (held_none h.1.1.root).mpr h₀, fun a ha => ?_,
      fun _ => h.1.1.aside, h.1.2⟩
    · rw [h₀] at hroot
      cases hroot
    · rw [h₀] at ha
      cases ha

end Staging

section Bodies

variable {v : Snapshot} {s₀ : State} {F : Faults}

theorem restore_body_ended {version : Nat} :
    Triple (Held s₀)
      (do
        attempt F.prepare
        stageTree (stagedFrom [] (restoreWrites v ⟨.next, true, false, version⟩)) F.build
        attempt F.close
        moveAsideIfPresent F
        atomically installStage F.install
        reopen F)
      (fun _ => Done v s₀ (restoreEnding s₀.root.isSome F))
      (Ended v s₀ (restoreEnding s₀.root.isSome F) true)
      (Ended v s₀ (restoreEnding s₀.root.isSome F) false) := by
  refine Triple.bind (attempt_staging fun h => by simp [restoreEnding, h]) fun _ => ?_
  refine Triple.assuming fun hprepare => ?_
  refine Triple.bind (restored_ready rfl fun h => by simp [restoreEnding, h]) fun _ => ?_
  refine Triple.assuming fun hbuild => ?_
  have hswap : restoreEnding s₀.root.isSome F = swapEnding s₀.root.isSome F := by
    simp [restoreEnding, hprepare, hbuild]
  rw [hswap]
  refine Triple.bind (close_ended fun h => by simp [swapEnding, h]) fun _ => ?_
  refine Triple.assuming fun hclose => ?_
  refine Triple.bind (moveAsideIfPresent_ended
    (fun hroot h => by simp [swapEnding, hclose, hroot, h])
    (fun hroot hne h => by simp [swapEnding, hclose, hroot, h, hne])) fun _ => ?_
  refine Triple.assuming fun haside => ?_
  exact install_ended (swapEnding_installed hclose haside) (swapEnding_cut hclose haside)

/-- A failing second rename of `importStorage` is undone if the rollback is. -/
theorem installOrRollBack_ended {e : Ending}
    (htook : F.install.TookPlace → e.point = .installed)
    (hcrash : F.install.Crashes → ¬F.install.TookPlace →
      e = ⟨if s₀.root.isSome then .between else .staged, false⟩)
    (habsent : s₀.root.isSome = false → F.install.Throws → e = ⟨.staged, true⟩)
    (hback : s₀.root.isSome → F.install.Throws →
      e = ⟨if F.rollback.TookPlace then .staged else .between, decide ¬F.rollback.Crashes⟩) :
    Triple (Cleared v s₀) (orElse (atomically installStage F.install) (rollBack F))
      (fun _ s => F.install = .none ∧ Installed v s₀ s) (Ended v s₀ e true)
      (Ended v s₀ e false) := by
  refine Triple.orElse (I := fun s => F.install.Throws ∧ Cleared v s₀ s) (Triple.atomically_cases
    (fun hnone s h => ⟨hnone, installStage_installed h⟩) (fun hthrows s h => ⟨hthrows, h⟩)
    (fun hcr hnot s h => cleared_ended h (hcrash hcr hnot)) (fun _ htp s h => ?_)) ?_
  · refine ⟨?_, fun hp => ?_⟩
    · rw [htook htp]
      exact installStage_installed h
    · rw [htook htp] at hp
      exact hp.elim nofun nofun
  refine Triple.assuming fun hthrows => Triple.read fun r hr => ?_
  cases hroot : s₀.root with
  | none =>
    rw [if_neg (by simp [hr.bare hroot])]
    refine Triple.throwing fun s h => cleared_ended h.1 ?_
    have he := habsent (by simp [hroot]) hthrows
    simpa [hroot] using he
  | some a =>
    obtain ⟨b, hcont, haside⟩ := hr.aside a hroot
    have he := hback (by simp [hroot]) hthrows
    have hmoved (s : State) (h : Cleared v s₀ s) : Held s₀ (moveBack s) ∧ StagedNew v (moveBack s) := by
      obtain ⟨b, hcont, haside⟩ := h.aside a hroot
      exact ⟨⟨.inr ⟨a, b, hroot, haside, hcont⟩, rfl⟩, h.stage⟩
    rw [if_pos (by simp [haside])]
    refine Triple.bind (Q := fun _ s => F.rollback = .none ∧ Ready v s₀ s) (Triple.atomically_cases
      (fun hnone s h => ⟨hnone, hmoved s h.1⟩) (fun ht s h => ?_) (fun hc hnot s h => ?_)
      (fun hc htp s h => ?_)) fun _ => ?_
    · refine cleared_ended h.1 ?_
      simpa [ht.not_tookPlace, ht.not_crashes, hroot] using he
    · refine cleared_ended h.1 ?_
      simpa [hnot, hc, hroot] using he
    · exact ready_ended (hmoved s h.1) (by simpa [htp, hc] using he)
    · refine Triple.assuming fun hnone => Triple.throwing fun s h => ready_ended h ?_
      simpa [hnone] using he

theorem import_body_ended :
    Triple (Held s₀)
      (do
        attempt F.prepare
        stageTree (stagedFrom [] (restoreWrites v ⟨.next, true, false, 0⟩)) F.build
        attempt F.close
        moveAsideIfPresent F
        orElse (atomically installStage F.install) (rollBack F)
        reopen F)
      (fun _ => Done v s₀ (importEnding s₀.root.isSome F))
      (Ended v s₀ (importEnding s₀.root.isSome F) true)
      (Ended v s₀ (importEnding s₀.root.isSome F) false) := by
  refine Triple.bind (attempt_staging fun h => by simp [importEnding, h]) fun _ => ?_
  refine Triple.assuming fun hprepare => ?_
  refine Triple.bind (restored_ready rfl fun h => by simp [importEnding, h]) fun _ => ?_
  refine Triple.assuming fun hbuild => ?_
  refine Triple.bind (close_ended fun h => by simp [importEnding, swapEnding, hprepare, hbuild, h])
    fun _ => ?_
  refine Triple.assuming fun hclose => ?_
  refine Triple.bind (moveAsideIfPresent_ended
    (fun hroot h => by simp [importEnding, swapEnding, hprepare, hbuild, hclose, hroot, h])
    (fun hroot hne h => by
      simp [importEnding, swapEnding, hprepare, hbuild, hclose, hroot, h, hne])) fun _ => ?_
  refine Triple.assuming fun haside => ?_
  have hend : importEnding s₀.root.isSome F =
      if s₀.root.isSome = true ∧ F.install.Throws then
        ⟨if F.rollback.TookPlace then .staged else .between, decide ¬F.rollback.Crashes⟩
      else swapEnding s₀.root.isSome F := by
    by_cases hthrows : F.install.Throws
    · cases hroot : s₀.root.isSome with
      | true =>
        simp [importEnding, swapEnding_cut hclose (fun _ => haside hroot) hthrows.not_tookPlace,
          hprepare, hbuild, haside hroot, hthrows]
      | false =>
        have hcut : swapEnding false F = ⟨.staged, decide F.install.Throws⟩ :=
          swapEnding_cut hclose nofun hthrows.not_tookPlace
        simp [importEnding, hcut, hprepare, hbuild]
    · simp [importEnding, hprepare, hbuild, hthrows]
  have hinstalled (htook : F.install.TookPlace) :
      (importEnding s₀.root.isSome F).point = .installed := by
    have hthrows : ¬F.install.Throws := fun hthrows => hthrows.not_tookPlace htook
    rw [hend, if_neg (fun h => hthrows h.2)]
    exact swapEnding_installed hclose haside htook
  refine Triple.bind (installOrRollBack_ended hinstalled (fun hcrash hnot => ?_)
    (fun habsent hthrows => ?_) fun hroot hthrows => ?_) fun _ =>
    Triple.assuming fun hnone => reopen_installed (hinstalled (hnone ▸ trivial))
  · have hthrows : ¬F.install.Throws := fun hthrows => hthrows.not_crashes hcrash
    rw [hend, if_neg (fun h => hthrows h.2), swapEnding_cut hclose haside hnot]
    simp [hthrows]
  · rw [hend, if_neg (by simp [habsent]), swapEnding_cut hclose haside hthrows.not_tookPlace]
    simp [habsent, hthrows]
  · rw [hend, if_pos ⟨hroot, hthrows⟩]

/-- An unlocked vault: the configuration in memory is the root's but for the counter. -/
structure Opened (v : Snapshot) (t : Tree) (c : Config) (s : State) : Prop where
  root : s.root = some t
  whole : ∃ version, Whole sharePaths { c with backupVersion := version } v t
  split : c.provisioning = .previous
  memory : s.memory = some c
  unlocked : s.unlocked = true

/-- The stage copied from the root, with the shares of the new split. -/
theorem copyAndScatter_staging {e : Ending} {ws : List Write} {t : Tree} {P : State → Prop}
    (hP : ∀ s, P s → Held s₀ s ∧ s.root = some t) (hcut : F.build ≠ .none → e.point = .staging) :
    Triple P (copyAndScatter ws F)
      (fun _ s => F.build = .none ∧ ∃ u, P u ∧
        s = { u with stage := some (applyWrites (scatter .next ++ ws) t) })
      (Ended v s₀ e true) (Ended v s₀ e false) := by
  refine Triple.read fun r hr => ?_
  rw [(hP r hr).2]
  exact (stageTree_staging (fun s h => (hP s h.1).1) hcut).weaken fun _ s ⟨hbuild, u, hu, hs⟩ =>
    ⟨hbuild, u, hu.1, hs⟩

theorem changeExternal_ended {t : Tree} {c : Config} (h : Opened v t c s₀)
    (hprepare : F.prepare = .none) (hexternal : c.external = true ∨ c.cloudBackup = false) :
    Triple (fun s => Held s₀ s ∧ s.root = some t) (changeExternal F)
      (fun _ => Done v s₀ (changeEnding s₀ c F))
      (Ended v s₀ (changeEnding s₀ c F) true) (Ended v s₀ (changeEnding s₀ c F) false) := by
  refine Triple.bind (copyAndScatter_staging (fun s h => h) fun hb => by
    simp [changeEnding, hexternal, hb]) fun _ => ?_
  refine Triple.assuming fun hbuild => ?_
  have hend : changeEnding s₀ c F = swapEnding true F := by
    simp [changeEnding, hexternal, hprepare, hbuild]
  rw [hend]
  refine (swapTrees_ended (by simp [h.root])).strengthen ?_
  rintro s ⟨u, ⟨hheld, _⟩, rfl⟩
  obtain ⟨version, hwhole⟩ := h.whole
  refine ⟨⟨hheld.root, hheld.aside⟩, ⟨.next, true, false, 0⟩, applyWrites (scatter .next) t, ?_,
    ⟨.next, true, false, 0⟩, rfl, scattered_whole hwhole ⟨.next, true, false, 0⟩⟩
  exact congrArg some (applyWrites_append _ _)

/-- The root is `t`, with the records of the start but for those named. -/
structure Syncing (s₀ : State) (t : Tree) (old new : Option Record) (s : State) : Prop where
  held : Held s₀ s
  root : s.root = some t
  oldRecord : s.oldRecord = old
  newRecord : s.newRecord = new

theorem requireUnused_staging {e : Ending} {t : Tree} {old new : Option Record}
    (hcut : F.download ≠ .none ∨ new ≠ none → e.point = .staging) :
    Triple (Syncing s₀ t old new) (requireUnused F.download)
      (fun _ s => (F.download = .none ∧ new = none) ∧ Syncing s₀ t old new s)
      (Ended v s₀ e true) (Ended v s₀ e false) := by
  refine requireUnused_spec (fun s h => h.newRecord) (fun hfault s h => ?_)
    fun hc s h => held_ended h.held (hcut (.inl hc.ne_none))
  refine held_ended h.held (hcut (hfault.imp Fault.Throws.ne_none fun hused => hused.2))

theorem syncBackup_staging {e : Ending} {t : Tree} {c : Config} {old new : Option Record}
    (hconfig : ∃ version, configOf t = some { c with backupVersion := version })
    (hroot : s₀.root = some t)
    (hcut : F.sync ≠ .none ∨ c.backupVersion ≠ versionOf old ∨ F.save ≠ .none →
      e.point = .staging) :
    Triple (Syncing s₀ t old new) (syncBackup c F)
      (fun _ s => (F.sync = .none ∧ c.backupVersion = versionOf old ∧ F.save = .none) ∧
        Syncing s₀ (saveConfig (advance c) t) (some ⟨c.provisioning, c.backupVersion + 1⟩) new s)
      (Ended v s₀ e true) (Ended v s₀ e false) := by
  obtain ⟨version, hconfig⟩ := hconfig
  have hsaved (s : State) (h : Held s₀ s) (hr : s.root = some t) :
      Held s₀ (saveRoot (advance c) s) := by
    have hcontinues : Continues t (saveConfig (advance c) t) :=
      .saved (c := { c with backupVersion := version }) (c.backupVersion + 1) hconfig
    refine ⟨.inr ⟨t, saveConfig (advance c) t, hroot, ?_, hcontinues⟩, h.aside⟩
    unfold saveRoot
    rw [hr]
    rfl
  refine Triple.bind (Q := fun _ s => (c.backupVersion = versionOf old ∧ F.sync = .none) ∧
    Syncing s₀ t (some ⟨c.provisioning, c.backupVersion + 1⟩) new s) ?_ fun _ => ?_
  · have hrefused (hf : c.backupVersion ≠ versionOf old ∨ ¬F.sync.Applied) :
        e.point = .staging := by
      refine hcut (hf.elim (fun hstep => .inr (.inl hstep)) fun hnot => .inl ?_)
      intro hnone
      exact hnot (hnone ▸ Fault.none_applied)
    exact putOld_spec (fun s h => h.oldRecord)
      (fun s h => ⟨⟨h.held.root, h.held.aside⟩, h.root, rfl, h.newRecord⟩)
      (fun hf _ s h => held_ended h.held (hrefused hf))
      (fun _ ht _ s h => held_ended h.held (hcut (.inl ht.ne_none)))
      (fun hf _ s h => held_ended h.held (hrefused hf))
      (fun _ hc _ s h => held_ended h.held (hcut (.inl hc.ne_none)))
  · refine Triple.assuming fun hput => Triple.bind
      (Q := fun _ => Syncing s₀ t (some ⟨c.provisioning, c.backupVersion + 1⟩) new)
      (Triple.update fun s h => ⟨⟨h.held.root, h.held.aside⟩, h.root, h.oldRecord, h.newRecord⟩)
      fun _ => ?_
    refine Triple.atomically_cases (fun hnone s h => ⟨⟨hput.2, hput.1, hnone⟩, ?_⟩)
      (fun ht s h => held_ended h.held (hcut (.inr (.inr ht.ne_none))))
      (fun hc _ s h => held_ended h.held (hcut (.inr (.inr hc.ne_none))))
      (fun hc _ s h => held_ended (hsaved s h.held h.root) (hcut (.inr (.inr hc.ne_none))))
    refine ⟨hsaved s h.held h.root, ?_, h.oldRecord, h.newRecord⟩
    unfold saveRoot
    rw [h.root]
    rfl

theorem uploadStaged_ready {e : Ending} {o : Option Record} {t : Tree} {r : Tree}
    (hnew : New v (saveConfig ⟨.next, false, true, 1⟩ t))
    (hcut : F.upload ≠ .none ∨ F.saveStaged ≠ .none → e.point = .staging) :
    Triple (fun s => Syncing s₀ r o none s ∧ s.stage = some t) (uploadStaged F)
      (fun _ s => (F.upload = .none ∧ F.saveStaged = .none) ∧
        Ready v s₀ s ∧ s.oldRecord = o)
      (Ended v s₀ e true) (Ended v s₀ e false) := by
  refine Triple.bind (Q := fun _ s => F.upload = .none ∧ Held s₀ s ∧ s.oldRecord = o ∧
    s.stage = some t) ?_ fun _ => ?_
  · exact putNew_spec (fun s h => h.1.newRecord)
      (fun s h => ⟨⟨h.1.held.root, h.1.held.aside⟩, h.1.oldRecord, h.2⟩)
      (fun _ ht s h => held_ended h.1.held (hcut (.inl ht.ne_none)))
      (fun _ ht s h => held_ended h.1 (hcut (.inl ht.ne_none)))
      (fun _ hc s h => held_ended h.1.held (hcut (.inl hc.ne_none)))
      (fun _ hc s h => held_ended h.1 (hcut (.inl hc.ne_none)))
  refine Triple.assuming fun hupload => Triple.atomically_cases (fun hnone s h => ?_)
    (fun ht s h => held_ended h.1 (hcut (.inr ht.ne_none)))
    (fun hc _ s h => held_ended h.1 (hcut (.inr hc.ne_none)))
    (fun hc _ s h => held_ended ⟨h.1.root, h.1.aside⟩ (hcut (.inr hc.ne_none)))
  refine ⟨⟨hupload, hnone⟩, ⟨⟨h.1.root, h.1.aside⟩, ⟨.next, false, true, 1⟩, t, ?_, hnew⟩, h.2.1⟩
  unfold saveStage
  rw [h.2.2]
  rfl

theorem deleteOld_ended {e : Ending} {share : Provisioning} {n : Nat}
    (hcut : F.deleteOld ≠ .none → e = ⟨.staged, decide F.deleteOld.Throws⟩) :
    Triple (fun s => Ready v s₀ s ∧ s.oldRecord = some ⟨share, n⟩) (deleteOld n F.deleteOld)
      (fun _ s => F.deleteOld = .none ∧ Ready v s₀ s)
      (Ended v s₀ e true) (Ended v s₀ e false) := by
  have hkeeps (s : State) (h : Ready v s₀ s) : Ready v s₀ { s with oldRecord := none } :=
    ⟨⟨h.1.root, h.1.aside⟩, h.2⟩
  have hthrew (ht : F.deleteOld.Throws) : e = ⟨.staged, true⟩ := by
    simpa [ht] using hcut ht.ne_none
  have hcrashed (hc : F.deleteOld.Crashes) : e = ⟨.staged, false⟩ := by
    have hthrows : ¬F.deleteOld.Throws := fun ht => ht.not_crashes hc
    simpa [hthrows] using hcut hc.ne_none
  exact deleteOld_spec (fun s h => h.2) (fun s h => hkeeps s h.1)
    (fun _ ht s h => ready_ended h.1 (hthrew ht)) (fun _ ht s h => ready_ended h (hthrew ht))
    (fun _ hc s h => ready_ended h.1 (hcrashed hc)) (fun _ hc s h => ready_ended h (hcrashed hc))

theorem changeCloud_ended {t : Tree} {c : Config} (h : Opened v t c s₀)
    (hprepare : F.prepare = .none) (hcloud : ¬(c.external = true ∨ c.cloudBackup = false)) :
    Triple (Syncing s₀ t s₀.oldRecord s₀.newRecord) (changeCloud c F)
      (fun _ => Done v s₀ (changeEnding s₀ c F))
      (Ended v s₀ (changeEnding s₀ c F) true) (Ended v s₀ (changeEnding s₀ c F) false) := by
  obtain ⟨version, hwhole⟩ := h.whole
  refine Triple.bind (requireUnused_staging fun hd => ?_) fun _ => ?_
  · rw [changeEnding, if_neg hcloud, if_pos (by tauto)]
  refine Triple.assuming fun ⟨hdownload, hnew⟩ => ?_
  refine Triple.bind (syncBackup_staging ⟨version, hwhole.configOf⟩ h.root fun hd => ?_) fun _ => ?_
  · rw [changeEnding, if_neg hcloud, if_pos (by tauto)]
  refine Triple.assuming fun ⟨hsync, hstep, hsave⟩ => ?_
  refine Triple.bind (copyAndScatter_staging (fun s hs => ⟨hs.held, hs.root⟩) fun hd => ?_) fun _ => ?_
  · rw [changeEnding, if_neg hcloud, if_pos (by tauto)]
  refine Triple.assuming fun hbuild => ?_
  have hsaved : Whole sharePaths (advance c) v (saveConfig (advance c) t) :=
    hwhole.saveConfig rfl (by decide)
  refine Triple.bind ((uploadStaged_ready (r := saveConfig (advance c) t)
    (o := some ⟨c.provisioning, c.backupVersion + 1⟩)
    ⟨⟨.next, false, true, 1⟩, rfl, scattered_whole hsaved ⟨.next, false, true, 1⟩⟩
    fun hd => ?_).strengthen ?_) fun _ => ?_
  · rw [changeEnding, if_neg hcloud, if_pos (by tauto)]
  · rintro s ⟨u, hu, rfl⟩
    exact ⟨⟨⟨hu.held.root, hu.held.aside⟩, hu.root, hu.oldRecord, hu.newRecord.trans hnew⟩, rfl⟩
  refine Triple.assuming fun ⟨hupload, hsaveStaged⟩ => ?_
  have hend : changeEnding s₀ c F =
      if F.deleteOld ≠ .none then ⟨.staged, decide F.deleteOld.Throws⟩ else swapEnding true F := by
    rw [changeEnding, if_neg hcloud, if_neg (by tauto)]
  rw [hend]
  refine Triple.bind (deleteOld_ended fun hd => if_pos hd) fun _ => ?_
  refine Triple.assuming fun hdelete => ?_
  rw [if_neg (by simp [hdelete])]
  exact swapTrees_ended (by simp [h.root])

theorem change_body_ended {t : Tree} {c : Config} (h : Opened v t c s₀) :
    Triple (fun s => s = takeNames s₀)
      (do
        attempt F.prepare
        let s ← read
        match s.memory with
        | none => throwing
        | some c =>
          if s.unlocked = false then throwing
          else if c.external = true ∨ c.cloudBackup = false then changeExternal F
          else changeCloud c F)
      (fun _ => Done v s₀ (changeEnding s₀ c F))
      (Ended v s₀ (changeEnding s₀ c F) true) (Ended v s₀ (changeEnding s₀ c F) false) := by
  have hheld : Held s₀ (takeNames s₀) := ⟨.inr ⟨t, t, h.root, h.root, .same⟩, rfl⟩
  have hcut (hne : F.prepare ≠ .none) : (changeEnding s₀ c F).point = .staging := by
    unfold changeEnding
    split
    · rw [if_pos (.inl hne)]
    · rw [if_pos (.inl hne)]
  refine Triple.bind (Q := fun _ s => F.prepare = .none ∧ s = takeNames s₀)
    (Triple.attempt_cases (fun hnone s hs => ⟨hnone, hs⟩)
      (fun ht s hs => held_ended (hs ▸ hheld) (hcut ht.ne_none))
      (fun hc s hs => held_ended (hs ▸ hheld) (hcut hc.ne_none))) fun _ => ?_
  refine Triple.assuming fun hprepare => Triple.read fun r hr => ?_
  subst hr
  have hmemory : (takeNames s₀).memory = some c := h.memory
  have hunlocked : (takeNames s₀).unlocked = true := h.unlocked
  rw [hmemory]
  refine Triple.ite (fun hlocked => ?_) fun _ => ?_
  · rw [hunlocked] at hlocked
    cases hlocked
  refine Triple.ite (fun hexternal => ?_) fun hcloud => ?_
  · refine (changeExternal_ended h hprepare hexternal).strengthen ?_
    rintro s ⟨rfl, _⟩
    exact ⟨hheld, h.root⟩
  · refine (changeCloud_ended h hprepare hcloud).strengthen ?_
    rintro s ⟨rfl, _⟩
    exact ⟨hheld, h.root, rfl, rfl⟩

end Bodies

/-- The cleanup removes something of the stage. -/
def Deletes (cleanup : Fault) : Prop := cleanup = .none ∨ cleanup.CutsShort

/-- What is found afterwards. The second part also asks that a whole stage be kept. -/
structure Settled (v : Snapshot) (s₀ : State) (e : Ending) (cleanup : Fault) (s : State) : Prop where
  replaced : AllOrNothing v s₀ s ↔ e.point ≠ .between
  kept : (AllOrNothing v s₀ s ∧ (e.point ≠ .staging → NewKept v s)) ↔
    e.point ≠ .between ∧ ¬(e.point = .staged ∧ e.threw = true ∧ Deletes cleanup)

/-- The tree at the root is not of the new split. -/
def Tagged (s : State) : Prop :=
  ∀ a c, s.root = some a → configOf a = some c → c.provisioning = .previous

section Cleanup

variable {v : Snapshot} {s₀ : State} {F : Faults} {e : Ending}

theorem continues_not_new {a b : Tree} (h : Tagged s₀) (ha : s₀.root = some a)
    (hc : Continues a b) : ¬New v b := by
  rintro ⟨d, hd, hwhole⟩
  have hconfig := hwhole.configOf
  cases hc with
  | same =>
    have hprev := h a d ha hconfig
    rw [hd] at hprev
    cases hprev
  | @saved c n hcfg =>
    have hprev := h a c ha hcfg
    rw [configOf_saveConfig] at hconfig
    obtain rfl := Option.some.inj hconfig
    have hd : c.provisioning = .next := hd
    rw [hd] at hprev
    cases hprev

theorem held_allOrNothing {s : State} (h : RootHeld s₀ s) : AllOrNothing v s₀ s :=
  ⟨.inl h, fun a ha => (held_kept h a ha).imp fun _ hb => ⟨hb.1, .inl hb.2⟩⟩

theorem held_not_newKept {s : State} (htag : Tagged s₀) (h : RootHeld s₀ s)
    (hstage : ∀ b, s.stage = some b → ¬New v b) : ¬NewKept v s := by
  rintro ⟨b, hnew, hroot | hs⟩
  · rcases h with ⟨_, hnone⟩ | ⟨a, b', ha, hb', hc⟩
    · rw [hnone] at hroot
      cases hroot
    · rw [hb'] at hroot
      cases hroot
      exact continues_not_new htag ha hc hnew
  · exact hstage b hs hnew

theorem installed_settled {s : State} {cleanup : Fault} (he : e.point = .installed)
    (h : Installed v s₀ s) : Settled v s₀ e cleanup s := by
  have hall : AllOrNothing v s₀ s :=
    ⟨.inr h.root, fun a ha => (h.aside a ha).imp fun _ hb => ⟨hb.1, .inr hb.2⟩⟩
  have hnew : NewKept v s := h.root.imp fun _ hb => ⟨hb.2, .inl hb.1⟩
  constructor <;> simp [he, hall, hnew]

theorem absent_not_allOrNothing {s : State} (hroot : s₀.root ≠ none) (h : s.root = none) :
    ¬AllOrNothing v s₀ s := by
  rintro ⟨(⟨hnone, _⟩ | ⟨_, b, _, hb, _⟩) | ⟨b, hb, _⟩, _⟩
  · exact hroot hnone
  · rw [h] at hb
    cases hb
  · rw [h] at hb
    cases hb

theorem cleared_settled {s : State} {cleanup : Fault} (he : e.point = .between)
    (hroot : s₀.root ≠ none) (h : s.root = none) : Settled v s₀ e cleanup s := by
  have hnot : ¬AllOrNothing v s₀ s := absent_not_allOrNothing hroot h
  constructor <;> simp [he, hnot]

theorem staging_settled {s : State} {cleanup : Fault} (he : e.point = .staging)
    (h : RootHeld s₀ s) : Settled v s₀ e cleanup s := by
  have hall : AllOrNothing v s₀ s := held_allOrNothing h
  constructor <;> simp [he, hall]

/-- With the stage whole it depends on the cleanup whether it stays. -/
theorem staged_settled {s : State} {cleanup : Fault} (he : e.point = .staged)
    (h : RootHeld s₀ s) (hnew : NewKept v s ↔ ¬(e.threw = true ∧ Deletes cleanup)) :
    Settled v s₀ e cleanup s := by
  have hall : AllOrNothing v s₀ s := held_allOrNothing h
  constructor
  · simp [he, hall]
  · simpa [he, hall] using hnew

/-- After a crash nothing is cleaned up. -/
theorem crashed_settled {s : State} {cleanup : Fault} (h : Ended v s₀ e false s) :
    Settled v s₀ e cleanup s := by
  obtain ⟨hat, hthrew⟩ := h
  cases he : e.point with
  | staging =>
    rw [he] at hat
    exact staging_settled he hat.root
  | staged =>
    rw [he] at hat
    obtain ⟨c, t, hstage, hnew⟩ := hat.2
    have hkept : NewKept v s := ⟨_, hnew, .inr hstage⟩
    refine staged_settled he hat.1.root ?_
    simp [hkept, hthrew (.inl he)]
  | between =>
    rw [he] at hat
    exact cleared_settled he hat.1 hat.2.root
  | installed =>
    rw [he] at hat
    exact installed_settled he hat

/-- The cleanup after a throw, whatever becomes of it. -/
theorem cleanup_settled (htag : Tagged s₀) (cleanup : Fault) :
    Triple (Ended v s₀ e true) (removeStage cleanup) (fun _ => Settled v s₀ e cleanup)
      (Settled v s₀ e cleanup) (Settled v s₀ e cleanup) := by
  have hpart (s : State) (stage : Option Tree) (h : Ended v s₀ e true s)
      (hkept : ∀ c t, s.stage = some (saveConfig c t) → New v (saveConfig c t) →
        (¬Deletes cleanup → stage = s.stage) ∧
        (Deletes cleanup → ∀ b, stage = some b → ¬New v b))
      (hnone : s.stage = none → stage = none) :
      Settled v s₀ e cleanup { s with stage := stage } := by
    obtain ⟨hat, hthrew⟩ := h
    cases he : e.point with
    | staging =>
      rw [he] at hat
      exact staging_settled he hat.root
    | staged =>
      rw [he] at hat
      obtain ⟨hheld, c, t, hstage, hnew⟩ := hat
      refine staged_settled he hheld.root ?_
      rw [hthrew (.inl he)]
      by_cases hdel : Deletes cleanup
      · have hgone : ¬NewKept v { s with stage := stage } :=
          held_not_newKept htag hheld.root ((hkept c t hstage hnew).2 hdel)
        simp [hgone, hdel]
      · have hstays : NewKept v { s with stage := stage } :=
          ⟨_, hnew, .inr (((hkept c t hstage hnew).1 hdel).trans hstage)⟩
        simp [hstays, hdel]
    | between =>
      rw [he] at hat
      exact cleared_settled he hat.1 hat.2.root
    | installed =>
      rw [he] at hat
      exact installed_settled he ⟨hat.root, hat.aside, hnone hat.stage⟩
  have hdrop (n : Nat) (s : State) (h : Ended v s₀ e true s)
      (hdel : Deletes cleanup ↔ 0 < n) :
      Settled v s₀ e cleanup { s with stage := s.stage.map (List.drop n) } := by
    refine hpart s _ h (fun c t hstage hnew => ?_) fun hnone => by rw [hnone]; rfl
    rw [hstage]
    cases n with
    | zero => exact ⟨fun _ => rfl, fun hd => absurd (hdel.mp hd) (Nat.lt_irrefl 0)⟩
    | succ n =>
      refine ⟨fun hd => absurd (hdel.mpr (Nat.succ_pos n)) hd, fun _ b hb => ?_⟩
      obtain rfl := Option.some.inj hb
      rintro ⟨d, _, hwhole⟩
      have hgone := hwhole.config
      rw [fileAt_drop_saveConfig] at hgone
      cases hgone
  refine Triple.gradually (fun hnone s h => ?_) (fun n hf s h => ?_) (fun n hf s h => ?_)
  · exact hpart s none h (fun c t _ _ => ⟨fun hd => absurd (.inl hnone) hd, fun _ b hb => by cases hb⟩)
      fun _ => rfl
  · exact hdrop n s h (by simp [Deletes, hf, Fault.CutsShort])
  · exact hdrop n s h (by simp [Deletes, hf, Fault.CutsShort])

/-- After a return the stage has been renamed, and only its name is removed. -/
theorem done_settled (cleanup : Fault) :
    Triple (Done v s₀ e) (removeStage cleanup) (fun _ => Settled v s₀ e cleanup)
      (Settled v s₀ e cleanup) (Settled v s₀ e cleanup) := by
  have hpart (s : State) (stage : Option Tree) (h : Done v s₀ e s) (hnone : stage = none) :
      Settled v s₀ e cleanup { s with stage := stage } :=
    installed_settled h.1 ⟨h.2.root, h.2.aside, hnone⟩
  have hdrop (n : Nat) (s : State) (h : Done v s₀ e s) :
      Settled v s₀ e cleanup { s with stage := s.stage.map (List.drop n) } :=
    hpart s _ h (by rw [h.2.stage]; rfl)
  exact Triple.gradually (fun _ s h => hpart s none h rfl) (fun n _ => hdrop n) (fun n _ => hdrop n)

theorem handOver_settled {cleanup : Fault} {s : State} (h : Settled v s₀ e cleanup s) :
    Settled v s₀ e cleanup (handOver s) :=
  ⟨⟨fun hall => h.replaced.mp ⟨hall.root, hall.kept⟩, fun he => ⟨(h.replaced.mpr he).root,
      (h.replaced.mpr he).kept⟩⟩,
    ⟨fun hall => h.kept.mp ⟨⟨hall.1.root, hall.1.kept⟩, hall.2⟩, fun he =>
      ⟨⟨(h.kept.mpr he).1.root, (h.kept.mpr he).1.kept⟩, (h.kept.mpr he).2⟩⟩⟩

/-- A body that ends as its faults say, followed by the cleanup and the new shares. -/
theorem operation_settled {P : State → Prop} {p : Program State Unit} (htag : Tagged s₀)
    (hbody : Triple P p (fun _ => Done v s₀ e) (Ended v s₀ e true) (Ended v s₀ e false))
    {s : State} (hs : P s) :
    Settled v s₀ e F.cleanup
      (((do andFinally p (removeStage F.cleanup); update handOver) : Program State Unit) s).state := by
  refine Triple.state_of (Triple.bind (Triple.andFinally
    (hbody.consequence (fun _ h => h) (fun _ _ h => h) (fun _ h => h)
      fun _ h => crashed_settled h)
    (fun _ => done_settled F.cleanup) (cleanup_settled htag F.cleanup)) fun _ => ?_) hs
  exact Triple.update fun s h => handOver_settled h

end Cleanup

/-- `restoreSecure` and `importStorage` refuse an unlocked vault. -/
def lockedEnding (s : State) (e : Ending) : Ending :=
  if s.unlocked = true then ⟨.staging, false⟩ else e

theorem takeNames_held (s : State) : Held s (takeNames s) := by
  refine ⟨?_, rfl⟩
  cases h : s.root with
  | none => exact .inl ⟨h, h⟩
  | some a => exact .inr ⟨a, a, h, h, .same⟩

/-- An operation that begins with the refusal of an unlocked vault. -/
theorem locked_settled {v : Snapshot} {e : Ending} {cleanup : Fault} {s : State}
    {p : Program State Unit} (h : Settled v s e cleanup (p (takeNames s)).state) :
    Settled v s (lockedEnding s e) cleanup
      (((do requireLocked; update takeNames; p) : Program State Unit) s).state := by
  change Settled v s (lockedEnding s e) cleanup
    (andThen requireLocked (fun _ => andThen (update takeNames) fun _ => p) s).state
  unfold lockedEnding
  cases hlocked : s.unlocked with
  | true =>
    have hrefused : requireLocked s = .threw s := by
      unfold requireLocked
      rw [read_bind, if_pos hlocked]
      rfl
    simp only [andThen, hrefused]
    exact staging_settled rfl (takeNames_held s).root
  | false =>
    have hpassed : requireLocked s = .returned () s := by
      unfold requireLocked
      rw [read_bind, if_neg (by simp [hlocked])]
      rfl
    simp only [andThen, hpassed]
    rw [if_neg (by decide)]
    exact h

section Replacement

variable {v : Snapshot} {F : Faults} {s : State}

theorem restore_settled {version : Nat} (htag : Tagged s) :
    Settled v s (lockedEnding s (restoreEnding s.root.isSome F)) F.cleanup
      (restoreSecure v version F s).state :=
  locked_settled (operation_settled htag restore_body_ended (takeNames_held s))

theorem import_settled (htag : Tagged s) :
    Settled v s (lockedEnding s (importEnding s.root.isSome F)) F.cleanup
      (importStorage v F s).state :=
  locked_settled (operation_settled htag import_body_ended (takeNames_held s))

theorem Opened.tagged {t : Tree} {c : Config} (h : Opened v t c s) : Tagged s := by
  intro a d ha hd
  obtain ⟨version, hwhole⟩ := h.whole
  rw [h.root] at ha
  obtain rfl := Option.some.inj ha
  rw [hwhole.configOf] at hd
  obtain rfl := Option.some.inj hd
  exact h.split

theorem change_settled {t : Tree} {c : Config} (h : Opened v t c s) :
    Settled v s (changeEnding s c F) F.cleanup (changeSecurePassword F s).state :=
  operation_settled h.tagged (change_body_ended h) (P := fun u => u = takeNames s) rfl

/-- The one file of a vault without shares is lost where its write is cut. -/
theorem changePassword_whole {F : LegacyFaults} {s : LegacyState} (h : s.file ≠ .torn) :
    (changePassword F s).state.file ≠ .torn ↔
      ¬(F.rewrap = .none ∧ s.memory = .previous ∧ F.write.CutsShort) := by
  let settled := fun u : LegacyState => u.file ≠ .torn ↔
    ¬(F.rewrap = .none ∧ s.memory = .previous ∧ F.write.CutsShort)
  have hbefore (hne : ¬(F.rewrap = .none ∧ s.memory = .previous)) : settled s := by
    simp only [settled, h, ne_eq, not_false_eq_true, true_iff]
    exact fun hcut => hne ⟨hcut.1, hcut.2.1⟩
  suffices Triple (fun u => u = s) (changePassword F) (fun _ => settled) settled settled from
    this.state_of rfl
  refine Triple.bind (Q := fun _ u => F.rewrap = .none ∧ u = s) (Triple.attempt_cases
    (fun hnone u hu => ⟨hnone, hu⟩) (fun ht u hu => hu ▸ hbefore fun h => ht.ne_none h.1)
    (fun hc u hu => hu ▸ hbefore fun h => hc.ne_none h.1)) fun _ => Triple.assuming fun hrewrap => ?_
  refine Triple.read fun r hr => ?_
  subst hr
  refine Triple.ite (fun hold => ?_) fun hold => Triple.throwing fun u hu => ?_
  · refine Triple.bind (Q := fun _ u => u.file ≠ .torn)
      (Triple.update fun u hu => hu.1 ▸ h) fun _ => ?_
    have hpart (n : Nat) (hcut : F.write.CutsShort ↔ 0 < n) (u : LegacyState) (hu : u.file ≠ .torn) :
        settled (if n = 0 then u else { u with file := .torn }) := by
      cases n with
      | zero => simp [settled, hu, hcut]
      | succ n => simp [settled, hrewrap, hold, hcut]
    refine Triple.gradually (fun hnone u hu => ?_)
      (fun n hf => hpart n (by simp [hf, Fault.CutsShort]))
      (fun n hf => hpart n (by simp [hf, Fault.CutsShort]))
    simp [settled, hnone, Fault.CutsShort]
  · exact hu.1 ▸ hbefore fun h => hold h.2

end Replacement

/-- A replacement leaves the previous vault or the new one whole at the root unless it ends
between the two renames, and also leaves the new tree somewhere unless it throws with the
stage whole and the cleanup then deletes from it. -/
theorem replaced_unless_cut_between_renames (v : Snapshot) :
    (∀ (version : Nat) (F : Faults) (s : State), Tagged s →
      Settled v s (lockedEnding s (restoreEnding s.root.isSome F)) F.cleanup
        (restoreSecure v version F s).state) ∧
    (∀ (F : Faults) (s : State), Tagged s →
      Settled v s (lockedEnding s (importEnding s.root.isSome F)) F.cleanup
        (importStorage v F s).state) ∧
    (∀ (t : Tree) (c : Config) (F : Faults) (s : State), Opened v t c s →
      Settled v s (changeEnding s c F) F.cleanup (changeSecurePassword F s).state) ∧
    ∀ (F : LegacyFaults) (s : LegacyState), s.file ≠ .torn →
      ((changePassword F s).state.file ≠ .torn ↔
        ¬(F.rewrap = .none ∧ s.memory = .previous ∧ F.write.CutsShort)) :=
  ⟨fun _ _ _ => restore_settled, fun _ _ => import_settled, fun _ _ _ _ => change_settled,
    fun _ _ => changePassword_whole⟩

/-- An empty database and one attachment. -/
def smallVault : Snapshot := ⟨[], [("a", [1])], by decide⟩

def smallTree : Tree := (stagedFrom [] (restoreWrites smallVault ⟨.previous, false, true, 4⟩)).full

def lockedVault : State :=
  ⟨some smallTree, none, none, none, false, some ⟨.previous, 4⟩, none, [.previous]⟩

def unlockedVault : State :=
  { lockedVault with memory := some ⟨.previous, false, true, 4⟩, unlocked := true }

theorem lockedVault_tagged : Tagged lockedVault := by
  intro a c ha hc
  obtain rfl := Option.some.inj ha
  have hconfig : configOf smallTree = some ⟨.previous, false, true, 4⟩ := by decide
  rw [hconfig] at hc
  obtain rfl := Option.some.inj hc
  rfl

theorem unlockedVault_opened :
    Opened smallVault smallTree ⟨.previous, false, true, 4⟩ unlockedVault := by
  refine ⟨rfl, ⟨4, ?_⟩, rfl, rfl, rfl⟩
  rw [smallTree, restored_full]
  exact restored_whole

theorem small_vault_replaced :
    Settled smallVault lockedVault ⟨.installed, false⟩ .none
      (restoreSecure smallVault 4 noFaults lockedVault).state ∧
    Settled smallVault lockedVault ⟨.installed, false⟩ .none
      (importStorage smallVault noFaults lockedVault).state ∧
    Settled smallVault unlockedVault ⟨.installed, false⟩ .none
      (changeSecurePassword noFaults unlockedVault).state ∧
    ((changePassword ⟨.none, .none⟩ ⟨.whole .previous, .previous⟩).state.file ≠ .torn ↔
      ¬(Fault.none = .none ∧ Provisioning.previous = .previous ∧ Fault.none.CutsShort)) :=
  have h := replaced_unless_cut_between_renames smallVault
  ⟨h.1 4 noFaults lockedVault lockedVault_tagged, h.2.1 noFaults lockedVault lockedVault_tagged,
    h.2.2.1 smallTree ⟨.previous, false, true, 4⟩ noFaults unlockedVault unlockedVault_opened,
    h.2.2.2 ⟨.none, .none⟩ ⟨.whole .previous, .previous⟩ nofun⟩

/-- A second rename that fails, or a crash before it, leaves no vault at the root; a write
of the old configuration file that is cut leaves one that does not parse. -/
theorem cut_between_renames_loses_root :
    ¬AllOrNothing smallVault lockedVault
      (restoreSecure smallVault 4 { noFaults with install := .throws 0 } lockedVault).state ∧
    ¬AllOrNothing smallVault lockedVault
      (importStorage smallVault { noFaults with install := .crashes 0 } lockedVault).state ∧
    ¬AllOrNothing smallVault unlockedVault
      (changeSecurePassword { noFaults with install := .throws 0 } unlockedVault).state ∧
    (changePassword ⟨.none, .crashes 1⟩ ⟨.whole .previous, .previous⟩).state.file = .torn :=
  ⟨absent_not_allOrNothing nofun (by decide), absent_not_allOrNothing nofun (by decide),
    absent_not_allOrNothing nofun (by decide), by decide⟩

end VaultReplacement
