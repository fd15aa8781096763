import CryptoPigeon.AndroidPasswordChange
import CryptoPigeon.VaultReplacement

/-! # Android password changes with the seventh share at the relay

The new backup is at the relay before the trees are swapped, and from then on every later
change runs into it. Only if the old backup stays and the new one can be withdrawn is the
vault as it was. -/
namespace CloudPasswordChange

open FaultyProgram VaultTree NativeVault AndroidPasswordChange
open PasswordChange hiding viewOf
open SecureVault (versionOf advance)
open AndroidCommitJournal (Journal Fresh recoverCommit noRecoveryFaults RecoveryFaults)

section Trees

/-- No configuration in the tree, hidden by another or not, has its seventh share in a file. -/
def Relays (t : Tree) : Prop := ∀ c, ⟨.config, .config c⟩ ∈ t → Relayed c

variable {t : Tree} {c : Config}

theorem Relays.config (h : Relays t) (hc : configOf t = some c) : Relayed c := by
  unfold configOf fileAt at hc
  cases hfind : t.find? (fun f => decide (f.path = .config)) with
  | none =>
    rw [hfind] at hc
    cases hc
  | some f =>
    obtain ⟨path, content⟩ := f
    have hpath : path = .config := by simpa using List.find?_some hfind
    have hmem := List.mem_of_find?_eq_some hfind
    rw [hfind] at hc
    cases content with
    | config m =>
      obtain rfl := Option.some.inj hc
      exact h m (hpath ▸ hmem)
    | share p => cases hc
    | bytes b => cases hc

theorem Relays.of_subset {u : Tree} (h : Relays t) (hu : u ⊆ t) : Relays u :=
  fun c hc => h c (hu hc)

theorem relays_saveConfig (h : Relayed c) : Relays (saveConfig c t) := by
  intro m hm
  rcases List.mem_cons.mp hm with heq | hrest
  · cases heq
    exact h
  · have hother := (List.mem_filter.mp hrest).2
    simp at hother

theorem Relays.write (h : Relays t) {w : Write} (hw : w.path ≠ .config) :
    Relays (VaultTree.write t w) := by
  cases w with
  | put path content =>
    intro m hm
    rcases List.mem_cons.mp hm with heq | hrest
    · cases heq
      exact absurd rfl hw
    · exact h m (List.mem_filter.mp hrest).1
  | erase path => exact h.of_subset (List.filter_subset_self _)

theorem Relays.applyWrites {ws : List Write} (h : Relays t) (hws : ∀ w ∈ ws, w.path ≠ .config) :
    Relays (VaultTree.applyWrites ws t) := by
  induction ws generalizing t with
  | nil => exact h
  | cons w ws ih =>
    exact ih (h.write (hws w List.mem_cons_self)) fun u hu => hws u (List.mem_cons_of_mem w hu)

end Trees

section Doomed

variable {v : Snapshot} {names again : Journal} {s₀ s : State} {d c : Config} {F : Faults} {H : Prop}

/-- What the journalled commit can bring to the root; another journal has no stage left. -/
structure RelayedTrees (names : Journal) (f : AndroidCommitJournal.State) : Prop where
  root : ∀ t, f.root = some t → Relays t
  stage : ∀ t, f.stages names.stage = some t → Relays t
  aside : ∀ t, f.recoveries names.recovery = some t → Relays t
  listed : ∀ j, f.journal = some j → j = names ∨ (f.stages j.stage = none ∧ f.root.isSome)

/-- The same with the journal of this commit. -/
def Journalled (names : Journal) (f : AndroidCommitJournal.State) : Prop :=
  RelayedTrees names f ∧ f.journal = some names

section Recovery

open AndroidCommitJournal

variable {f : AndroidCommitJournal.State} {faults : RecoveryFaults}

theorem Journalled.movedAside (h : Journalled names f) :
    Journalled names (moveAside names.recovery f) := by
  refine ⟨⟨nofun, h.1.stage, fun t ht => h.1.root t ?_, fun j hj => .inl ?_⟩, h.2⟩
  · rw [← ht]
    exact (Function.update_self names.recovery f.root f.recoveries).symm
  · exact Option.some.inj (hj.symm.trans h.2)

theorem Journalled.stageInstalled (h : Journalled names f) :
    Journalled names (installStage names.stage f) := by
  refine ⟨⟨h.1.stage, fun t ht => ?_, h.1.aside, fun j hj => .inl ?_⟩, h.2⟩
  · have hnone : (installStage names.stage f).stages names.stage = none := by simp [installStage]
    cases hnone.symm.trans ht
  · exact Option.some.inj (hj.symm.trans h.2)

theorem Journalled.movedBack (h : Journalled names f) :
    Journalled names (moveBack names.recovery f) := by
  refine ⟨⟨h.1.aside, h.1.stage, fun t ht => ?_, fun j hj => .inl ?_⟩, h.2⟩
  · have hnone : (moveBack names.recovery f).recoveries names.recovery = none := by simp [moveBack]
    cases hnone.symm.trans ht
  · exact Option.some.inj (hj.symm.trans h.2)

theorem atomically_journalled {g : AndroidCommitJournal.State → AndroidCommitJournal.State}
    {fault : Fault} (hg : ∀ f, Journalled names f → Journalled names (g f)) :
    Triple (Journalled names) (atomically g fault) (fun _ => Journalled names) (Journalled names)
      (Journalled names) :=
  Triple.atomically (fun _ => hg) (fun _ _ hf => hf) fun f hf => ⟨hf, hg f hf⟩

theorem placeTrees_journalled :
    Triple (Journalled names) (placeTrees names faults) (fun _ => Journalled names)
      (Journalled names) (Journalled names) := by
  have hdone (r : AndroidCommitJournal.State) : Triple (fun f => Journalled names f ∧ f = r) (done ())
      (fun _ => Journalled names) (Journalled names) (Journalled names) := Triple.done fun f hf => hf.1
  have hthrow (r : AndroidCommitJournal.State) : Triple (fun f => Journalled names f ∧ f = r)
      (throwing : Program _ Unit) (fun _ => Journalled names) (Journalled names) (Journalled names) :=
    Triple.throwing fun f hf => hf.1
  have hmove {g : AndroidCommitJournal.State → AndroidCommitJournal.State} {fault : Fault}
      (hg : ∀ f, Journalled names f → Journalled names (g f)) (r : AndroidCommitJournal.State) :
      Triple (fun f => Journalled names f ∧ f = r) (atomically g fault) (fun _ => Journalled names)
        (Journalled names) (Journalled names) :=
    (atomically_journalled hg).strengthen fun f hf => hf.1
  have hroom : Triple (Journalled names) (makeRoom names faults) (fun _ => Journalled names)
      (Journalled names) (Journalled names) :=
    Triple.read fun r _ => Triple.ite (fun _ => Triple.ite (fun _ => hthrow r) fun _ =>
      hmove (fun _ => Journalled.movedAside) r) fun _ => hdone r
  have hinstall : Triple (Journalled names) (install names faults) (fun _ => Journalled names)
      (Journalled names) (Journalled names) :=
    Triple.read fun r _ => Triple.ite (fun _ => hthrow r) fun _ =>
      hmove (fun _ => Journalled.stageInstalled) r
  have hback : Triple (Journalled names) (rollBack names faults) (fun _ => Journalled names)
      (Journalled names) (Journalled names) :=
    Triple.read fun r _ => Triple.ite (fun _ => hdone r) fun _ => Triple.ite (fun _ => hthrow r)
      fun _ => hmove (fun _ => Journalled.movedBack) r
  exact Triple.read fun r _ => Triple.ite
    (fun _ => Triple.bind (hroom.strengthen fun f hf => hf.1) fun _ => hinstall)
    fun _ => hback.strengthen fun f hf => hf.1

/-- However far a recovery gets. -/
theorem recoverCommit_relayed :
    Triple (RelayedTrees names) (recoverCommit faults) (fun _ => RelayedTrees names)
      (RelayedTrees names) (RelayedTrees names) := by
  refine Triple.read fun r hr => ?_
  cases hj : r.journal with
  | none => exact Triple.done fun f hf => hf.1
  | some j =>
    have hdelete : Triple (RelayedTrees names) (atomically deleteJournal faults.deleteJournal)
        (fun _ => RelayedTrees names) (RelayedTrees names) (RelayedTrees names) :=
      Triple.atomically (fun _ f hf => ⟨hf.root, hf.stage, hf.aside, nofun⟩) (fun _ f hf => hf)
        fun f hf => ⟨hf, hf.root, hf.stage, hf.aside, nofun⟩
    refine Triple.bind (Q := fun _ f => RelayedTrees names f ∧ f = r)
      (Triple.attempt (fun _ f hf => hf) (fun _ f hf => hf.1) fun f hf => hf.1) fun _ => ?_
    refine Triple.bind (Q := fun _ => RelayedTrees names) ?_ fun _ => hdelete
    rcases hr.listed j hj with rfl | ⟨hnone, hsome⟩
    · exact placeTrees_journalled.consequence (fun f hf => ⟨hf.1, hf.2 ▸ hj⟩) (fun _ f hf => hf.1)
        (fun f hf => hf.1) fun f hf => hf.1
    -- the journal of an earlier commit that finished
    · refine Triple.read fun u hu => ?_
      rw [hu.2, if_neg (by simp [hnone])]
      refine Triple.read fun w hw => ?_
      rw [if_pos (by rw [hw.2]; exact hsome)]
      exact Triple.done fun f hf => hf.1.1.1

end Recovery

/-- The relay's records keep the old password from opening or from being changed. -/
structure Doomed (names : Journal) (s : State) : Prop where
  used : s.oldRecord = none ∨ s.newRecord ≠ none
  unknown : .next ∉ s.held
  memory : ∀ m, s.memory = some m → Relayed m
  trees : RelayedTrees names s.files

theorem Doomed.stuck (h : Doomed names s) : (viewOf s).Stuck :=
  ⟨h.used, h.unknown, h.memory, fun t _ ht hm => (h.trees.root t ht).config hm⟩

theorem Doomed.restarted (h : Doomed names s) : Doomed names (restart s) := by
  have htrees : (recoverCommit noRecoveryFaults s.files).Satisfies (fun _ => RelayedTrees names)
      (RelayedTrees names) (RelayedTrees names) := recoverCommit_relayed s.files h.trees
  unfold restart
  cases hrun : recoverCommit noRecoveryFaults s.files with
  | returned _ t =>
    rw [hrun] at htrees
    refine ⟨h.used, h.unknown, fun m hm => ?_, htrees⟩
    obtain ⟨u, hroot, hconfig⟩ := Option.bind_eq_some_iff.mp hm
    exact (htrees.root u hroot).config hconfig
  | threw t =>
    rw [hrun] at htrees
    exact ⟨h.used, h.unknown, nofun, htrees⟩
  | crashed t =>
    rw [hrun] at htrees
    exact ⟨h.used, h.unknown, nofun, htrees⟩

theorem Doomed.fatal (h : Doomed names s) (hretries : Retries again s₀) :
    Fatal (android again) v s₀ s :=
  ⟨stuck_not_recoverable (V := android again) h.stuck hretries,
    stuck_not_recoverable (V := android again) (s := restart s) h.restarted.stuck hretries⟩

theorem Doomed.setStage (h : Doomed names s) {x : Option Tree} (hx : ∀ t, x = some t → Relays t)
    (hlisted : ∀ j, s.files.journal = some j → j.stage ≠ names.stage) :
    Doomed names (withStage names x s) := by
  refine ⟨h.used, h.unknown, h.memory, h.trees.root, fun t ht => hx t ?_, h.trees.aside, fun j hj => ?_⟩
  · rw [← ht]
    exact (Function.update_self names.stage x s.files.stages).symm
  · refine (h.trees.listed j hj).imp id fun hquiet => ⟨?_, hquiet.2⟩
    have hne := hlisted j hj
    simpa [withStage, AndroidCommitJournal.setStage, hne] using hquiet.1

end Doomed

section Closings

variable {v : Snapshot} {names again : Journal} {s₀ s : State} {d c : Config} {F : Faults} {H : Prop}

theorem config_unshared : Path.config ∉ (android again).shares :=
  (by decide : Path.config ∉ sharePaths)

/-- The `finally` block does at most remove the stage, perhaps in part. -/
theorem release_keeps {I : State → Prop} (hnone : ∀ s, I s → I (withStage names none s))
    (hdrop : ∀ s n, I s → I (withStage names ((s.files.stages names.stage).map (List.drop n)) s)) :
    Triple I (release names F) (fun _ => I) I I := by
  refine Triple.within fun s hs => Triple.read fun r hr => Triple.ite (fun _ => ?_) fun _ => ?_
  · refine Triple.bind (Q := fun _ t => I { s with files := t }) (Triple.gradually (fun _ t ht => ?_)
      (fun n _ t ht => ?_) fun n _ t ht => ?_) fun _ => Triple.attempt (fun _ t ht => ht)
        (fun _ t ht => ht) fun t ht => ht
    · rw [ht.1]
      exact hnone s hs
    · rw [ht.1]
      exact hdrop s n hs
    · rw [ht.1]
      exact hdrop s n hs
  · refine Triple.done fun t ht => ?_
    rw [ht.1]
    exact hs

theorem closing_of_invariant {I : State → Prop} (hnone : ∀ s, I s → I (withStage names none s))
    (hdrop : ∀ s n, I s → I (withStage names ((s.files.stages names.stage).map (List.drop n)) s))
    (hthrown : ∀ s, I s → (((android again).client v).Thrown s₀ s ↔ H))
    (hcrashed : ∀ s, I s → (((android again).client v).Crashed s₀ s ↔ H)) (hs : I s) :
    Closing v names again s₀ F H s :=
  (release_keeps hnone hdrop s hs).mono (fun _ => hthrown) hthrown hcrashed

/-- Doomed, with the stage not yet journalled. -/
structure Pending (names : Journal) (s : State) : Prop where
  doomed : Doomed names s
  unlisted : ∀ j, s.files.journal = some j → j.stage ≠ names.stage

theorem Pending.closing (h : Pending names s) (hretries : Retries again s₀) (hH : ¬H) :
    Closing v names again s₀ F H s := by
  refine closing_of_invariant (I := Pending names) (fun s hs => ?_) (fun s n hs => ?_)
    (fun s hs => (hs.doomed.fatal hretries).thrown_iff hH)
    (fun s hs => (hs.doomed.fatal hretries).crashed_iff hH) h
  · exact ⟨hs.doomed.setStage nofun hs.unlisted, hs.unlisted⟩
  · refine ⟨hs.doomed.setStage (fun t ht => ?_) hs.unlisted, hs.unlisted⟩
    obtain ⟨u, hu, rfl⟩ := Option.map_eq_some_iff.mp ht
    exact (hs.doomed.trees.stage u hu).of_subset (List.drop_subset n u)

/-- In step with its backup, with nothing under the new password. -/
structure InStep (names again : Journal) (c : Config) (s₀ s : State) : Prop where
  sees : viewOf s = (viewOf s₀).synced c
  sound : Sound again s
  unlisted : ∀ j, s.files.journal = some j → j.stage ≠ names.stage

theorem InStep.crashed (h : (android again).Unlocked v d c s₀) (hnew : s₀.newRecord = none)
    (hs : InStep names again c s₀ s) : ((android again).client v).Crashed s₀ s :=
  synced_crashed h config_unshared hnew hs.sound hs.sees

theorem InStep.closing (h : (android again).Unlocked v d c s₀) (hnew : s₀.newRecord = none)
    (hs : InStep names again c s₀ s) (hH : H) : Closing v names again s₀ F H s :=
  closing_of_invariant (I := InStep names again c s₀)
    (fun _ hs => ⟨hs.sees, sound_withStage hs.sound hs.unlisted _, hs.unlisted⟩)
    (fun _ _ hs => ⟨hs.sees, sound_withStage hs.sound hs.unlisted _, hs.unlisted⟩)
    (fun _ hs => iff_of_true (synced_thrown h config_unshared hnew hs.sound hs.sees) hH)
    (fun _ hs => iff_of_true (hs.crashed h hnew) hH) hs

end Closings

section Steps

variable {v : Snapshot} {names again : Journal} {s₀ s : State} {d c : Config} {F : Faults} {H : Prop}

/-- Nothing is staged yet. -/
structure Bare (names again : Journal) (s : State) : Prop where
  sound : Sound again s
  idle : Idle names s
  stage : s.files.stages names.stage = none

theorem Bare.session (h : Bare names again s) (t : SecureVault.State) :
    Bare names again (setSession t s) :=
  ⟨⟨h.sound.quiet, h.sound.free⟩, ⟨h.idle.unlisted, h.idle.free, h.idle.flags⟩, h.stage⟩

theorem Bare.inStep (h : Bare names again s) (hs : viewOf s = (viewOf s₀).synced c) :
    InStep names again c s₀ s :=
  ⟨hs, h.sound, h.idle.unlisted⟩

/-- A request before the stage is there, followed on what the vault presents. -/
theorem onSession_ends {w : View} {b : Prop} {u : View} {p : Program SecureVault.State Unit}
    (h : Triple (fun t => PasswordChange.viewOf t = w) p
      (fun _ t => b ∧ PasswordChange.viewOf t = u)
      (fun t => ∀ s, Bare names again s → viewOf s = PasswordChange.viewOf t →
        (((android again).client v).Thrown s₀ s ↔ H))
      (fun t => ∀ s, Bare names again s → viewOf s = PasswordChange.viewOf t →
        (((android again).client v).Crashed s₀ s ↔ H))) :
    Triple (fun s => viewOf s = w ∧ Bare names again s) (onSession p)
      (fun _ s => b ∧ viewOf s = u ∧ Bare names again s) (Closing v names again s₀ F H)
      (fun s => ((android again).client v).Crashed s₀ s ↔ H) := by
  refine Triple.within fun s hs => h.consequence (fun t ht => ?_) (fun _ t ht => ?_) (fun t ht => ?_)
    fun t ht => ?_
  · rw [ht]
    exact hs.1
  · exact ⟨ht.1, ht.2, hs.2.session t⟩
  · exact closing_of_kept (.inl (hs.2.session t).stage) (ht _ (hs.2.session t) rfl)
  · exact ht _ (hs.2.session t) rfl

theorem requireUnused_ends (h : (android again).Unlocked v d c s₀)
    (hH : F.download ≠ .none ∨ s₀.newRecord ≠ none → (H ↔ F.download.Crashes ∨ c = d)) :
    Triple (fun s => viewOf s = viewOf s₀ ∧ Bare names again s) (requireUnused F.download)
      (fun _ s => (F.download = .none ∧ s₀.newRecord = none) ∧ viewOf s = viewOf s₀ ∧
        Bare names again s) (Closing v names again s₀ F H)
      (fun s => ((android again).client v).Crashed s₀ s ↔ H) := by
  refine onSession_ends (SecureVault.requireUnused_spec (fun t ht => congrArg View.newRecord ht)
    (fun hthrows t ht s hs hview => ?_) fun hc t ht s hs hview => ?_)
  · have hundone : Undone (android again) s₀ s := undone_of_same hs.sound (hview.trans ht)
    rw [hundone.thrown_iff h]
    rcases hthrows with hf | ⟨hnone, hnew⟩
    · rw [hH (.inl hf.ne_none), or_iff_right hf.not_crashes]
    · rw [hH (.inr hnew), hnone, or_iff_right Fault.not_none_crashes]
  · have hundone : Undone (android again) s₀ s := undone_of_same hs.sound (hview.trans ht)
    exact iff_of_true (hundone.crashed h) ((hH (.inl hc.ne_none)).mpr (.inl hc))

/-- The upload of the old vault's backup, with what each of its ends leaves. -/
theorem syncBackup_ends (h : (android again).Unlocked v d c s₀) (hrelayed : Relayed c)
    (hnew : s₀.newRecord = none)
    (hundone : c.backupVersion ≠ versionOf s₀.oldRecord ∨ ¬F.sync.Applied →
      (H ↔ F.sync.Crashes ∨ c = d))
    (hlost : c.backupVersion = versionOf s₀.oldRecord → F.sync.Applied → F.sync ≠ .none →
      (H ↔ F.sync.Crashes))
    (hsave : c.backupVersion = versionOf s₀.oldRecord ∧ F.sync = .none → F.save ≠ .none →
      (H ↔ F.save.Crashes ∨ advance c = d)) :
    Triple (fun s => viewOf s = viewOf s₀ ∧ Bare names again s) (syncBackup c F)
      (fun _ s => (c.backupVersion = versionOf s₀.oldRecord ∧ F.sync = .none ∧ F.save = .none) ∧
        viewOf s = (viewOf s₀).synced c ∧ Bare names again s) (Closing v names again s₀ F H)
      (fun s => ((android again).client v).Crashed s₀ s ↔ H) := by
  refine onSession_ends (syncBackup_spec (fun href hnot t ht s hs hview => ?_)
    (fun hcut hc t ht s hs hview => ?_) (fun hv hf happ t ht s hs hview => ?_)
    (fun hv hc happ t ht s hs hview => ?_) (fun hput hf t ht s hs hview => ?_)
    fun hput hc t ht s hs hview => ?_)
  · have hsame : Undone (android again) s₀ s := undone_of_same hs.sound (hview.trans ht)
    rw [hsame.thrown_iff h, hundone href]
    exact (or_iff_right hnot).symm
  · have hsame : Undone (android again) s₀ s := undone_of_same hs.sound (hview.trans ht)
    exact iff_of_true (hsame.crashed h) ((hundone hcut).mpr (.inl hc))
  · exact iff_of_false (unanswered_not_thrown h hrelayed hnew hv hs.sound (hview.trans ht))
      fun hh => hf.not_crashes ((hlost hv happ hf.ne_none).mp hh)
  · exact iff_of_true (unanswered_crashed h hnew hs.sound (hview.trans ht))
      ((hlost hv happ hc.ne_none).mpr hc)
  · rw [hsave hput hf.ne_none, or_iff_right (show ¬F.save.Crashes from hf.not_crashes)]
    exact answered_thrown_iff h hnew hs.sound (hview.trans ht)
  · refine iff_of_true ?_ ((hsave hput hc.ne_none).mpr (.inl hc))
    rcases ht with ht | ht
    · exact answered_crashed h hnew hs.sound (hview.trans ht)
    · exact synced_crashed h config_unshared hnew hs.sound (hview.trans ht)

/-- The stage is a copy of the vault with new shares. -/
structure Staged (names again : Journal) (c : Config) (s₀ s : State) : Prop where
  inStep : InStep names again c s₀ s
  free : s.files.recoveries names.recovery = none
  stage : ∃ t, s.files.stages names.stage = some t ∧ Relays t

theorem synced_root (h : (android again).Unlocked v d c s₀) (hrelayed : Relayed c)
    (hs : viewOf s = (viewOf s₀).synced c) : ∃ t, s.files.root = some t ∧ Relays t := by
  obtain ⟨t, hroot, _⟩ := h.keeps.root
  have hroot : s₀.files.root = some t := hroot
  have hsynced : s.files.root = s₀.files.root.map (saveConfig (advance c)) := congrArg View.root hs
  refine ⟨saveConfig (advance c) t, ?_, relays_saveConfig hrelayed⟩
  rw [hsynced, hroot]
  rfl

theorem copyAndScatter_synced (h : (android again).Unlocked v d c s₀) (hrelayed : Relayed c)
    (hnew : s₀.newRecord = none) (hH : F.stage ≠ .none → H) :
    Triple (fun s => viewOf s = (viewOf s₀).synced c ∧ Bare names again s) (copyAndScatter names [] F)
      (fun _ s => F.stage = .none ∧ Staged names again c s₀ s) (Closing v names again s₀ F H)
      (fun s => ((android again).client v).Crashed s₀ s ↔ H) := by
  refine Triple.read fun r hr => ?_
  obtain ⟨t, hroot, hrelays⟩ := synced_root h hrelayed hr.1
  rw [hroot]
  have hstaged (x : Option Tree) (s : State)
      (hs : (viewOf s = (viewOf s₀).synced c ∧ Bare names again s) ∧ s = r) :
      InStep names again c s₀ (withStage names x s) :=
    ⟨hs.1.1, sound_withStage hs.1.2.sound hs.1.2.idle.unlisted x, hs.1.2.idle.unlisted⟩
  refine Triple.within fun s hs => Triple.gradually (fun hnone u hu => ⟨hnone, ?_⟩)
    (fun n hf u hu => ?_) fun n hf u hu => ?_
  · rw [hu]
    refine ⟨hstaged _ s hs, hs.1.2.idle.free, _, Function.update_self names.stage _ _, ?_⟩
    exact hrelays.applyWrites (by decide)
  · rw [hu]
    exact (hstaged _ s hs).closing h hnew (hH (by rw [hf]; nofun))
  · rw [hu]
    exact iff_of_true ((hstaged _ s hs).crashed h hnew) (hH (by rw [hf]; nofun))

/-- The new backup is at the relay beside the old one. -/
structure Uploaded (names again : Journal) (c : Config) (s₀ s : State) : Prop where
  sees : viewOf s = { (viewOf s₀).synced c with newRecord := some ⟨.next, 1⟩ }
  sound : Sound again s
  unlisted : ∀ j, s.files.journal = some j → j.stage ≠ names.stage
  free : s.files.recoveries names.recovery = none
  stage : ∃ t, s.files.stages names.stage = some t ∧ Relays t

theorem Uploaded.pending (h : (android again).Unlocked v d c s₀) (hrelayed : Relayed c)
    (hs : Uploaded names again c s₀ s) : Pending names s := by
  have hnew : s.newRecord = some ⟨.next, 1⟩ := congrArg View.newRecord hs.sees
  have hheld : s.held = s₀.held := congrArg View.held hs.sees
  have hmemory : s.memory = some (advance c) := congrArg View.memory hs.sees
  obtain ⟨t, hroot, hrelays⟩ := synced_root (s := { s with newRecord := s₀.newRecord }) h hrelayed
    (congrArg (fun w : View => { w with newRecord := s₀.newRecord }) hs.sees)
  have hroot : s.files.root = some t := hroot
  obtain ⟨u, hstage, hstaged⟩ := hs.stage
  refine ⟨⟨.inr (by rw [hnew]; nofun), ?_, fun m hm => ?_, fun x hx => ?_, fun x hx => ?_,
    fun x hx => ?_, fun j hj => .inr ⟨hs.sound.quiet j hj, by rw [hroot]; rfl⟩⟩, hs.unlisted⟩
  · rw [hheld]
    exact h.unknown
  · obtain rfl := Option.some.inj (hmemory.symm.trans hm)
    exact hrelayed
  · obtain rfl := Option.some.inj (hroot.symm.trans hx)
    exact hrelays
  · obtain rfl := Option.some.inj (hstage.symm.trans hx)
    exact hstaged
  · cases hs.free.symm.trans hx

theorem putNew_ends (h : (android again).Unlocked v d c s₀) (hrelayed : Relayed c)
    (hnew : s₀.newRecord = none) (hretries : Retries again s₀)
    (hH : F.upload ≠ .none → (H ↔ ¬F.upload.Applied)) :
    Triple (Staged names again c s₀) (onSession (SecureVault.putNew F.upload))
      (fun _ s => F.upload = .none ∧ Uploaded names again c s₀ s) (Closing v names again s₀ F H)
      (fun s => ((android again).client v).Crashed s₀ s ↔ H) := by
  refine Triple.within fun s hs => ?_
  have hput : Uploaded names again c s₀
      (setSession { session s with newRecord := some ⟨.next, 1⟩ } s) :=
    ⟨congrArg (fun w : View => { w with newRecord := some ⟨.next, 1⟩ }) hs.inStep.sees,
      ⟨hs.inStep.sound.quiet, hs.inStep.sound.free⟩, hs.inStep.unlisted, hs.free, hs.stage⟩
  have hsame : InStep names again c s₀ (setSession (session s) s) :=
    ⟨hs.inStep.sees, ⟨hs.inStep.sound.quiet, hs.inStep.sound.free⟩, hs.inStep.unlisted⟩
  refine (SecureVault.putNew_spec (P := fun t => t = session s)
    (R := fun t => Uploaded names again c s₀ (setSession t s)) (fun t ht => ?_) (fun t ht => ?_)
    (fun hnot hf t ht => ?_) (fun happ hf t ht => ?_) (fun hnot hc t ht => ?_)
    fun happ hc t ht => ?_)
  · rw [ht]
    exact (congrArg View.newRecord hs.inStep.sees).trans hnew
  · rw [ht]
    exact hput
  · rw [ht]
    exact hsame.closing h hnew ((hH hf.ne_none).mpr hnot)
  · exact (ht.pending h hrelayed).closing hretries fun hh => (hH hf.ne_none).mp hh happ
  · rw [ht]
    exact iff_of_true (hsame.crashed h hnew) ((hH hc.ne_none).mpr hnot)
  · exact ((ht.pending h hrelayed).doomed.fatal hretries).crashed_iff fun hh =>
      (hH hc.ne_none).mp hh happ

theorem Uploaded.withFlags (h : Uploaded names again c s₀ s) (a b : Bool) :
    Uploaded names again c s₀ (atCommit (AndroidCommitJournal.setFlags a b) s) :=
  ⟨h.sees, ⟨h.sound.quiet, h.sound.free⟩, h.unlisted, h.free, h.stage⟩

theorem Uploaded.stageSaved (h : Uploaded names again c s₀ s) :
    Uploaded names again c s₀ (atCommit (saveStage names ⟨.next, false, true, 1⟩) s) := by
  obtain ⟨t, hstage, _⟩ := h.stage
  refine ⟨h.sees, sound_withStage h.sound h.unlisted _, h.unlisted, h.free,
    saveConfig ⟨.next, false, true, 1⟩ t, ?_, relays_saveConfig (by decide)⟩
  refine (Function.update_self names.stage _ _).trans ?_
  rw [hstage]
  rfl

theorem uploadStaged_ends (h : (android again).Unlocked v d c s₀) (hrelayed : Relayed c)
    (hnew : s₀.newRecord = none) (hretries : Retries again s₀)
    (hH : F.upload ≠ .none → (H ↔ ¬F.upload.Applied))
    (hsave : F.upload = .none → H → F.saveStaged = .none) :
    Triple (Staged names again c s₀) (uploadStaged names F)
      (fun _ s => (F.upload = .none ∧ F.saveStaged = .none) ∧ Uploaded names again c s₀ s ∧
        s.files.uploaded = true) (Closing v names again s₀ F H)
      (fun s => ((android again).client v).Crashed s₀ s ↔ H) := by
  refine Triple.bind (putNew_ends h hrelayed hnew hretries hH) fun _ => ?_
  refine Triple.assuming fun hupload => ?_
  have hsaved (hf : F.saveStaged ≠ .none) : ¬H := fun hh => hf (hsave hupload hh)
  refine Triple.bind (Q := fun _ s => F.saveStaged = .none ∧ Uploaded names again c s₀ s)
    (Triple.within fun s hs => Triple.atomically_cases (fun hnone t ht => ⟨hnone, ?_⟩)
      (fun hf t ht => ?_) (fun hc _ t ht => ?_) fun hc _ t ht => ?_) fun _ => ?_
  · rw [ht]
    exact hs.stageSaved
  · rw [ht]
    exact (hs.pending h hrelayed).closing hretries (hsaved hf.ne_none)
  · rw [ht]
    exact ((hs.pending h hrelayed).doomed.fatal hretries).crashed_iff (hsaved hc.ne_none)
  · rw [ht]
    exact ((hs.stageSaved.pending h hrelayed).doomed.fatal hretries).crashed_iff (hsaved hc.ne_none)
  · refine Triple.assuming fun hsaveStaged => Triple.within fun s hs => Triple.update fun t ht => ?_
    rw [ht]
    exact ⟨⟨hupload, hsaveStaged⟩, hs.withFlags true false, rfl⟩

/-- The old backup is deleted. -/
structure Orphaned (names : Journal) (s : State) : Prop where
  pending : Pending names s
  newRecord : s.newRecord = some ⟨.next, 1⟩
  oldRecord : s.oldRecord = none

theorem Uploaded.orphaned (h : (android again).Unlocked v d c s₀) (hrelayed : Relayed c)
    (hs : Uploaded names again c s₀ s) :
    Orphaned names (setSession { session s with oldRecord := none } s) := by
  have hdoomed := (hs.pending h hrelayed).doomed
  exact ⟨⟨⟨.inl rfl, hdoomed.unknown, hdoomed.memory, hdoomed.trees.root, hdoomed.trees.stage,
    hdoomed.trees.aside, hdoomed.trees.listed⟩, hs.unlisted⟩, congrArg View.newRecord hs.sees, rfl⟩

/-- The stage is there to be committed and will not be cleaned up. -/
structure Ready (names : Journal) (s : State) : Prop where
  doomed : Doomed names s
  uploaded : s.files.uploaded = true
  able : AbleStaged names s

theorem Uploaded.ready (h : (android again).Unlocked v d c s₀) (hrelayed : Relayed c)
    (hs : Uploaded names again c s₀ s) :
    Ready names (atCommit (AndroidCommitJournal.setFlags true true)
      (setSession { session s with oldRecord := none } s)) := by
  have hdoomed := (hs.orphaned h hrelayed).pending.doomed
  obtain ⟨t, hroot, _⟩ := synced_root (s := { s with newRecord := s₀.newRecord }) h hrelayed
    (congrArg (fun w : View => { w with newRecord := s₀.newRecord }) hs.sees)
  obtain ⟨u, hstage, _⟩ := hs.stage
  have hroot : s.files.root = some t := hroot
  refine ⟨⟨hdoomed.used, hdoomed.unknown, hdoomed.memory, hdoomed.trees.root, hdoomed.trees.stage,
    hdoomed.trees.aside, hdoomed.trees.listed⟩, rfl, ⟨?_, hs.free⟩, ?_⟩
  · change s.files.root.isSome
    rw [hroot]
    rfl
  · change (s.files.stages names.stage).isSome
    rw [hstage]
    rfl

/-- What a deletion of the old backup that throws leaves to the withdrawal. -/
def Refused (names again : Journal) (c : Config) (s₀ : State) (F : Faults) (s : State) : Prop :=
  F.deleteOld.Throws ∧ ((¬F.deleteOld.Applied ∧ Uploaded names again c s₀ s) ∨
    (F.deleteOld.Applied ∧ Orphaned names s))

theorem deleteOld_ends (h : (android again).Unlocked v d c s₀) (hrelayed : Relayed c)
    (hretries : Retries again s₀) (hH : F.deleteOld.Crashes → ¬H) :
    Triple (fun s => Uploaded names again c s₀ s ∧ s.files.uploaded = true)
      (deleteOld (c.backupVersion + 1) F) (fun _ s => F.deleteOld = .none ∧ Ready names s)
      (Refused names again c s₀ F) (fun s => ((android again).client v).Crashed s₀ s ↔ H) := by
  refine Triple.bind (Q := fun _ s => F.deleteOld = .none ∧
    Ready names (atCommit (AndroidCommitJournal.setFlags true true) s)) (Triple.within fun s hs => ?_)
    fun _ => Triple.assuming fun hnone => Triple.within fun s hs => Triple.update fun t ht => ?_
  · have hsame : Uploaded names again c s₀ (setSession (session s) s) :=
      ⟨hs.1.sees, ⟨hs.1.sound.quiet, hs.1.sound.free⟩, hs.1.unlisted, hs.1.free, hs.1.stage⟩
    refine (SecureVault.deleteOld_spec (p := c.provisioning) (P := fun t => t = session s)
      (R := fun t => t = { session s with oldRecord := none }) (fun t ht => ?_) (fun t ht => ?_)
      (fun hnot hf t ht => ?_) (fun happ hf t ht => ?_) (fun _ hc t ht => ?_)
      fun _ hc t ht => ?_).weaken fun _ t ht => ⟨ht.1, ?_⟩
    · rw [ht]
      exact congrArg View.oldRecord hs.1.sees
    · rw [ht]
    · rw [ht]
      exact ⟨hf, .inl ⟨hnot, hsame⟩⟩
    · rw [ht]
      exact ⟨hf, .inr ⟨happ, hs.1.orphaned h hrelayed⟩⟩
    · rw [ht]
      exact ((hsame.pending h hrelayed).doomed.fatal hretries).crashed_iff (hH hc)
    · rw [ht]
      exact ((hs.1.orphaned h hrelayed).pending.doomed.fatal hretries).crashed_iff (hH hc)
    · rw [ht.2]
      exact hs.1.ready h hrelayed
  · rw [ht]
    exact ⟨hnone, hs⟩

/-- The new backup is withdrawn, which helps only if the old one is still there. -/
theorem withdraw_ends (h : (android again).Unlocked v d c s₀) (hrelayed : Relayed c)
    (hnew : s₀.newRecord = none) (hretries : Retries again s₀)
    (hH : H ↔ ¬F.deleteOld.Applied ∧ F.deleteNew.Applied) {Q : Unit → State → Prop} :
    Triple (Refused names again c s₀ F) (withdraw F) Q (Closing v names again s₀ F H)
      (fun s => ((android again).client v).Crashed s₀ s ↔ H) := by
  let without (s : State) : State := { s with newRecord := none }
  have hkept (s : State) (hs : Refused names again c s₀ F s) (hnot : ¬F.deleteNew.Applied) :
      Pending names s ∧ ¬H := by
    refine ⟨?_, fun hh => hnot (hH.mp hh).2⟩
    rcases hs.2 with ⟨_, hup⟩ | ⟨_, hgone⟩
    · exact hup.pending h hrelayed
    · exact hgone.pending
  have hwithdrawn (s : State) (hs : Refused names again c s₀ F s) (happ : F.deleteNew.Applied) :
      (InStep names again c s₀ (without s) ∧ H) ∨ (Pending names (without s) ∧ ¬H) := by
    rcases hs.2 with ⟨hnot, hup⟩ | ⟨hdel, hgone⟩
    · refine .inl ⟨⟨?_, ⟨hup.sound.quiet, hup.sound.free⟩, hup.unlisted⟩, hH.mpr ⟨hnot, happ⟩⟩
      refine (congrArg (fun w : View => { w with newRecord := none }) hup.sees).trans ?_
      rw [← hnew]
      rfl
    · have hdoomed := hgone.pending.doomed
      exact .inr ⟨⟨⟨.inl hgone.oldRecord, hdoomed.unknown, hdoomed.memory, hdoomed.trees⟩,
        hgone.pending.unlisted⟩, fun hh => (hH.mp hh).1 hdel⟩
  have hthrows (s : State) (hs : (InStep names again c s₀ s ∧ H) ∨ (Pending names s ∧ ¬H)) :
      Closing v names again s₀ F H s := by
    rcases hs with ⟨hs, hh⟩ | ⟨hs, hh⟩
    · exact hs.closing h hnew hh
    · exact hs.closing hretries hh
  have hcrashes (s : State) (hs : (InStep names again c s₀ s ∧ H) ∨ (Pending names s ∧ ¬H)) :
      ((android again).client v).Crashed s₀ s ↔ H := by
    rcases hs with ⟨hs, hh⟩ | ⟨hs, hh⟩
    · exact iff_of_true (hs.crashed h hnew) hh
    · exact (hs.doomed.fatal hretries).crashed_iff hh
  refine Triple.bind (Q := fun _ s => (InStep names again c s₀ s ∧ H) ∨ (Pending names s ∧ ¬H))
    (Triple.read fun r hr => ?_) fun _ => ?_
  · have hrecord : r.newRecord = some ⟨.next, 1⟩ := by
      rcases hr.2 with ⟨_, hup⟩ | ⟨_, hgone⟩
      · exact congrArg View.newRecord hup.sees
      · exact hgone.newRecord
    rw [hrecord, if_pos ⟨rfl, rfl⟩]
    exact Triple.remotely_cases
      (fun hnone s hs => hwithdrawn s hs.1 (by rw [hnone]; trivial))
      (fun _ s hs => ⟨fun hnot => hthrows s (.inr (hkept s hs.1 hnot)),
        fun happ => hthrows _ (hwithdrawn s hs.1 happ)⟩)
      (fun _ s hs => ⟨fun hnot => hcrashes s (.inr (hkept s hs.1 hnot)),
        fun happ => hcrashes _ (hwithdrawn s hs.1 happ)⟩)
  · refine Triple.bind (Q := fun _ s => (InStep names again c s₀ s ∧ H) ∨ (Pending names s ∧ ¬H))
      (Triple.within fun s hs => Triple.update fun t ht => ?_) fun _ => Triple.throwing hthrows
    rw [ht]
    rcases hs with ⟨hs, hh⟩ | ⟨hs, hh⟩
    · exact .inl ⟨⟨hs.sees, ⟨hs.sound.quiet, hs.sound.free⟩, hs.unlisted⟩, hh⟩
    · have hdoomed := hs.doomed
      exact .inr ⟨⟨⟨hdoomed.used, hdoomed.unknown, hdoomed.memory, hdoomed.trees.root,
        hdoomed.trees.stage, hdoomed.trees.aside, hdoomed.trees.listed⟩, hs.unlisted⟩, hh⟩

end Steps

section Swap

open AndroidCommitJournal

variable {names again : Journal} {F : OperationFaults} {f t : AndroidCommitJournal.State}

/-- No fault of the commit. -/
def CommitDone (F : OperationFaults) : Prop :=
  F.writeJournal = .none ∧ F.recovery.readJournal = .none ∧ F.recovery.moveAside = .none ∧
    F.recovery.install = .none ∧ F.recovery.deleteJournal = .none

theorem RelayedTrees.journalled (h : RelayedTrees names f) : Journalled names (writeJournal names f) :=
  ⟨⟨h.root, h.stage, h.aside, fun _ hj => .inl (Option.some.inj hj).symm⟩, rfl⟩

theorem RelayedTrees.installed (h : RelayedTrees names f) : Journalled names (AndroidPasswordChange.installed names f) :=
  h.journalled.movedAside.stageInstalled

theorem RelayedTrees.finished (h : RelayedTrees names f) :
    RelayedTrees names (deleteJournal (AndroidPasswordChange.installed names f)) :=
  ⟨h.installed.1.root, h.installed.1.stage, h.installed.1.aside, nofun⟩

theorem CommitThrew.relayed (ht : CommitThrew names F f t) (h : RelayedTrees names f) :
    ¬CommitDone F ∧ RelayedTrees names t ∧ t.uploaded = f.uploaded := by
  cases ht with
  | unwritten hw => exact ⟨fun hd => hw.ne_none hd.1, h, rfl⟩
  | written _ hr =>
    refine ⟨fun hd => ?_, h.journalled.1, rfl⟩
    exact hr.elim (fun hr => hr.ne_none hd.2.1) fun hm => hm.2.ne_none hd.2.2.1
  | cleared _ _ _ hi => exact ⟨fun hd => hi.ne_none hd.2.2.2.1, h.journalled.movedAside.1, rfl⟩
  | installed _ _ _ _ hj => exact ⟨fun hd => hj.ne_none hd.2.2.2.2, h.installed.1, rfl⟩

theorem CommitCrashed.relayed (ht : CommitCrashed names F f t) (h : RelayedTrees names f) :
    ¬CommitDone F ∧ RelayedTrees names t := by
  cases ht with
  | unwritten hw => exact ⟨fun hd => hw.ne_none hd.1, h⟩
  | written hw =>
    refine ⟨fun hd => ?_, h.journalled.1⟩
    rcases hw with ⟨hw, _⟩ | ⟨_, hr | ⟨_, hm⟩⟩
    · exact hw.ne_none hd.1
    · exact hr.ne_none hd.2.1
    · exact hm.ne_none hd.2.2.1
  | cleared _ _ hm =>
    refine ⟨fun hd => ?_, h.journalled.movedAside.1⟩
    exact hm.elim (fun hm => hm.ne_none hd.2.2.1) fun hi => hi.2.ne_none hd.2.2.2.1
  | installed _ _ _ hi =>
    refine ⟨fun hd => ?_, h.installed.1⟩
    exact hi.elim (fun hi => hi.ne_none hd.2.2.2.1) fun hj => hj.2.ne_none hd.2.2.2.2
  | finished _ _ _ _ hj => exact ⟨fun hd => hj.ne_none hd.2.2.2.2, h.finished⟩

end Swap

section Change

variable {v : Snapshot} {names again : Journal} {s₀ s : State} {d c : Config} {F : Faults} {H : Prop}

theorem swapTrees_ends (hretries : Retries again s₀)
    (hH : H ↔ F.close = .none ∧ F.writeJournal = .none ∧ Commits F) :
    Triple (Ready names) (swapTrees names F) (fun _ s => H ∧ Kept names s)
      (Closing v names again s₀ F H) (fun s => ((android again).client v).Crashed s₀ s ↔ H) := by
  have hfatal (s : State) (hs : Ready names s) : Fatal (android again) v s₀ s ∧ Kept names s :=
    ⟨hs.doomed.fatal hretries, .inr hs.uploaded⟩
  have hdoomed (s : State) (hs : Doomed names s ∧ s.files.uploaded = true) :
      Fatal (android again) v s₀ s ∧ Kept names s := ⟨hs.1.fatal hretries, .inr hs.2⟩
  have hdone (hh : H) : CommitDone F.toOperationFaults := by
    obtain ⟨_, hw, hr, hm, hi, hj, _⟩ := hH.mp hh
    exact ⟨hw, hr, hm, hi, hj⟩
  refine Triple.bind (attempt_fatal hfatal fun hh => (hH.mp hh).1) fun _ => ?_
  refine Triple.assuming fun hclose => Triple.bind (Q := fun _ => Ready names) (Triple.update
    fun s hs => ⟨⟨hs.doomed.used, hs.doomed.unknown, hs.doomed.memory, hs.doomed.trees⟩, hs.uploaded,
      ⟨⟨hs.able.1.root, hs.able.1.free⟩, hs.able.2⟩⟩) fun _ => ?_
  refine Triple.bind (Q := fun _ s => CommitDone F.toOperationFaults ∧ Doomed names s ∧
    s.files.uploaded = true) (Triple.within fun s hs => ?_) fun _ => Triple.assuming fun hcommit => ?_
  · refine (commit_spec hs.able.1.root hs.able.2 hs.able.1.free).consequence (fun _ ht => ht)
      (fun _ t ht => ?_) (fun t ht => ?_) fun t ht => ?_
    · rw [ht.2]
      exact ⟨ht.1, ⟨hs.doomed.used, hs.doomed.unknown, hs.doomed.memory, hs.doomed.trees.finished⟩,
        hs.uploaded⟩
    · obtain ⟨hnot, htrees, hup⟩ := CommitThrew.relayed ht hs.doomed.trees
      exact closing_of_kept (.inr (hup.trans hs.uploaded)) (Fatal.thrown_iff (Doomed.fatal
        ⟨hs.doomed.used, hs.doomed.unknown, hs.doomed.memory, htrees⟩ hretries) fun hh => hnot (hdone hh))
    · obtain ⟨hnot, htrees⟩ := CommitCrashed.relayed ht hs.doomed.trees
      exact Fatal.crashed_iff (Doomed.fatal
        ⟨hs.doomed.used, hs.doomed.unknown, hs.doomed.memory, htrees⟩ hretries) fun hh => hnot (hdone hh)
  · refine reopen_fatal hdoomed (fun s hs => ⟨⟨hs.1.used, hs.1.unknown, nofun, hs.1.trees⟩, hs.2⟩)
      (fun s hs => ⟨⟨hs.1.used, hs.1.unknown, fun m hm => ?_, hs.1.trees⟩, hs.2⟩)
      (fun s hs => ⟨⟨hs.1.used, hs.1.unknown, hs.1.memory, hs.1.trees⟩, hs.2⟩) ?_
    · obtain ⟨t, hroot, hconfig⟩ := Option.bind_eq_some_iff.mp hm
      exact (hs.1.trees.root t hroot).config hconfig
    · obtain ⟨hw, hr, hm, hi, hj⟩ := hcommit
      rw [hH]
      simp [Commits, hclose, hw, hr, hm, hi, hj]

theorem changeCloud_ends (h : (android again).Unlocked v d c s₀) (hrelayed : Relayed c)
    (hprepare : F.prepare = .none) :
    Triple (fun s => viewOf s = viewOf s₀ ∧ Bare names again s) (changeCloud names c F)
      (fun _ s => CloudHarmless s₀ d c F ∧ Kept names s)
      (Closing v names again s₀ F (CloudHarmless s₀ d c F))
      (fun s => ((android again).client v).Crashed s₀ s ↔ CloudHarmless s₀ d c F) := by
  refine Triple.bind (requireUnused_ends h fun hd => ?_) fun _ => Triple.assuming fun hunused => ?_
  · rw [CloudHarmless, if_neg (by simp [hprepare]), if_pos hd]
  obtain ⟨hdownload, hnew⟩ := hunused
  refine Triple.bind (syncBackup_ends h hrelayed hnew (fun hv => ?_) (fun hv happ hne => ?_)
    fun hput hs => ?_) fun _ => Triple.assuming fun hsynced => ?_
  · rw [CloudHarmless, if_neg (by simp [hprepare]), if_neg (by simp [hdownload, hnew]), if_pos hv]
  · simp [CloudHarmless, hprepare, hdownload, hnew, hv, happ, hne]
  · simp [CloudHarmless, hprepare, hdownload, hnew, hput, hs]
  obtain ⟨hversion, hsync, hsave⟩ := hsynced
  have hretries : Retries again s₀ := (Vault.Unlocked.retries_iff h).mpr fun _ => ⟨hnew, hversion⟩
  have hend : CloudHarmless s₀ d c F ↔
      if F.stage ≠ .none then True
      else if F.upload ≠ .none then ¬F.upload.Applied
      else if F.saveStaged ≠ .none then False
      else if F.deleteOld ≠ .none then
        F.deleteOld.Throws ∧ ¬F.deleteOld.Applied ∧ F.deleteNew.Applied
      else F.close = .none ∧ F.writeJournal = .none ∧ Commits F := by
    simp [CloudHarmless, hprepare, hdownload, hnew, hversion, hsync, hsave]
  refine Triple.bind (copyAndScatter_synced h hrelayed hnew fun hb => by simp [hend, hb]) fun _ => ?_
  refine Triple.assuming fun hstage => Triple.bind (uploadStaged_ends h hrelayed hnew hretries
    (fun hu => by simp [hend, hstage, hu]) fun hu hh => ?_) fun _ => ?_
  · by_contra hsaved
    simp [hend, hstage, hu, hsaved] at hh
  refine Triple.assuming fun ⟨hupload, hsaveStaged⟩ => ?_
  have hlast : CloudHarmless s₀ d c F ↔
      if F.deleteOld ≠ .none then F.deleteOld.Throws ∧ ¬F.deleteOld.Applied ∧ F.deleteNew.Applied
      else F.close = .none ∧ F.writeJournal = .none ∧ Commits F := by
    simp [hend, hstage, hupload, hsaveStaged]
  refine Triple.bind (Q := fun _ s => F.deleteOld = .none ∧ Ready names s) (Triple.orElse
    (deleteOld_ends h hrelayed hretries fun hc hh => ?_) ?_) fun _ => Triple.assuming fun hdelete => ?_
  · rw [hlast, if_pos hc.ne_none] at hh
    exact hc.not_throws hh.1
  · intro s hs
    refine withdraw_ends h hrelayed hnew hretries ?_ s hs
    rw [hlast, if_pos hs.1.ne_none, and_iff_right hs.1]
  · exact swapTrees_ends hretries (by simp [hlast, hdelete])

/-- What precedes the branches, with the branch taken. -/
theorem prepared_ends {branch : Program State Unit} (h : (android again).Unlocked v d c s₀)
    (hH : F.prepare ≠ .none → (H ↔ F.prepare.Crashes ∨ c = d))
    (hbranch : F.prepare = .none → Triple (fun s => viewOf s = viewOf s₀ ∧ Bare names again s) branch
      (fun _ s => H ∧ Kept names s) (Closing v names again s₀ F H)
      (fun s => ((android again).client v).Crashed s₀ s ↔ H))
    (htaken : (if c.external = true ∨ c.cloudBackup = false then changeExternal names F
      else changeCloud names c F) = branch) :
    Triple (fun s => viewOf s = viewOf s₀ ∧ Bare names again s)
      (do
        attempt F.prepare
        let s ← read
        match s.memory with
        | none => throwing
        | some c =>
          if s.unlocked = false then throwing
          else if c.external = true ∨ c.cloudBackup = false then changeExternal names F
          else changeCloud names c F)
      (fun _ s => H ∧ Kept names s) (Closing v names again s₀ F H)
      (fun s => ((android again).client v).Crashed s₀ s ↔ H) := by
  have hundone (s : State) (hs : viewOf s = viewOf s₀ ∧ Bare names again s) :
      Undone (android again) s₀ s := undone_of_same hs.2.sound hs.1
  refine Triple.bind (Q := fun _ s => F.prepare = .none ∧ viewOf s = viewOf s₀ ∧ Bare names again s)
    (Triple.attempt_cases (fun hnone s hs => ⟨hnone, hs⟩) (fun hf s hs => ?_) fun hc s hs => ?_)
    fun _ => ?_
  · refine closing_of_kept (.inl hs.2.stage) ?_
    rw [(hundone s hs).thrown_iff h, hH hf.ne_none, or_iff_right hf.not_crashes]
  · exact iff_of_true ((hundone s hs).crashed h) ((hH hc.ne_none).mpr (.inl hc))
  refine Triple.assuming fun hprepare => Triple.read fun r hr => ?_
  have hmemory : r.memory = some c := (congrArg View.memory hr.1).trans h.keeps.memory
  have hunlocked : r.unlocked = true := (congrArg View.unlocked hr.1).trans h.unlocked
  rw [hmemory]
  refine Triple.ite (fun hlocked => ?_) fun _ => ?_
  · rw [hunlocked] at hlocked
    cases hlocked
  · rw [htaken]
    exact (hbranch hprepare).strengthen fun s hs => hs.1

/-- A password change of an unlocked Android vault recovers exactly where it is harmless. -/
theorem changePassword_recovers_iff (h : (android again).Unlocked v d c s₀)
    (hfresh : Fresh s₀.files names) :
    ((android again).client v).Recovers s₀ (changePassword names F s₀) ↔ Harmless s₀ d c F := by
  have hstart : viewOf (atCommit (AndroidCommitJournal.setFlags false false) s₀) = viewOf s₀ ∧
      Bare names again (atCommit (AndroidCommitJournal.setFlags false false) s₀) :=
    ⟨rfl, ⟨h.sound.quiet, h.sound.free⟩, ⟨hfresh.unlisted, hfresh.recovery, rfl, rfl⟩, hfresh.stage⟩
  unfold Harmless
  by_cases hrelayed : Relayed c
  · rw [if_pos hrelayed]
    exact AndroidPasswordChange.change_recovers (prepared_ends h (fun hp => by
      simp [CloudHarmless, hp]) (changeCloud_ends h hrelayed) (if_neg hrelayed)) hstart
  · rw [if_neg hrelayed]
    exact AndroidPasswordChange.change_recovers (prepared_ends h (fun hp => by
      simp [ExternalHarmless, hp]) (fun hp => (changeExternal_ends h hp).strengthen fun s hs =>
        ⟨undone_of_same hs.2.sound hs.1, hs.2.idle, hs.2.stage⟩) (if_pos (not_not.mp hrelayed))) hstart

/-- Where a change that fails leaves the vault openable, retryable and with the
configuration of the disk in memory, for the three implementations. -/
theorem failed_change_recovers_iff (v : Snapshot) (d c : Config) :
    (∀ (F : SecureVault.LegacyFaults) (s : SecureVault.LegacyState),
      DesktopPasswordChange.legacyClient.Opens .previous s →
      (DesktopPasswordChange.legacyClient.Recovers s (SecureVault.changePassword F s) ↔
        DesktopPasswordChange.LegacyHarmless F)) ∧
    (∀ (F : SecureVault.Faults) (s : SecureVault.State),
      DesktopPasswordChange.desktop.Unlocked v d c s →
      ((DesktopPasswordChange.desktop.client v).Recovers s (SecureVault.changeSecurePassword F s) ↔
        DesktopPasswordChange.Harmless s d c F)) ∧
    (∀ (F : Faults) (names again : Journal) (s : State),
      (android again).Unlocked v d c s → Fresh s.files names →
      (((android again).client v).Recovers s (changePassword names F s) ↔ Harmless s d c F)) :=
  ⟨fun _ _ => DesktopPasswordChange.changePassword_recovers_iff,
    fun _ _ => DesktopPasswordChange.changeSecurePassword_recovers_iff,
    fun _ _ _ _ => changePassword_recovers_iff⟩

end Change

section Samples

open VaultReplacement

def smallConfig : Config := ⟨.previous, false, true, 4⟩

theorem smallTree_whole {shares : List Path} (h : ∀ path ∈ shares, path ∈ SecureVault.sharePaths) :
    Whole shares smallConfig smallVault smallTree := by
  have hwhole : Whole SecureVault.sharePaths smallConfig smallVault smallTree := by
    rw [smallTree, SecureVault.restored_full]
    exact SecureVault.restored_whole
  exact ⟨hwhole.config, fun path hpath => hwhole.shares path (h path hpath), hwhole.database,
    hwhole.attachments⟩

/-- The same vault on Android. -/
def nativeVault : State :=
  ⟨⟨some smallTree, fun _ => none, fun _ => none, none, false, false, some smallTree, fun _ => none⟩,
    some smallConfig, true, some ⟨.previous, 4⟩, none, [.previous]⟩

def firstNames : Journal := ⟨⟨.rotate, 1⟩, ⟨.rotate, 2⟩⟩

def laterNames : Journal := ⟨⟨.rotate, 3⟩, ⟨.rotate, 4⟩⟩

theorem unlockedVault_ready :
    DesktopPasswordChange.desktop.Unlocked smallVault smallConfig smallConfig unlockedVault :=
  ⟨trivial, ⟨⟨smallTree, rfl, smallTree_whole fun _ h => h⟩, rfl, rfl, rfl, by decide,
    fun _ => ⟨_, rfl, rfl⟩⟩, rfl, by decide⟩

theorem nativeVault_ready :
    (android laterNames).Unlocked smallVault smallConfig smallConfig nativeVault :=
  ⟨⟨nofun, rfl⟩, ⟨⟨smallTree, rfl, smallTree_whole (by decide)⟩, rfl, rfl, rfl, by decide,
    fun _ => ⟨_, rfl, rfl⟩⟩, rfl, by decide⟩

theorem nativeVault_fresh : Fresh nativeVault.files firstNames := ⟨rfl, rfl, nofun⟩

theorem small_vault_changed :
    (DesktopPasswordChange.legacyClient.Recovers ⟨.whole .previous, .previous⟩
        (SecureVault.changePassword ⟨.throws 0, .none⟩ ⟨.whole .previous, .previous⟩) ↔
      DesktopPasswordChange.LegacyHarmless ⟨.throws 0, .none⟩) ∧
    ((DesktopPasswordChange.desktop.client smallVault).Recovers unlockedVault
        (SecureVault.changeSecurePassword SecureVault.noFaults unlockedVault) ↔
      DesktopPasswordChange.Harmless unlockedVault smallConfig smallConfig SecureVault.noFaults) ∧
    (((android laterNames).client smallVault).Recovers nativeVault
        (changePassword firstNames noFaults nativeVault) ↔
      Harmless nativeVault smallConfig smallConfig noFaults) :=
  have h := failed_change_recovers_iff smallVault smallConfig smallConfig
  ⟨h.1 _ _ ⟨rfl, rfl⟩, h.2.1 _ _ unlockedVault_ready,
    h.2.2 _ _ _ _ nativeVault_ready nativeVault_fresh⟩

/-- A write of the configuration that throws; a lost answer to the upload of the new
backup, on both clients. -/
theorem lost_answer_leaves_new_backup :
    ¬DesktopPasswordChange.legacyClient.Recovers ⟨.whole .previous, .previous⟩
      (SecureVault.changePassword ⟨.none, .throws 0⟩ ⟨.whole .previous, .previous⟩) ∧
    ¬(DesktopPasswordChange.desktop.client smallVault).Recovers unlockedVault
      (SecureVault.changeSecurePassword { SecureVault.noFaults with upload := .throws 1 }
        unlockedVault) ∧
    ¬((android laterNames).client smallVault).Recovers nativeVault
      (changePassword firstNames { noFaults with upload := .throws 1 } nativeVault) := by
  refine ⟨fun h => ?_, fun h => ?_, fun h => ?_⟩
  · have hharmless := (DesktopPasswordChange.changePassword_recovers_iff ⟨rfl, rfl⟩).mp h
    simp [DesktopPasswordChange.LegacyHarmless, Fault.Throws] at hharmless
  · have hharmless := (DesktopPasswordChange.changeSecurePassword_recovers_iff unlockedVault_ready).mp h
    exact absurd hharmless (by decide)
  · have hharmless := (changePassword_recovers_iff nativeVault_ready nativeVault_fresh).mp h
    exact absurd hharmless (by decide)

end Samples

end CloudPasswordChange
