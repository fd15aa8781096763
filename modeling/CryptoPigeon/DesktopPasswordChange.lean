import CryptoPigeon.PasswordChange

/-! # Password changes of the desktop vault

Until the root is renamed aside, or the new backup is at the relay, a failing
`changeSecurePassword` leaves the vault as it was but for the version of its backup. From
there on the client share of the new split exists only in the call that may still fail. -/
namespace DesktopPasswordChange

open FaultyProgram VaultTree SecureVault PasswordChange

def restart (s : State) : State := { s with memory := s.root.bind configOf, unlocked := false }

/-- A locked vault is opened for a later change. -/
def opened (s : State) : State :=
  match s.unlocked, s.memory with
  | false, some c => { s with memory := some ((viewOf s).reopened c), unlocked := true }
  | _, _ => s

/-- A later change without faults returns. -/
def Retries (s : State) : Prop := (changeSecurePassword noFaults (opened s)).Returned

/-- The process does not outlive the change. -/
def Dies (F : Faults) (fault : Fault) : Prop := fault.Crashes ∨ F.cleanup.Crashes

instance (F : Faults) (fault : Fault) : Decidable (Dies F fault) :=
  inferInstanceAs (Decidable (_ ∨ _))

/-- The two renames, the opening of the new vault and the cleanup succeed. -/
def Swaps (F : Faults) : Prop :=
  F.close = .none ∧ F.aside = .none ∧ F.install = .none ∧ F.load = .none ∧ F.unlock = .none ∧
    F.cleanup = .none

/-- With an external seventh share: the change succeeds or ends before the root is moved.
`d` is the configuration on disk and `c` the one in memory. -/
def ExternalHarmless (d c : Config) (F : Faults) : Prop :=
  if F.prepare ≠ .none then Dies F F.prepare ∨ c = d
  else if F.build ≠ .none then Dies F F.build ∨ c = d
  else if F.close ≠ .none then Dies F F.close ∨ c = d
  else if ¬F.aside.TookPlace then Dies F F.aside ∨ c = d
  else Swaps F

/-- With the seventh share at the relay: the change succeeds, or the upload of the new
backup is not carried out, nor that of the old vault without its answer, nor its version
kept in memory only. -/
def CloudHarmless (s : State) (d c : Config) (F : Faults) : Prop :=
  if F.prepare ≠ .none then Dies F F.prepare ∨ c = d
  else if F.download ≠ .none ∨ s.newRecord ≠ none then Dies F F.download ∨ c = d
  else if c.backupVersion ≠ versionOf s.oldRecord ∨ ¬F.sync.Applied then Dies F F.sync ∨ c = d
  else if F.sync ≠ .none then Dies F F.sync
  else if F.save ≠ .none then Dies F F.save ∨ advance c = d
  else if F.build ≠ .none then True
  else if F.upload ≠ .none then ¬F.upload.Applied
  else F.saveStaged = .none ∧ F.deleteOld = .none ∧ Swaps F

def Harmless (s : State) (d c : Config) (F : Faults) : Prop :=
  if Relayed c then CloudHarmless s d c F else ExternalHarmless d c F

section Decidability

variable (s : State) (d c : Config) (F : Faults)

instance : Decidable (Swaps F) := inferInstanceAs (Decidable (_ ∧ _))

instance : Decidable (ExternalHarmless d c F) := by
  delta ExternalHarmless
  infer_instance

instance : Decidable (CloudHarmless s d c F) := by
  delta CloudHarmless
  infer_instance

instance : Decidable (Harmless s d c F) := inferInstanceAs (Decidable (ite _ _ _))

end Decidability

section Retrying

variable {s : State} {c : Config} {t : Tree}

theorem changeExternal_returns (hroot : s.root = some t) :
    (changeExternal noFaults s).Returned := by
  simp [changeExternal, copyAndScatter, stageTree, swapTrees, reopen, noFaults, bind_bind, hroot,
    update, Outcome.Returned]

/-- The relay takes the next version only, and nothing may be under the new password. -/
theorem changeCloud_returns_iff (hroot : s.root = some t) :
    (changeCloud c noFaults s).Returned ↔
      s.newRecord = none ∧ c.backupVersion = versionOf s.oldRecord := by
  cases hnew : s.newRecord with
  | some r => simp [changeCloud, requireUnused, noFaults, bind_bind, hnew, Outcome.Returned]
  | none =>
    by_cases hversion : c.backupVersion = versionOf s.oldRecord
    · have hput (p : Provisioning) (n : Nat) : versionOf (some (⟨p, n⟩ : Record)) = n := rfl
      have hfirst : versionOf none = 0 := rfl
      simp [changeCloud, requireUnused, syncBackup, putOld, copyAndScatter, stageTree, uploadStaged,
        putNew, saveStage, deleteOld, swapTrees, reopen, noFaults, bind_bind, hnew, hversion, hroot,
        hput, hfirst, saveRoot, update, Outcome.Returned]
    · simp [changeCloud, requireUnused, syncBackup, putOld, noFaults, bind_bind, hnew, hversion,
        Outcome.Returned]

/-- The cleanup and the new shares fail no change. -/
theorem body_returns_iff (p : Program State Unit) :
    ((do update takeNames; andFinally p (removeStage .none); update handOver : Program State Unit)
      s).Returned ↔ (p (takeNames s)).Returned :=
  (returned_bind_update handOver (takeNames s) _).trans
    (andFinally_returned_iff (takeNames s) fun _ => trivial)

/-- A change without faults from an unlocked vault. -/
theorem change_returns_iff (hroot : s.root = some t) (hmemory : s.memory = some c)
    (hunlocked : s.unlocked = true) :
    (changeSecurePassword noFaults s).Returned ↔
      (Relayed c → s.newRecord = none ∧ c.backupVersion = versionOf s.oldRecord) := by
  refine (body_returns_iff _).trans ?_
  have hmemory' : (takeNames s).memory = some c := hmemory
  have hunlocked' : ¬(takeNames s).unlocked = false := by simp [takeNames, hunlocked]
  rw [show noFaults.prepare = .none from rfl, attempt_none_bind, read_bind, hmemory']
  dsimp only
  rw [if_neg hunlocked']
  by_cases hrelayed : Relayed c
  · rw [if_neg hrelayed]
    exact (changeCloud_returns_iff (s := takeNames s) hroot).trans ⟨fun h _ => h, fun h => h hrelayed⟩
  · rw [if_pos (not_not.mp hrelayed)]
    exact iff_of_true (changeExternal_returns (s := takeNames s) hroot) fun h => absurd h hrelayed

/-- A vault that is opened again knows the version of its backup. -/
theorem retries_iff (hroot : s.root = some t) (hmemory : s.memory = some c) :
    Retries s ↔ (viewOf s).Unobstructed c := by
  unfold Retries opened View.Unobstructed
  rw [hmemory]
  cases hunlocked : s.unlocked with
  | true => simpa [viewOf, hunlocked] using change_returns_iff hroot hmemory hunlocked
  | false =>
    refine (change_returns_iff
      (s := { s with memory := some ((viewOf s).reopened c), unlocked := true }) hroot rfl rfl).trans ?_
    cases hexternal : c.external with
    | true => simp [View.reopened, Relayed, hexternal]
    | false => simp [View.reopened, Relayed, hexternal, viewOf, hunlocked]

/-- A later change first asks whether the new password has a backup. -/
theorem retries_unused (hmemory : s.memory = some c) (hrelayed : Relayed c) (h : Retries s) :
    s.newRecord = none := by
  have hused (u : State) (m : Config) (hm : u.memory = some m) (hm' : Relayed m)
      (hu : (changeSecurePassword noFaults u).Returned) : u.newRecord = none := by
    cases hnew : u.newRecord with
    | none => rfl
    | some r =>
      have hmemory : (takeNames u).memory = some m := hm
      have hrecord : (takeNames u).newRecord = some r := hnew
      refine absurd ((body_returns_iff _).mp hu) ?_
      cases hunlocked : (takeNames u).unlocked with
      | false => simp [noFaults, hmemory, hunlocked, throwing, Outcome.Returned]
      | true =>
        simp [noFaults, hmemory, hunlocked, if_neg hm', changeCloud, requireUnused, bind_bind,
          hrecord, Outcome.Returned]
  obtain ⟨m, hm, hm', hrecord⟩ : ∃ m, (opened s).memory = some m ∧ Relayed m ∧
      (opened s).newRecord = s.newRecord := by
    unfold opened
    rw [hmemory]
    cases s.unlocked with
    | true => exact ⟨c, hmemory, hrelayed, rfl⟩
    | false => exact ⟨_, rfl, View.relayed_reopened hrelayed, rfl⟩
  rw [← hrecord]
  exact hused (opened s) m hm hm' h

end Retrying

def desktop : Vault State where
  shares := sharePaths
  view := viewOf
  Sound _ := True
  restart := restart
  Retries := Retries
  sound_restart _ _ _ := trivial
  view_restart _ _ _ := rfl
  retries_iff _ _ _ _ := retries_iff
  unused _ _ := retries_unused

section Failures

variable {v : Snapshot} {s₀ s : State} {d c : Config} {F : Faults} {H : Prop}

/-- The root has been moved aside: what may come to its place is of the new split. -/
structure Gone (s : State) : Prop where
  lost : (viewOf s).Lost
  stage : ∀ t m, s.stage = some t → configOf t = some m → m.provisioning = .next

theorem Gone.fatal (h : Gone s) : Fatal desktop v s₀ s :=
  ⟨lost_not_recoverable h.lost, lost_not_recoverable (s := restart s) h.lost.restarted⟩

/-- The new backup is at the relay. -/
structure Uploaded (s : State) : Prop where
  stuck : (viewOf s).Stuck
  stage : ∀ t m, s.stage = some t → configOf t = some m → Relayed m

theorem Uploaded.fatal (h : Uploaded s) (hretries : Retries s₀) : Fatal desktop v s₀ s :=
  ⟨stuck_not_recoverable h.stuck hretries,
    stuck_not_recoverable (s := restart s) h.stuck.restarted hretries⟩

/-- What a throw of the body leaves to the cleanup. -/
structure Closing (v : Snapshot) (s₀ : State) (F : Faults) (H : Prop) (s : State) : Prop where
  dies : F.cleanup.Crashes → ((desktop.client v).Crashed s₀ s ↔ H)
  survives : ¬F.cleanup.Crashes → ((desktop.client v).Thrown s₀ s ↔ H)

theorem closing_of_fatal (h : Fatal desktop v s₀ s) (hH : ¬H) : Closing v s₀ F H s :=
  ⟨fun _ => h.crashed_iff hH, fun _ => h.thrown_iff hH⟩

/-- From here on every failure is fatal. -/
theorem atomically_fatal {I : State → Prop} {f : State → State} {fault : Fault}
    (hfatal : ∀ s, I s → Fatal desktop v s₀ s) (hf : ∀ s, I s → I (f s)) (hH : H → fault = .none) :
    Triple I (atomically f fault) (fun _ s => fault = .none ∧ I s) (Closing v s₀ F H)
      (fun s => (desktop.client v).Crashed s₀ s ↔ H) := by
  refine Triple.atomically_cases (fun hnone s h => ⟨hnone, hf s h⟩)
    (fun ht s h => closing_of_fatal (hfatal s h) fun hh => ht.ne_none (hH hh))
    (fun hc _ s h => (hfatal s h).crashed_iff fun hh => hc.ne_none (hH hh))
    (fun hc _ s h => (hfatal _ (hf s h)).crashed_iff fun hh => hc.ne_none (hH hh))

/-- The rename of the stage and the opening of the new vault. -/
theorem install_fatal {I : State → Prop} (hfatal : ∀ s, I s → Fatal desktop v s₀ s)
    (hinstall : ∀ s, I s → I (installStage s)) (hread : ∀ s, I s → I (readConfig s))
    (hopen : ∀ s, I s → I { s with unlocked := true })
    (hH : H ↔ F.install = .none ∧ F.load = .none ∧ F.unlock = .none ∧ F.cleanup = .none) :
    Triple I (do atomically installStage F.install; reopen F)
      (fun _ s => (H ↔ F.cleanup = .none) ∧ I s) (Closing v s₀ F H)
      (fun s => (desktop.client v).Crashed s₀ s ↔ H) := by
  refine Triple.bind (atomically_fatal hfatal hinstall fun h => (hH.mp h).1) fun _ => ?_
  refine Triple.assuming fun hi => Triple.bind
    (atomically_fatal hfatal (fun _ h => h) fun h => (hH.mp h).2.1) fun _ => ?_
  refine Triple.assuming fun hl => Triple.bind (Q := fun _ => I) (Triple.update hread) fun _ => ?_
  refine Triple.bind (atomically_fatal hfatal (fun _ h => h) fun h => (hH.mp h).2.2.1) fun _ => ?_
  exact Triple.assuming fun hu => Triple.update fun s h => ⟨by simp [hH, hi, hl, hu], hopen s h⟩

theorem changeSecurePassword_forgets (x : Option Tree) :
    changeSecurePassword F { s with stage := x } = changeSecurePassword F s := rfl

theorem opened_forgets (x : Option Tree) :
    opened { s with stage := x } = { opened s with stage := x } := by
  obtain ⟨root, stage, aside, memory, unlocked, oldRecord, newRecord, held⟩ := s
  cases unlocked with
  | true => rfl
  | false => cases memory <;> rfl

theorem retries_forgets (x : Option Tree) : Retries { s with stage := x } ↔ Retries s := by
  unfold Retries
  rw [opened_forgets, changeSecurePassword_forgets]

theorem recoverable_forgets (x : Option Tree) :
    (desktop.client v).Recoverable s₀ { s with stage := x } ↔ (desktop.client v).Recoverable s₀ s :=
  or_congr (and_congr Iff.rfl (imp_congr Iff.rfl (retries_forgets x))) Iff.rfl

theorem crashed_forgets (x : Option Tree) :
    (desktop.client v).Crashed s₀ { s with stage := x } ↔ (desktop.client v).Crashed s₀ s :=
  recoverable_forgets (s := restart s) x

theorem thrown_forgets (x : Option Tree) :
    (desktop.client v).Thrown s₀ { s with stage := x } ↔ (desktop.client v).Thrown s₀ s :=
  ⟨fun h => ⟨(recoverable_forgets x).mp h.recoverable, h.config, (crashed_forgets x).mp h.restarted⟩,
    fun h => ⟨(recoverable_forgets x).mpr h.recoverable, h.config,
      (crashed_forgets x).mpr h.restarted⟩⟩

/-- The cleanup after a throw; only a crash of it makes a difference. -/
theorem cleanup_closing :
    Triple (Closing v s₀ F H) (removeStage F.cleanup) (fun _ s => (desktop.client v).Thrown s₀ s ↔ H)
      (fun s => (desktop.client v).Thrown s₀ s ↔ H) (fun s => (desktop.client v).Crashed s₀ s ↔ H) := by
  refine Triple.gradually (fun hnone s h => ?_) (fun n hf s h => ?_) (fun n hf s h => ?_)
  · exact (thrown_forgets none).trans (h.survives (by rw [hnone]; exact id))
  · exact (thrown_forgets _).trans (h.survives (by rw [hf]; exact id))
  · exact (crashed_forgets _).trans (h.dies (by rw [hf]; trivial))

theorem cleanup_done {I : State → Prop} (hfatal : ∀ s, I s → Fatal desktop v s₀ s) :
    Triple (fun s => (H ↔ F.cleanup = .none) ∧ I s) (removeStage F.cleanup) (fun _ _ => H)
      (fun s => (desktop.client v).Thrown s₀ s ↔ H) (fun s => (desktop.client v).Crashed s₀ s ↔ H) := by
  have hrest (x : Option Tree) (s : State) (h : I s) : Fatal desktop v s₀ { s with stage := x } :=
    ⟨fun hr => (hfatal s h).running ((recoverable_forgets x).mp hr),
      fun hr => (hfatal s h).restarted ((crashed_forgets x).mp hr)⟩
  refine Triple.gradually (fun hnone s h => h.1.mpr hnone) (fun n hf s h => ?_) (fun n hf s h => ?_)
  · have hH : ¬H := fun hh => absurd (h.1.mp hh) (by rw [hf]; nofun)
    exact iff_of_false (fun ht => (hrest _ s h.2).running ht.recoverable) hH
  · have hH : ¬H := fun hh => absurd (h.1.mp hh) (by rw [hf]; nofun)
    exact iff_of_false (hrest _ s h.2).restarted hH

/-- A body that leaves its throws to the cleanup, with the cleanup and the new shares. -/
theorem change_recovers {Pre I : State → Prop} {p : Program State Unit}
    (hfatal : ∀ s, I s → Fatal desktop v s₀ s)
    (hbody : Triple Pre p (fun _ s => (H ↔ F.cleanup = .none) ∧ I s) (Closing v s₀ F H)
      (fun s => (desktop.client v).Crashed s₀ s ↔ H)) (hs : Pre s) :
    (desktop.client v).Recovers s₀
      ((do andFinally p (removeStage F.cleanup); update handOver : Program State Unit) s) ↔ H := by
  have hclosed : Triple Pre (andFinally p (removeStage F.cleanup)) (fun _ _ => H)
      (fun s => (desktop.client v).Thrown s₀ s ↔ H) (fun s => (desktop.client v).Crashed s₀ s ↔ H) :=
    Triple.andFinally hbody (fun _ => cleanup_done hfatal) (cleanup_closing.consequence
      (fun _ h => h) (fun _ _ h => h) (fun _ h => h) fun _ h => h)
  exact Client.recovers_iff _ (Triple.bind hclosed fun _ => Triple.update fun _ h => h) hs

end Failures


/-! The branches. Until the first fatal operation the vault is kept. -/
section Branches

variable {v : Snapshot} {s₀ s : State} {d c : Config} {F : Faults} {H : Prop}

theorem dies_throws {fault : Fault} (ht : fault.Throws) : Dies F fault ↔ F.cleanup.Crashes :=
  or_iff_right ht.not_crashes

theorem undone_closing (h : desktop.Unlocked v d c s₀) (hs : Undone desktop s₀ s)
    (hH : H ↔ F.cleanup.Crashes ∨ c = d) : Closing v s₀ F H s := by
  refine ⟨fun hc => iff_of_true (hs.crashed h) (hH.mpr (.inl hc)), fun hc => ?_⟩
  rw [hH, or_iff_right hc]
  exact hs.thrown_iff h

/-- An operation that nothing which opening depends on shows. -/
theorem attempt_undone (h : desktop.Unlocked v d c s₀) {Pre : State → Prop} {fault : Fault}
    (hundone : ∀ s, Pre s → Undone desktop s₀ s)
    (hH : fault ≠ .none → (H ↔ Dies F fault ∨ c = d)) :
    Triple Pre (attempt fault) (fun _ s => fault = .none ∧ Pre s) (Closing v s₀ F H)
      (fun s => (desktop.client v).Crashed s₀ s ↔ H) := by
  refine Triple.attempt_cases (fun hnone s hs => ⟨hnone, hs⟩) (fun ht s hs => ?_) (fun hc s hs => ?_)
  · exact undone_closing h (hundone s hs) (by rw [hH ht.ne_none, dies_throws ht])
  · exact iff_of_true ((hundone s hs).crashed h) ((hH hc.ne_none).mpr (.inl (.inl hc)))

/-- The root is as it was and the stage is of the new split. -/
structure ReadyToSwap (s₀ s : State) : Prop where
  undone : Undone desktop s₀ s
  stage : ∀ t m, s.stage = some t → configOf t = some m → m.provisioning = .next

theorem copyAndScatter_undone (h : desktop.Unlocked v d c s₀)
    (hH : F.build ≠ .none → (H ↔ Dies F F.build ∨ c = d)) :
    Triple (Undone desktop s₀) (copyAndScatter [.put .config (.config ⟨.next, true, false, 0⟩)] F)
      (fun _ s => F.build = .none ∧ ReadyToSwap s₀ s) (Closing v s₀ F H)
      (fun s => (desktop.client v).Crashed s₀ s ↔ H) := by
  refine Triple.read fun r hr => ?_
  obtain ⟨t, hroot, _⟩ := (hr.keeps h).root
  have hroot : r.root = some t := hroot
  have hstage (x : Option Tree) (s : State) (hs : Undone desktop s₀ s) :
      Undone desktop s₀ { s with stage := x } := hs
  rw [hroot]
  refine Triple.gradually (fun hnone s hs => ⟨hnone, hstage _ s hs.1, fun u m hu hm => ?_⟩)
    (fun n hf s hs => ?_) (fun n hf s hs => ?_)
  · obtain rfl := Option.some.inj hu
    have hfull : (stagedFrom t (scatter .next ++
        [.put .config (.config ⟨.next, true, false, 0⟩)])).full =
        saveConfig ⟨.next, true, false, 0⟩ (applyWrites (scatter .next) t) := applyWrites_append _ _
    rw [hfull, configOf_saveConfig] at hm
    obtain rfl := Option.some.inj hm
    rfl
  · have ht : F.build.Throws := by rw [hf]; trivial
    exact undone_closing h (hstage _ s hs.1) (by rw [hH ht.ne_none, dies_throws ht])
  · have hc : F.build.Crashes := by rw [hf]; trivial
    exact iff_of_true ((hstage _ s hs.1).crashed h) ((hH hc.ne_none).mpr (.inl (.inl hc)))

theorem moveAside_ends (h : desktop.Unlocked v d c s₀)
    (hundone : ¬F.aside.TookPlace → (H ↔ Dies F F.aside ∨ c = d))
    (hfatal : F.aside ≠ .none → F.aside.TookPlace → ¬H) :
    Triple (ReadyToSwap s₀) (atomically moveAside F.aside)
      (fun _ s => F.aside = .none ∧ Gone s) (Closing v s₀ F H)
      (fun s => (desktop.client v).Crashed s₀ s ↔ H) := by
  have hgone (s : State) (hs : ReadyToSwap s₀ s) : Gone (moveAside s) := by
    refine ⟨⟨nofun, ?_⟩, hs.stage⟩
    have hheld : s.held = s₀.held := congrArg View.held hs.undone.2
    change .next ∉ s.held
    rw [hheld]
    exact h.unknown
  refine Triple.atomically_cases (fun hnone s hs => ⟨hnone, hgone s hs⟩) (fun ht s hs => ?_)
    (fun hc hnot s hs => ?_) (fun hc htook s hs => ?_)
  · exact undone_closing h hs.undone (by rw [hundone ht.not_tookPlace, dies_throws ht])
  · exact iff_of_true (hs.undone.crashed h) ((hundone hnot).mpr (.inl (.inl hc)))
  · exact (hgone s hs).fatal.crashed_iff (hfatal hc.ne_none htook)

theorem Gone.installed (h : Gone s) : Gone (installStage s) :=
  ⟨⟨h.stage, h.lost.held⟩, nofun⟩

theorem Gone.read (h : Gone s) : Gone (readConfig s) := by
  unfold readConfig
  split
  · exact h
  · exact ⟨⟨h.lost.root, h.lost.held⟩, h.stage⟩

theorem changeExternal_ends (h : desktop.Unlocked v d c s₀) (hprepare : F.prepare = .none) :
    Triple (Undone desktop s₀) (changeExternal F)
      (fun _ s => (ExternalHarmless d c F ↔ F.cleanup = .none) ∧ Gone s)
      (Closing v s₀ F (ExternalHarmless d c F))
      (fun s => (desktop.client v).Crashed s₀ s ↔ ExternalHarmless d c F) := by
  refine Triple.bind (copyAndScatter_undone h fun hb => by
    simp [ExternalHarmless, hprepare, hb]) fun _ => Triple.assuming fun hbuild => ?_
  refine Triple.bind (attempt_undone h (fun s hs => hs.undone) fun hcl => by
    simp [ExternalHarmless, hprepare, hbuild, hcl]) fun _ => Triple.assuming fun hclose => ?_
  refine Triple.bind (Q := fun _ => ReadyToSwap s₀) (Triple.update fun s hs =>
    ⟨⟨trivial, congrArg (fun w : View => { w with unlocked := false }) hs.undone.2⟩, hs.stage⟩)
    fun _ => ?_
  refine Triple.bind (moveAside_ends h
    (fun hnot => by simp [ExternalHarmless, hprepare, hbuild, hclose, hnot])
    (fun hne htook => by simp [ExternalHarmless, Swaps, hprepare, hbuild, hclose, htook, hne]))
    fun _ => Triple.assuming fun haside => ?_
  exact install_fatal (fun s hs => hs.fatal) (fun s hs => hs.installed) (fun s hs => hs.read)
    (fun s hs => ⟨⟨hs.lost.root, hs.lost.held⟩, hs.stage⟩)
    (by simp [ExternalHarmless, Swaps, hprepare, hbuild, hclose, haside])

/-- In step with its backup, with nothing under the new password. -/
def Synced (c : Config) (s₀ s : State) : Prop := viewOf s = (viewOf s₀).synced c

theorem Synced.closing (h : desktop.Unlocked v d c s₀) (hnew : s₀.newRecord = none)
    (hs : Synced c s₀ s) (hH : H) : Closing v s₀ F H s :=
  ⟨fun _ => iff_of_true (synced_crashed h (by decide) hnew trivial hs) hH,
    fun _ => iff_of_true (synced_thrown h (by decide) hnew trivial hs) hH⟩

/-- The upload of the old vault's backup, with what each of its ends leaves. -/
theorem syncBackup_ends (h : desktop.Unlocked v d c s₀) (hrelayed : Relayed c)
    (hnew : s₀.newRecord = none)
    (hundone : c.backupVersion ≠ versionOf s₀.oldRecord ∨ ¬F.sync.Applied →
      (H ↔ Dies F F.sync ∨ c = d))
    (hlost : c.backupVersion = versionOf s₀.oldRecord → F.sync.Applied → F.sync ≠ .none →
      (H ↔ Dies F F.sync))
    (hsave : c.backupVersion = versionOf s₀.oldRecord ∧ F.sync = .none → F.save ≠ .none →
      (H ↔ Dies F F.save ∨ advance c = d)) :
    Triple (fun s => viewOf s = viewOf s₀) (syncBackup c F)
      (fun _ s => (c.backupVersion = versionOf s₀.oldRecord ∧ F.sync = .none ∧ F.save = .none) ∧
        Synced c s₀ s)
      (Closing v s₀ F H) (fun s => (desktop.client v).Crashed s₀ s ↔ H) := by
  have hsame (s : State) (hs : viewOf s = viewOf s₀) : Undone desktop s₀ s := undone_of_same trivial hs
  refine syncBackup_spec (fun href hnot s hs => ?_) (fun hcut hc s hs => ?_)
    (fun hv ht happ s hs => ?_) (fun hv hc happ s hs => ?_) (fun hput ht s hs => ?_)
    (fun hput hc s hs => ?_)
  · refine undone_closing h (hsame s hs) ?_
    rw [hundone href, Dies, or_iff_right hnot]
  · exact iff_of_true ((hsame s hs).crashed h) ((hundone hcut).mpr (.inl (.inl hc)))
  · have hH := hlost hv happ ht.ne_none
    rw [dies_throws ht] at hH
    exact ⟨fun hc => iff_of_true (unanswered_crashed h hnew trivial hs) (hH.mpr hc), fun hc =>
      iff_of_false (unanswered_not_thrown h hrelayed hnew hv trivial hs) fun hh => hc (hH.mp hh)⟩
  · exact iff_of_true (unanswered_crashed h hnew trivial hs) ((hlost hv happ hc.ne_none).mpr (.inl hc))
  · have hH : H ↔ F.cleanup.Crashes ∨ advance c = d := by rw [hsave hput ht.ne_none, dies_throws ht]
    refine ⟨fun hc => iff_of_true (answered_crashed h hnew trivial hs) (hH.mpr (.inl hc)), fun hc => ?_⟩
    rw [hH, or_iff_right hc]
    exact answered_thrown_iff h hnew trivial hs
  · refine iff_of_true ?_ ((hsave hput hc.ne_none).mpr (.inl (.inl hc)))
    rcases hs with hs | hs
    · exact answered_crashed h hnew trivial hs
    · exact synced_crashed h (by decide) hnew trivial hs

/-- The stage is a copy of the vault with new shares. -/
structure Staged (c : Config) (s₀ s : State) : Prop where
  synced : Synced c s₀ s
  stage : ∀ t m, s.stage = some t → configOf t = some m → Relayed m

theorem copyAndScatter_synced (h : desktop.Unlocked v d c s₀) (hrelayed : Relayed c)
    (hnew : s₀.newRecord = none) (hH : F.build ≠ .none → H) :
    Triple (Synced c s₀) (copyAndScatter [] F) (fun _ s => F.build = .none ∧ Staged c s₀ s)
      (Closing v s₀ F H) (fun s => (desktop.client v).Crashed s₀ s ↔ H) := by
  refine Triple.read fun r hr => ?_
  obtain ⟨t, hroot, hwhole⟩ := (synced_keeps (V := desktop) (s := r) h (by decide) hr).root
  have hroot : r.root = some t := hroot
  have hstage (x : Option Tree) (s : State) (hs : Synced c s₀ s) : Synced c s₀ { s with stage := x } := hs
  rw [hroot]
  refine Triple.gradually (fun hnone s hs => ⟨hnone, hstage _ s hs.1, fun u m hu hm => ?_⟩)
    (fun n hf s hs => (hstage _ s hs.1).closing h hnew (hH (by rw [hf]; nofun)))
    (fun n hf s hs => iff_of_true (synced_crashed h (by decide) hnew trivial (hstage _ s hs.1))
      (hH (by rw [hf]; nofun)))
  obtain rfl := Option.some.inj hu
  have hconfig : configOf (applyWrites (scatter .next ++ []) t) = some (advance c) := by
    rw [List.append_nil, configOf, scatter_other (by decide), hwhole.config]
  obtain rfl := Option.some.inj (hconfig.symm.trans hm)
  exact hrelayed

/-- The new backup is at the relay beside the old one. -/
structure BothUploaded (c : Config) (s : State) : Prop where
  uploaded : Uploaded s
  oldRecord : s.oldRecord = some ⟨c.provisioning, c.backupVersion + 1⟩

theorem putNew_ends (h : desktop.Unlocked v d c s₀) (hrelayed : Relayed c)
    (hnew : s₀.newRecord = none) (hretries : Retries s₀)
    (hH : F.upload ≠ .none → (H ↔ ¬F.upload.Applied)) :
    Triple (Staged c s₀) (putNew F.upload) (fun _ s => F.upload = .none ∧ BothUploaded c s)
      (Closing v s₀ F H) (fun s => (desktop.client v).Crashed s₀ s ↔ H) := by
  refine putNew_spec (fun s hs => ?_) (fun s hs => ?_)
    (fun hnot ht s hs => hs.synced.closing h hnew ((hH ht.ne_none).mpr hnot))
    (fun happ ht s hs => closing_of_fatal (hs.uploaded.fatal hretries) fun hh =>
      (hH ht.ne_none).mp hh happ)
    (fun hnot hc s hs => iff_of_true (synced_crashed h (by decide) hnew trivial hs.synced)
      ((hH hc.ne_none).mpr hnot))
    (fun happ hc s hs => (hs.uploaded.fatal hretries).crashed_iff fun hh =>
      (hH hc.ne_none).mp hh happ)
  · exact (congrArg View.newRecord hs.synced).trans hnew
  · obtain ⟨t, hroot, hwhole⟩ := (synced_keeps (V := desktop) (s := s) h (by decide) hs.synced).root
    have hroot : s.root = some t := hroot
    have hmemory : s.memory = some (advance c) := congrArg View.memory hs.synced
    have hunknown : .next ∉ s.held := by
      rw [show s.held = s₀.held from congrArg View.held hs.synced]
      exact h.unknown
    refine ⟨⟨⟨.inr nofun, hunknown, fun m hm => ?_, fun u m hu hm => ?_⟩, hs.stage⟩,
      congrArg View.oldRecord hs.synced⟩
    · obtain rfl := Option.some.inj (hmemory.symm.trans hm)
      exact hrelayed
    · obtain rfl := Option.some.inj (hroot.symm.trans hu)
      obtain rfl := Option.some.inj (hwhole.configOf.symm.trans hm)
      exact hrelayed

theorem Uploaded.stageSaved (h : Uploaded s) : Uploaded (saveStage ⟨.next, false, true, 1⟩ s) := by
  refine ⟨h.stuck, fun t m ht hm => ?_⟩
  obtain ⟨u, _, rfl⟩ := Option.map_eq_some_iff.mp ht
  rw [configOf_saveConfig] at hm
  obtain rfl := Option.some.inj hm
  decide

theorem Uploaded.installed (h : Uploaded s) : Uploaded (installStage s) :=
  ⟨⟨h.stuck.used, h.stuck.unknown, h.stuck.memory, h.stage⟩, nofun⟩

theorem Uploaded.read (h : Uploaded s) : Uploaded (readConfig s) := by
  unfold readConfig
  cases hconfig : s.root.bind configOf with
  | none => exact h
  | some m =>
    refine ⟨⟨h.stuck.used, h.stuck.unknown, fun n hn => ?_, h.stuck.root⟩, h.stage⟩
    obtain rfl := Option.some.inj hn
    obtain ⟨t, hroot, hm⟩ := Option.bind_eq_some_iff.mp hconfig
    exact h.stuck.root t m hroot hm

theorem deleteOld_ends (hretries : Retries s₀) (hH : H → F.deleteOld = .none) :
    Triple (BothUploaded c) (deleteOld (c.backupVersion + 1) F.deleteOld)
      (fun _ s => F.deleteOld = .none ∧ Uploaded s) (Closing v s₀ F H)
      (fun s => (desktop.client v).Crashed s₀ s ↔ H) := by
  exact deleteOld_spec (fun s hs => hs.oldRecord)
    (fun s hs => ⟨⟨.inl rfl, hs.uploaded.stuck.unknown, hs.uploaded.stuck.memory,
      hs.uploaded.stuck.root⟩, hs.uploaded.stage⟩)
    (fun _ ht s hs => closing_of_fatal (hs.uploaded.fatal hretries) fun hh => ht.ne_none (hH hh))
    (fun _ ht s hs => closing_of_fatal (hs.fatal hretries) fun hh => ht.ne_none (hH hh))
    (fun _ hc s hs => (hs.uploaded.fatal hretries).crashed_iff fun hh => hc.ne_none (hH hh))
    (fun _ hc s hs => (hs.fatal hretries).crashed_iff fun hh => hc.ne_none (hH hh))

theorem swapTrees_uploaded (hretries : Retries s₀) (hH : H ↔ Swaps F) :
    Triple Uploaded (swapTrees F) (fun _ s => (H ↔ F.cleanup = .none) ∧ Uploaded s)
      (Closing v s₀ F H) (fun s => (desktop.client v).Crashed s₀ s ↔ H) := by
  have hfatal (s : State) (hs : Uploaded s) : Fatal desktop v s₀ s := hs.fatal hretries
  have hkept (s : State) (hs : Uploaded s) (b : Bool) : Uploaded { s with unlocked := b } :=
    ⟨⟨hs.stuck.used, hs.stuck.unknown, hs.stuck.memory, hs.stuck.root⟩, hs.stage⟩
  refine Triple.bind (atomically_fatal hfatal (fun _ hs => hs) fun h => (hH.mp h).1) fun _ => ?_
  refine Triple.assuming fun hclose => Triple.bind (Q := fun _ => Uploaded) (Triple.update fun s hs =>
    hkept s hs false) fun _ => ?_
  refine Triple.bind (atomically_fatal hfatal (fun s hs =>
    ⟨⟨hs.stuck.used, hs.stuck.unknown, hs.stuck.memory, nofun⟩, hs.stage⟩) fun h => (hH.mp h).2.1)
    fun _ => ?_
  refine Triple.assuming fun haside => install_fatal hfatal (fun _ hs => hs.installed)
    (fun _ hs => hs.read) (fun s hs => hkept s hs true) ?_
  rw [hH]
  simp [Swaps, hclose, haside]

theorem changeCloud_ends (h : desktop.Unlocked v d c s₀) (hrelayed : Relayed c)
    (hprepare : F.prepare = .none) :
    Triple (fun s => viewOf s = viewOf s₀) (changeCloud c F)
      (fun _ s => (CloudHarmless s₀ d c F ↔ F.cleanup = .none) ∧ Uploaded s ∧ Retries s₀)
      (Closing v s₀ F (CloudHarmless s₀ d c F))
      (fun s => (desktop.client v).Crashed s₀ s ↔ CloudHarmless s₀ d c F) := by
  have hsame (s : State) (hs : viewOf s = viewOf s₀) : Undone desktop s₀ s := undone_of_same trivial hs
  have hused (hd : F.download ≠ .none ∨ s₀.newRecord ≠ none) :
      CloudHarmless s₀ d c F ↔ Dies F F.download ∨ c = d := by
    rw [CloudHarmless, if_neg (by simp [hprepare]), if_pos hd]
  refine Triple.bind (requireUnused_spec (fun s hs => congrArg View.newRecord hs)
    (fun hthrows s hs => undone_closing h (hsame s hs) ?_) (fun hc s hs =>
      iff_of_true ((hsame s hs).crashed h) ((hused (.inl hc.ne_none)).mpr (.inl (.inl hc))))) fun _ => ?_
  · rcases hthrows with ht | ⟨hnone, hnew⟩
    · rw [hused (.inl ht.ne_none), dies_throws ht]
    · rw [hused (.inr hnew), Dies, hnone, or_iff_right Fault.not_none_crashes]
  refine Triple.assuming fun ⟨hdownload, hnew⟩ => ?_
  have hnew : s₀.newRecord = none := hnew
  refine Triple.bind (syncBackup_ends h hrelayed hnew (fun hv => ?_) (fun hv happ hne => ?_)
    fun hput hs => ?_) fun _ => ?_
  · rw [CloudHarmless, if_neg (by simp [hprepare]), if_neg (by simp [hdownload, hnew]), if_pos hv]
  · simp [CloudHarmless, hprepare, hdownload, hnew, hv, happ, hne]
  · simp [CloudHarmless, hprepare, hdownload, hnew, hput, hs]
  refine Triple.assuming fun ⟨hversion, hsync, hsave⟩ => ?_
  have hretries : Retries s₀ := (Vault.Unlocked.retries_iff h).mpr fun _ => ⟨hnew, hversion⟩
  have hend : CloudHarmless s₀ d c F ↔
      if F.build ≠ .none then True
      else if F.upload ≠ .none then ¬F.upload.Applied
      else F.saveStaged = .none ∧ F.deleteOld = .none ∧ Swaps F := by
    simp [CloudHarmless, hprepare, hdownload, hnew, hversion, hsync, hsave]
  refine Triple.bind (copyAndScatter_synced h hrelayed hnew fun hb => by simp [hend, hb]) fun _ => ?_
  refine Triple.assuming fun hbuild => Triple.bind (Q := fun _ s => (F.upload = .none ∧
    F.saveStaged = .none) ∧ BothUploaded c s) (Triple.bind (putNew_ends h hrelayed hnew hretries
      fun hu => by simp [hend, hbuild, hu]) fun _ => Triple.assuming fun hupload => ?_) fun _ => ?_
  · refine (atomically_fatal (I := BothUploaded c) (fun s hs => hs.uploaded.fatal hretries)
      (fun s hs => ⟨hs.uploaded.stageSaved, hs.oldRecord⟩) fun hh => ?_).weaken
      fun _ s hs => ⟨⟨hupload, hs.1⟩, hs.2⟩
    rw [hend, if_neg (by simp [hbuild]), if_neg (by simp [hupload])] at hh
    exact hh.1
  refine Triple.assuming fun ⟨hupload, hsaveStaged⟩ => ?_
  have hlast : CloudHarmless s₀ d c F ↔ F.deleteOld = .none ∧ Swaps F := by
    simp [hend, hbuild, hupload, hsaveStaged]
  refine Triple.bind (deleteOld_ends hretries fun hh => (hlast.mp hh).1) fun _ => ?_
  exact Triple.assuming fun hdelete => (swapTrees_uploaded hretries (by simp [hlast, hdelete])).weaken
    fun _ s hs => ⟨hs.1, hs.2, hretries⟩

end Branches

section Change

variable {v : Snapshot} {s₀ : State} {d c : Config} {F : Faults} {H : Prop}

/-- What precedes the branches, with the branch taken. -/
theorem prepared_ends {I : State → Prop} {branch : Program State Unit} (h : desktop.Unlocked v d c s₀)
    (hH : F.prepare ≠ .none → (H ↔ Dies F F.prepare ∨ c = d))
    (hbranch : F.prepare = .none → Triple (fun s => viewOf s = viewOf s₀) branch
      (fun _ s => (H ↔ F.cleanup = .none) ∧ I s) (Closing v s₀ F H)
      (fun s => (desktop.client v).Crashed s₀ s ↔ H))
    (htaken : (if c.external = true ∨ c.cloudBackup = false then changeExternal F
      else changeCloud c F) = branch) :
    Triple (fun s => viewOf s = viewOf s₀)
      (do
        attempt F.prepare
        let s ← read
        match s.memory with
        | none => throwing
        | some c =>
          if s.unlocked = false then throwing
          else if c.external = true ∨ c.cloudBackup = false then changeExternal F
          else changeCloud c F)
      (fun _ s => (H ↔ F.cleanup = .none) ∧ I s) (Closing v s₀ F H)
      (fun s => (desktop.client v).Crashed s₀ s ↔ H) := by
  refine Triple.bind (attempt_undone h (fun s hs => undone_of_same trivial hs) hH) fun _ => ?_
  refine Triple.assuming fun hprepare => Triple.read fun r hr => ?_
  have hmemory : r.memory = some c := (congrArg View.memory hr).trans h.keeps.memory
  have hunlocked : r.unlocked = true := (congrArg View.unlocked hr).trans h.unlocked
  rw [hmemory]
  refine Triple.ite (fun hlocked => ?_) fun _ => ?_
  · rw [hunlocked] at hlocked
    cases hlocked
  · rw [htaken]
    exact (hbranch hprepare).strengthen fun s hs => hs.1

/-- A password change of an unlocked desktop vault recovers exactly where it is harmless. -/
theorem changeSecurePassword_recovers_iff (h : desktop.Unlocked v d c s₀) :
    (desktop.client v).Recovers s₀ (changeSecurePassword F s₀) ↔ Harmless s₀ d c F := by
  have hstart : viewOf (takeNames s₀) = viewOf s₀ := rfl
  unfold Harmless
  by_cases hrelayed : Relayed c
  · rw [if_pos hrelayed]
    exact change_recovers (I := fun s => Uploaded s ∧ Retries s₀) (fun s hs => hs.1.fatal hs.2)
      (prepared_ends h (fun hp => by simp [CloudHarmless, hp]) (changeCloud_ends h hrelayed)
        (if_neg hrelayed)) hstart
  · rw [if_neg hrelayed]
    exact change_recovers (I := Gone) (fun s hs => hs.fatal) (prepared_ends h
      (fun hp => by simp [ExternalHarmless, hp]) (fun hp => (changeExternal_ends h hp).strengthen
        fun s hs => undone_of_same trivial hs) (if_pos (not_not.mp hrelayed))) hstart

end Change

/-- A file that does not parse stops `initialize`. -/
def restartLegacy (s : LegacyState) : LegacyState :=
  match s.file with
  | .whole p => { s with memory := p }
  | .torn => s

/-- A vault without shares needs its one file and the password only. -/
def legacyClient : Client LegacyState where
  Opens p s := s.file = .whole p ∧ s.memory = p
  Matches s := s.file = .whole s.memory
  Retries s := (changePassword ⟨.none, .none⟩ s).Returned
  restart := restartLegacy

/-- The key is not wrapped anew, or the file is written, or the process dies before that. -/
def LegacyHarmless (F : LegacyFaults) : Prop :=
  F.rewrap ≠ .none ∨ ¬(F.write.Throws ∨ F.write.CutsShort)

section Legacy

variable {F : LegacyFaults} {s : LegacyState}

theorem legacy_whole_thrown {s₀ : LegacyState} (h : s = ⟨.whole .previous, .previous⟩) :
    legacyClient.Thrown s₀ s := by
  subst h
  exact ⟨.inl ⟨⟨rfl, rfl⟩, fun _ => trivial⟩, rfl, .inl ⟨⟨rfl, rfl⟩, fun _ => trivial⟩⟩

theorem changePassword_recovers_iff (h : legacyClient.Opens .previous s) :
    legacyClient.Recovers s (changePassword F s) ↔ LegacyHarmless F := by
  obtain ⟨file, memory⟩ := s
  obtain ⟨rfl, rfl⟩ : file = .whole .previous ∧ memory = .previous := h
  let s₀ : LegacyState := ⟨.whole .previous, .previous⟩
  refine Client.recovers_iff _ (R := fun u => u = s₀) (Triple.bind
    (Q := fun _ u => F.rewrap = .none ∧ u = s₀) (Triple.attempt_cases (fun hnone u hu => ⟨hnone, hu⟩)
      (fun ht u hu => iff_of_true (legacy_whole_thrown hu) (.inl ht.ne_none))
      (fun hc u hu => iff_of_true (legacy_whole_thrown hu).restarted (.inl hc.ne_none))) fun _ => ?_) rfl
  refine Triple.assuming fun hrewrap => Triple.read fun r hr => ?_
  have hH : LegacyHarmless F ↔ ¬(F.write.Throws ∨ F.write.CutsShort) := by
    simp [LegacyHarmless, hrewrap]
  rw [hr, if_pos rfl]
  refine Triple.bind (Q := fun _ u => u = { s₀ with memory := .next })
    (Triple.update fun u hu => by rw [hu.1]) fun _ => ?_
  refine Triple.gradually (fun hnone u _ => ?_) (fun n hf u hu => ?_) (fun n hf u hu => ?_)
  · simp [hH, hnone, Fault.CutsShort]
  · refine iff_of_false (fun hthrown => ?_) (by simp [hH, hf, Fault.Throws])
    have hconfig := hthrown.config
    subst hu
    cases n <;> cases hconfig
  · rw [hH, hf]
    subst hu
    cases n with
    | zero =>
      have hthrown : legacyClient.Thrown s₀ s₀ := legacy_whole_thrown rfl
      exact iff_of_true hthrown.restarted (by simp [Fault.Throws, Fault.CutsShort])
    | succ n =>
      refine iff_of_false ?_ (by simp [Fault.CutsShort])
      rintro (⟨hopens, _⟩ | hopens)
      · cases hopens.1
      · cases hopens.1

end Legacy

end DesktopPasswordChange
