import CryptoPigeon.TransitionSystem

/-! # Tor's wake-ups

`TorRecoveryWakeup` of the daemon: a wake schedules an immediate, the immediate starts the retry,
and `pending` stands from the wake until the retry's `finally`. The retry function is any; it may
settle either way, or never. `started` and `owed` are history: the retries that have started, and
the wakes before `close` that none has started after yet. -/
namespace TorRecovery

open TransitionSystem

/-- `running` are the retries that have not settled, `settled` those whose `finally` is still to
run. -/
structure State where
  pending : Bool
  closed : Bool
  immediates : Nat
  running : Nat
  settled : Nat
  started : Nat
  owed : Nat
  deriving DecidableEq, Repr

def initial : State := ⟨false, false, 0, 0, 0, 0, 0⟩

def wake (s : State) : State :=
  if s.closed then s
  else if s.pending then { s with owed := s.owed + 1 }
  else { s with pending := true, immediates := s.immediates + 1, owed := s.owed + 1 }

/-- The function given to `setImmediate`. -/
def immediate (s : State) : State :=
  if s.closed then { s with immediates := s.immediates - 1, pending := false }
  else
    { s with
      immediates := s.immediates - 1
      running := s.running + 1
      started := s.started + 1
      owed := 0 }

inductive Event where
  | wake
  | immediate
  /-- The retry completes or fails; a failure is caught. -/
  | settle (ok : Bool)
  /-- The retry's `finally`. -/
  | cleared
  | close
  deriving DecidableEq, Repr

def Enabled (s : State) : Event → Prop
  | .wake | .close => True
  | .immediate => 0 < s.immediates
  | .settle _ => 0 < s.running
  | .cleared => 0 < s.settled

instance (s : State) (e : Event) : Decidable (Enabled s e) := by
  cases e <;> unfold Enabled <;> infer_instance

def next (s : State) : Event → State
  | .wake => wake s
  | .immediate => immediate s
  | .settle _ => { s with running := s.running - 1, settled := s.settled + 1 }
  | .cleared => { s with settled := s.settled - 1, pending := false }
  | .close => { s with closed := true }

def system : System State Event where
  Initial s := s = initial
  Enabled := Enabled
  next := next

/-- No retry has started whose `finally` is still to run. -/
def Rested (s : State) : Prop := s.running = 0 ∧ s.settled = 0

instance (s : State) : Decidable (Rested s) := inferInstanceAs (Decidable (_ ∧ _))

/-- A wake that counts comes while no retry runs. -/
def Timely (s : State) (e : Event) : Prop := e = .wake → s.closed = false → Rested s

instance (s : State) (e : Event) : Decidable (Timely s e) := inferInstanceAs (Decidable (_ → _ → _))

/-- A wake that no retry has started after yet has its immediate. -/
def Followed (s : State) : Prop := s.closed = false → 0 < s.owed → 0 < s.immediates

instance (s : State) : Decidable (Followed s) := inferInstanceAs (Decidable (_ → _ → _))

/-! ## The flag -/

section Flag

variable {s t : State} {e : Event} {es : List Event}

/-- The flag stands for one retry: scheduled, running, or with its `finally` to run. -/
structure Sound (s : State) : Prop where
  one : s.immediates + s.running + s.settled ≤ 1
  pending : s.pending = true ↔ s.immediates + s.running + s.settled = 1

theorem sound_initial : Sound initial := ⟨Nat.zero_le 1, by decide⟩

theorem Sound.idle (h : Sound s) (hp : s.pending = false) :
    s.immediates + s.running + s.settled = 0 := by
  have hone := h.one
  have hne : ¬ s.immediates + s.running + s.settled = 1 := by
    intro heq
    rw [h.pending.mpr heq] at hp
    cases hp
  omega

theorem sound_wake (h : Sound s) : Sound (wake s) := by
  unfold wake
  by_cases hc : s.closed = true
  · rw [if_pos hc]
    exact h
  · rw [if_neg hc]
    by_cases hp : s.pending = true
    · rw [if_pos hp]
      exact ⟨h.one, h.pending⟩
    · rw [if_neg hp]
      have hidle := h.idle (Bool.eq_false_iff.mpr hp)
      constructor
      · dsimp only
        omega
      · dsimp only
        constructor
        · intro _
          omega
        · intro _
          rfl

theorem sound_immediate (h : Sound s) (he : 0 < s.immediates) : Sound (immediate s) := by
  have hone := h.one
  unfold immediate
  by_cases hc : s.closed = true
  · rw [if_pos hc]
    constructor
    · dsimp only
      omega
    · dsimp only
      constructor
      · intro hf
        cases hf
      · intro heq
        omega
  · rw [if_neg hc]
    constructor
    · dsimp only
      omega
    · dsimp only
      rw [h.pending]
      omega

theorem sound_next (h : Sound s) (he : Enabled s e) : Sound (next s e) := by
  have hone := h.one
  cases e with
  | wake => exact sound_wake h
  | immediate => exact sound_immediate h he
  | settle ok =>
    have hrunning : 0 < s.running := he
    constructor
    · simp only [next]
      omega
    · simp only [next]
      rw [h.pending]
      omega
  | cleared =>
    have hsettled : 0 < s.settled := he
    constructor
    · simp only [next]
      omega
    · simp only [next]
      constructor
      · intro hf
        cases hf
      · intro heq
        omega
  | close => exact ⟨h.one, h.pending⟩

theorem reachable_sound (h : Reachable system s) : Sound s := by
  refine reachable_invariant ?_ (fun s e hs he => sound_next hs he) h
  rintro s rfl
  exact sound_initial

end Flag

/-! ## Wakes -/

section Wakes

variable {s t : State} {e : Event} {es : List Event}

/-- A wake finds the immediate of an earlier one, or schedules its own, unless a retry runs. -/
theorem followed_wake_iff (h : Sound s) (hc : s.closed = false) :
    Followed (wake s) ↔ Rested s := by
  have hone := h.one
  have hopen : ¬ s.closed = true := by
    rw [hc]
    exact Bool.false_ne_true
  unfold wake Followed Rested
  rw [if_neg hopen]
  by_cases hp : s.pending = true
  · have heq := h.pending.mp hp
    rw [if_pos hp]
    dsimp only
    constructor
    · intro hf
      have := hf hc (Nat.succ_pos _)
      omega
    · rintro ⟨hr, hs⟩ - -
      omega
  · have hidle := h.idle (Bool.eq_false_iff.mpr hp)
    rw [if_neg hp]
    dsimp only
    constructor
    · intro _
      omega
    · rintro - - -
      omega

theorem followed_next (h : Sound s) (hf : Followed s) (he : (system.Within Timely).Enabled s e) :
    Followed (next s e) := by
  obtain ⟨hen, ht⟩ := he
  cases e with
  | wake =>
    by_cases hc : s.closed = true
    · simp only [next, wake, if_pos hc]
      exact hf
    · have hopen := Bool.eq_false_iff.mpr hc
      exact (followed_wake_iff h hopen).mpr (ht rfl hopen)
  | immediate =>
    simp only [next, immediate]
    by_cases hc : s.closed = true
    · rw [if_pos hc]
      intro hopen
      exact absurd hc (Bool.eq_false_iff.mp hopen)
    · rw [if_neg hc]
      intro _ howed
      exact absurd howed (Nat.lt_irrefl 0)
  | settle ok => exact hf
  | cleared => exact hf
  | close =>
    intro hopen
    cases hopen

theorem reachable_followed (h : Reachable (system.Within Timely) s) : Followed s := by
  suffices Sound s ∧ Followed s from this.2
  refine reachable_invariant (I := fun s => Sound s ∧ Followed s) ?_ (fun s e hs he => ?_) h
  · rintro s rfl
    exact ⟨sound_initial, by decide⟩
  · exact ⟨sound_next hs.1 he.1, followed_next hs.1 hs.2 he⟩

/-- The immediate starts the one retry that all the wakes before it wait for. -/
theorem immediate_starts (h : Sound s) (hc : s.closed = false) (he : 0 < s.immediates) :
    (immediate s).started = s.started + 1 ∧ (immediate s).owed = 0 ∧
      (immediate s).immediates = 0 := by
  have hone := h.one
  have hopen : ¬ s.closed = true := by
    rw [hc]
    exact Bool.false_ne_true
  unfold immediate
  rw [if_neg hopen]
  exact ⟨rfl, rfl, by dsimp only; omega⟩

theorem next_closed (hc : s.closed = true) (e : Event) :
    (next s e).closed = true ∧ (next s e).started = s.started := by
  cases e with
  | wake =>
    rw [next, wake, if_pos hc]
    exact ⟨hc, rfl⟩
  | immediate =>
    rw [next, immediate, if_pos hc]
    exact ⟨hc, rfl⟩
  | settle ok => exact ⟨hc, rfl⟩
  | cleared => exact ⟨hc, rfl⟩
  | close => exact ⟨rfl, rfl⟩

theorem closed_starts_nothing (h : Execution system s es t) (hc : s.closed = true) :
    t.started = s.started := by
  have hinv := execution_invariant (I := fun u => u.closed = true ∧ u.started = s.started)
    (fun u e hu _ => ⟨(next_closed hu.1 e).1, (next_closed hu.1 e).2.trans hu.2⟩) h ⟨hc, rfl⟩
  exact hinv.2

end Wakes

/-- Whatever the order, at most one retry is scheduled or runs, an immediate starts one retry for all
the wakes before it, and none starts after `close`. In a run whose wakes come while no retry runs,
every wake has a retry to come; a wake that comes while one runs has none. -/
theorem wakes_followed {s : State} (h : Reachable system s) :
    (s.immediates + s.running + s.settled ≤ 1 ∧
      (s.closed = false → 0 < s.immediates → (immediate s).started = s.started + 1 ∧
        (immediate s).owed = 0 ∧ (immediate s).immediates = 0) ∧
      ∀ es t, s.closed = true → Execution system s es t → t.started = s.started) ∧
    (Reachable (system.Within Timely) s → Followed s) ∧
    (s.closed = false → (Followed (next s .wake) ↔ Rested s)) := by
  have hsound := reachable_sound h
  refine ⟨⟨hsound.one, immediate_starts hsound, ?_⟩, reachable_followed, ?_⟩
  · intro es t hc hx
    exact closed_starts_nothing hx hc
  · exact followed_wake_iff hsound

/-- Two wakes in a burst, their retry, and one more. -/
def bursts : List Event := [.wake, .wake, .immediate, .settle true, .cleared, .wake]

theorem bursts_followed : (system.replay initial bursts).owed = 1 ∧
    Followed (system.replay initial bursts) := by
  have hvalid : (system.Within Timely).Valid initial bursts := by
    simp only [bursts, System.Valid, System.Within, system]
    decide
  have hreach : Reachable (system.Within Timely) ((system.Within Timely).replay initial bursts) :=
    valid_trace_reachable (reachable_initial rfl) hvalid
  exact ⟨by decide, (wakes_followed (within_reachable hreach)).2.1 hreach⟩

/-- The circuit comes up while the retry that found it down still runs. -/
def overlapping : List Event := [.wake, .immediate, .wake, .settle true, .cleared]

/-- The retry has ended, nothing is scheduled, and the second wake has had no retry. -/
theorem overlapping_lost : system.Valid initial overlapping ∧
    (system.replay initial overlapping).closed = false ∧
    (system.replay initial overlapping).owed = 1 ∧
    (system.replay initial overlapping).pending = false ∧
    ¬ Followed (system.replay initial overlapping) := by
  simp only [overlapping, System.Valid, System.replay, system]
  decide

end TorRecovery
