import CryptoPigeon.TransitionSystem
import Mathlib.Logic.Function.Basic

/-! # Background backups

`DebouncedBackup` of the daemon with the event loop under it: timers that may still fire, promises
of `sync`, what awaits them, and the queue of reactions. A reaction runs to its next `await`; a
timer fires only when the queue is empty. `quiesce` is `cancel(); await drain()` of a handler. The
log of marks is history. -/
namespace DebouncedBackup

open TransitionSystem

/-- What runs when a promise settles: the end of `run`, the end of `drain`, or its caller. -/
inductive Reaction where
  | runner (sync : Nat)
  | drain (caller : Nat)
  | caller (caller : Nat)
  deriving DecidableEq, Repr

inductive Stage where
  | idle
  | draining
  /-- `drain()` has returned, or has thrown. -/
  | resumed (ok : Bool)
  deriving DecidableEq, Repr

inductive Mark where
  | scheduled
  | cancelled
  | started
  | firedLocked
  deriving DecidableEq, Repr

/-- `armed` are the timers not yet fired or cleared, `outcome` is how a sync's promise settled,
and `waiting` what awaits a promise that has not. -/
structure State where
  timer : Option Nat
  armed : List Nat
  timers : Nat
  active : Option Nat
  dirty : Bool
  started : Nat
  outcome : Nat → Option Bool
  waiting : List (Nat × Reaction)
  queue : List (Reaction × Bool)
  unlocked : Bool
  stage : Nat → Stage
  log : List Mark

/-- `clearTimeout(this.timer)`: a timer that has fired is no longer there to clear. -/
def clearTimer (s : State) : List Nat := s.armed.filter fun id => s.timer ≠ some id

def schedule (s : State) : State :=
  if s.unlocked then
    { s with
      dirty := true
      armed := clearTimer s ++ [s.timers]
      timer := some s.timers
      timers := s.timers + 1
      log := .scheduled :: s.log }
  else s

def cancel (s : State) : State :=
  { s with armed := clearTimer s, timer := none, dirty := false, log := .cancelled :: s.log }

/-- `sync()` returns a promise, which `run` awaits at once. -/
def start (s : State) : State :=
  { s with
    dirty := false
    active := some s.started
    started := s.started + 1
    waiting := s.waiting ++ [(s.started, .runner s.started)]
    log := .started :: s.log }

def run (s : State) : State :=
  if ¬ s.unlocked ∨ ¬ s.dirty then s
  else if s.active.isSome then schedule s
  else start s

/-- A timer's callback. -/
def fire (s : State) (id : Nat) : State :=
  let fired := { s with armed := s.armed.erase id }
  run (if s.unlocked then fired else { fired with log := .firedLocked :: fired.log })

/-- `await this.active`: nothing to wait for, a promise already settled, or one still open. -/
def drain (s : State) (caller : Nat) : State :=
  match s.active with
  | none => { s with queue := s.queue ++ [(.drain caller, true)] }
  | some sync =>
    match s.outcome sync with
    | none => { s with waiting := s.waiting ++ [(sync, .drain caller)] }
    | some ok => { s with queue := s.queue ++ [(.drain caller, ok)] }

def quiesce (s : State) (caller : Nat) : State :=
  drain { cancel s with stage := Function.update s.stage caller .draining } caller

/-- The promise of a sync settles: what awaits it is queued in the order it began to wait. -/
def settle (s : State) (sync : Nat) (ok : Bool) : State :=
  { s with
    outcome := Function.update s.outcome sync (some ok)
    queue := s.queue ++ (s.waiting.filter fun w => w.1 = sync).map fun w => (w.2, ok)
    waiting := s.waiting.filter fun w => w.1 ≠ sync }

/-- The end of `run`: `catch` reschedules while unlocked, `finally` clears `active`. -/
def finishRun (s : State) (ok : Bool) : State :=
  { if ok then s else schedule s with active := none }

def react (s : State) : Reaction → Bool → State
  | .runner _, ok => finishRun s ok
  | .drain caller, ok => { s with queue := s.queue ++ [(.caller caller, ok)] }
  | .caller caller, ok => { s with stage := Function.update s.stage caller (.resumed ok) }

inductive Event where
  | schedule
  | cancel
  | quiesce (caller : Nat)
  | fire (id : Nat)
  | settle (sync : Nat) (ok : Bool)
  | react
  | setUnlocked (unlocked : Bool)
  deriving DecidableEq, Repr

def Enabled (s : State) : Event → Prop
  | .quiesce caller => s.stage caller = .idle
  | .fire id => id ∈ s.armed ∧ s.queue = []
  | .settle sync _ => sync < s.started ∧ s.outcome sync = none
  | .react => s.queue ≠ []
  | .schedule | .cancel | .setUnlocked _ => True

instance (s : State) (e : Event) : Decidable (Enabled s e) :=
  match e with
  | .quiesce caller => inferInstanceAs (Decidable (s.stage caller = .idle))
  | .fire id => inferInstanceAs (Decidable (id ∈ s.armed ∧ s.queue = []))
  | .settle sync _ => inferInstanceAs (Decidable (sync < s.started ∧ s.outcome sync = none))
  | .react => inferInstanceAs (Decidable (s.queue ≠ []))
  | .schedule | .cancel | .setUnlocked _ => isTrue trivial

def next (s : State) : Event → State
  | .schedule => schedule s
  | .cancel => cancel s
  | .quiesce caller => quiesce s caller
  | .fire id => fire s id
  | .settle sync ok => settle s sync ok
  | .react =>
    match s.queue with
    | [] => s
    | (reaction, ok) :: rest => react { s with queue := rest } reaction ok
  | .setUnlocked unlocked => { s with unlocked := unlocked }

def initial (unlocked : Bool) : State where
  timer := none
  armed := []
  timers := 0
  active := none
  dirty := false
  started := 0
  outcome _ := none
  waiting := []
  queue := []
  unlocked := unlocked
  stage _ := .idle
  log := []

def system : System State Event where
  Initial s := ∃ unlocked, s = initial unlocked
  Enabled := Enabled
  next := next

/-- A `schedule()` made while unlocked that no `cancel()`, no sync and no timer fired while locked
has followed. The newest mark is the head of the log. -/
def Owed (log : List Mark) : Prop :=
  ∃ later earlier, log = later ++ .scheduled :: earlier ∧ ∀ m ∈ later, m = .scheduled

/-- A sync whose promise has not settled. -/
def InFlight (s : State) (sync : Nat) : Prop := sync < s.started ∧ s.outcome sync = none

/-- What is still to run, in order, if nothing is added. -/
def line (s : State) : List Reaction := s.queue.map Prod.fst ++ s.waiting.map Prod.snd

def isRunner : Reaction → Bool
  | .runner _ => true
  | .drain _ => false
  | .caller _ => false

structure Sound (s : State) : Prop where
  armed : s.armed = [] ∨ ∃ id, s.timer = some id ∧ s.armed = [id]
  dirty : s.armed ≠ [] → s.dirty = true
  inFlight : ∀ sync, InFlight s sync → s.active = some sync
  known : ∀ sync, s.active = some sync → sync < s.started
  fresh : ∀ sync, s.started ≤ sync → s.outcome sync = none
  waiting : ∀ w ∈ s.waiting, s.active = some w.1 ∧ s.outcome w.1 = none
  settled : ∀ r ∈ s.queue, ∀ sync, r.1 = .runner sync → s.outcome sync = some r.2
  runners : (line s).filter isRunner = s.active.toList.map .runner
  owed : Owed s.log → s.armed ≠ []

section Steps

variable {s : State} {sync caller id : Nat} {ok : Bool}

theorem owed_scheduled {log : List Mark} : Owed (.scheduled :: log) :=
  ⟨[], log, rfl, by simp⟩

theorem not_owed_nil : ¬ Owed [] := by
  rintro ⟨later, earlier, h, -⟩
  cases later <;> cases h

theorem not_owed_cons {m : Mark} {log : List Mark} (hm : m ≠ .scheduled) : ¬ Owed (m :: log) := by
  rintro ⟨later, earlier, h, hlater⟩
  cases later with
  | nil => exact hm (List.cons.inj h).1
  | cons x later =>
    have hx := hlater x List.mem_cons_self
    exact hm ((List.cons.inj h).1.trans hx)

theorem clearTimer_eq_nil (h : Sound s) : clearTimer s = [] := by
  rcases h.armed with hnone | ⟨id, htimer, harmed⟩
  · simp [clearTimer, hnone]
  · simp [clearTimer, htimer, harmed]

theorem schedule_unlocked (h : Sound s) (hu : s.unlocked = true) :
    schedule s = { s with
      dirty := true
      armed := [s.timers]
      timer := some s.timers
      timers := s.timers + 1
      log := .scheduled :: s.log } := by
  rw [schedule, if_pos hu, clearTimer_eq_nil h]
  rfl

theorem schedule_locked (hu : s.unlocked = false) : schedule s = s := by
  simp [schedule, hu]

theorem sound_initial (unlocked : Bool) : Sound (initial unlocked) where
  armed := .inl rfl
  dirty h := absurd rfl h
  inFlight sync h := absurd h.1 (Nat.not_lt_zero sync)
  known sync h := by cases h
  fresh _ _ := rfl
  waiting w hw := by cases hw
  settled r hr := by cases hr
  runners := rfl
  owed h := absurd h not_owed_nil

theorem sound_schedule (h : Sound s) : Sound (schedule s) := by
  cases hu : s.unlocked with
  | false =>
    rw [schedule_locked hu]
    exact h
  | true =>
    rw [schedule_unlocked h hu]
    exact { h with
      armed := .inr ⟨s.timers, rfl, rfl⟩
      dirty := fun _ => rfl
      owed := fun _ => List.cons_ne_nil _ _ }

theorem sound_cancel (h : Sound s) : Sound (cancel s) := by
  have hclear := clearTimer_eq_nil h
  exact { h with
    armed := .inl hclear
    dirty := fun hne => absurd hclear hne
    owed := fun ho => absurd ho (not_owed_cons (by decide)) }

theorem armed_singleton (h : Sound s) (hid : id ∈ s.armed) :
    s.armed = [id] ∧ s.dirty = true := by
  have hne : s.armed ≠ [] := List.ne_nil_of_mem hid
  obtain ⟨id', -, harmed⟩ := h.armed.resolve_left hne
  rw [harmed, List.mem_singleton] at hid
  exact ⟨hid ▸ harmed, h.dirty hne⟩

theorem fire_locked (h : Sound s) (hid : id ∈ s.armed) (hu : s.unlocked = false) :
    fire s id = { s with armed := [], log := .firedLocked :: s.log } := by
  simp [fire, run, hu, (armed_singleton h hid).1]

/-- A timer that fires during an upload is armed again. -/
theorem fire_busy (h : Sound s) (hid : id ∈ s.armed) (hu : s.unlocked = true)
    (hactive : s.active ≠ none) : fire s id = schedule s := by
  obtain ⟨harmed, hdirty⟩ := armed_singleton h hid
  have hsome : s.active.isSome = true := Option.isSome_iff_ne_none.mpr hactive
  rw [schedule_unlocked h hu]
  simp [fire, run, hu, hdirty, hsome, schedule, clearTimer, harmed]

theorem fire_idle (h : Sound s) (hid : id ∈ s.armed) (hu : s.unlocked = true)
    (hactive : s.active = none) : fire s id = start { s with armed := [] } := by
  obtain ⟨harmed, hdirty⟩ := armed_singleton h hid
  simp [fire, run, hu, hdirty, hactive, harmed]

/-- A sync starts only when the one before is over. -/
theorem sound_start (h : Sound s) (hactive : s.active = none) :
    Sound (start { s with armed := [] }) where
  armed := .inl rfl
  dirty hne := absurd rfl hne
  inFlight sync hf := by
    by_cases hsync : sync < s.started
    · have hold := h.inFlight sync ⟨hsync, hf.2⟩
      rw [hactive] at hold
      cases hold
    · have hlast : s.started = sync :=
        Nat.le_antisymm (Nat.not_lt.mp hsync) (Nat.le_of_lt_succ hf.1)
      exact congrArg some hlast
  known sync hs := by
    have hsync : s.started = sync := Option.some.inj hs
    exact hsync ▸ Nat.lt_succ_self s.started
  fresh sync hs := h.fresh sync (Nat.le_of_succ_le hs)
  waiting w hw := by
    rcases List.mem_append.mp hw with hw | hw
    · have hold := (h.waiting w hw).1
      rw [hactive] at hold
      cases hold
    · rw [List.mem_singleton.mp hw]
      exact ⟨rfl, h.fresh _ (Nat.le_refl _)⟩
  settled := h.settled
  runners := by
    have hrunners := h.runners
    rw [hactive] at hrunners
    simp only [line, start, List.map_append, ← List.append_assoc]
    rw [List.filter_append]
    exact congrArg (· ++ _) hrunners
  owed ho := absurd ho (not_owed_cons (by decide))

theorem sound_fire (h : Sound s) (hid : id ∈ s.armed) : Sound (fire s id) := by
  cases hu : s.unlocked with
  | false =>
    rw [fire_locked h hid hu]
    exact { h with
      armed := .inl rfl
      dirty := fun hne => absurd rfl hne
      owed := fun ho => absurd ho (not_owed_cons (by decide)) }
  | true =>
    by_cases hactive : s.active = none
    · rw [fire_idle h hid hu hactive]
      exact sound_start h hactive
    · rw [fire_busy h hid hu hactive]
      exact sound_schedule h

theorem drain_cases (s : State) (caller : Nat) :
    (s.active = none ∧ drain s caller = { s with queue := s.queue ++ [(.drain caller, true)] }) ∨
    (∃ sync, s.active = some sync ∧ s.outcome sync = none ∧
      drain s caller = { s with waiting := s.waiting ++ [(sync, .drain caller)] }) ∨
    ∃ sync ok, s.active = some sync ∧ s.outcome sync = some ok ∧
      drain s caller = { s with queue := s.queue ++ [(.drain caller, ok)] } := by
  unfold drain
  cases hactive : s.active with
  | none => exact .inl ⟨rfl, rfl⟩
  | some sync =>
    right
    cases houtcome : s.outcome sync with
    | none => exact .inl ⟨sync, rfl, houtcome, by simp only [houtcome]⟩
    | some ok => exact .inr ⟨sync, ok, rfl, houtcome, by simp only [houtcome]⟩

theorem runners_queue {r : Reaction}
    (h : (line s).filter isRunner = s.active.toList.map .runner) (hr : isRunner r = false) :
    (line { s with queue := s.queue ++ [(r, ok)] }).filter isRunner =
      s.active.toList.map .runner := by
  rw [← h]
  simp [line, hr]

theorem sound_queue {r : Reaction} (h : Sound s) (hr : isRunner r = false) :
    Sound { s with queue := s.queue ++ [(r, ok)] } :=
  { h with
    settled := fun e he sync hsync => by
      rcases List.mem_append.mp he with he | he
      · exact h.settled e he sync hsync
      · rw [List.mem_singleton.mp he] at hsync
        rw [show r = .runner sync from hsync] at hr
        cases hr
    runners := runners_queue h.runners hr }

theorem sound_drain (h : Sound s) : Sound (drain s caller) := by
  obtain ⟨-, he⟩ | ⟨sync, hactive, houtcome, he⟩ | ⟨sync, ok, -, -, he⟩ := drain_cases s caller
  · rw [he]
    exact sound_queue h rfl
  · rw [he]
    exact { h with
      waiting := fun w hw => by
        rcases List.mem_append.mp hw with hw | hw
        · exact h.waiting w hw
        · rw [List.mem_singleton.mp hw]
          exact ⟨hactive, houtcome⟩
      runners := by
        have hrunners := h.runners
        simp only [line] at hrunners ⊢
        simpa [isRunner] using hrunners }
  · rw [he]
    exact sound_queue h rfl

theorem sound_quiesce (h : Sound s) : Sound (quiesce s caller) := by
  have hcancel := sound_cancel h
  exact sound_drain { hcancel with }

theorem runner_active (h : Sound s) (hr : .runner sync ∈ line s) : s.active = some sync := by
  have hmem : Reaction.runner sync ∈ (line s).filter isRunner := List.mem_filter.mpr ⟨hr, rfl⟩
  rw [h.runners] at hmem
  simpa using hmem

/-- Whatever waits, waits for the one promise that is open. -/
theorem settle_waiting (h : Sound s) (hf : InFlight s sync) :
    settle s sync ok = { s with
      outcome := Function.update s.outcome sync (some ok)
      queue := s.queue ++ s.waiting.map fun w => (w.2, ok)
      waiting := [] } := by
  have hone (w : Nat × Reaction) (hw : w ∈ s.waiting) : w.1 = sync := by
    have hactive := (h.waiting w hw).1
    rw [h.inFlight sync hf] at hactive
    exact (Option.some.inj hactive).symm
  have hall : s.waiting.filter (fun w => w.1 = sync) = s.waiting :=
    List.filter_eq_self.mpr fun w hw => decide_eq_true (hone w hw)
  have hnone : s.waiting.filter (fun w => w.1 ≠ sync) = [] :=
    List.filter_eq_nil_iff.mpr fun w hw => by simpa using hone w hw
  rw [settle, hall, hnone]

theorem settle_outcome {other : Nat} (hne : other ≠ sync) :
    (settle s sync ok).outcome other = s.outcome other :=
  Function.update_of_ne hne _ _

theorem settle_line (h : Sound s) (hf : InFlight s sync) :
    line (settle s sync ok) = line s := by
  rw [settle_waiting h hf]
  simp [line, Function.comp_def]

theorem sound_settle (h : Sound s) (hf : InFlight s sync) : Sound (settle s sync ok) := by
  have hactive := h.inFlight sync hf
  have hline : line (settle s sync ok) = line s := settle_line h hf
  constructor
  · exact h.armed
  · exact h.dirty
  · intro other hother
    refine h.inFlight other ⟨hother.1, ?_⟩
    by_cases hne : other = sync
    · exact hne ▸ hf.2
    · exact (settle_outcome hne).symm.trans hother.2
  · exact h.known
  · intro other hother
    have hne : other ≠ sync := by
      rintro rfl
      exact absurd hf.1 (Nat.not_lt.mpr hother)
    exact (settle_outcome hne).trans (h.fresh other hother)
  · intro w hw
    rw [settle_waiting h hf] at hw
    cases hw
  · intro r hr other hother
    rw [settle_waiting h hf] at hr
    rcases List.mem_append.mp hr with hr | hr
    · have hold := h.settled r hr other hother
      have hne : other ≠ sync := by
        rintro rfl
        rw [hf.2] at hold
        cases hold
      exact (settle_outcome hne).trans hold
    · obtain ⟨w, hw, rfl⟩ := List.mem_map.mp hr
      -- the runner that waits is the one of the sync that settles
      have hmem : Reaction.runner other ∈ line s :=
        List.mem_append_right _ (List.mem_map.mpr ⟨w, hw, hother⟩)
      have hsame := runner_active h hmem
      rw [hactive] at hsame
      rw [← Option.some.inj hsame]
      exact Function.update_self ..
  · rw [hline]
    exact h.runners
  · exact h.owed

/-- What a reaction leaves to its own code. -/
theorem line_rest {r : Reaction} {rest : List (Reaction × Bool)} (hq : s.queue = (r, ok) :: rest) :
    line s = r :: line { s with queue := rest } := by
  simp [line, hq]

/-- With the runner's own reaction gone, `active` is cleared. -/
theorem sound_runner {rest : List (Reaction × Bool)} (h : Sound s)
    (hq : s.queue = (.runner sync, ok) :: rest) :
    Sound { s with queue := rest, active := none } := by
  have hline := line_rest hq
  have hactive : s.active = some sync :=
    runner_active h (by rw [hline]; exact List.mem_cons_self)
  have hsettled : s.outcome sync = some ok :=
    h.settled (.runner sync, ok) (by rw [hq]; exact List.mem_cons_self) sync rfl
  have hrest : (line { s with queue := rest }).filter isRunner = [] := by
    have hrunners := h.runners
    rw [hline, hactive] at hrunners
    exact (List.cons.inj hrunners).2
  have hnone (other : Nat) : ¬ InFlight s other := by
    intro hf
    have hsame := h.inFlight other hf
    rw [hactive] at hsame
    rw [← Option.some.inj hsame] at hf
    exact absurd (hsettled.symm.trans hf.2) (by simp)
  exact { h with
    inFlight := fun other hf => absurd hf (hnone other)
    known := fun other hother => by cases hother
    waiting := fun w hw => by
      obtain ⟨hw, hopen⟩ := h.waiting w hw
      rw [hactive] at hw
      rw [← Option.some.inj hw] at hopen
      exact absurd (hsettled.symm.trans hopen) (by simp)
    settled := fun r hr => h.settled r (by rw [hq]; exact List.mem_cons_of_mem _ hr)
    runners := hrest }

theorem finishRun_failed : finishRun s false = schedule { s with active := none } := by
  cases hu : s.unlocked <;> simp [finishRun, schedule, clearTimer, hu]

theorem sound_finishRun {rest : List (Reaction × Bool)} (h : Sound s)
    (hq : s.queue = (.runner sync, ok) :: rest) :
    Sound (finishRun { s with queue := rest } ok) := by
  have hcleared := sound_runner h hq
  cases ok with
  | true => exact hcleared
  | false =>
    rw [finishRun_failed]
    exact sound_schedule hcleared

/-- Taking a reaction that is no runner off the queue. -/
theorem sound_rest {r : Reaction} {rest : List (Reaction × Bool)} (h : Sound s)
    (hq : s.queue = (r, ok) :: rest) (hr : isRunner r = false) :
    Sound { s with queue := rest } :=
  { h with
    settled := fun e he => h.settled e (by rw [hq]; exact List.mem_cons_of_mem _ he)
    runners := by
      have hrunners := h.runners
      rwa [line_rest hq, List.filter_cons_of_neg (by simp [hr])] at hrunners }

theorem sound_react {r : Reaction} {rest : List (Reaction × Bool)} (h : Sound s)
    (hq : s.queue = (r, ok) :: rest) : Sound (react { s with queue := rest } r ok) := by
  cases r with
  | runner sync => exact sound_finishRun h hq
  | drain caller => exact sound_queue (sound_rest h hq rfl) rfl
  | caller caller => exact { sound_rest h hq rfl with }

theorem sound_next {e : Event} (h : Sound s) (he : Enabled s e) : Sound (next s e) := by
  cases e with
  | schedule => exact sound_schedule h
  | cancel => exact sound_cancel h
  | quiesce caller => exact sound_quiesce h
  | fire id => exact sound_fire h he.1
  | settle sync ok => exact sound_settle h he
  | setUnlocked unlocked => exact { h with }
  | react =>
    cases hq : s.queue with
    | nil => exact absurd hq he
    | cons r rest =>
      simp only [next, hq]
      exact sound_react h hq

/-- With no reaction queued, the active sync has not settled: its runner still waits. -/
theorem active_open (h : Sound s) (hactive : s.active = some sync) (hq : s.queue = []) :
    s.outcome sync = none := by
  have hrunner : Reaction.runner sync ∈ (line s).filter isRunner := by
    rw [h.runners, hactive]
    exact List.mem_singleton_self _
  obtain ⟨hmem, -⟩ := List.mem_filter.mp hrunner
  simp only [line, hq, List.map_nil, List.nil_append] at hmem
  obtain ⟨w, hw, -⟩ := List.mem_map.mp hmem
  obtain ⟨hsame, hopen⟩ := h.waiting w hw
  rw [hactive] at hsame
  rw [Option.some.inj hsame]
  exact hopen

theorem sound_reachable (h : Reachable system s) : Sound s := by
  refine reachable_invariant ?_ (fun s e hs he => sound_next hs he) h
  rintro s ⟨unlocked, rfl⟩
  exact sound_initial unlocked

end Steps

section Scheduled

variable {s : State} {sync id : Nat}

theorem failed_rearms {rest : List (Reaction × Bool)} (hq : s.queue = (.runner sync, false) :: rest)
    (hu : s.unlocked = true) : Owed (next s .react).log := by
  simp only [next, hq, react, finishRun_failed, schedule, hu, if_true]
  exact owed_scheduled

/-- At most one sync is in flight. What was scheduled and not yet served has its timer, and that
timer starts a sync, or, during an upload, the next timer. -/
theorem scheduled_has_timer (h : Reachable system s) :
    (∀ sync other, InFlight s sync → InFlight s other → sync = other) ∧
    (Owed s.log → ∃ id, s.timer = some id ∧ id ∈ s.armed) ∧
    (∀ id ∈ s.armed, s.unlocked = true → s.queue = [] →
      (InFlight (next s (.fire id)) s.started ∧ ¬ Owed (next s (.fire id)).log) ∨
      ((∃ sync, InFlight s sync) ∧ Owed (next s (.fire id)).log)) ∧
    ∀ sync rest, s.queue = (.runner sync, false) :: rest → s.unlocked = true →
      Owed (next s .react).log := by
  have hs := sound_reachable h
  refine ⟨fun sync other hsync hother => ?_, fun howed => ?_, fun id hid hu hq => ?_, ?_⟩
  · exact Option.some.inj ((hs.inFlight sync hsync).symm.trans (hs.inFlight other hother))
  · obtain ⟨id, htimer, harmed⟩ := hs.armed.resolve_left (hs.owed howed)
    exact ⟨id, htimer, by rw [harmed]; exact List.mem_singleton_self id⟩
  · cases hactive : s.active with
    | none =>
      left
      simp only [next, fire_idle hs hid hu hactive]
      exact ⟨⟨Nat.lt_succ_self _, hs.fresh _ (Nat.le_refl _)⟩, not_owed_cons (by decide)⟩
    | some sync =>
      right
      have hbusy : s.active ≠ none := by simp [hactive]
      simp only [next, fire_busy hs hid hu hbusy, schedule_unlocked hs hu]
      exact ⟨⟨sync, hs.known sync hactive, active_open hs hactive hq⟩, owed_scheduled⟩
  · exact fun sync rest hq hu => failed_rearms hq hu

/-- A message during an upload. -/
def scheduledAgain : State := system.replay (initial true) [.schedule, .fire 0, .schedule]

theorem scheduledAgain_reachable : Reachable system scheduledAgain := by
  have hvalid : system.Valid (initial true) [.schedule, .fire 0, .schedule] := by
    simp only [System.Valid, system]
    decide
  exact valid_trace_reachable (reachable_initial ⟨true, rfl⟩) hvalid

theorem scheduledAgain_has_timer :
    ∃ id, scheduledAgain.timer = some id ∧ id ∈ scheduledAgain.armed :=
  (scheduled_has_timer scheduledAgain_reachable).2.1 owed_scheduled

end Scheduled

section Moves

variable {s t : State} {e : Event} {c sync : Nat} {ok : Bool} {r : Reaction}

/-- What a step does to those that wait: nothing, one more runner or drain, a promise settled, or
the first reaction run. -/
inductive Moves (s t : State) : Prop
  | still (queue : t.queue = s.queue) (waiting : t.waiting = s.waiting)
      (stage : t.stage = s.stage) (outcome : t.outcome = s.outcome)
  | started (queue : t.queue = s.queue)
      (waiting : t.waiting = s.waiting ++ [(s.started, .runner s.started)])
      (stage : t.stage = s.stage) (outcome : t.outcome = s.outcome)
  | asked (caller : Nat) (ok : Bool) (idle : s.stage caller = .idle)
      (answer : match s.active with
        | none => ok = true
        | some sync => s.outcome sync = some ok)
      (queue : t.queue = s.queue ++ [(.drain caller, ok)]) (waiting : t.waiting = s.waiting)
      (stage : t.stage = Function.update s.stage caller .draining) (outcome : t.outcome = s.outcome)
  | awaits (caller sync : Nat) (idle : s.stage caller = .idle) (active : s.active = some sync)
      (queue : t.queue = s.queue) (waiting : t.waiting = s.waiting ++ [(sync, .drain caller)])
      (stage : t.stage = Function.update s.stage caller .draining) (outcome : t.outcome = s.outcome)
  | settled (sync : Nat) (ok : Bool) (unsettled : s.outcome sync = none)
      (hwaiting : ∀ w ∈ s.waiting, w.1 = sync)
      (queue : t.queue = s.queue ++ s.waiting.map fun w => (w.2, ok)) (waiting : t.waiting = [])
      (stage : t.stage = s.stage) (outcome : t.outcome = Function.update s.outcome sync (some ok))
  | ran (sync : Nat) (ok : Bool) (queue : s.queue = (.runner sync, ok) :: t.queue)
      (waiting : t.waiting = s.waiting) (stage : t.stage = s.stage)
      (outcome : t.outcome = s.outcome)
  | drained (caller : Nat) (ok : Bool) (rest : List (Reaction × Bool))
      (before : s.queue = (.drain caller, ok) :: rest)
      (queue : t.queue = rest ++ [(.caller caller, ok)]) (waiting : t.waiting = s.waiting)
      (stage : t.stage = s.stage) (outcome : t.outcome = s.outcome)
  | resumed (caller : Nat) (ok : Bool) (queue : s.queue = (.caller caller, ok) :: t.queue)
      (waiting : t.waiting = s.waiting)
      (stage : t.stage = Function.update s.stage caller (.resumed ok))
      (outcome : t.outcome = s.outcome)

theorem schedule_moves (s : State) : Moves s (schedule s) := by
  unfold schedule
  split <;> exact .still rfl rfl rfl rfl

theorem finishRun_frame (s : State) (ok : Bool) : (finishRun s ok).queue = s.queue ∧
    (finishRun s ok).waiting = s.waiting ∧ (finishRun s ok).stage = s.stage ∧
    (finishRun s ok).outcome = s.outcome := by
  unfold finishRun schedule
  cases ok <;> cases s.unlocked <;> exact ⟨rfl, rfl, rfl, rfl⟩

theorem fire_moves (h : Sound s) {id : Nat} (hid : id ∈ s.armed) : Moves s (fire s id) := by
  cases hu : s.unlocked with
  | false =>
    rw [fire_locked h hid hu]
    exact .still rfl rfl rfl rfl
  | true =>
    by_cases hactive : s.active = none
    · rw [fire_idle h hid hu hactive]
      exact .started rfl rfl rfl rfl
    · rw [fire_busy h hid hu hactive]
      exact schedule_moves s

theorem quiesce_moves (hidle : s.stage c = .idle) : Moves s (quiesce s c) := by
  unfold quiesce
  obtain ⟨ha, hd⟩ | ⟨sync, ha, ho, hd⟩ | ⟨sync, ok, ha, ho, hd⟩ := drain_cases
    { cancel s with stage := Function.update s.stage c .draining } c
  · rw [hd]
    have ha : s.active = none := ha
    exact .asked c true hidle (by rw [ha]) rfl rfl rfl rfl
  · rw [hd]
    exact .awaits c sync hidle ha rfl rfl rfl rfl
  · rw [hd]
    have ha : s.active = some sync := ha
    exact .asked c ok hidle (by rw [ha]; exact ho) rfl rfl rfl rfl

theorem react_moves {rest : List (Reaction × Bool)} (hq : s.queue = (r, ok) :: rest) :
    Moves s (react { s with queue := rest } r ok) := by
  cases r with
  | runner sync =>
    obtain ⟨hqueue, hwaiting, hstage, houtcome⟩ := finishRun_frame { s with queue := rest } ok
    refine .ran sync ok ?_ hwaiting hstage houtcome
    rw [hq, react, hqueue]
  | drain caller => exact .drained caller ok rest hq rfl rfl rfl rfl
  | caller caller => exact .resumed caller ok hq rfl rfl rfl

theorem next_moves (h : Sound s) (he : Enabled s e) : Moves s (next s e) := by
  cases e with
  | schedule => exact schedule_moves s
  | cancel => exact .still rfl rfl rfl rfl
  | setUnlocked unlocked => exact .still rfl rfl rfl rfl
  | quiesce caller => exact quiesce_moves he
  | fire id => exact fire_moves h he.1
  | settle sync ok =>
    have hone (w : Nat × Reaction) (hw : w ∈ s.waiting) : w.1 = sync := by
      have hactive := (h.waiting w hw).1
      rw [h.inFlight sync he] at hactive
      exact (Option.some.inj hactive).symm
    simp only [next, settle_waiting h he]
    exact .settled sync ok he.2 hone rfl rfl rfl rfl
  | react =>
    cases hq : s.queue with
    | nil => exact absurd hq he
    | cons r rest =>
      simp only [next, hq]
      exact react_moves hq

/-- A settled promise keeps its outcome. -/
theorem Moves.outcome_kept (hm : Moves s t) (ho : s.outcome sync = some ok) :
    t.outcome sync = some ok := by
  cases hm with
  | settled other flag hopen _ _ _ _ houtcome =>
    have hne : sync ≠ other := by
      rintro rfl
      exact absurd (ho.symm.trans hopen) (by simp)
    rw [houtcome, Function.update_of_ne hne, ho]
  | still _ _ _ outcome => rw [outcome, ho]
  | started _ _ _ outcome => rw [outcome, ho]
  | asked _ _ _ _ _ _ _ outcome => rw [outcome, ho]
  | awaits _ _ _ _ _ _ _ outcome => rw [outcome, ho]
  | ran _ _ _ _ _ outcome => rw [outcome, ho]
  | drained _ _ _ _ _ _ _ outcome => rw [outcome, ho]
  | resumed _ _ _ _ _ outcome => rw [outcome, ho]

theorem mem_line : r ∈ line s ↔ (∃ ok, (r, ok) ∈ s.queue) ∨ ∃ sync, (sync, r) ∈ s.waiting := by
  simp [line]

/-- Nothing is queued for a caller that has not called. -/
def Unasked (s : State) : Prop :=
  ∀ c, s.stage c = .idle → .drain c ∉ line s ∧ .caller c ∉ line s

theorem Moves.unasked (hm : Moves s t) (h : Unasked s) : Unasked t := by
  intro c hc
  cases hm with
  | still queue waiting stage _ =>
    rw [stage] at hc
    simpa only [line, queue, waiting] using h c hc
  | started queue waiting stage _ =>
    rw [stage] at hc
    simpa [line, queue, waiting] using h c hc
  | asked caller ok _ _ queue waiting stage _ =>
    have hne : c ≠ caller := by
      rintro rfl
      rw [stage, Function.update_self] at hc
      cases hc
    rw [stage, Function.update_of_ne hne] at hc
    simpa [line, queue, waiting, hne] using h c hc
  | awaits caller sync _ _ queue waiting stage _ =>
    have hne : c ≠ caller := by
      rintro rfl
      rw [stage, Function.update_self] at hc
      cases hc
    rw [stage, Function.update_of_ne hne] at hc
    simpa [line, queue, waiting, hne] using h c hc
  | settled sync ok _ _ queue waiting stage _ =>
    rw [stage] at hc
    simpa [line, queue, waiting] using h c hc
  | ran sync ok queue waiting stage _ =>
    rw [stage] at hc
    simpa [line, queue, waiting] using h c hc
  | drained caller ok rest before queue waiting stage _ =>
    rw [stage] at hc
    have hold := h c hc
    simp only [line, before, List.map_cons, List.cons_append, List.mem_cons, not_or] at hold
    have hne : c ≠ caller := fun he => hold.1.1 (by rw [he])
    simp only [line, queue, waiting, List.map_append, List.mem_append, not_or] at hold ⊢
    exact ⟨⟨⟨hold.1.2.1, by simp⟩, hold.1.2.2⟩, ⟨⟨hold.2.2.1, by simp [hne]⟩, hold.2.2.2⟩⟩
  | resumed caller ok queue waiting stage _ =>
    have hne : c ≠ caller := by
      rintro rfl
      rw [stage, Function.update_self] at hc
      cases hc
    rw [stage, Function.update_of_ne hne] at hc
    have hold := h c hc
    simp only [line, queue, List.map_cons, List.cons_append, List.mem_cons, not_or] at hold
    rw [line, waiting]
    exact ⟨hold.1.2, hold.2.2⟩

theorem unasked_reachable (h : Reachable system s) : Unasked s := by
  have hboth : Sound s ∧ Unasked s := by
    refine reachable_invariant (I := fun s => Sound s ∧ Unasked s) ?_ (fun s e hs he => ?_) h
    · rintro s ⟨unlocked, rfl⟩
      exact ⟨sound_initial unlocked, fun c _ => by simp [line, initial]⟩
    · exact ⟨sound_next hs.1 he, (next_moves hs.1 he).unasked hs.2⟩
  exact hboth.2

/-- How the sync that was active when `drain()` was called has settled. -/
def Answer (before : Option Nat) (s : State) (ok : Bool) : Prop :=
  match before with
  | none => ok = true
  | some sync => s.outcome sync = some ok

/-- Where a call of `drain()` has got to. -/
structure Tracked (before : Option Nat) (c : Nat) (s : State) : Prop where
  called : s.stage c ≠ .idle
  queued : ∀ r ∈ s.queue, r.1 = .drain c ∨ r.1 = .caller c → Answer before s r.2
  waiting : ∀ w ∈ s.waiting, w.2 = .drain c ∨ w.2 = .caller c → before = some w.1
  resumed : ∀ ok, s.stage c = .resumed ok → Answer before s ok
  present : s.stage c = .draining → .drain c ∈ line s ∨ .caller c ∈ line s

theorem Moves.answer {before : Option Nat} (hm : Moves s t) (h : Answer before s ok) :
    Answer before t ok := by
  cases before with
  | none => exact h
  | some sync => exact hm.outcome_kept h

theorem Moves.tracked {before : Option Nat} (hm : Moves s t) (h : Tracked before c s) :
    Tracked before c t := by
  have hanswer (ok : Bool) (ha : Answer before s ok) : Answer before t ok := hm.answer ha
  have hkept : ∀ r ∈ s.queue, r.1 = .drain c ∨ r.1 = .caller c → Answer before t r.2 :=
    fun r hr hc => hanswer r.2 (h.queued r hr hc)
  cases hm with
  | still queue waiting stage _ =>
    constructor
    · rw [stage]; exact h.called
    · rw [queue]; exact hkept
    · rw [waiting]; exact h.waiting
    · rw [stage]; exact fun ok hr => hanswer ok (h.resumed ok hr)
    · simpa only [stage, line, queue, waiting] using h.present
  | started queue waiting stage _ =>
    constructor
    · rw [stage]; exact h.called
    · rw [queue]; exact hkept
    · intro w hw hc
      rw [waiting, List.mem_append, List.mem_singleton] at hw
      rcases hw with hw | rfl
      · exact h.waiting w hw hc
      · simp at hc
    · rw [stage]; exact fun ok hr => hanswer ok (h.resumed ok hr)
    · intro hd
      rw [stage] at hd
      simpa [line, queue, waiting] using h.present hd
  | asked caller ok hidle answer queue waiting stage _ =>
    have hne : c ≠ caller := fun he => h.called (he ▸ hidle)
    constructor
    · rw [stage, Function.update_of_ne hne]; exact h.called
    · intro r hr hc
      rw [queue, List.mem_append, List.mem_singleton] at hr
      rcases hr with hr | rfl
      · exact hkept r hr hc
      · simp [hne.symm] at hc
    · rw [waiting]; exact h.waiting
    · rw [stage, Function.update_of_ne hne]; exact fun ok hr => hanswer ok (h.resumed ok hr)
    · intro hd
      rw [stage, Function.update_of_ne hne] at hd
      simpa [line, queue, waiting, hne] using h.present hd
  | awaits caller sync hidle _ queue waiting stage _ =>
    have hne : c ≠ caller := fun he => h.called (he ▸ hidle)
    constructor
    · rw [stage, Function.update_of_ne hne]; exact h.called
    · rw [queue]; exact hkept
    · intro w hw hc
      rw [waiting, List.mem_append, List.mem_singleton] at hw
      rcases hw with hw | rfl
      · exact h.waiting w hw hc
      · simp [hne.symm] at hc
    · rw [stage, Function.update_of_ne hne]; exact fun ok hr => hanswer ok (h.resumed ok hr)
    · intro hd
      rw [stage, Function.update_of_ne hne] at hd
      simpa [line, queue, waiting, hne] using h.present hd
  | settled sync ok _ hone queue waiting stage outcome =>
    constructor
    · rw [stage]; exact h.called
    · intro r hr hc
      rw [queue, List.mem_append] at hr
      rcases hr with hr | hr
      · exact hkept r hr hc
      · obtain ⟨w, hw, rfl⟩ := List.mem_map.mp hr
        rw [h.waiting w hw hc, hone w hw]
        simp [Answer, outcome]
    · intro w hw
      rw [waiting] at hw
      cases hw
    · rw [stage]; exact fun ok hr => hanswer ok (h.resumed ok hr)
    · intro hd
      rw [stage] at hd
      simpa [line, queue, waiting] using h.present hd
  | ran sync ok queue waiting stage _ =>
    constructor
    · rw [stage]; exact h.called
    · exact fun r hr => hkept r (by rw [queue]; exact List.mem_cons_of_mem _ hr)
    · rw [waiting]; exact h.waiting
    · rw [stage]; exact fun ok hr => hanswer ok (h.resumed ok hr)
    · intro hd
      rw [stage] at hd
      simpa [line, queue, waiting] using h.present hd
  | drained caller ok rest before' queue waiting stage _ =>
    constructor
    · rw [stage]; exact h.called
    · intro r hr hc
      rw [queue, List.mem_append, List.mem_singleton] at hr
      rcases hr with hr | rfl
      · exact hkept r (by rw [before']; exact List.mem_cons_of_mem _ hr) hc
      · refine hkept (.drain caller, ok) (by rw [before']; exact List.mem_cons_self) (.inl ?_)
        simpa using hc
    · rw [waiting]; exact h.waiting
    · rw [stage]; exact fun ok hr => hanswer ok (h.resumed ok hr)
    · intro hd
      rw [stage] at hd
      have hold := h.present hd
      by_cases hc : c = caller
      · exact .inr (by simp [line, queue, hc])
      · simpa [line, before', queue, waiting, hc] using hold
  | resumed caller ok queue waiting stage _ =>
    have hrest (r : Reaction × Bool) (hr : r ∈ t.queue) :
        r.1 = .drain c ∨ r.1 = .caller c → Answer before t r.2 :=
      hkept r (by rw [queue]; exact List.mem_cons_of_mem _ hr)
    by_cases hne : c = caller
    · subst hne
      have hnow : t.stage c = .resumed ok := by rw [stage, Function.update_self]
      constructor
      · simp [hnow]
      · exact hrest
      · rw [waiting]; exact h.waiting
      · intro ok' hr
        rw [hnow, Stage.resumed.injEq] at hr
        exact hr ▸ hkept (.caller c, ok) (by rw [queue]; exact List.mem_cons_self) (.inr rfl)
      · simp [hnow]
    · have hsame : t.stage c = s.stage c := by rw [stage, Function.update_of_ne hne]
      constructor
      · rw [hsame]; exact h.called
      · exact hrest
      · rw [waiting]; exact h.waiting
      · rw [hsame]; exact fun ok hr => hanswer ok (h.resumed ok hr)
      · rw [hsame]
        intro hd
        simpa [line, queue, waiting, hne] using h.present hd

end Moves

section Quiesced

variable {s t u : State} {e : Event} {es fs : List Event} {c sync started : Nat} {ok : Bool}
  {before : Option Nat} {r : Reaction}

/-- The runner of the active sync, and this call of `drain()`. -/
def isKey (c : Nat) : Reaction → Bool
  | .runner _ => true
  | .drain caller => caller == c
  | .caller _ => false

/-- The sync that was active has failed. -/
def Failed (before : Option Nat) (s : State) : Prop :=
  ∃ sync, before = some sync ∧ s.outcome sync = some false

/-- Nothing is scheduled, nothing new starts, and the runner comes before the call. -/
structure Calm (before : Option Nat) (c started : Nat) (s : State) : Prop where
  armed : s.armed = []
  started : s.started = started
  active : s.active = none ∨ s.active = before
  order : ∃ l, (l = [] ∨ l = [.drain c]) ∧
    (line s).filter (isKey c) = s.active.toList.map .runner ++ l
  ended : .caller c ∈ line s ∨ (∃ ok, s.stage c = .resumed ok) → s.active = none

theorem failed_next (h : Sound s) (he : Enabled s e) (hf : Failed before s) :
    Failed before (next s e) := by
  obtain ⟨sync, hb, ho⟩ := hf
  exact ⟨sync, hb, (next_moves h he).outcome_kept ho⟩

theorem runners_unasked (h : Sound s) (hu : Unasked s) (hidle : s.stage c = .idle) :
    (line s).filter (isKey c) = s.active.toList.map .runner := by
  rw [← h.runners]
  apply List.filter_congr
  intro r hr
  cases r with
  | drain caller =>
    have hne : caller ≠ c := by
      rintro rfl
      exact (hu caller hidle).1 hr
    simp [isKey, isRunner, hne]
  | _ => rfl

theorem waiting_nil (h : Sound s) (hs : ∀ sync, s.active = some sync → s.outcome sync ≠ none) :
    s.waiting = [] := by
  rw [List.eq_nil_iff_forall_not_mem]
  intro w hw
  obtain ⟨hactive, hopen⟩ := h.waiting w hw
  exact hs w.1 hactive hopen

/-- A new call of `drain()` is behind everything that still has to run. -/
theorem quiesce_line (h : Sound s) : line (quiesce s c) = line s ++ [.drain c] := by
  unfold quiesce
  obtain ⟨ha, hd⟩ | ⟨sync, -, -, hd⟩ | ⟨sync, ok, ha, ho, hd⟩ := drain_cases
    { cancel s with stage := Function.update s.stage c .draining } c
  · have ha : s.active = none := ha
    have hw := waiting_nil h fun sync hs => by simp [ha] at hs
    rw [hd]
    simp [line, cancel, hw]
  · rw [hd]
    simp [line, cancel]
  · have ha : s.active = some sync := ha
    have ho : s.outcome sync = some ok := ho
    have hw := waiting_nil h fun other hs => by
      rw [ha] at hs
      rw [← Option.some.inj hs, ho]
      simp
    rw [hd]
    simp [line, cancel, hw]

theorem drain_frame (s : State) (c : Nat) : (drain s c).armed = s.armed ∧
    (drain s c).started = s.started ∧ (drain s c).active = s.active ∧
    (drain s c).stage = s.stage := by
  obtain ⟨-, hd⟩ | ⟨sync, -, -, hd⟩ | ⟨sync, ok, -, -, hd⟩ := drain_cases s c <;>
  · rw [hd]
    exact ⟨rfl, rfl, rfl, rfl⟩

theorem quiesce_frame (h : Sound s) : (quiesce s c).armed = [] ∧
    (quiesce s c).started = s.started ∧ (quiesce s c).active = s.active ∧
    (quiesce s c).stage = Function.update s.stage c .draining := by
  obtain ⟨harmed, hrest⟩ := drain_frame
    { cancel s with stage := Function.update s.stage c .draining } c
  exact ⟨harmed.trans (clearTimer_eq_nil h), hrest⟩

theorem calm_quiesce (h : Sound s) (hu : Unasked s) (hidle : s.stage c = .idle) :
    Calm s.active c s.started (quiesce s c) := by
  obtain ⟨harmed, hstarted, hactive, hstage⟩ := quiesce_frame (c := c) h
  refine ⟨harmed, hstarted, .inr hactive, ⟨[.drain c], .inr rfl, ?_⟩, ?_⟩
  · rw [quiesce_line h, List.filter_append, runners_unasked h hu hidle, hactive]
    simp [isKey]
  · rw [quiesce_line h, hstage, Function.update_self]
    rintro (hmem | ⟨ok, hr⟩)
    · simp only [List.mem_append, List.mem_singleton, reduceCtorEq, or_false] at hmem
      exact absurd hmem (hu c hidle).2
    · cases hr

theorem tracked_quiesce (h : Sound s) (hu : Unasked s) (hidle : s.stage c = .idle) :
    Tracked s.active c (quiesce s c) := by
  have hstage : (quiesce s c).stage c = .draining := by
    rw [(quiesce_frame h).2.2.2, Function.update_self]
  have hqueue (r : Reaction × Bool) (hr : r ∈ s.queue) : ¬ (r.1 = .drain c ∨ r.1 = .caller c) := by
    rintro (he | he)
    · exact (hu c hidle).1 (mem_line.mpr (.inl ⟨r.2, he ▸ hr⟩))
    · exact (hu c hidle).2 (mem_line.mpr (.inl ⟨r.2, he ▸ hr⟩))
  have hwaiting (w : Nat × Reaction) (hw : w ∈ s.waiting) (_ : w.2 = .drain c ∨ w.2 = .caller c) :
      s.active = some w.1 := (h.waiting w hw).1
  constructor
  · simp [hstage]
  · unfold quiesce
    obtain ⟨ha, hd⟩ | ⟨sync, -, -, hd⟩ | ⟨sync, ok, ha, ho, hd⟩ := drain_cases
      { cancel s with stage := Function.update s.stage c .draining } c
    · have ha : s.active = none := ha
      rw [hd]
      intro r hr hc
      rcases List.mem_append.mp hr with hr | hr
      · exact absurd hc (hqueue r hr)
      · rw [List.mem_singleton.mp hr, ha]
        exact rfl
    · rw [hd]
      exact fun r hr hc => absurd hc (hqueue r hr)
    · have ha : s.active = some sync := ha
      rw [hd]
      intro r hr hc
      rcases List.mem_append.mp hr with hr | hr
      · exact absurd hc (hqueue r hr)
      · rw [List.mem_singleton.mp hr, ha]
        exact ho
  · unfold quiesce
    obtain ⟨-, hd⟩ | ⟨sync, ha, -, hd⟩ | ⟨sync, ok, -, -, hd⟩ := drain_cases
      { cancel s with stage := Function.update s.stage c .draining } c
    · rw [hd]
      exact hwaiting
    · rw [hd]
      intro w hw hc
      rcases List.mem_append.mp hw with hw | hw
      · exact hwaiting w hw hc
      · rw [List.mem_singleton.mp hw]
        exact ha
    · rw [hd]
      exact hwaiting
  · simp [hstage]
  · rw [quiesce_line h]
    exact fun _ => .inl (by simp)

/-- The queue after one more reaction that is no key. -/
theorem key_queue (hr : isKey c r = false) :
    (line { s with queue := s.queue ++ [(r, ok)] }).filter (isKey c) =
      (line s).filter (isKey c) := by
  simp [line, hr]

theorem calm_react {rest : List (Reaction × Bool)} (h : Sound s) (hc : Calm before c started s)
    (hq : s.queue = (r, ok) :: rest) (hf : ¬ Failed before s) :
    Calm before c started (react { s with queue := rest } r ok) := by
  obtain ⟨l, hl, horder⟩ := hc.order
  have hline := line_rest hq
  cases r with
  | runner sync =>
    have hactive := runner_active h (by rw [hline]; exact List.mem_cons_self)
    have hbefore : before = some sync := by
      rcases hc.active with hn | hb
      · rw [hactive] at hn
        cases hn
      · rw [← hb, hactive]
    have hok : ok = true := by
      have hs := h.settled (.runner sync, ok) (by rw [hq]; exact List.mem_cons_self) sync rfl
      cases ok with
      | true => rfl
      | false => exact absurd ⟨sync, hbefore, hs⟩ hf
    subst hok
    rw [hline, hactive] at horder
    exact ⟨hc.armed, hc.started, .inl rfl, ⟨l, hl, (List.cons.inj horder).2⟩, fun _ => rfl⟩
  | drain caller =>
    by_cases hcaller : caller = c
    · -- the call's own turn: its runner can only have been before it
      subst hcaller
      have hnone : s.active = none := by
        rw [hline, List.filter_cons_of_pos (by simp [isKey])] at horder
        cases hactive : s.active with
        | none => rfl
        | some sync =>
          rw [hactive] at horder
          cases (List.cons.inj horder).1
      have hrest : (line { s with queue := rest }).filter (isKey caller) = [] := by
        rw [hline, hnone, List.filter_cons_of_pos (by simp [isKey])] at horder
        rcases hl with rfl | rfl
        · cases horder
        · exact (List.cons.inj horder).2
      refine ⟨hc.armed, hc.started, .inl hnone, ⟨[], .inl rfl, ?_⟩, fun _ => hnone⟩
      rw [react, key_queue rfl, hrest]
      simp [hnone]
    · refine ⟨hc.armed, hc.started, hc.active, ⟨l, hl, ?_⟩, ?_⟩
      · rw [hline, List.filter_cons_of_neg (by simpa [isKey] using hcaller)] at horder
        rw [react, key_queue rfl]
        exact horder
      · rintro (hmem | hr)
        · refine hc.ended (.inl ?_)
          simpa [react, line, hq, Ne.symm hcaller] using hmem
        · exact hc.ended (.inr hr)
  | caller caller =>
    refine ⟨hc.armed, hc.started, hc.active, ⟨l, hl, ?_⟩, ?_⟩
    · rw [hline, List.filter_cons_of_neg (by simp [isKey])] at horder
      exact horder
    · by_cases hcaller : c = caller
      · intro _
        refine hc.ended (.inl ?_)
        rw [hline, hcaller]
        exact List.mem_cons_self
      · rintro (hmem | hr)
        · refine hc.ended (.inl ?_)
          rw [hline]
          exact List.mem_cons_of_mem _ hmem
        · refine hc.ended (.inr ?_)
          simpa [react, Function.update_of_ne hcaller] using hr

theorem calm_next (h : Sound s) (hc : Calm before c started s) (hcalled : s.stage c ≠ .idle)
    (he : Enabled s e) (hne : e ≠ .schedule) (hf : ¬ Failed before (next s e)) :
    Calm before c started (next s e) := by
  have hbefore : ¬ Failed before s := fun hfailed => hf (failed_next h he hfailed)
  cases e with
  | schedule => exact absurd rfl hne
  | cancel =>
    have hclear := clearTimer_eq_nil h
    exact { hc with armed := hclear }
  | setUnlocked unlocked => exact { hc with }
  | fire id =>
    have hid : id ∈ s.armed := he.1
    rw [hc.armed] at hid
    cases hid
  | settle sync ok =>
    have hline : line (settle s sync ok) = line s := settle_line h he
    exact { hc with
      order := by rw [next, hline]; exact hc.order
      ended := by rw [next, hline]; exact hc.ended }
  | quiesce caller =>
    have hother : c ≠ caller := fun heq => hcalled (heq ▸ he)
    obtain ⟨harmed, hstarted, hactive, hstage⟩ := quiesce_frame (c := caller) h
    have hline := quiesce_line (c := caller) h
    obtain ⟨l, hl, horder⟩ := hc.order
    refine ⟨harmed, hstarted.trans hc.started, ?_, ⟨l, hl, ?_⟩, ?_⟩
    · rw [next, hactive]
      exact hc.active
    · rw [next, hline, hactive, List.filter_append, horder]
      simp [isKey, hother.symm]
    · rw [next, hline, hactive, hstage, Function.update_of_ne hother]
      rintro (hmem | hr)
      · exact hc.ended (.inl (by simpa using hmem))
      · exact hc.ended (.inr hr)
  | react =>
    cases hq : s.queue with
    | nil => exact absurd hq he
    | cons r rest =>
      simp only [next, hq]
      exact calm_react h hc hq hbefore

/-- From the call on, unless the sync it waits for fails. -/
theorem calm_run (h : Sound s) (ht : Tracked before c s) (hc : Calm before c started s)
    (hx : Execution system s es t) (hno : .schedule ∉ es) :
    Sound t ∧ Tracked before c t ∧ (Failed before t ∨ Calm before c started t) := by
  induction hx with
  | refl => exact ⟨h, ht, .inr hc⟩
  | @tail t u es e _ hstep ih =>
    obtain ⟨he, rfl⟩ := hstep
    have hne : e ≠ .schedule := fun heq => hno (by simp [heq])
    obtain ⟨hsound, htracked, hstate⟩ := ih fun hm => hno (List.mem_append_left _ hm)
    refine ⟨sound_next hsound he, (next_moves hsound he).tracked htracked, ?_⟩
    rcases hstate with hfailed | hcalm
    · exact .inl (failed_next hsound he hfailed)
    · by_cases hf : Failed before (next t e)
      · exact .inl hf
      · exact .inr (calm_next hsound hcalm htracked.called he hne hf)

theorem Moves.resumed_kept (hm : Moves s t) (hr : ∃ ok, s.stage c = .resumed ok) :
    ∃ ok, t.stage c = .resumed ok := by
  obtain ⟨ok, hr⟩ := hr
  cases hm with
  | asked caller _ hidle _ _ _ stage _ | awaits caller _ hidle _ _ _ stage _ =>
    have hne : c ≠ caller := by
      rintro rfl
      rw [hr] at hidle
      cases hidle
    exact ⟨ok, by rw [stage, Function.update_of_ne hne, hr]⟩
  | resumed caller flag _ _ stage _ =>
    by_cases hc : c = caller
    · exact ⟨flag, by rw [stage, hc, Function.update_self]⟩
    · exact ⟨ok, by rw [stage, Function.update_of_ne hc, hr]⟩
  | still _ _ stage _ | started _ _ stage _ | settled _ _ _ _ _ _ stage _ | ran _ _ _ _ stage _
  | drained _ _ _ _ _ _ stage _ => exact ⟨ok, by rw [stage, hr]⟩

/-- What a settled promise and a caller that has resumed keep for the rest of the run. -/
theorem kept_run (h : Sound s) (hx : Execution system s es t) (hr : ∃ ok, s.stage c = .resumed ok)
    (ha : Answer before s ok) : (∃ ok, t.stage c = .resumed ok) ∧ Answer before t ok := by
  have hall : Sound t ∧ (∃ ok, t.stage c = .resumed ok) ∧ Answer before t ok := by
    refine execution_invariant
      (I := fun s => Sound s ∧ (∃ ok, s.stage c = .resumed ok) ∧ Answer before s ok)
      (fun s e hs he => ?_) hx ⟨h, hr, ha⟩
    have hm := next_moves hs.1 he
    exact ⟨sound_next hs.1 he, hm.resumed_kept hs.2.1, hm.answer hs.2.2⟩
  exact hall.2

/-- `drain()` has returned, and until the next `schedule()` nothing runs and nothing starts. -/
def Quiesced (c : Nat) (t : State) : Prop :=
  t.stage c = .resumed true ∧ ∀ fs u, Execution system t fs u → .schedule ∉ fs →
    (∀ sync, ¬ InFlight u sync) ∧ u.armed = [] ∧ u.started = t.started

theorem quiesced_of_calm (h : Sound t) (ht : Tracked before c t) (hc : Calm before c started t)
    (hdone : t.stage c = .resumed true) : Quiesced c t := by
  refine ⟨hdone, fun fs u hx hno => ?_⟩
  have hanswer := ht.resumed true hdone
  obtain ⟨hresumed, hkept⟩ := kept_run h hx ⟨true, hdone⟩ hanswer
  obtain ⟨hsound, -, hfailed | hcalm⟩ := calm_run h ht hc hx hno
  · obtain ⟨sync, rfl, ho⟩ := hfailed
    exact absurd (Eq.trans (Eq.symm hkept) ho) (by simp)
  · refine ⟨fun sync hf => ?_, hcalm.armed, hcalm.started.trans hc.started.symm⟩
    have hactive := hsound.inFlight sync hf
    rw [hcalm.ended (.inr hresumed)] at hactive
    cases hactive

/-- A handler's `cancel(); await drain()` comes back once the sync it waits for has settled, and
leaves the backups quiet exactly when there was none or it succeeded. -/
theorem quiesced_iff_succeeds (hr : Reachable system s) (hidle : s.stage c = .idle)
    (hx : Execution system (next s (.quiesce c)) es t) (hno : .schedule ∉ es) :
    (t.queue = [] → (∀ sync, s.active = some sync → t.outcome sync ≠ none) →
      ∃ ok, t.stage c = .resumed ok) ∧
    ∀ ok, t.stage c = .resumed ok → (Quiesced c t ↔
      s.active = none ∨ ∃ sync, s.active = some sync ∧ t.outcome sync = some true) := by
  have hs := sound_reachable hr
  have hu := unasked_reachable hr
  obtain ⟨hsound, htracked, hstate⟩ := calm_run (sound_quiesce hs) (tracked_quiesce hs hu hidle)
    (calm_quiesce hs hu hidle) hx hno
  refine ⟨fun hqueue hsettled => ?_, fun ok hdone => ⟨fun hquiet => ?_, fun hgood => ?_⟩⟩
  · cases hstage : t.stage c with
    | idle => exact absurd hstage htracked.called
    | resumed ok => exact ⟨ok, rfl⟩
    | draining =>
      -- nothing is queued, so the call still waits for the promise
      have hwaits : ∃ w ∈ t.waiting, w.2 = .drain c ∨ w.2 = .caller c := by
        rcases htracked.present hstage with hm | hm <;>
        · obtain ⟨ok, hm⟩ | ⟨sync, hm⟩ := mem_line.mp hm
          · rw [hqueue] at hm
            cases hm
          · exact ⟨_, hm, by simp⟩
      obtain ⟨w, hw, hc⟩ := hwaits
      exact absurd (hsound.waiting w hw).2 (hsettled w.1 (htracked.waiting w hw hc))
  · have hanswer := htracked.resumed true hquiet.1
    cases hactive : s.active with
    | none => exact .inl rfl
    | some sync =>
      rw [hactive] at hanswer
      exact .inr ⟨sync, rfl, hanswer⟩
  · have hanswer := htracked.resumed ok hdone
    have hok : ok = true := by
      rcases hgood with hnone | ⟨sync, hactive, ho⟩
      · rw [hnone] at hanswer
        exact hanswer
      · rw [hactive] at hanswer
        exact Option.some.inj (hanswer.symm.trans ho)
    subst hok
    rcases hstate with ⟨sync, hactive, ho⟩ | hcalm
    · rw [hactive] at hanswer
      exact absurd (Eq.trans (Eq.symm hanswer) ho) (by simp)
    · exact quiesced_of_calm hsound htracked hcalm hdone

/-- A background upload is under way. -/
def uploading : State := system.replay (initial true) [.schedule, .fire 0]

theorem uploading_reachable : Reachable system uploading := by
  have hvalid : system.Valid (initial true) [.schedule, .fire 0] := by
    simp only [System.Valid, system]
    decide
  exact valid_trace_reachable (reachable_initial ⟨true, rfl⟩) hvalid

/-- The upload settles, its runner ends, and the call comes back to its handler. -/
def settling (ok : Bool) : List Event := [.settle 0 ok, .react, .react, .react]

theorem settling_execution (ok : Bool) : Execution system (next uploading (.quiesce 0))
    (settling ok) (system.replay (next uploading (.quiesce 0)) (settling ok)) := by
  apply valid_execution
  simp only [settling, System.Valid, system]
  cases ok <;> decide

theorem drain_of_success_quiesces :
    Quiesced 0 (system.replay (next uploading (.quiesce 0)) (settling true)) :=
  ((quiesced_iff_succeeds uploading_reachable (by decide) (settling_execution true)
    (by decide)).2 true (by decide)).mpr (.inr ⟨0, by decide, by decide⟩)

/-- The upload fails: `drain()` throws, and the timer that its runner has armed starts another
sync with no call of `schedule()` in between. -/
theorem drain_of_failure_throws : Reachable system uploading ∧ uploading.stage 0 = .idle ∧
    Execution system (next uploading (.quiesce 0)) (settling false)
      (system.replay (next uploading (.quiesce 0)) (settling false)) ∧
    .schedule ∉ settling false ∧
    (system.replay (next uploading (.quiesce 0)) (settling false)).stage 0 = .resumed false ∧
    ¬ Quiesced 0 (system.replay (next uploading (.quiesce 0)) (settling false)) ∧
    (system.replay (next uploading (.quiesce 0)) (settling false)).armed = [1] ∧
    InFlight (next (system.replay (next uploading (.quiesce 0)) (settling false)) (.fire 1)) 1 := by
  refine ⟨uploading_reachable, by decide, settling_execution false, by decide, by decide, ?_,
    by decide, by decide, by decide⟩
  intro h
  exact absurd h.1 (by decide)

end Quiesced

end DebouncedBackup
