import CryptoPigeon.TransitionSystem
import Mathlib.Data.List.Basic

/-! # The relay's event connection

`watch`, `stopEvents` and `clearSession` of the daemon's relay client, with a step for everything
that can happen between two of them: a token arrives or does not, a timer fires, a socket opens,
fails or closes. `loop` is history: the generation in which the loop that something belongs to was
started by `watch`. -/
namespace EventConnection

open TransitionSystem

/-- A pending timer, an attempt that awaits its token, or a socket that has not closed. -/
structure Part where
  id : Nat
  loop : Nat
  deriving DecidableEq, Repr

/-- `ending` are the sockets that were terminated; their close event is still to come. -/
structure State where
  watching : Bool
  generation : Nat
  socket : Option Nat
  reconnect : Option Nat
  timers : List Part
  attempts : List Part
  sockets : List Part
  ending : List Part
  made : Nat
  locked : Bool
  direct : Bool
  deriving DecidableEq, Repr

def initial (locked direct : Bool) : State where
  watching := false
  generation := 0
  socket := none
  reconnect := none
  timers := []
  attempts := []
  sockets := []
  ending := []
  made := 0
  locked := locked
  direct := direct

/-- The function `connect` of a loop, up to `await this.getToken`. -/
def connect (s : State) (loop : Nat) : State :=
  if !s.watching || s.locked then s
  else { s with attempts := s.attempts ++ [⟨s.made, loop⟩], made := s.made + 1 }

/-- `this.reconnect=setTimeout(connect)`, if still watching. -/
def rearm (s : State) (loop : Nat) : State :=
  if s.watching then
    { s with
      timers := s.timers ++ [⟨s.made, loop⟩]
      reconnect := some s.made
      made := s.made + 1 }
  else s

def watch (s : State) : State :=
  if s.direct then s
  else if s.watching then s
  else connect { s with watching := true } s.generation

/-- `clearTimeout` of the last timer, `terminate` of the last socket. -/
def stopEvents (s : State) : State :=
  { s with
    watching := false
    timers := s.timers.filter fun t => s.reconnect ≠ some t.id
    socket := none
    sockets := s.sockets.filter fun w => s.socket ≠ some w.id
    ending := s.ending ++ s.sockets.filter fun w => s.socket = some w.id }

def clearSession (s : State) : State := stopEvents { s with generation := s.generation + 1 }

/-- What an attempt's token comes to: an error, a socket, or an error while it is made. -/
inductive Token where
  | failed
  | opens
  | throws
  deriving DecidableEq, Repr

def afterToken (s : State) (a : Part) (token : Token) : State :=
  let s := { s with attempts := s.attempts.erase a }
  match token with
  | .failed => rearm s a.loop
  | .opens =>
    if !s.watching || s.locked then s
    else
      { s with
        socket := some s.made
        sockets := s.sockets ++ [⟨s.made, a.loop⟩]
        made := s.made + 1 }
  | .throws => if !s.watching || s.locked then s else rearm s a.loop

/-- A socket's close event. -/
def closed (s : State) (w : Part) : State :=
  rearm { s with
    sockets := s.sockets.erase w
    ending := s.ending.erase w
    socket := if s.socket = some w.id then none else s.socket } w.loop

inductive Event where
  | watch
  | stopEvents
  | clearSession
  | token (attempt : Part) (token : Token)
  | timer (timer : Part)
  | opened (socket : Part)
  /-- An error event: the handler calls `terminate`, and the close event follows. -/
  | failed (socket : Part)
  | closed (socket : Part)
  | setLocked (locked : Bool)
  | setDirect (direct : Bool)
  deriving DecidableEq, Repr

def Enabled (s : State) : Event → Prop
  | .token a _ => a ∈ s.attempts
  | .timer t => t ∈ s.timers
  | .opened w => w ∈ s.sockets
  | .failed w => w ∈ s.sockets
  | .closed w => w ∈ s.sockets ∨ w ∈ s.ending
  | .watch | .stopEvents | .clearSession | .setLocked _ | .setDirect _ => True

instance (s : State) (e : Event) : Decidable (Enabled s e) := by
  cases e <;> unfold Enabled <;> infer_instance

def next (s : State) : Event → State
  | .watch => watch s
  | .stopEvents => stopEvents s
  | .clearSession => clearSession s
  | .token a token => afterToken s a token
  | .timer t => connect { s with timers := s.timers.erase t } t.loop
  | .opened _ => s
  | .failed _ => s
  | .closed w => closed s w
  | .setLocked locked => { s with locked := locked }
  | .setDirect direct => { s with direct := direct }

def system : System State Event where
  Initial s := ∃ locked direct, s = initial locked direct
  Enabled := Enabled
  next := next

/-- Pending timers, attempts that will still open a socket, and open sockets. -/
def live (s : State) : Nat := s.timers.length + s.attempts.length + s.sockets.length

def Single (s : State) : Prop := s.watching = true → live s ≤ 1

instance (s : State) : Decidable (Single s) := inferInstanceAs (Decidable (_ → _))

/-- An event of an attempt or a socket that belongs to a session that has been cleared. -/
def Stale (s : State) : Event → Prop
  | .token a _ => a.loop < s.generation
  | .timer t => t.loop < s.generation
  | .closed w => w.loop < s.generation
  | _ => False

/-- It opens no socket, makes no attempt to, and schedules no timer. -/
def Inert (s : State) (e : Event) : Prop :=
  (next s e).made = s.made

/-- `watch` starts a loop only once nothing of an earlier one is left. -/
def Careful (s : State) (e : Event) : Prop :=
  e = .watch → s.watching = true ∨ s.direct = true ∨
    (s.attempts = [] ∧ s.sockets = [] ∧ s.ending = [])

instance (s : State) (e : Event) : Decidable (Stale s e) := by
  cases e <;> unfold Stale <;> infer_instance

instance (s : State) (e : Event) : Decidable (Inert s e) :=
  inferInstanceAs (Decidable ((next s e).made = s.made))

instance (s : State) (e : Event) : Decidable (Careful s e) :=
  inferInstanceAs (Decidable (_ → _))

/-- What a careful run keeps: one loop of this session while watching, else no timer and no live
socket. -/
structure Sound (s : State) : Prop where
  parts : s.timers.length + s.attempts.length + s.sockets.length + s.ending.length ≤ 1
  timer : ∀ t ∈ s.timers, s.reconnect = some t.id
  socket : ∀ w ∈ s.sockets, s.socket = some w.id
  loops : s.watching = true → (∀ p ∈ s.timers, p.loop = s.generation) ∧
    (∀ p ∈ s.attempts, p.loop = s.generation) ∧ (∀ p ∈ s.sockets, p.loop = s.generation) ∧
    s.ending = []
  stopped : s.watching = false → s.timers = [] ∧ s.sockets = []

/-- No timer, no attempt and no socket, not even one that is closing. -/
structure Quiet (s : State) : Prop where
  timers : s.timers = []
  attempts : s.attempts = []
  sockets : s.sockets = []
  ending : s.ending = []

section Steps

variable {s : State} {e : Event} {loop : Nat}

theorem sound_initial (locked direct : Bool) : Sound (initial locked direct) where
  parts := Nat.zero_le 1
  timer t ht := by cases ht
  socket w hw := by cases hw
  loops h := by cases h
  stopped _ := ⟨rfl, rfl⟩

theorem sound_stopEvents (h : Sound s) : Sound (stopEvents s) := by
  have htimers : s.timers.filter (fun t => s.reconnect ≠ some t.id) = [] :=
    List.filter_eq_nil_iff.mpr fun t ht => by simpa using h.timer t ht
  have hsockets : s.sockets.filter (fun w => s.socket ≠ some w.id) = [] :=
    List.filter_eq_nil_iff.mpr fun w hw => by simpa using h.socket w hw
  have hending : s.sockets.filter (fun w => s.socket = some w.id) = s.sockets :=
    List.filter_eq_self.mpr fun w hw => by simpa using h.socket w hw
  have hparts := h.parts
  unfold stopEvents
  rw [htimers, hsockets, hending]
  constructor
  · simp only [List.length_nil, List.length_append]
    omega
  · intro t ht
    cases ht
  · intro w hw
    cases hw
  · intro hw
    cases hw
  · exact fun _ => ⟨rfl, rfl⟩

theorem erase_eq_nil {p : Part} {parts : List Part} (h : parts.length ≤ 1) (hp : p ∈ parts) :
    parts.erase p = [] := by
  have hlength := List.length_erase_of_mem hp
  apply List.eq_nil_of_length_eq_zero
  omega

theorem nil_of_length {parts : List Part} (h : parts.length ≤ 0) : parts = [] :=
  List.eq_nil_of_length_eq_zero (Nat.le_zero.mp h)

theorem Quiet.sound (h : Quiet s) : Sound s := by
  obtain ⟨ht, ha, hs, he⟩ := h
  constructor
  · simp [ht, ha, hs, he]
  · intro t hmem
    rw [ht] at hmem
    cases hmem
  · intro w hmem
    rw [hs] at hmem
    cases hmem
  · intro _
    simp [ht, ha, hs, he]
  · exact fun _ => ⟨ht, hs⟩

theorem watching_of_goes_on (h : ¬ (!s.watching || s.locked) = true) : s.watching = true := by
  simp only [Bool.or_eq_true, Bool.not_eq_true', not_or, Bool.not_eq_false] at h
  exact h.1

/-- A loop that is alone may make its next attempt. -/
theorem sound_connect (h : Quiet s) (hloop : s.watching = true → loop = s.generation) :
    Sound (connect s loop) := by
  obtain ⟨ht, ha, hs, he⟩ := id h
  unfold connect
  by_cases hstop : !s.watching || s.locked
  · rw [if_pos hstop]
    exact h.sound
  · rw [if_neg hstop]
    have hw := watching_of_goes_on hstop
    constructor
    · simp [ht, ha, hs, he]
    · intro t hmem
      rw [ht] at hmem
      cases hmem
    · intro w hmem
      rw [hs] at hmem
      cases hmem
    · intro _
      simp [ht, ha, hs, he, hloop hw]
    · exact fun _ => ⟨ht, hs⟩

theorem sound_rearm (h : Quiet s) (hloop : s.watching = true → loop = s.generation) :
    Sound (rearm s loop) := by
  obtain ⟨ht, ha, hs, he⟩ := id h
  unfold rearm
  by_cases hw : s.watching = true
  · rw [if_pos hw]
    constructor
    · simp [ht, ha, hs, he]
    · intro t hmem
      simp only [ht, List.nil_append, List.mem_singleton] at hmem
      rw [hmem]
    · intro w hmem
      rw [hs] at hmem
      cases hmem
    · intro _
      simp [ht, ha, hs, he, hloop hw]
    · intro hstop
      rw [hw] at hstop
      cases hstop
  · rw [if_neg hw]
    exact h.sound

theorem sound_open (h : Quiet s) (hw : s.watching = true) (hloop : loop = s.generation) :
    Sound { s with
      socket := some s.made
      sockets := s.sockets ++ [⟨s.made, loop⟩]
      made := s.made + 1 } := by
  obtain ⟨ht, ha, hs, he⟩ := h
  constructor
  · simp [ht, ha, hs, he]
  · intro t hmem
    rw [ht] at hmem
    cases hmem
  · intro w hmem
    simp only [hs, List.nil_append, List.mem_singleton] at hmem
    rw [hmem]
  · intro _
    simp [ht, ha, hs, he, hloop]
  · intro hstop
    rw [hw] at hstop
    cases hstop

theorem sound_watch (h : Sound s) (hc : Careful s .watch) : Sound (watch s) := by
  unfold watch
  by_cases hd : s.direct = true
  · rw [if_pos hd]
    exact h
  · rw [if_neg hd]
    by_cases hw : s.watching = true
    · rw [if_pos hw]
      exact h
    · rw [if_neg hw]
      obtain hwatching | hdirect | ⟨ha, hs, he⟩ := hc rfl
      · exact absurd hwatching hw
      · exact absurd hdirect hd
      · have ht := (h.stopped (Bool.eq_false_iff.mpr hw)).1
        exact sound_connect ⟨ht, ha, hs, he⟩ fun _ => rfl

theorem sound_token (h : Sound s) {a : Part} (ha : a ∈ s.attempts) (token : Token) :
    Sound (afterToken s a token) := by
  have hparts := h.parts
  have hpos := List.length_pos_of_mem ha
  have htimers : s.timers = [] := nil_of_length (by omega)
  have hsockets : s.sockets = [] := nil_of_length (by omega)
  have hending : s.ending = [] := nil_of_length (by omega)
  have hq : Quiet { s with attempts := s.attempts.erase a } :=
    ⟨htimers, erase_eq_nil (by omega) ha, hsockets, hending⟩
  have hloop (hw : s.watching = true) : a.loop = s.generation := (h.loops hw).2.1 a ha
  cases token with
  | failed => exact sound_rearm hq hloop
  | opens =>
    simp only [afterToken]
    by_cases hstop : !s.watching || s.locked
    · rw [if_pos hstop]
      exact hq.sound
    · rw [if_neg hstop]
      have hw := watching_of_goes_on hstop
      exact sound_open hq hw (hloop hw)
  | throws =>
    simp only [afterToken]
    by_cases hstop : !s.watching || s.locked
    · rw [if_pos hstop]
      exact hq.sound
    · rw [if_neg hstop]
      exact sound_rearm hq hloop

theorem sound_timer (h : Sound s) {t : Part} (ht : t ∈ s.timers) :
    Sound (connect { s with timers := s.timers.erase t } t.loop) := by
  have hparts := h.parts
  have hpos := List.length_pos_of_mem ht
  have hattempts : s.attempts = [] := nil_of_length (by omega)
  have hsockets : s.sockets = [] := nil_of_length (by omega)
  have hending : s.ending = [] := nil_of_length (by omega)
  have hq : Quiet { s with timers := s.timers.erase t } :=
    ⟨erase_eq_nil (by omega) ht, hattempts, hsockets, hending⟩
  exact sound_connect hq fun hw => (h.loops hw).1 t ht

theorem sound_closed (h : Sound s) {w : Part} (hw : w ∈ s.sockets ∨ w ∈ s.ending) :
    Sound (closed s w) := by
  have hparts := h.parts
  obtain hs | he := hw
  · have hpos := List.length_pos_of_mem hs
    have htimers : s.timers = [] := nil_of_length (by omega)
    have hattempts : s.attempts = [] := nil_of_length (by omega)
    have hending : s.ending = [] := nil_of_length (by omega)
    refine sound_rearm ⟨htimers, hattempts, erase_eq_nil (by omega) hs, ?_⟩ fun hwatch =>
      (h.loops hwatch).2.2.1 w hs
    simp [hending]
  · have hpos := List.length_pos_of_mem he
    have htimers : s.timers = [] := nil_of_length (by omega)
    have hattempts : s.attempts = [] := nil_of_length (by omega)
    have hsockets : s.sockets = [] := nil_of_length (by omega)
    refine sound_rearm ⟨htimers, hattempts, ?_, erase_eq_nil (by omega) he⟩ fun hwatch => ?_
    · simp [hsockets]
    -- a socket that is closing excludes a loop of this session
    · rw [(h.loops hwatch).2.2.2] at he
      cases he

theorem sound_next (h : Sound s) (he : (system.Within Careful).Enabled s e) :
    Sound (next s e) := by
  obtain ⟨hen, hc⟩ := he
  cases e with
  | watch => exact sound_watch h hc
  | stopEvents => exact sound_stopEvents h
  | clearSession =>
    -- only the events' end matters: the loops of the older generation are stopped
    have hstop := sound_stopEvents h
    have hloops (hw : (clearSession s).watching = true) : False := Bool.false_ne_true hw
    exact ⟨hstop.parts, hstop.timer, hstop.socket, fun hw => (hloops hw).elim, hstop.stopped⟩
  | token a token => exact sound_token h hen token
  | timer t => exact sound_timer h hen
  | opened w => exact h
  | failed w => exact h
  | closed w => exact sound_closed h hen
  | setLocked locked => exact ⟨h.parts, h.timer, h.socket, h.loops, h.stopped⟩
  | setDirect direct => exact ⟨h.parts, h.timer, h.socket, h.loops, h.stopped⟩

theorem reachable_sound (h : Reachable (system.Within Careful) s) : Sound s := by
  refine reachable_invariant ?_ (fun s e hs he => sound_next hs he) h
  rintro s ⟨locked, direct, rfl⟩
  exact sound_initial locked direct

theorem Sound.single (h : Sound s) : Single s := by
  intro _
  have hparts := h.parts
  unfold live
  omega

/-- What a stale event finds is a client that no longer watches. -/
theorem Sound.not_watching (h : Sound s) (he : Enabled s e) (hs : Stale s e) :
    s.watching = false := by
  by_contra hw
  obtain ⟨htimers, hattempts, hsockets, hending⟩ := h.loops (Bool.not_eq_false _ ▸ hw)
  cases e with
  | token a token => exact absurd (hattempts a he) (Nat.ne_of_lt hs)
  | timer t => exact absurd (htimers t he) (Nat.ne_of_lt hs)
  | closed w =>
    obtain hopen | hend := he
    · exact absurd (hsockets w hopen) (Nat.ne_of_lt hs)
    · rw [hending] at hend
      cases hend
  | _ => exact hs

theorem Sound.inert (h : Sound s) (he : Enabled s e) (hs : Stale s e) : Inert s e := by
  have hw := h.not_watching he hs
  cases e with
  | token a token => cases token <;> simp [Inert, next, afterToken, rearm, hw]
  | timer t => simp [Inert, next, connect, hw]
  | closed w => simp [Inert, next, closed, rearm, hw]
  | _ => exact hs.elim

/-- A loop that starts beside an attempt or a closing socket of an earlier one makes two. -/
theorem double_of_careless (h : Sound s) (hc : ¬ Careful s .watch) (hl : s.locked = false) :
    ∃ es, system.Valid s (.watch :: es) ∧ ¬ Single (system.replay s (.watch :: es)) := by
  unfold Careful at hc
  push Not at hc
  obtain ⟨-, hw, hd, hleft⟩ := hc
  have hw : s.watching = false := Bool.eq_false_iff.mpr hw
  have hd : s.direct = false := Bool.eq_false_iff.mpr hd
  obtain ⟨-, hsockets⟩ := h.stopped hw
  have hwatch : watch s = { s with
      watching := true
      attempts := s.attempts ++ [⟨s.made, s.generation⟩]
      made := s.made + 1 } := by
    simp [watch, connect, hw, hd, hl]
  by_cases hattempts : s.attempts = []
  · obtain ⟨w, hmem⟩ := List.exists_mem_of_ne_nil _ (hleft hattempts hsockets)
    -- its close event finds the client watching again
    refine ⟨[.closed w], ⟨trivial, ?_, trivial⟩, ?_⟩
    · change Enabled (watch s) (.closed w)
      rw [hwatch]
      exact .inr hmem
    · change ¬ Single (closed (watch s) w)
      rw [hwatch]
      simp [closed, rearm, Single, live]
      omega
  · refine ⟨[], ⟨trivial, trivial⟩, ?_⟩
    change ¬ Single (watch s)
    rw [hwatch]
    have hpos := List.length_pos_iff.mpr hattempts
    simp [Single, live]
    omega

/-- In a run whose every `watch` finds nothing of an earlier loop left there is one event
connection, and nothing of a cleared session acts again; a `watch` that does find something has a
continuation with two. -/
theorem single_when_careful {s : State} (h : Reachable (system.Within Careful) s) :
    (Single s ∧ ∀ e, Enabled s e → Stale s e → Inert s e) ∧
    (¬ Careful s .watch → s.locked = false →
      ∃ es, system.Valid s (.watch :: es) ∧ ¬ Single (system.replay s (.watch :: es))) := by
  have hsound := reachable_sound h
  refine ⟨⟨hsound.single, ?_⟩, ?_⟩
  · intro e he hs
    exact hsound.inert he hs
  · intro hc hl
    exact double_of_careless hsound hc hl

def patient : List Event :=
  [.watch, .token ⟨0, 0⟩ .opens, .clearSession, .closed ⟨1, 0⟩, .watch, .token ⟨2, 1⟩ .failed]

/-- The old socket has closed before `watch` is called again. -/
theorem patient_single :
    live (system.replay (initial false false) patient) = 1 ∧
    Single (system.replay (initial false false) patient) := by
  have hvalid : (system.Within Careful).Valid (initial false false) patient := by
    simp only [patient, System.Valid, System.Within, system]
    decide
  have hreach : Reachable (system.Within Careful)
      ((system.Within Careful).replay (initial false false) patient) :=
    valid_trace_reachable (reachable_initial ⟨false, false, rfl⟩) hvalid
  exact ⟨by decide, (single_when_careful hreach).1.1⟩

def quick : List Event := [.watch, .clearSession, .watch]

/-- The attempt of the cleared session fails for its generation, and schedules a timer beside the
new session's attempt. -/
theorem quick_doubled :
    system.Valid (initial false false) (quick ++ [.token ⟨0, 0⟩ .failed]) ∧
    Stale (system.replay (initial false false) quick) (.token ⟨0, 0⟩ .failed) ∧
    ¬ Inert (system.replay (initial false false) quick) (.token ⟨0, 0⟩ .failed) ∧
    ¬ Single (system.replay (initial false false) (quick ++ [.token ⟨0, 0⟩ .failed])) := by
  simp only [quick, List.cons_append, List.nil_append, System.Valid, System.replay, system]
  decide

end Steps

end EventConnection
