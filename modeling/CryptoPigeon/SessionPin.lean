import CryptoPigeon.SlidingWindow
import CryptoPigeon.TransitionSystem
import Mathlib.Algebra.Order.Ring.Int

/-! # The session PIN

An open vault can be put behind a four-digit PIN without being locked. Both clients count the
wrong PINs in the memory of the process, across vaults; the fifth one keeps the handler shut for
30 seconds. A right PIN starts the count again, and so does a new process, whose vault is locked.
`sha256` is the digest of a salt and the PIN after it. `wrong` is history: the times of the wrong
PINs since either. -/
namespace SessionPin

open SlidingWindow TransitionSystem

inductive Client where
  | desktop
  | android
  deriving DecidableEq, Repr

abbrev Bytes := List UInt8

/-- The row of `session_pin`. -/
structure Pin where
  salt : Bytes
  digest : Bytes
  deriving DecidableEq, Repr

/-- `vault` holds the row of the vault that is open. -/
structure Process where
  vault : Option (Option Pin)
  quickLocked : Bool
  pinFailures : Nat
  pinRetryAt : Int
  deriving DecidableEq, Repr

/-- The calls of the local API that have passed the session check; `other` stands for the routes
that neither open, lock nor unlock. -/
inductive Call where
  | unlock (pin : List Char)
  | setPin (pin : List Char) (salt : Bytes)
  | lockSession
  | lockVault
  | status
  | openVault (row : Option Pin)
  | other
  deriving DecidableEq, Repr

inductive Answer where
  | ok
  | vaultLocked
  | sessionPinRequired
  | pinRetryLater
  | invalidSessionPin
  | fourDigitPinRequired
  | setSessionPinFirst
  deriving DecidableEq, Repr

/-- `[0-9]{4}` over the whole text. -/
def fourDigits (pin : List Char) : Bool :=
  pin.length == 4 && pin.all fun c => '0' ≤ c && c ≤ '9'

/-- Android also wants the digits here. -/
def matchesPin (client : Client) (sha256 : Bytes → List Char → Bytes) (row : Option Pin)
    (pin : List Char) : Bool :=
  (client == .desktop || fourDigits pin) &&
    row.any fun r => r.digest == sha256 r.salt pin

def reject (now : Int) (p : Process) : Process :=
  if 5 ≤ p.pinFailures + 1 then { p with pinRetryAt := now + 30000, pinFailures := 0 }
  else { p with pinFailures := p.pinFailures + 1 }

/-- `POST /api/session/unlock`, which reads the clock a second time when it shuts. The desktop
asks for an open vault first. -/
def unlock (client : Client) (sha256 : Bytes → List Char → Bytes) (pin : List Char)
    (now later : Int) (p : Process) : Answer × Process :=
  match p.vault with
  | none => (if client = .android ∧ now < p.pinRetryAt then .pinRetryLater else .vaultLocked, p)
  | some row =>
    if now < p.pinRetryAt then (.pinRetryLater, p)
    else if matchesPin client sha256 row pin then
      (.ok, { p with quickLocked := false, pinFailures := 0 })
    else (.invalidSessionPin, reject later p)

/-- `POST /api/session/pin` -/
def setPin (sha256 : Bytes → List Char → Bytes) (pin : List Char) (salt : Bytes) (p : Process) :
    Answer × Process :=
  if fourDigits pin then (.ok, { p with vault := some (some ⟨salt, sha256 salt pin⟩) })
  else (.fourDigitPinRequired, p)

/-- `POST /api/session/lock` -/
def lockSession (row : Option Pin) (p : Process) : Answer × Process :=
  if row.isSome then (.ok, { p with quickLocked := true }) else (.setSessionPinFirst, p)

/-- The calls that a quick lock lets through. -/
def Call.passes : Call → Bool
  | .unlock _ | .lockVault | .status => true
  | .setPin .. | .lockSession | .openVault _ | .other => false

def handle (client : Client) (sha256 : Bytes → List Char → Bytes) (c : Call) (now later : Int)
    (p : Process) : Answer × Process :=
  if p.quickLocked && !c.passes then (.sessionPinRequired, p)
  else match c, p.vault with
    | .unlock pin, _ => unlock client sha256 pin now later p
    | .status, _ => (.ok, p)
    | .openVault row, _ => (.ok, { p with vault := some row, quickLocked := false })
    | _, none => (.vaultLocked, p)
    | .setPin pin salt, some _ => setPin sha256 pin salt p
    | .lockSession, some row => lockSession row p
    | .lockVault, some _ => (.ok, { p with vault := none, quickLocked := false })
    | .other, some _ => (.ok, p)

structure State where
  now : Int
  process : Process
  wrong : List Int
  deriving DecidableEq, Repr

inductive Event where
  | call (c : Call) (now later : Int)
  | restart
  deriving DecidableEq, Repr

def Enabled (s : State) : Event → Prop
  | .call _ now later => s.now ≤ now ∧ now ≤ later
  | .restart => True

def started : Process := ⟨none, false, 0, 0⟩

def Call.isUnlock : Call → Bool
  | .unlock _ => true
  | _ => false

/-- The wrong PINs once a call has been answered. -/
def counted (c : Call) (now : Int) (wrong : List Int) : Answer → List Int
  | .invalidSessionPin => wrong ++ [now]
  | .ok => if c.isUnlock then [] else wrong
  | _ => wrong

def next (client : Client) (sha256 : Bytes → List Char → Bytes) (s : State) : Event → State
  | .call c now later =>
    let r := handle client sha256 c now later s.process
    ⟨later, r.2, counted c now s.wrong r.1⟩
  | .restart => ⟨s.now, started, []⟩

def Initial (s : State) : Prop := s.process = started ∧ s.wrong = []

def system (client : Client) (sha256 : Bytes → List Char → Bytes) : System State Event :=
  ⟨Initial, Enabled, next client sha256⟩

/-- The time between the first and the last of a log. -/
def elapsed (log : List Int) : Int := (log.getLast?.getD 0) - (log.head?.getD 0)

/-- The wrong PINs up to the one that shut the handler, and those since. -/
structure Invariant (s : State) : Prop where
  admitted : Admitted 30000 5 s.wrong
  past : ∀ t ∈ s.wrong, t ≤ s.now
  recent : ∃ shut since, s.wrong = shut ++ since ∧ since.length = s.process.pinFailures ∧
    since.length < 5 ∧ ∀ t ∈ shut, t + 30000 ≤ s.process.pinRetryAt

variable (client : Client) (sha256 : Bytes → List Char → Bytes) (p : Process) (now later : Int)

theorem unlock_cases (pin : List Char) :
    let r := unlock client sha256 pin now later p
    (r = (.invalidSessionPin, reject later p) ∧ p.pinRetryAt ≤ now) ∨
    (r.1 = .ok ∧ r.2.pinFailures = 0 ∧ r.2.pinRetryAt = p.pinRetryAt) ∨
    ((r.1 = .pinRetryLater ∨ r.1 = .vaultLocked) ∧ r.2 = p) := by
  unfold unlock
  cases p.vault with
  | none => by_cases h : client = .android ∧ now < p.pinRetryAt <;> simp [h]
  | some row =>
    by_cases hnow : now < p.pinRetryAt
    · simp [hnow]
    · by_cases hpin : matchesPin client sha256 row pin
      · simp [hnow, hpin]
      · simp [hnow, hpin, not_lt.mp hnow]

/-- What a call can do to the counter. -/
theorem handle_cases (c : Call) (wrong : List Int) :
    let r := handle client sha256 c now later p
    (r = (.invalidSessionPin, reject later p) ∧ p.pinRetryAt ≤ now) ∨
    (counted c now wrong r.1 = [] ∧ r.2.pinFailures = 0 ∧ r.2.pinRetryAt = p.pinRetryAt) ∨
    (counted c now wrong r.1 = wrong ∧ r.2.pinFailures = p.pinFailures ∧
      r.2.pinRetryAt = p.pinRetryAt) := by
  unfold handle
  by_cases hgate : p.quickLocked && !c.passes
  · simp [hgate, counted]
  · rw [if_neg hgate]
    cases c with
    | unlock pin =>
      rcases unlock_cases client sha256 p now later pin with
        h | ⟨hok, hzero, hretry⟩ | ⟨hrefused, hsame⟩
      · exact .inl h
      · exact .inr (.inl ⟨by simp [hok, counted, Call.isUnlock], hzero, hretry⟩)
      · refine .inr (.inr ⟨?_, by rw [hsame], by rw [hsame]⟩)
        rcases hrefused with h | h <;> simp [h, counted]
    | setPin pin salt =>
      cases p.vault with
      | none => simp [counted]
      | some row => by_cases h : fourDigits pin <;> simp [setPin, h, counted, Call.isUnlock]
    | lockSession =>
      cases p.vault with
      | none => simp [counted]
      | some row => cases row <;> simp [lockSession, counted, Call.isUnlock]
    | lockVault => cases p.vault <;> simp [counted, Call.isUnlock]
    | status => simp [counted, Call.isUnlock]
    | openVault row => simp [counted, Call.isUnlock]
    | other => cases p.vault <;> simp [counted, Call.isUnlock]

variable {client sha256 now later} {s : State}

theorem initial_invariant (h : Initial s) : Invariant s := by
  obtain ⟨hprocess, hwrong⟩ := h
  refine ⟨by rw [hwrong]; exact .nil, by simp [hwrong], [], [], ?_⟩
  simp [hwrong, hprocess, started]

/-- A wrong PIN is one of the fewer than five since the handler was last shut. -/
theorem Invariant.room (h : Invariant s) (hnow : s.process.pinRetryAt ≤ now) :
    (window 30000 now s.wrong).length < 5 := by
  obtain ⟨shut, since, hwrong, -, hfew, hshut⟩ := h.recent
  have hnone : window 30000 now shut = [] := by
    refine List.filter_eq_nil_iff.mpr fun t ht => ?_
    have := hshut t ht
    simp only [decide_eq_true_eq]
    omega
  rw [hwrong, window_append, hnone, List.nil_append]
  exact lt_of_le_of_lt (List.length_filter_le ..) hfew

theorem Invariant.rejected (h : Invariant s) (hclock : s.now ≤ now) (hlater : now ≤ later)
    (hnow : s.process.pinRetryAt ≤ now) :
    Invariant ⟨later, reject later s.process, s.wrong ++ [now]⟩ := by
  have hpast : ∀ t ∈ s.wrong, t ≤ now := fun t ht => (h.past t ht).trans hclock
  refine ⟨h.admitted.push hpast (h.room hnow), fun t ht => ?_, ?_⟩
  · rcases List.mem_append.mp ht with ht | ht
    · exact (hpast t ht).trans hlater
    · exact (List.mem_singleton.mp ht).le.trans hlater
  · obtain ⟨shut, since, hwrong, hcount, hfew, hshut⟩ := h.recent
    unfold reject
    by_cases hfifth : 5 ≤ s.process.pinFailures + 1
    · -- the fifth: everything so far is behind the new time
      refine ⟨s.wrong ++ [now], [], by simp, by simp [hfifth], by simp, fun t ht => ?_⟩
      simp only [hfifth, if_true]
      rcases List.mem_append.mp ht with ht | ht
      · have := hpast t ht
        omega
      · rw [List.mem_singleton.mp ht]
        omega
    · refine ⟨shut, since ++ [now], by simp [hwrong], by simp [hfifth, hcount], ?_, ?_⟩
      · rw [List.length_append, List.length_singleton]
        omega
      · simpa [hfifth] using hshut

theorem step_preserves_invariant (s : State) (e : Event) (h : Invariant s) (he : Enabled s e) :
    Invariant (next client sha256 s e) := by
  cases e with
  | call c now later =>
    obtain ⟨hclock, hlater⟩ := he
    unfold next
    rcases handle_cases client sha256 s.process now later c s.wrong with
      ⟨hr, hnow⟩ | ⟨hwrong, hzero, -⟩ | ⟨hwrong, hcount, hretry⟩
    · simpa only [hr, counted] using h.rejected hclock hlater hnow
    · simp only [hwrong]
      exact ⟨.nil, by simp, [], [], by simp [hzero]⟩
    · simp only [hwrong]
      refine ⟨h.admitted, fun t ht => (h.past t ht).trans (hclock.trans hlater), ?_⟩
      simpa only [hcount, hretry] using h.recent
  | restart => exact ⟨.nil, by simp [next], [], [], by simp [next, started]⟩

theorem reachable_satisfies_invariant (h : Reachable (system client sha256) s) : Invariant s :=
  reachable_invariant (fun _ => initial_invariant) step_preserves_invariant h

section Run

def salt : Bytes := List.replicate 32 0

def zeros : List Char := ['0', '0', '0', '0']

def ones : List Char := ['1', '1', '1', '1']

/-- SHA-256 where the run below takes it. -/
def sha256OfRun (_ : Bytes) (pin : List Char) : Bytes :=
  if pin = zeros then
    [40, 2, 107, 15, 229, 113, 23, 192, 186, 107, 15, 135, 217, 229, 229, 68, 26, 167, 247, 56,
      79, 210, 50, 245, 102, 137, 63, 50, 207, 27, 9, 247]
  else
    [162, 246, 12, 233, 188, 84, 14, 104, 25, 173, 165, 177, 52, 176, 155, 241, 10, 82, 101, 83,
      119, 48, 60, 89, 83, 108, 53, 249, 233, 227, 253, 121]

/-- Five wrong PINs within 4 ms, a sixth that is not looked at, and one 30 seconds later. -/
def guesses : List Event :=
  [.call (.openVault none) 1 1, .call (.setPin zeros salt) 2 2, .call .lockSession 3 3,
    .call (.unlock ones) 4 4, .call (.unlock ones) 5 5, .call (.unlock ones) 6 6,
    .call (.unlock ones) 7 7, .call (.unlock ones) 8 8, .call (.unlock ones) 9 9,
    .call (.unlock ones) 30008 30008]

def off : State := ⟨0, started, []⟩

def guessed : State := (system .desktop sha256OfRun).replay off guesses

theorem guessed_reachable : Reachable (system .desktop sha256OfRun) guessed :=
  valid_trace_reachable (reachable_initial ⟨rfl, rfl⟩)
    (by simp [guesses, System.Valid, system, Enabled, next, off])

end Run

end SessionPin
