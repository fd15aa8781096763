import CryptoPigeon.TorControl
import CryptoPigeon.TransitionSystem
import Mathlib.Tactic.Linarith

/-! # Negotiating a connection through Tor's SOCKS proxy

`socksConnect` as the event loop runs it: listeners that append to the buffer and wake the pending
`read`, and reactions that run later. `read` throws only when it has too few bytes and the
connection has failed or closed. A connection that was handed over delivers to the HTTP client.
`arrived` is history: every byte the proxy has sent, in order. -/
namespace SocksConnect

open TransitionSystem

abbrev Bytes := List UInt8

/-- `/^[a-z2-7]{56}\.onion$/`. -/
def onionPattern (host : String) : Bool :=
  let name := host.toList
  name.length == 62 && (name.take 56).all TorControl.isOnionDigit && name.drop 56 == ".onion".toList

/-- The reads of the negotiation; `rest` has the length of the address, before the port. -/
inductive Read where
  | hello
  | head
  | domain
  | rest (length : Nat)
  deriving DecidableEq, Repr

def Read.need : Read → Nat
  | .hello => 2
  | .head => 4
  | .domain => 1
  | .rest length => length + 2

/-- Where the call is: the TCP connection, a read without enough bytes, its waiter resolved, a
read that has returned or thrown and whose caller has not run yet, or the end. -/
inductive Stage where
  | connecting
  | waiting (read : Read)
  | woken (read : Read)
  | returned (read : Read) (bytes : Bytes)
  | threw (code : String)
  | connected
  | rejected (code : String)
  deriving DecidableEq, Repr

structure State where
  host : String
  port : Nat
  stage : Stage
  opened : Bool
  buffered : Bytes
  failure : Option String
  written : List Bytes
  destroyed : Bool
  delivered : Bytes
  arrived : Bytes
  deriving DecidableEq, Repr

/-- The call itself, up to its first `await`. -/
def socksConnect (host : String) (port : Nat) : State where
  host := host
  port := port
  stage := if onionPattern host then .connecting else .rejected "ONION_REQUIRED"
  opened := onionPattern host
  buffered := []
  failure := none
  written := []
  destroyed := false
  delivered := []
  arrived := []

/-- `read(n)` until it returns, throws or waits. -/
def read (s : State) (r : Read) : State :=
  if s.buffered.length < r.need then
    match s.failure with
    | some code => { s with stage := .threw code }
    | none => { s with stage := .waiting r }
  else
    { s with
      stage := .returned r (s.buffered.take r.need)
      buffered := s.buffered.drop r.need }

/-- The name as the domain of the request: the proxy resolves it. -/
def request (s : State) : Bytes :=
  let name := s.host.toList.map fun c => c.toNat.toUInt8
  [5, 1, 0, 3, name.length.toUInt8] ++ name ++ [(s.port / 256).toUInt8, s.port.toUInt8]

/-- The `catch` of the negotiation. -/
def reject (s : State) (code : String) : State :=
  { s with stage := .rejected code, destroyed := true }

/-- What follows a read. -/
def proceed (s : State) : Read → Bytes → State
  | .hello, hello =>
    if hello.getD 0 0 ≠ 5 ∨ hello.getD 1 0 ≠ 0 then reject s "SOCKS_AUTH_FAILED"
    else read { s with written := s.written ++ [request s] } .head
  | .head, head =>
    if head.getD 0 0 ≠ 5 ∨ head.getD 1 0 ≠ 0 then reject s "TOR_PEER_OFFLINE"
    else if head.getD 3 0 = 1 then read s (.rest 4)
    else if head.getD 3 0 = 4 then read s (.rest 16)
    else if head.getD 3 0 = 3 then read s .domain
    else reject s "SOCKS_INVALID"
  | .domain, length => read s (.rest (length.getD 0 0).toNat)
  | .rest _, _ => { s with stage := .connected, delivered := s.buffered }

inductive Event where
  /-- The TCP connection to the proxy is there, or fails with a code. -/
  | connect (error : Option String)
  | data (bytes : Bytes)
  | fail (code : String)
  /-- A resolved promise's reaction runs. -/
  | react
  deriving DecidableEq, Repr

/-- Before the handover the listeners are on the socket; a failed one sends nothing more. -/
def listening : Stage → Bool
  | .waiting _ | .woken _ | .returned _ _ | .threw _ => true
  | .connecting | .connected | .rejected _ => false

def reacting : Stage → Bool
  | .woken _ | .returned _ _ | .threw _ => true
  | .connecting | .waiting _ | .connected | .rejected _ => false

def Enabled (s : State) : Event → Prop
  | .connect _ => s.stage = .connecting
  | .data _ => (listening s.stage = true ∨ s.stage = .connected) ∧ s.failure = none
  | .fail _ => listening s.stage = true ∨ s.stage = .connected
  | .react => reacting s.stage = true

instance (s : State) (e : Event) : Decidable (Enabled s e) := by
  cases e <;> unfold Enabled <;> infer_instance

/-- `readWaiter?.()`. -/
def wake : Stage → Stage
  | .waiting r => .woken r
  | stage => stage

def next (s : State) : Event → State
  | .connect none => read { s with written := [[5, 1, 0]] } .hello
  | .connect (some code) => reject s code
  | .data bytes =>
    if s.stage = .connected then
      { s with delivered := s.delivered ++ bytes, arrived := s.arrived ++ bytes }
    else
      { s with
        buffered := s.buffered ++ bytes
        arrived := s.arrived ++ bytes
        stage := wake s.stage }
  | .fail code => { s with failure := some code, stage := wake s.stage }
  | .react =>
    match s.stage with
    | .woken r => read s r
    | .returned r bytes => proceed s r bytes
    | .threw code => reject s code
    | _ => s

def system (host : String) (port : Nat) : System State Event where
  Initial s := s = socksConnect host port
  Enabled := Enabled
  next := next

/-- A greeting without authentication, then a reply that reports success, with its bound address
and port, and what follows them. -/
inductive Negotiated : Bytes → Bytes → Prop
  | v4 (rsv : UInt8) (address port tail : Bytes) : address.length = 4 → port.length = 2 →
      Negotiated ([5, 0] ++ [5, 0, rsv, 1] ++ address ++ port ++ tail) tail
  | v6 (rsv : UInt8) (address port tail : Bytes) : address.length = 16 → port.length = 2 →
      Negotiated ([5, 0] ++ [5, 0, rsv, 4] ++ address ++ port ++ tail) tail
  | domain (rsv length : UInt8) (name port tail : Bytes) : name.length = length.toNat →
      port.length = 2 → Negotiated ([5, 0] ++ [5, 0, rsv, 3, length] ++ name ++ port ++ tail) tail

/-- The bytes that the reads before this one have taken. -/
inductive Taken : Read → Bytes → Prop
  | hello : Taken .hello []
  | head : Taken .head [5, 0]
  | v4 (rsv : UInt8) : Taken (.rest 4) [5, 0, 5, 0, rsv, 1]
  | v6 (rsv : UInt8) : Taken (.rest 16) [5, 0, 5, 0, rsv, 4]
  | domain (rsv : UInt8) : Taken .domain [5, 0, 5, 0, rsv, 3]
  | name (rsv length : UInt8) : Taken (.rest length.toNat) [5, 0, 5, 0, rsv, 3, length]

section Negotiated

variable {r : Read} {done bytes tail : Bytes}

theorem Negotiated.length_ge (h : Negotiated bytes tail) : 9 ≤ bytes.length := by
  cases h with
  | v4 rsv address port _ haddress hport =>
    simp only [List.length_append, List.length_cons, List.length_nil, haddress, hport]
    omega
  | v6 rsv address port _ haddress hport =>
    simp only [List.length_append, List.length_cons, List.length_nil, haddress, hport]
    omega
  | domain rsv length name port _ hname hport =>
    simp only [List.length_append, List.length_cons, List.length_nil, hport]
    omega

/-- The kind of address and its length are in what the last read has before it. -/
theorem negotiated_need {length : Nat} (h : Taken (.rest length) done)
    (hn : Negotiated (done ++ bytes) tail) : length + 2 ≤ bytes.length := by
  generalize hwhole : done ++ bytes = whole at hn
  have hlen := congrArg List.length hwhole
  cases h with
  | v4 rsv =>
    cases hn with
    | v4 rsv address port _ haddress hport =>
      simp [haddress, hport] at hlen
      omega
    | v6 => simp at hwhole
    | domain => simp at hwhole
  | v6 rsv =>
    cases hn with
    | v4 => simp at hwhole
    | v6 rsv address port _ haddress hport =>
      simp [haddress, hport] at hlen
      omega
    | domain => simp at hwhole
  | name rsv length =>
    cases hn with
    | v4 => simp at hwhole
    | v6 => simp at hwhole
    | domain rsv length' name port _ hname hport =>
      have hlength : length = length' := by
        simp at hwhole
        exact hwhole.2.1
      simp [hname, hport] at hlen
      rw [hlength]
      omega

/-- With too few bytes for the next read there is no whole reply yet. -/
theorem not_negotiated (h : Taken r done) (hshort : bytes.length < r.need) :
    ¬ Negotiated (done ++ bytes) tail := by
  intro hn
  have hlen := hn.length_ge
  rw [List.length_append] at hlen
  cases r with
  | hello =>
    cases h with
    | hello =>
      simp only [Read.need, List.length_nil] at hlen hshort
      omega
  | head =>
    cases h with
    | head =>
      simp only [Read.need, List.length_cons, List.length_nil] at hlen hshort
      omega
  | domain =>
    cases h with
    | domain rsv =>
      simp only [Read.need, List.length_cons, List.length_nil] at hlen hshort
      omega
  | rest length => exact absurd (negotiated_need h hn) (Nat.not_le.mpr hshort)

/-- The last read ends the reply. -/
theorem negotiated_rest {length : Nat} (h : Taken (.rest length) done)
    (hlen : bytes.length = length + 2) : Negotiated (done ++ bytes ++ tail) tail := by
  have hsplit : bytes = bytes.take length ++ bytes.drop length := (List.take_append_drop _ _).symm
  have haddress : (bytes.take length).length = length := by simp [hlen]
  have hport : (bytes.drop length).length = 2 := by simp [hlen]
  rw [hsplit]
  cases h with
  | v4 rsv => simpa using Negotiated.v4 rsv _ _ tail haddress hport
  | v6 rsv => simpa using Negotiated.v6 rsv _ _ tail haddress hport
  | name rsv length => simpa using Negotiated.domain rsv length _ _ tail haddress hport

theorem Negotiated.append (h : Negotiated bytes tail) (more : Bytes) :
    Negotiated (bytes ++ more) (tail ++ more) := by
  cases h with
  | v4 rsv address port _ ha hp => simpa using Negotiated.v4 rsv address port (tail ++ more) ha hp
  | v6 rsv address port _ ha hp => simpa using Negotiated.v6 rsv address port (tail ++ more) ha hp
  | domain rsv length name port _ hn hp =>
    simpa using Negotiated.domain rsv length name port (tail ++ more) hn hp

/-- The front of every negotiated stream. -/
theorem negotiated_front (h : Negotiated bytes tail) : ∃ rsv atyp rest,
    bytes = [5, 0, 5, 0, rsv, atyp] ++ rest ∧ (atyp = 1 ∨ atyp = 4 ∨ atyp = 3) := by
  cases h with
  | v4 rsv address port _ _ _ => exact ⟨rsv, 1, address ++ port ++ tail, by simp, .inl rfl⟩
  | v6 rsv address port _ _ _ => exact ⟨rsv, 4, address ++ port ++ tail, by simp, .inr (.inl rfl)⟩
  | domain rsv length name port _ _ _ =>
    exact ⟨rsv, 3, length :: (name ++ port ++ tail), by simp, .inr (.inr rfl)⟩

theorem not_negotiated_nil : ¬ Negotiated [] tail := by
  intro h
  obtain ⟨rsv, atyp, rest, hfront, -⟩ := negotiated_front h
  cases hfront

theorem list_two (h : bytes.length = 2) : bytes = [bytes.getD 0 0, bytes.getD 1 0] := by
  match bytes, h with
  | [a, b], _ => rfl

theorem list_four (h : bytes.length = 4) :
    bytes = [bytes.getD 0 0, bytes.getD 1 0, bytes.getD 2 0, bytes.getD 3 0] := by
  match bytes, h with
  | [a, b, c, d], _ => rfl

/-- Where the reply of a negotiated stream ends. -/
def replyEnd (bytes : Bytes) : Nat :=
  if bytes.getD 5 0 = 1 then 12
  else if bytes.getD 5 0 = 4 then 24
  else 9 + (bytes.getD 6 0).toNat

theorem drop_front {front : Bytes} {n : Nat} (h : front.length = n) :
    (front ++ tail).drop n = tail := by
  rw [← h, List.drop_left]

theorem negotiated_drop (h : Negotiated bytes tail) : bytes.drop (replyEnd bytes) = tail := by
  cases h with
  | v4 rsv address port _ ha hp => exact drop_front (by simp [replyEnd, ha, hp])
  | v6 rsv address port _ ha hp => exact drop_front (by simp [replyEnd, ha, hp])
  | domain rsv length name port _ hn hp => exact drop_front (by simp [replyEnd, hn, hp]; omega)

/-- There is only one place where the reply ends. -/
theorem negotiated_unique {tail' : Bytes} (h : Negotiated bytes tail)
    (h' : Negotiated bytes tail') : tail = tail' :=
  (negotiated_drop h).symm.trans (negotiated_drop h')

end Negotiated

section Steps

variable {s : State} {r : Read} {done bytes : Bytes} {code : String}

/-- What the bytes that have arrived are at each stage. -/
def Consistent (s : State) : Prop :=
  match s.stage with
  | .connecting => s.failure = none ∧ s.buffered = [] ∧ s.arrived = []
  | .waiting r => s.failure = none ∧ s.buffered.length < r.need ∧
      ∃ done, Taken r done ∧ s.arrived = done ++ s.buffered
  | .woken r => ∃ done, Taken r done ∧ s.arrived = done ++ s.buffered
  | .returned r bytes => bytes.length = r.need ∧
      ∃ done, Taken r done ∧ s.arrived = done ++ bytes ++ s.buffered
  | .threw _ => s.failure ≠ none ∧ ∃ r done, Taken r done ∧ s.buffered.length < r.need ∧
      s.arrived = done ++ s.buffered
  | .connected => Negotiated s.arrived s.delivered
  | .rejected _ => (∀ tail, ¬ Negotiated s.arrived tail) ∧
      (s.destroyed = true ∨ s.opened = false ∧ s.failure = none)

theorem consistent_read (ht : Taken r done) (ha : s.arrived = done ++ s.buffered) :
    Consistent (read s r) := by
  unfold read
  split
  · next hshort =>
    split
    · next code hf => exact ⟨by simp [hf], r, done, ht, hshort, ha⟩
    · next hf => exact ⟨hf, hshort, done, ht, ha⟩
  · next hlong =>
    refine ⟨List.length_take_of_le (Nat.not_lt.mp hlong), done, ht, ?_⟩
    rw [List.append_assoc, List.take_append_drop]
    exact ha

theorem consistent_reject (h : ∀ tail, ¬ Negotiated s.arrived tail) : Consistent (reject s code) :=
  ⟨h, .inl rfl⟩

theorem consistent_connected {length : Nat} (ht : Taken (.rest length) done)
    (hlen : bytes.length = length + 2) (ha : s.arrived = done ++ bytes ++ s.buffered) :
    Consistent (proceed s (.rest length) bytes) := by
  have hn : Negotiated s.arrived s.buffered := ha ▸ negotiated_rest ht hlen
  exact hn

theorem consistent_proceed (hlen : bytes.length = r.need) (ht : Taken r done)
    (ha : s.arrived = done ++ bytes ++ s.buffered) : Consistent (proceed s r bytes) := by
  cases ht with
  | hello =>
    have hbytes := list_two hlen
    by_cases hbad : bytes.getD 0 0 ≠ 5 ∨ bytes.getD 1 0 ≠ 0
    · rw [proceed, if_pos hbad]
      refine consistent_reject fun tail hn => ?_
      obtain ⟨rsv, atyp, rest, hfront, -⟩ := negotiated_front hn
      rw [ha, hbytes] at hfront
      simp only [List.nil_append, List.cons_append, List.cons.injEq] at hfront
      rcases hbad with hbad | hbad
      · exact hbad hfront.1
      · exact hbad hfront.2.1
    · obtain ⟨h0, h1⟩ := not_or.mp hbad
      rw [proceed, if_neg hbad]
      refine consistent_read .head ?_
      rw [not_ne_iff.mp h0, not_ne_iff.mp h1] at hbytes
      rw [ha, hbytes]
      rfl
  | head =>
    have hbytes := list_four hlen
    have hfront (tail : Bytes) (hn : Negotiated s.arrived tail) : bytes.getD 0 0 = 5 ∧
        bytes.getD 1 0 = 0 ∧
        (bytes.getD 3 0 = 1 ∨ bytes.getD 3 0 = 4 ∨ bytes.getD 3 0 = 3) := by
      obtain ⟨rsv, atyp, rest, hfront, hatyp⟩ := negotiated_front hn
      rw [ha, hbytes] at hfront
      simp only [List.cons_append, List.nil_append, List.cons.injEq, true_and] at hfront
      exact ⟨hfront.1, hfront.2.1, hfront.2.2.2.1 ▸ hatyp⟩
    by_cases hbad : bytes.getD 0 0 ≠ 5 ∨ bytes.getD 1 0 ≠ 0
    · rw [proceed, if_pos hbad]
      refine consistent_reject fun tail hn => ?_
      obtain ⟨h0, h1, -⟩ := hfront tail hn
      exact hbad.elim (· h0) (· h1)
    · obtain ⟨h0, h1⟩ := not_or.mp hbad
      rw [not_ne_iff.mp h0, not_ne_iff.mp h1] at hbytes
      rw [proceed, if_neg hbad]
      by_cases h1 : bytes.getD 3 0 = 1
      · rw [if_pos h1]
        exact consistent_read (.v4 (bytes.getD 2 0)) (by rw [ha, hbytes, h1]; rfl)
      · rw [if_neg h1]
        by_cases h4 : bytes.getD 3 0 = 4
        · rw [if_pos h4]
          exact consistent_read (.v6 (bytes.getD 2 0)) (by rw [ha, hbytes, h4]; rfl)
        · rw [if_neg h4]
          by_cases h3 : bytes.getD 3 0 = 3
          · rw [if_pos h3]
            exact consistent_read (.domain (bytes.getD 2 0)) (by rw [ha, hbytes, h3]; rfl)
          · rw [if_neg h3]
            refine consistent_reject fun tail hn => ?_
            rcases (hfront tail hn).2.2 with h | h | h
            · exact h1 h
            · exact h4 h
            · exact h3 h
  | domain rsv =>
    match bytes, hlen with
    | [length], _ => exact consistent_read (.name rsv length) ha
  | v4 rsv => exact consistent_connected (.v4 rsv) hlen ha
  | v6 rsv => exact consistent_connected (.v6 rsv) hlen ha
  | name rsv length => exact consistent_connected (.name rsv length) hlen ha

theorem consistent_data (h : Consistent s)
    (he : (listening s.stage = true ∨ s.stage = .connected) ∧ s.failure = none) :
    Consistent (next s (.data bytes)) := by
  obtain ⟨hstage, hf⟩ := he
  unfold Consistent at h
  cases hs : s.stage with
  | connected =>
    rw [hs] at h
    have hn : Negotiated s.arrived s.delivered := h
    simp only [next, hs, if_true, Consistent]
    exact hn.append bytes
  | waiting r =>
    rw [hs] at h
    obtain ⟨-, -, done, ht, ha⟩ := h
    simp only [next, hs, reduceCtorEq, if_false, wake, Consistent]
    exact ⟨done, ht, by rw [ha, List.append_assoc]⟩
  | woken r =>
    rw [hs] at h
    obtain ⟨done, ht, ha⟩ := h
    simp only [next, hs, reduceCtorEq, if_false, wake, Consistent]
    exact ⟨done, ht, by rw [ha, List.append_assoc]⟩
  | returned r taken =>
    rw [hs] at h
    obtain ⟨hlen, done, ht, ha⟩ := h
    simp only [next, hs, reduceCtorEq, if_false, wake, Consistent]
    exact ⟨hlen, done, ht, by rw [ha, List.append_assoc]⟩
  | threw code =>
    rw [hs] at h
    exact absurd hf h.1
  | connecting => simp [hs, listening] at hstage
  | rejected code => simp [hs, listening] at hstage

theorem consistent_fail (h : Consistent s)
    (he : listening s.stage = true ∨ s.stage = .connected) : Consistent (next s (.fail code)) := by
  unfold Consistent at h
  cases hs : s.stage with
  | waiting r =>
    rw [hs] at h
    simp only [next, hs, wake, Consistent]
    exact h.2.2
  | threw code' =>
    rw [hs] at h
    simp only [next, hs, wake, Consistent]
    exact ⟨by simp, h.2⟩
  | connecting => simp [hs, listening] at he
  | rejected code' => simp [hs, listening] at he
  | _ =>
    rw [hs] at h
    simp only [next, hs, wake, Consistent]
    exact h

theorem consistent_react (h : Consistent s) : Consistent (next s .react) := by
  unfold Consistent at h
  cases hs : s.stage with
  | woken r =>
    rw [hs] at h
    obtain ⟨done, ht, ha⟩ := h
    simp only [next, hs]
    exact consistent_read ht ha
  | returned r bytes =>
    rw [hs] at h
    obtain ⟨hlen, done, ht, ha⟩ := h
    simp only [next, hs]
    exact consistent_proceed hlen ht ha
  | threw code =>
    rw [hs] at h
    obtain ⟨-, r, done, ht, hshort, ha⟩ := h
    simp only [next, hs]
    refine consistent_reject fun tail => ?_
    rw [ha]
    exact not_negotiated ht hshort
  | _ =>
    rw [hs] at h
    simp only [next, hs, Consistent]
    exact h

theorem consistent_next {e : Event} (h : Consistent s) (he : Enabled s e) :
    Consistent (next s e) := by
  cases e with
  | data bytes => exact consistent_data h he
  | fail code => exact consistent_fail h he
  | react => exact consistent_react h
  | connect error =>
    have hs : s.stage = .connecting := he
    rw [Consistent, hs] at h
    obtain ⟨-, hbuffered, harrived⟩ := h
    cases error with
    | none => exact consistent_read .hello (by rw [harrived, hbuffered]; rfl)
    | some code =>
      refine consistent_reject fun tail hn => ?_
      rw [harrived] at hn
      exact not_negotiated_nil hn

theorem consistent_reachable {host : String} {port : Nat}
    (h : Reachable (system host port) s) : Consistent s := by
  refine reachable_invariant ?_ (fun s e hs he => consistent_next hs he) h
  rintro s rfl
  unfold Consistent socksConnect
  cases ho : onionPattern host with
  | true => exact ⟨rfl, rfl, rfl⟩
  | false => exact ⟨fun tail => not_negotiated_nil, .inr ⟨rfl, rfl⟩⟩

/-- How many reads are behind a read, at most. -/
def Read.left : Read → Nat
  | .hello => 3
  | .head => 2
  | .domain => 1
  | .rest _ => 0

/-- A bound on the reactions that can follow each other. -/
def rank : Stage → Nat
  | .woken r => 2 * r.left + 2
  | .returned r _ => 2 * r.left + 1
  | .threw _ => 1
  | .connecting | .waiting _ | .connected | .rejected _ => 0

theorem rank_read : rank (read s r).stage ≤ 2 * r.left + 1 := by
  unfold read
  split
  · split
    · exact Nat.le_add_left 1 _
    · exact Nat.zero_le _
  · exact Nat.le_refl _

theorem rank_proceed : rank (proceed s r bytes).stage < 2 * r.left + 1 := by
  cases r with
  | hello =>
    rw [proceed]
    split
    · exact Nat.succ_pos _
    · exact Nat.lt_of_le_of_lt rank_read (by decide)
  | head =>
    rw [proceed]
    split
    · exact Nat.succ_pos _
    · split
      · exact Nat.lt_of_le_of_lt rank_read (by decide)
      · split
        · exact Nat.lt_of_le_of_lt rank_read (by decide)
        · split
          · exact Nat.lt_of_le_of_lt rank_read (by decide)
          · exact Nat.succ_pos _
  | domain => exact Nat.lt_of_le_of_lt rank_read (by simp [Read.left])
  | rest length => exact Nat.succ_pos _

theorem rank_react (he : reacting s.stage = true) : rank (next s .react).stage < rank s.stage := by
  cases hs : s.stage with
  | woken r =>
    simp only [next, hs]
    exact Nat.lt_succ_of_le rank_read
  | returned r bytes =>
    simp only [next, hs]
    exact rank_proceed
  | threw code =>
    simp only [next, hs]
    exact Nat.succ_pos _
  | _ => simp [hs, reacting] at he

/-- Reactions come to an end: the call then waits for the proxy, or is over. -/
theorem reactions_end (host : String) (port : Nat) (s : State) : ∃ n,
    reacting ((system host port).replay s (List.replicate n .react)).stage = false := by
  induction hn : rank s.stage using Nat.strongRecOn generalizing s with
  | ind n ih =>
    cases he : reacting s.stage with
    | false => exact ⟨0, he⟩
    | true =>
      obtain ⟨m, hm⟩ := ih _ (hn ▸ rank_react he) (next s .react) rfl
      exact ⟨m + 1, hm⟩

/-- A name that is no onion name is refused before anything is opened. -/
theorem clearnet_refused {host : String} {port : Nat} (ho : onionPattern host = false)
    (h : Reachable (system host port) s) : s = socksConnect host port := by
  refine reachable_invariant (I := fun s => s = socksConnect host port) (fun s hs => hs) ?_ h
  rintro s e rfl he
  have hstage : (socksConnect host port).stage = .rejected "ONION_REQUIRED" := by
    simp [socksConnect, ho]
  cases e with
  | connect error => exact absurd (hstage.symm.trans he) (by simp)
  | data bytes =>
    have he := he.1
    rw [hstage] at he
    simp [listening] at he
  | fail code =>
    have he : listening (socksConnect host port).stage = true ∨
        (socksConnect host port).stage = .connected := he
    rw [hstage] at he
    simp [listening] at he
  | react =>
    have he : reacting (socksConnect host port).stage = true := he
    rw [hstage] at he
    cases he

end Steps

/-- A proxy that sends its reply byte by byte, and the answer with the last of them. -/
def byteByByte : List Event :=
  [.connect none, .data [5], .react, .data [0], .react, .react,
    .data [5, 0, 0, 1], .react, .react, .data [127, 0, 0, 1, 0], .react, .data [80, 72, 84], .react,
    .fail "SOCKS_CLOSED", .react]

def onion : String := String.ofList (List.replicate 56 'a') ++ ".onion"

theorem byteByByte_reachable : Reachable (system onion 80)
    ((system onion 80).replay (socksConnect onion 80) byteByByte) := by
  have hvalid : (system onion 80).Valid (socksConnect onion 80) byteByByte := by
    simp only [byteByByte, System.Valid, system]
    decide +kernel
  exact valid_trace_reachable (reachable_initial rfl) hvalid

end SocksConnect
