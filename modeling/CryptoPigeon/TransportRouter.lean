import CryptoPigeon.TransitionSystem
import Mathlib.Data.List.Induction

/-! # One envelope through Android's transport router

`EnvelopeTransportRouter.sendEnvelope` up to the end of the futures it starts. The mode is read
once, so that a later `setMode` plays no part. `Answers` is what the collaborators do while the
call itself runs; everything after it is a step, in any order. A call that throws and a future
that completes exceptionally or with null both answer with none. The log is history. -/
namespace TransportRouter

open TransitionSystem

inductive TransportMode where
  | relayOnly
  | hybridP2pPreferred
  | p2pOnlyTest
  | directTorP2p
  | hybridTorRelay
  deriving DecidableEq, Repr

structure EncryptedEnvelopePacket where
  envelopeId : String
  recipientUid : String
  envelopeType : String
  payload : List UInt8
  createdAtMs : Int
  expiresAtMs : Int
  deriving DecidableEq, Repr

structure TransportSendResult where
  accepted : Bool
  transport : String
  deriving DecidableEq, Repr

/-- `direct` is whether there is a direct transport, `now` the clock when the call begins. -/
structure Call where
  packet : EncryptedEnvelopePacket
  mode : TransportMode
  direct : Bool
  now : Int
  deriving DecidableEq, Repr

/-- A call of a collaborator returns, throws what `catch (Exception)` catches, or another error. -/
inductive Ends where
  | returned
  | exception
  | error
  deriving DecidableEq, Repr

/-- How a future of a transport completes; a null result is none. -/
inductive Settled where
  | result (r : Option TransportSendResult)
  | failed
  deriving DecidableEq, Repr

inductive Via where
  | relay
  | direct
  deriving DecidableEq, Repr

inductive Why where
  | refused
  | failed
  | timedOut
  | impossible
  deriving DecidableEq, Repr

inductive Entry where
  | sent (via : Via) (packet : EncryptedEnvelopePacket) (timeoutMs : Nat)
  | reported (via : Via) (accepted : Bool)
  | ended (why : Why)
  deriving DecidableEq, Repr

/-- The body of `runAsync`: not started, before `connectPeer`, before `sendEnvelope`, or over. -/
inductive Task where
  | queued
  | connecting
  | sending
  | over
  deriving DecidableEq, Repr

/-- `attempt` is what the direct attempt completed with, `armed` its deadline. -/
structure State where
  call : Call
  attempt : Option (Option TransportSendResult)
  armed : Bool
  task : Task
  budget : Nat
  directOpen : Bool
  composed : Bool
  relayOpen : Bool
  answer : Option (Option TransportSendResult)
  log : List Entry
  deriving DecidableEq, Repr

/-- What a predicate of a collaborator returns; none is a throw. -/
structure Answers where
  relayOnly : Option Bool
  isKnownOffline : Option Bool
  isReadyForPeer : Option Bool
  clockRuns : Bool
  direct : Ends
  relay : Ends
  deriving DecidableEq, Repr

def idle (call : Call) : State where
  call := call
  attempt := none
  armed := false
  task := .over
  budget := 0
  directOpen := false
  composed := false
  relayOpen := false
  answer := none
  log := []

def isTor (mode : TransportMode) : Bool := mode == .directTorP2p || mode == .hybridTorRelay

/-- The modes without the relay. -/
def isDirectOnly (mode : TransportMode) : Bool := mode == .directTorP2p || mode == .p2pOnlyTest

def refusal (mode : TransportMode) : TransportSendResult :=
  ⟨false, if isTor mode then "DIRECT_TOR_P2P" else "P2P_WEBRTC"⟩

def P2P_WARMUP_BUDGET_MS : Nat := 800

def OPEN_ACK_TIMEOUT_MS : Nat := 1200

/-- `relay.sendEnvelope(packet, 30000)`. -/
def sendRelay (s : State) : Ends → State
  | .returned =>
    { s with relayOpen := true, log := s.log ++ [.sent .relay s.call.packet 30000] }
  | _ => { s with answer := some none, log := s.log ++ [.sent .relay s.call.packet 30000] }

/-- The condition before the direct attempt, read from left to right. -/
def skipsDirect (call : Call) (a : Answers) : Option Bool :=
  if call.mode = .relayOnly then some true
  else match a.relayOnly with
    | none => none
    | some true => some true
    | some false => if ¬ call.direct then some true else a.isKnownOffline

/-- With no direct attempt there is nothing left to compose. -/
def viaRelay (call : Call) (o : Ends) : State :=
  sendRelay { idle call with composed := true, log := [.ended .impossible] } o

def sendTor (call : Call) (a : Answers) : State :=
  if ¬ call.direct then
    if call.mode = .directTorP2p then { idle call with answer := some (some (refusal call.mode)) }
    else viaRelay call a.relay
  else match a.direct with
    | .returned =>
      { idle call with armed := true, directOpen := true, log := [.sent .direct call.packet 90000] }
    | _ => { idle call with answer := some none, log := [.sent .direct call.packet 90000] }

def sendPeer (call : Call) (a : Answers) : State :=
  match skipsDirect call a with
  | none => { idle call with answer := some none }
  | some true =>
    if call.mode = .p2pOnlyTest then { idle call with answer := some (some (refusal call.mode)) }
    else viaRelay call a.relay
  | some false =>
    match a.isReadyForPeer with
    | none => { idle call with answer := some none }
    | some ready =>
      if ¬ a.clockRuns then { idle call with answer := some none }
      else
        { idle call with
          armed := true
          task := .queued
          budget := if ready then OPEN_ACK_TIMEOUT_MS else P2P_WARMUP_BUDGET_MS }

def sendEnvelope (call : Call) (a : Answers) : State :=
  if call.now ≥ call.packet.expiresAtMs then
    { idle call with answer := some (some ⟨false, "EXPIRED"⟩) }
  else if isTor call.mode then sendTor call a
  else sendPeer call a

/-- `attempt.complete`: the first completion counts. -/
def complete (s : State) (r : Option TransportSendResult) (entries : List Entry) : State :=
  if s.attempt = none then { s with attempt := some r, log := s.log ++ entries } else s

def refuse (s : State) (why : Why) : State := complete s (some (refusal s.call.mode)) [.ended why]

/-- The `catch` of the task's body. -/
def taskThrew (s : State) : Ends → State
  | .exception => refuse { s with task := .over } .failed
  | _ => { s with task := .over }

inductive Event where
  /-- The task starts with `isReadyForPeer`, -/
  | start (ready : Bool) (o : Ends)
  | connectPeer (o : Ends)
  | sendDirect (o : Ends)
  | directSettles (o : Settled)
  | deadline
  /-- What follows the attempt, and what `relay.sendEnvelope` does if it is called there. -/
  | compose (o : Ends)
  | relaySettles (o : Settled)
  deriving DecidableEq, Repr

def Enabled (s : State) : Event → Prop
  | .start _ _ => s.task = .queued
  | .connectPeer _ => s.task = .connecting
  | .sendDirect _ => s.task = .sending
  | .directSettles _ => s.directOpen = true
  | .deadline => s.armed = true
  | .compose _ => s.attempt ≠ none ∧ s.composed = false
  | .relaySettles _ => s.relayOpen = true

instance (s : State) (e : Event) : Decidable (Enabled s e) := by
  cases e <;> unfold Enabled <;> infer_instance

def start (s : State) (ready : Bool) : Ends → State
  | .returned => { s with task := if ready then .sending else .connecting }
  | o => taskThrew s o

def connectPeer (s : State) : Ends → State
  | .returned => { s with task := .sending }
  | o => taskThrew s o

def sendDirect (s : State) (o : Ends) : State :=
  let s := { s with log := s.log ++ [.sent .direct s.call.packet s.budget] }
  match o with
  | .returned => { s with task := .over, directOpen := true }
  | o => taskThrew s o

def directSettles (s : State) (o : Settled) : State :=
  let s := { s with directOpen := false }
  match o with
  | .failed => refuse s .failed
  | .result none => complete s none []
  | .result (some r) =>
    let s := { s with log := s.log ++ [.reported .direct r.accepted] }
    complete s (some r) (if r.accepted then [] else [.ended .refused])

def compose (s : State) (o : Ends) : State :=
  let s := { s with composed := true }
  match s.attempt with
  | none => s
  | some none => { s with answer := some none }
  | some (some r) =>
    if r.accepted || isDirectOnly s.call.mode then { s with answer := some (some r) }
    else sendRelay s o

def relaySettles (s : State) (o : Settled) : State :=
  let s := { s with relayOpen := false }
  match o with
  | .failed => { s with answer := some none }
  | .result none => { s with answer := some none }
  | .result (some r) =>
    { s with answer := some (some r), log := s.log ++ [.reported .relay r.accepted] }

def next (s : State) : Event → State
  | .start ready o => start s ready o
  | .connectPeer o => connectPeer s o
  | .sendDirect o => sendDirect s o
  | .directSettles o => directSettles s o
  | .deadline => refuse { s with armed := false } .timedOut
  | .compose o => compose s o
  | .relaySettles o => relaySettles s o

/-- One call of the router. -/
def system (call : Call) : System State Event where
  Initial s := ∃ a, s = sendEnvelope call a
  Enabled := Enabled
  next := next

def isSent (via : Via) : Entry → Bool
  | .sent v _ _ => v == via
  | _ => false

/-- How often a transport was invoked. -/
def sends (via : Via) (s : State) : Nat := s.log.countP (isSent via)

/-- A transport was invoked and reported acceptance. -/
def Vouched (log : List Entry) (via : Via) : Prop :=
  (∃ p t, .sent via p t ∈ log) ∧ .reported via true ∈ log

/-- The relay is invoked only once the direct attempt is over. -/
def RelayAfterEnd (log : List Entry) : Prop :=
  ∀ a b p t, log = a ++ .sent .relay p t :: b → ∃ why, .ended why ∈ a

/-- What the log has to say for what has been decided and what is open. -/
structure Backed (s : State) : Prop where
  refused : ∀ r, s.attempt = some (some r) → r.accepted = false → ∃ why, .ended why ∈ s.log
  accepted : ∀ r, s.attempt = some (some r) → r.accepted = true → Vouched s.log .direct
  directOpen : s.directOpen = true → ∃ p t, .sent .direct p t ∈ s.log
  relayOpen : s.relayOpen = true → ∃ p t, .sent .relay p t ∈ s.log
  answer : ∀ r, s.answer = some (some r) → r.accepted = true → ∃ via, Vouched s.log via

structure Sound (call : Call) (s : State) : Prop extends Backed s where
  same : s.call = call
  packet : ∀ via p t, .sent via p t ∈ s.log → p = call.packet
  relayOnce : sends .relay s ≤ 1
  relayLast : s.composed = false → sends .relay s = 0
  directOnce : sends .direct s ≤ 1
  directLast : s.task ≠ .over → sends .direct s = 0
  directOnly : isDirectOnly call.mode = true → sends .relay s = 0
  relayOnly : call.mode = .relayOnly → s.task = .over ∧ sends .direct s = 0
  afterEnd : RelayAfterEnd s.log

section Log

variable {log entries : List Entry} {via : Via} {e : Entry}

/-- An entry that says no transport was invoked. -/
def Quiet (entries : List Entry) : Prop := ∀ e ∈ entries, ∀ via, isSent via e = false

theorem Vouched.append (h : Vouched log via) : Vouched (log ++ entries) via := by
  obtain ⟨⟨p, t, hs⟩, hr⟩ := h
  exact ⟨⟨p, t, List.mem_append_left _ hs⟩, List.mem_append_left _ hr⟩

theorem countP_quiet (h : Quiet entries) :
    (log ++ entries).countP (isSent via) = log.countP (isSent via) := by
  have hzero : entries.countP (isSent via) = 0 := by
    rw [List.countP_eq_zero]
    intro e he
    simp [h e he via]
  rw [List.countP_append, hzero, Nat.add_zero]

theorem RelayAfterEnd.snoc (h : RelayAfterEnd log)
    (he : isSent .relay e = false ∨ ∃ why, .ended why ∈ log) : RelayAfterEnd (log ++ [e]) := by
  intro a b p t hlog
  rcases List.eq_nil_or_concat b with rfl | ⟨b, e', rfl⟩
  · obtain ⟨hfront, hlast⟩ := List.append_inj' hlog rfl
    have hsent := (List.cons.inj hlast).1
    rcases he with he | hended
    · rw [hsent] at he
      cases he
    · rwa [← hfront]
  · rw [List.concat_eq_append, ← List.cons_append, ← List.append_assoc] at hlog
    exact h a b p t (List.append_inj' hlog rfl).1

theorem RelayAfterEnd.quiet (h : RelayAfterEnd log) (hq : Quiet entries) :
    RelayAfterEnd (log ++ entries) := by
  induction entries using List.reverseRecOn with
  | nil => simpa using h
  | append_singleton entries e ih =>
    rw [← List.append_assoc]
    refine (ih fun x hx => hq x (List.mem_append_left _ hx)).snoc (.inl ?_)
    exact hq e (by simp) .relay

end Log

section Steps

variable {call : Call} {s : State} {entries : List Entry} {why : Why} {o : Ends}
  {r : Option TransportSendResult}

theorem Backed.append (h : Backed s) : Backed { s with log := s.log ++ entries } where
  refused r hr hf := by
    obtain ⟨why, hw⟩ := h.refused r hr hf
    exact ⟨why, List.mem_append_left _ hw⟩
  accepted r hr hf := (h.accepted r hr hf).append
  directOpen ho := by
    obtain ⟨p, t, hs⟩ := h.directOpen ho
    exact ⟨p, t, List.mem_append_left _ hs⟩
  relayOpen ho := by
    obtain ⟨p, t, hs⟩ := h.relayOpen ho
    exact ⟨p, t, List.mem_append_left _ hs⟩
  answer r hr hf := by
    obtain ⟨via, hv⟩ := h.answer r hr hf
    exact ⟨via, hv.append⟩

theorem Sound.note (h : Sound call s) (hq : Quiet entries) :
    Sound call { s with log := s.log ++ entries } :=
  { h.toBacked.append with
    same := h.same
    packet := fun via p t hm => by
      rcases List.mem_append.mp hm with hm | hm
      · exact h.packet via p t hm
      · have hno := hq _ hm via
        simp [isSent] at hno
    relayOnce := by rw [sends, countP_quiet hq]; exact h.relayOnce
    relayLast := fun hc => by rw [sends, countP_quiet hq]; exact h.relayLast hc
    directOnce := by rw [sends, countP_quiet hq]; exact h.directOnce
    directLast := fun ht => by rw [sends, countP_quiet hq]; exact h.directLast ht
    directOnly := fun hm => by rw [sends, countP_quiet hq]; exact h.directOnly hm
    relayOnly := fun hm => by rw [sends, countP_quiet hq]; exact h.relayOnly hm
    afterEnd := h.afterEnd.quiet hq }

theorem sound_complete (h : Sound call s) (hq : Quiet entries)
    (hrefused : ∀ x, r = some x → x.accepted = false → ∃ why, .ended why ∈ entries)
    (haccepted : ∀ x, r = some x → x.accepted = true → Vouched s.log .direct) :
    Sound call (complete s r entries) := by
  unfold complete
  split
  · exact { h.note hq with
      refused := fun x hx hf => by
        obtain ⟨why, hw⟩ := hrefused x (Option.some.inj hx) hf
        exact ⟨why, List.mem_append_right _ hw⟩
      accepted := fun x hx hf => (haccepted x (Option.some.inj hx) hf).append }
  · exact h

theorem quiet_ended : Quiet [.ended why] := by
  intro e he via
  rw [List.mem_singleton.mp he]
  rfl

theorem sound_refuse (h : Sound call s) : Sound call (refuse s why) := by
  refine sound_complete h quiet_ended (fun x _ _ => ⟨why, List.mem_singleton_self _⟩) ?_
  intro x hx hf
  rw [← Option.some.inj hx] at hf
  cases hf

/-- The task is over when its body has thrown. -/
theorem sound_taskOver (h : Sound call s) : Sound call { s with task := .over } :=
  { h with
    directLast := fun hne => absurd rfl hne
    relayOnly := fun hm => ⟨rfl, (h.relayOnly hm).2⟩ }

theorem sound_taskThrew (h : Sound call s) : Sound call (taskThrew s o) := by
  cases o with
  | exception => exact sound_refuse (sound_taskOver h)
  | _ => exact sound_taskOver h

theorem sound_start {ready : Bool} (h : Sound call s) (ht : s.task = .queued) :
    Sound call (start s ready o) := by
  cases o with
  | returned =>
    have hnone : sends .direct s = 0 := h.directLast (by simp [ht])
    have hmode : call.mode ≠ .relayOnly := fun hm => by simp [(h.relayOnly hm).1] at ht
    exact { h with
      directLast := fun _ => hnone
      relayOnly := fun hm => absurd hm hmode }
  | exception => exact sound_taskThrew (o := .exception) h
  | error => exact sound_taskThrew (o := .error) h

theorem sound_connectPeer (h : Sound call s) (ht : s.task = .connecting) :
    Sound call (connectPeer s o) := by
  cases o with
  | returned =>
    have hnone : sends .direct s = 0 := h.directLast (by simp [ht])
    have hmode : call.mode ≠ .relayOnly := fun hm => by simp [(h.relayOnly hm).1] at ht
    exact { h with
      directLast := fun _ => hnone
      relayOnly := fun hm => absurd hm hmode }
  | exception => exact sound_taskThrew (o := .exception) h
  | error => exact sound_taskThrew (o := .error) h

theorem packet_snoc {v : Via} {t : Nat} (h : Sound call s) (via : Via)
    (p : EncryptedEnvelopePacket) (t' : Nat)
    (hm : .sent via p t' ∈ s.log ++ [.sent v s.call.packet t]) : p = call.packet := by
  rcases List.mem_append.mp hm with hm | hm
  · exact h.packet via p t' hm
  · rw [List.mem_singleton, Entry.sent.injEq] at hm
    rw [hm.2.1, h.same]

/-- The one invocation of the direct transport, from a task that is then over. -/
theorem sound_sent {t : Nat} (h : Sound call s) (ht : s.task = .sending) :
    Sound call { s with task := .over, log := s.log ++ [.sent .direct s.call.packet t] } := by
  have hnone : sends .direct s = 0 := h.directLast (by simp [ht])
  have hmode : call.mode ≠ .relayOnly := fun hm => by simp [(h.relayOnly hm).1] at ht
  have hrelay : sends .relay { s with
      task := .over, log := s.log ++ [.sent .direct s.call.packet t] } = sends .relay s := by
    simp [sends, isSent]
  have hdirect : sends .direct { s with
      task := .over, log := s.log ++ [.sent .direct s.call.packet t] } = 1 := by
    simpa [sends, isSent] using hnone
  have hbacked : Backed { s with log := s.log ++ [.sent .direct s.call.packet t] } :=
    h.toBacked.append
  exact { hbacked with
    same := h.same
    packet := packet_snoc h
    relayOnce := by rw [hrelay]; exact h.relayOnce
    relayLast := fun hc => by rw [hrelay]; exact h.relayLast hc
    directOnce := Nat.le_of_eq hdirect
    directLast := fun hne => absurd rfl hne
    directOnly := fun hm => by rw [hrelay]; exact h.directOnly hm
    relayOnly := fun hm => absurd hm hmode
    afterEnd := h.afterEnd.snoc (.inl rfl) }

theorem sound_sendDirect (h : Sound call s) (ht : s.task = .sending) :
    Sound call (sendDirect s o) := by
  have hsent := sound_sent (t := s.budget) h ht
  cases o with
  | returned =>
    exact { hsent with
      directOpen := fun _ => ⟨s.call.packet, s.budget, List.mem_append_right _ (by simp)⟩ }
  | exception => exact sound_refuse hsent
  | error => exact hsent

theorem sound_directSettles {o : Settled} (h : Sound call s) (ho : s.directOpen = true) :
    Sound call (directSettles s o) := by
  obtain ⟨p, t, hsent⟩ := h.directOpen ho
  have hclosed : Sound call { s with directOpen := false } :=
    { h with directOpen := fun hc => by cases hc }
  match o with
  | .failed => exact sound_refuse hclosed
  | .result none =>
    exact sound_complete hclosed (by simp [Quiet]) (fun x hx => by cases hx)
      (fun x hx => by cases hx)
  | .result (some r) =>
    have hquiet : Quiet [.reported .direct r.accepted] := by
      intro e he via
      rw [List.mem_singleton.mp he]
      rfl
    refine sound_complete (hclosed.note hquiet) ?_ ?_ ?_
    · split
      · simp [Quiet]
      · exact quiet_ended
    · intro x hx hf
      rw [← Option.some.inj hx] at hf
      exact ⟨.refused, by simp [hf]⟩
    · intro x hx hf
      rw [← Option.some.inj hx] at hf
      exact ⟨⟨p, t, List.mem_append_left _ hsent⟩, by simp [hf]⟩

/-- The one invocation of the relay, once the direct attempt has ended. -/
theorem sound_sendRelay (h : Sound call s) (hnone : sends .relay s = 0)
    (hmode : isDirectOnly call.mode = false) (hended : ∃ why, .ended why ∈ s.log) :
    Sound call (sendRelay { s with composed := true } o) := by
  have hbacked : Backed { s with log := s.log ++ [.sent .relay s.call.packet 30000] } :=
    h.toBacked.append
  have hrelay : sends .relay { s with log := s.log ++ [.sent .relay s.call.packet 30000] } = 1 := by
    simpa [sends, isSent] using hnone
  have hdirect : sends .direct { s with log := s.log ++ [.sent .relay s.call.packet 30000] } =
      sends .direct s := by
    simp [sends, isSent]
  have hsent : Sound call { s with
      composed := true, log := s.log ++ [.sent .relay s.call.packet 30000] } :=
    { hbacked with
      same := h.same
      packet := packet_snoc h
      relayOnce := Nat.le_of_eq hrelay
      relayLast := fun hc => by cases hc
      directOnce := Nat.le_trans (Nat.le_of_eq hdirect) h.directOnce
      directLast := fun ht => hdirect.trans (h.directLast ht)
      directOnly := fun hm => by rw [hmode] at hm; cases hm
      relayOnly := fun hm => ⟨(h.relayOnly hm).1, hdirect.trans (h.relayOnly hm).2⟩
      afterEnd := h.afterEnd.snoc (.inr hended) }
  cases o with
  | returned =>
    exact { hsent with
      relayOpen := fun _ => ⟨s.call.packet, 30000, List.mem_append_right _ (by simp)⟩ }
  | exception => exact { hsent with answer := fun r hr => by cases hr }
  | error => exact { hsent with answer := fun r hr => by cases hr }

theorem sound_compose (h : Sound call s) (hc : s.composed = false) :
    Sound call (compose s o) := by
  have hover : Sound call { s with composed := true } :=
    { h with relayLast := fun ht => by cases ht }
  rcases hattempt : s.attempt with _ | _ | r
  · have he : compose s o = { s with composed := true } := by simp [compose, hattempt]
    rw [he]
    exact hover
  · have he : compose s o = { s with composed := true, answer := some none } := by
      simp [compose, hattempt]
    rw [he]
    exact { hover with answer := fun r hr => by cases hr }
  · by_cases hstop : (r.accepted || isDirectOnly s.call.mode) = true
    · have he : compose s o = { s with composed := true, answer := some (some r) } := by
        simp [compose, hattempt, hstop]
      rw [he]
      exact { hover with
        answer := fun x hx hf => by
          have hr : r = x := Option.some.inj (Option.some.inj hx)
          exact ⟨.direct, h.accepted r hattempt (hr ▸ hf)⟩ }
    · have he : compose s o = sendRelay { s with composed := true } o := by
        simp [compose, hattempt, hstop]
      rw [Bool.or_eq_true, not_or, Bool.not_eq_true, Bool.not_eq_true, h.same] at hstop
      rw [he]
      exact sound_sendRelay h (h.relayLast hc) hstop.2 (h.refused r hattempt hstop.1)

theorem sound_relaySettles {o : Settled} (h : Sound call s) (ho : s.relayOpen = true) :
    Sound call (relaySettles s o) := by
  obtain ⟨p, t, hsent⟩ := h.relayOpen ho
  have hclosed : Sound call { s with relayOpen := false } :=
    { h with relayOpen := fun hc => by cases hc }
  match o with
  | .failed => exact { hclosed with answer := fun r hr => by cases hr }
  | .result none => exact { hclosed with answer := fun r hr => by cases hr }
  | .result (some r) =>
    have hquiet : Quiet [.reported .relay r.accepted] := by
      intro e he via
      rw [List.mem_singleton.mp he]
      rfl
    exact { hclosed.note hquiet with
      answer := fun x hx hf => by
        have hr : r = x := Option.some.inj (Option.some.inj hx)
        subst hr
        exact ⟨.relay, ⟨p, t, List.mem_append_left _ hsent⟩,
          List.mem_append_right _ (by rw [hf]; exact List.mem_singleton_self _)⟩ }

theorem sound_next {e : Event} (h : Sound call s) (he : Enabled s e) : Sound call (next s e) := by
  cases e with
  | start ready o => exact sound_start h he
  | connectPeer o => exact sound_connectPeer h he
  | sendDirect o => exact sound_sendDirect h he
  | directSettles o => exact sound_directSettles h he
  | deadline => exact sound_refuse { h with }
  | compose o => exact sound_compose h he.2
  | relaySettles o => exact sound_relaySettles h he

theorem sound_idle (call : Call) : Sound call (idle call) where
  refused r hr := by cases hr
  accepted r hr := by cases hr
  directOpen ho := by cases ho
  relayOpen ho := by cases ho
  answer r hr := by cases hr
  same := rfl
  packet via p t hm := by cases hm
  relayOnce := Nat.zero_le 1
  relayLast _ := rfl
  directOnce := Nat.zero_le 1
  directLast hne := absurd rfl hne
  directOnly _ := rfl
  relayOnly _ := ⟨rfl, rfl⟩
  afterEnd a b p t hlog := by cases a <;> cases hlog

/-- An answer that accepts nothing needs no transport. -/
theorem sound_refused (h : Sound call s) (hr : ∀ x, r = some x → x.accepted = false) :
    Sound call { s with answer := some r } :=
  { h with
    answer := fun x hx hf => by
      rw [hr x (Option.some.inj hx)] at hf
      cases hf }

theorem sound_viaRelay (hmode : isDirectOnly call.mode = false) : Sound call (viaRelay call o) := by
  have hquiet : Quiet [.ended .impossible] := quiet_ended
  have hnote : Sound call { idle call with log := [.ended .impossible] } :=
    (sound_idle call).note hquiet
  exact sound_sendRelay hnote rfl hmode ⟨.impossible, List.mem_singleton_self _⟩

/-- The other three modes may use the relay. -/
theorem not_directOnly {mode : TransportMode} (htor : mode ≠ .directTorP2p)
    (htest : mode ≠ .p2pOnlyTest) : isDirectOnly mode = false := by
  rw [isDirectOnly, Bool.or_eq_false_iff, beq_eq_false_iff_ne, beq_eq_false_iff_ne]
  exact ⟨htor, htest⟩

/-- The task of a mode that has a direct attempt. -/
theorem sound_task (task : Task) (hmode : call.mode ≠ .relayOnly) :
    Sound call { idle call with task := task } :=
  { sound_idle call with
    directLast := fun _ => rfl
    relayOnly := fun hm => absurd hm hmode }

theorem sound_sendTor {a : Answers} (htor : isTor call.mode = true) :
    Sound call (sendTor call a) := by
  have hmode : call.mode ≠ .relayOnly := fun hm => by rw [hm] at htor; cases htor
  have hsent := sound_sent (t := 90000) (sound_task .sending hmode) rfl
  unfold sendTor
  split
  · split
    · exact sound_refused (sound_idle call) fun x hx => by rw [← Option.some.inj hx]; rfl
    · next hdirect =>
      have htest : call.mode ≠ .p2pOnlyTest := fun hm => by rw [hm] at htor; cases htor
      exact sound_viaRelay (not_directOnly hdirect htest)
  · split
    · exact { hsent with
        directOpen := fun _ => ⟨call.packet, 90000, List.mem_singleton_self _⟩ }
    · exact { hsent with answer := fun r hr => by cases hr }

theorem skipsDirect_relayOnly {a : Answers} (hm : call.mode = .relayOnly) :
    skipsDirect call a = some true := if_pos hm

theorem sound_sendPeer {a : Answers} (htor : isTor call.mode = false) :
    Sound call (sendPeer call a) := by
  have hfailed : Sound call { idle call with answer := some none } :=
    sound_refused (sound_idle call) fun x hx => by cases hx
  unfold sendPeer
  split
  · exact hfailed
  · split
    · exact sound_refused (sound_idle call) fun x hx => by rw [← Option.some.inj hx]; rfl
    · next htest =>
      have hdirect : call.mode ≠ .directTorP2p := fun hm => by rw [hm] at htor; cases htor
      exact sound_viaRelay (not_directOnly hdirect htest)
  · next hskips =>
    have hmode : call.mode ≠ .relayOnly := fun hm => by
      rw [skipsDirect_relayOnly hm] at hskips
      cases hskips
    split
    · exact hfailed
    · split
      · exact hfailed
      · exact { sound_task .queued hmode with }

theorem sound_sendEnvelope {a : Answers} : Sound call (sendEnvelope call a) := by
  unfold sendEnvelope
  split
  · exact sound_refused (sound_idle call) fun x hx => by rw [← Option.some.inj hx]
  · split
    · next htor => exact sound_sendTor htor
    · next htor => exact sound_sendPeer (Bool.not_eq_true _ ▸ htor)

theorem sound_reachable (h : Reachable (system call) s) : Sound call s := by
  refine reachable_invariant ?_ (fun s e hs he => sound_next hs he) h
  rintro s ⟨a, rfl⟩
  exact sound_sendEnvelope

/-- An expired packet: the call is answered and no step is possible. -/
theorem expired_reachable (hexpired : call.now ≥ call.packet.expiresAtMs)
    (h : Reachable (system call) s) :
    s = { idle call with answer := some (some ⟨false, "EXPIRED"⟩) } := by
  refine reachable_invariant
    (I := fun s => s = { idle call with answer := some (some ⟨false, "EXPIRED"⟩) }) ?_ ?_ h
  · rintro s ⟨a, rfl⟩
    exact if_pos hexpired
  · rintro s e rfl he
    cases e with
    | compose o => exact absurd rfl he.1
    | _ => cases he

end Steps

section Router

variable {call : Call} {s : State}

def envelope : EncryptedEnvelopePacket := ⟨"e", "CP-AAAA-BBBB", "MESSAGE", [1, 2, 3], 0, 60000⟩

/-- A cold peer: the deadline passes while it connects, and its acknowledgement comes late. -/
def lateAck : List Event := [.start false .returned, .deadline, .compose .returned,
  .connectPeer .returned, .sendDirect .returned,
  .relaySettles (.result (some ⟨true, "RELAY_HTTPS"⟩)),
  .directSettles (.result (some ⟨true, "P2P_WEBRTC"⟩))]

def coldCall : Call := ⟨envelope, .hybridP2pPreferred, true, 0⟩

def coldStart : State :=
  sendEnvelope coldCall ⟨some false, some false, some false, true, .returned, .returned⟩

theorem lateAck_reachable :
    Reachable (system coldCall) ((system coldCall).replay coldStart lateAck) := by
  have hvalid : (system coldCall).Valid coldStart lateAck := by
    simp only [lateAck, System.Valid, system]
    decide
  exact valid_trace_reachable (reachable_initial ⟨_, rfl⟩) hvalid

end Router

end TransportRouter
