import CryptoPigeon.TorRouting
import CryptoPigeon.TransitionSystem

/-! # One sender and one receiver in direct Tor mode

Whatever was ever put on the wire may be delivered at any later time, any number of times
or never; so may an answer. A job ends when its process does, and the durable state of
the receiver is its vault and inbox, so its crash is a pass cut short or an answer that
is never given. `queued` and `dropped` are history. -/
namespace DirectTorDelivery

open TransitionSystem ConsumingLoop VaultStore SyncMessages TorRouting

structure State where
  sender : Outgoing
  requests : List Packet
  accepted : List String
  inbox : List InboxRow
  receiver : Vault
  queued : List String
  dropped : List String

inductive Event where
  | sendMessage (m : Message) (row : OutboxRow)
  | queueControl (row : ControlRow)
  | flushOutbox (R : Routing) (now : Nat)
  | flushControls (R : Routing)
  | transmit (p : Packet)
  | receive (p : Packet) (authorized answered : Bool)
  | complete (p : Packet)
  | abandon (p : Packet)
  | senderRestart
  | senderExpire (messageId : String)
  | sync (outcomes : String → Outcome) (processed : Nat) (acknowledges : Bool)
  | receiverExpire (messageId : String)
  | receiverContacts (v : Vault)

variable (senderDevice receiverDevice : String)

/-- Deleting a message; its outbox row goes with it. -/
def deleteMessage (messageId : String) (v : Vault) : Vault :=
  { v with
    messages := v.messages.filter (fun m => m.messageId != messageId)
    outbox := v.outbox.filter (fun row => row.messageId != messageId) }

def outboxIdsOf (messageId : String) (v : Vault) : List String :=
  (v.outbox.filter (fun row => row.messageId == messageId)).map OutboxRow.envelopeId

/-- `POST /p2p/v1/envelopes`; a request that is not authorized or valid is answered 403. -/
def receive (s : State) (p : Packet) (authorized answered : Bool) : State :=
  if authorized = false ∨ p.mailboxId ≠ receiverDevice then s
  else
    { s with
      inbox := storeIncoming s.inbox senderDevice p
      accepted := if answered then p.envelopeId :: s.accepted else s.accepted }

/-- In direct mode a bundle request throws `RELAY_DISABLED_IN_DIRECT_MODE`. -/
def pendingEnvelopes (inbox : List InboxRow) (outcomes : String → Outcome) : List Pending :=
  (waiting inbox).map (fun row =>
    ⟨InboxRow.entry row, { outcomes row.envelopeId with bundle := .throws }⟩)

/-- A pass that ends after some iterations, or goes on to acknowledge. -/
def sync (s : State) (outcomes : String → Outcome) (processed : Nat) (acknowledges : Bool) :
    State :=
  let pending := pendingEnvelopes s.inbox outcomes
  let r := syncMessages s.receiver (pending.take processed)
  { s with
    receiver := r.state
    inbox :=
      if acknowledges = true ∧ pending.length ≤ processed ∧ r.escaped = false then
        (acknowledge s.inbox r.emitted).1
      else s.inbox }

def next (s : State) : Event → State
  | .sendMessage m row =>
    { s with
      sender := { s.sender with
        vault := { s.sender.vault with
          messages := s.sender.vault.messages ++ [m]
          outbox := s.sender.vault.outbox ++ [row] } }
      queued := row.envelopeId :: s.queued }
  | .queueControl row =>
    { s with
      sender := { s.sender with
        vault := { s.sender.vault with controlOutbox := s.sender.vault.controlOutbox ++ [row] } }
      queued := row.envelopeId :: s.queued }
  | .flushOutbox R now => { s with sender := (TorRouting.flushOutbox R now s.sender).state }
  | .flushControls R =>
    { s with
      sender := (TorRouting.flushControls R s.sender).state
      dropped := expiredIds R s.sender.vault ++ s.dropped }
  | .transmit p => { s with requests := p :: s.requests }
  | .receive p authorized answered => receive senderDevice receiverDevice s p authorized answered
  | .complete p => { s with sender := completeJob s.sender p }
  | .abandon p =>
    { s with sender := { s.sender with
        jobs := s.sender.jobs.filter (fun q => q.envelopeId != p.envelopeId) } }
  | .senderRestart => { s with sender := { s.sender with jobs := [] } }
  | .senderExpire messageId =>
    { s with
      sender := { s.sender with vault := deleteMessage messageId s.sender.vault }
      dropped := outboxIdsOf messageId s.sender.vault ++ s.dropped }
  | .sync outcomes processed acknowledges => sync s outcomes processed acknowledges
  | .receiverExpire messageId => { s with receiver := deleteMessage messageId s.receiver }
  | .receiverContacts v => { s with receiver := v }

def Enabled (s : State) : Event → Prop
  | .sendMessage m row => row.messageId = m.messageId ∧ row.envelopeId ∉ s.queued
  | .queueControl row => row.envelopeId ∉ s.queued
  | .flushOutbox R _ => R.mode = .direct
  | .flushControls R => R.mode = .direct
  | .transmit p => p ∈ s.sender.jobs
  | .receive p _ _ => p ∈ s.requests
  | .complete p => p ∈ s.sender.jobs ∧ p.envelopeId ∈ s.accepted
  | .abandon p => p ∈ s.sender.jobs
  | .receiverContacts v => SameMail s.receiver v
  | _ => True

/-- Nothing sent yet, and no message received. -/
def Initial (s : State) : Prop :=
  s.requests = [] ∧ s.accepted = [] ∧ s.queued = [] ∧ s.dropped = [] ∧ s.receiver.messages = []

def system : System State Event where
  Initial := Initial
  Enabled := Enabled
  next := next senderDevice receiverDevice

/-- The envelope is waiting at the receiver or was consumed there. -/
def Arrived (s : State) (id : String) : Prop := id ∈ inboxIds s.inbox ∨ id ∈ s.receiver.seen

structure Invariant (s : State) : Prop where
  once : OncePerEnvelope s.receiver
  accepted : ∀ id ∈ s.accepted, Arrived s id
  kept : ∀ id ∈ s.queued, id ∈ heldIds s.sender.vault ∨ id ∈ s.dropped ∨ Arrived s id

variable {senderDevice receiverDevice : String} {s t : State} {id : String}

theorem initial_invariant (h : Initial s) : Invariant s := by
  obtain ⟨_, ha, hq, _, hm⟩ := h
  refine ⟨⟨?_, ?_⟩, ?_, ?_⟩
  · rw [hm]; exact List.nodup_nil
  · rw [hm]; exact fun id hid => by cases hid
  · rw [ha]; exact fun id hid => by cases hid
  · rw [hq]; exact fun id hid => by cases hid

/-- A step that touches neither side's acceptance keeps the rest of the invariant. -/
theorem Invariant.of_sender (h : Invariant s) (hr : t.receiver = s.receiver)
    (hi : t.inbox = s.inbox) (ha : t.accepted = s.accepted)
    (hk : ∀ id ∈ t.queued, id ∈ heldIds t.sender.vault ∨ id ∈ t.dropped ∨ Arrived s id) :
    Invariant t := by
  have harrived (id : String) (hid : Arrived s id) : Arrived t id := by
    unfold Arrived at hid ⊢
    rw [hr, hi]
    exact hid
  refine ⟨hr ▸ h.once, fun id hid => ?_, fun id hid => ?_⟩
  · rw [ha] at hid
    exact harrived id (h.accepted id hid)
  · exact (hk id hid).imp_right (Or.imp_right (harrived id))

/-- A step of the receiver after which every arrived envelope is still there. -/
theorem Invariant.of_receiver (h : Invariant s) (hs : t.sender = s.sender)
    (hq : t.queued = s.queued) (hd : t.dropped = s.dropped) (ho : OncePerEnvelope t.receiver)
    (ha : ∀ id ∈ t.accepted, id ∈ s.accepted ∨ Arrived t id)
    (hk : ∀ id, Arrived s id → Arrived t id) : Invariant t := by
  refine ⟨ho, fun id hid => ?_, fun id hid => ?_⟩
  · rcases ha id hid with hid | hid
    · exact hk id (h.accepted id hid)
    · exact hid
  · rw [hq] at hid
    rw [hs, hd]
    exact (h.kept id hid).imp_right (Or.imp_right (hk id))

theorem receive_invariant {p : Packet} {authorized answered : Bool} (h : Invariant s) :
    Invariant (receive senderDevice receiverDevice s p authorized answered) := by
  unfold receive
  split
  · exact h
  · refine h.of_receiver rfl rfl rfl h.once (fun id hid => ?_) (fun id hid => ?_)
    · dsimp only at hid
      split at hid
      · rcases List.mem_cons.mp hid with rfl | hid
        · exact .inr (.inl storeIncoming_stores)
        · exact .inl hid
      · exact .inl hid
    · exact hid.imp_left storeIncoming_keeps

/-- Only ids seen by the end of the loop leave the inbox. -/
theorem sync_arrived {outcomes : String → Outcome} {processed : Nat} {acknowledges : Bool}
    (h : Arrived s id) : Arrived (sync s outcomes processed acknowledges) id := by
  rcases h with h | h
  · unfold Arrived sync
    dsimp only
    split
    · by_cases hid : id ∈ (syncMessages s.receiver
          ((pendingEnvelopes s.inbox outcomes).take processed)).emitted
      · exact .inr (sync_acknowledges_seen id hid)
      · exact .inl (acknowledge_keeps h hid)
    · exact .inl h
  · exact .inr (consume_seen processEnvelope_iteration h)

theorem sync_invariant {outcomes : String → Outcome} {processed : Nat} {acknowledges : Bool}
    (h : Invariant s) : Invariant (sync s outcomes processed acknowledges) :=
  h.of_receiver rfl rfl rfl (consume_once processEnvelope_iteration h.once) (fun _ hid => .inl hid) (fun _ => sync_arrived)

theorem deleteMessage_once {messageId : String} {v : Vault} (h : OncePerEnvelope v) :
    OncePerEnvelope (deleteMessage messageId v) := by
  have hsub : (receivedIds (deleteMessage messageId v).messages).Sublist
      (receivedIds v.messages) := List.filter_sublist.filterMap _
  exact ⟨h.nodup.sublist hsub, fun id hid => h.seen id (hsub.subset hid)⟩

theorem deleteMessage_held (messageId : String) {v : Vault} (h : id ∈ heldIds v) :
    id ∈ heldIds (deleteMessage messageId v) ∨ id ∈ outboxIdsOf messageId v := by
  rcases List.mem_append.mp h with h | h
  · obtain ⟨row, hrow, rfl⟩ := List.mem_map.mp h
    by_cases hm : row.messageId = messageId
    · exact .inr (List.mem_map.mpr ⟨row, List.mem_filter.mpr ⟨hrow, by simp [hm]⟩, rfl⟩)
    · refine .inl (List.mem_append_left _ (List.mem_map.mpr ⟨row, ?_, rfl⟩))
      exact List.mem_filter.mpr ⟨hrow, by simp [hm]⟩
  · exact .inl (List.mem_append_right _ h)

theorem step_preserves_invariant (s : State) (e : Event) (h : Invariant s)
    (he : Enabled s e) : Invariant (next senderDevice receiverDevice s e) := by
  cases e with
  | sendMessage m row =>
    refine h.of_sender rfl rfl rfl fun id hid => ?_
    simp only [next, heldIds, List.map_append, List.mem_append, List.mem_cons] at hid ⊢
    rcases hid with rfl | hid
    · exact .inl (.inl (.inr (by simp)))
    · rcases h.kept id hid with hk | hk
      · rcases List.mem_append.mp hk with hk | hk
        · exact .inl (.inl (.inl hk))
        · exact .inl (.inr hk)
      · exact .inr hk
  | queueControl row =>
    refine h.of_sender rfl rfl rfl fun id hid => ?_
    simp only [next, heldIds, List.map_append, List.mem_append, List.mem_cons] at hid ⊢
    rcases hid with rfl | hid
    · exact .inl (.inr (.inr (by simp)))
    · rcases h.kept id hid with hk | hk
      · rcases List.mem_append.mp hk with hk | hk
        · exact .inl (.inl hk)
        · exact .inl (.inr (.inl hk))
      · exact .inr hk
  | flushOutbox R now =>
    refine h.of_sender rfl rfl rfl fun id hid => ?_
    have hv : (TorRouting.flushOutbox R now s.sender).state.vault = s.sender.vault :=
      flushOutbox_direct he
    change id ∈ heldIds (TorRouting.flushOutbox R now s.sender).state.vault ∨ _
    rw [hv]
    exact h.kept id hid
  | flushControls R =>
    refine h.of_sender rfl rfl rfl fun id hid => ?_
    rcases h.kept id hid with hk | hk | hk
    · rcases flushControls_direct he hk with hc | hc
      · exact .inl hc
      · exact .inr (.inl (List.mem_append_left _ hc))
    · exact .inr (.inl (List.mem_append_right _ hk))
    · exact .inr (.inr hk)
  | transmit p => exact h.of_sender rfl rfl rfl h.kept
  | receive p authorized answered => exact receive_invariant h
  | complete p =>
    refine h.of_sender rfl rfl rfl fun id hid => ?_
    rcases h.kept id hid with hk | hk
    · rcases completeJob_held (p := p) hk with hc | rfl
      · exact .inl hc
      · exact .inr (.inr (h.accepted p.envelopeId he.2))
    · exact .inr hk
  | abandon p => exact h.of_sender rfl rfl rfl h.kept
  | senderRestart => exact h.of_sender rfl rfl rfl h.kept
  | senderExpire messageId =>
    refine h.of_sender rfl rfl rfl fun id hid => ?_
    rcases h.kept id hid with hk | hk | hk
    · rcases deleteMessage_held messageId hk with hc | hc
      · exact .inl hc
      · exact .inr (.inl (List.mem_append_left _ hc))
    · exact .inr (.inl (List.mem_append_right _ hk))
    · exact .inr (.inr hk)
  | sync outcomes processed acknowledges => exact sync_invariant h
  | receiverExpire messageId =>
    exact h.of_receiver rfl rfl rfl (deleteMessage_once h.once) (fun _ hid => .inl hid)
      (fun _ hid => hid)
  | receiverContacts v =>
    have hv := SameMail.delivery he
    refine h.of_receiver rfl rfl rfl (sameDelivery_once hv h.once) (fun _ hid => .inl hid) ?_
    intro id hid
    unfold Arrived
    exact hid.imp_right (fun hseen => hv.seen ▸ hseen)

theorem reachable_satisfies_invariant (h : Reachable (system senderDevice receiverDevice) s) :
    Invariant s :=
  reachable_invariant (fun _ hi => initial_invariant hi)
    (fun s e hs he => step_preserves_invariant s e hs he) h

/-- Exactly once, and nothing lost that the peer acknowledged. -/
theorem direct_delivery_exactly_once (h : Reachable (system senderDevice receiverDevice) s) :
    (receivedIds s.receiver.messages).Nodup ∧
    ∀ id ∈ s.queued, id ∉ heldIds s.sender.vault → id ∉ s.dropped →
      id ∈ inboxIds s.inbox ∨ id ∈ s.receiver.seen := by
  have hi := reachable_satisfies_invariant h
  refine ⟨hi.once.nodup, fun id hid hheld hdropped => ?_⟩
  rcases hi.kept id hid with hk | hk | hk
  · exact absurd hk hheld
  · exact absurd hk hdropped
  · exact hk

section Delivered

def alice : Contact := ⟨"alice.1", "alice", none, "ik-alice", some "s", true, false⟩

def bob : Contact := ⟨"bob.1", "bob", none, "ik-bob", some "s", true, false⟩

/-- Alice has a conversation with Bob, who knows her device. -/
def start : State where
  sender :=
    { vault := { Vault.empty with contacts := [bob], conversations := [⟨"to-bob", "bob.1"⟩] }
      jobs := [] }
  requests := []
  accepted := []
  inbox := []
  receiver :=
    { Vault.empty with
      contacts := [alice]
      remoteContacts := [⟨"alice.1", "alice", "alice-device", 1⟩] }
  queued := []
  dropped := []

def onion : Routing :=
  { mode := .direct, peer := fun _ => true, live := true, prepareRelay := false,
    relay := fun _ => .thrown, removes := fun _ => true, clock := fun _ => 0 }

def hello : Message := ⟨"m", "to-bob", .sent, "hello", none, .queued, none⟩

def row : OutboxRow := ⟨"e", "m", "bob-device", "AAAA", 0⟩

def decrypts (_ : String) : Outcome :=
  { now := 0, bundle := .throws, begins := true
    payload := some ⟨.text, "", "", none, "hello", none, none, none⟩
    messageId := "received", conversationId := "from-alice", receipt := none
    persists := true, rollsBack := true }

/-- The request is delivered twice, the first answer is lost, and the envelope arrives
again after it was consumed and acknowledged. -/
def replayed : List Event :=
  [.sendMessage hello row, .flushOutbox onion 0, .transmit (OutboxRow.packet row),
    .receive (OutboxRow.packet row) true false, .sync decrypts 1 true,
    .receive (OutboxRow.packet row) true true, .complete (OutboxRow.packet row),
    .sync decrypts 1 true]

theorem replayed_request_delivered_once :
    (receivedIds ((system "alice-device" "bob-device").replay start
      replayed).receiver.messages).Nodup ∧
    "e" ∈ ((system "alice-device" "bob-device").replay start replayed).receiver.seen := by
  have hreach : Reachable (system "alice-device" "bob-device")
      ((system "alice-device" "bob-device").replay start replayed) := by
    refine valid_trace_reachable (reachable_initial ⟨rfl, rfl, rfl, rfl, rfl⟩) ?_
    refine ⟨⟨rfl, by decide⟩, rfl, ?_, List.mem_cons_self, trivial, List.mem_cons_self, ?_,
      trivial, trivial⟩
    · exact List.mem_cons_self
    · exact ⟨List.mem_cons_self, List.mem_cons_self⟩
  obtain ⟨hnodup, hkept⟩ := direct_delivery_exactly_once hreach
  refine ⟨hnodup, ?_⟩
  rcases hkept "e" (by decide) (by decide) (by decide) with h | h
  · exact absurd h (by decide)
  · exact h

end Delivered

end DirectTorDelivery
