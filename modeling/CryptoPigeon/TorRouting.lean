import CryptoPigeon.SyncMessages
import Mathlib.Data.List.Sort

/-! # The relay-shaped Tor adapter of the desktop

`TorRouting.route` answers `/pending`, `/ack` and `/send` in place of the relay according
to the mode. `flushOutbox` and `flushControls` run over it. A job it starts delivers
outside the serialized section and removes the envelope once the peer has accepted. -/
namespace TorRouting

open ConsumingLoop VaultStore SyncMessages

inductive Mode where
  | direct
  | hybrid
  | relayOnly
  deriving DecidableEq, Repr

/-- The body of a send request. -/
structure Packet where
  envelopeId : String
  mailboxId : String
  ciphertext : String
  deriving DecidableEq, Repr

structure InboxRow where
  envelopeId : String
  ciphertext : String
  senderId : String
  deriving DecidableEq, Repr

inductive Reply where
  | ok
  | refused
  | thrown
  deriving DecidableEq, Repr

/-- What a pass finds: rows of `peer_onions`, a live onion service, a relay fallback for
jobs, and per envelope the relay's answer, whether its removal commits and the time. -/
structure Routing where
  mode : Mode
  peer : String → Bool
  live : Bool
  prepareRelay : Bool
  relay : String → Reply
  removes : String → Bool
  clock : String → Nat

inductive Handoff where
  | relay
  | job
  | nothing
  deriving DecidableEq, Repr

def route (R : Routing) (p : Packet) : Handoff :=
  if R.mode = .relayOnly then .relay
  else if (R.peer p.mailboxId && R.live) || (R.mode == .hybrid && R.prepareRelay) then .job
  else if R.mode = .hybrid then .relay
  else .nothing

/-- The vault of a sender and the bodies of its running jobs. -/
structure Outgoing where
  vault : Vault
  jobs : List Packet
  deriving DecidableEq, Repr

def running (s : Outgoing) (id : String) : Bool := s.jobs.any (fun p => p.envelopeId == id)

def startJob (s : Outgoing) (p : Packet) : Outgoing :=
  if running s p.envelopeId then s else { s with jobs := s.jobs ++ [p] }

/-- One envelope: a job is answered 503 whether it was just started or not. -/
def sendEnvelope (R : Routing) (p : Packet) (remove : Vault → Vault) (s : Outgoing) :
    Outgoing × Signal :=
  match route R p with
  | .job => (startJob s p, .stop)
  | .nothing => (s, .stop)
  | .relay =>
    if R.relay p.envelopeId = .ok ∧ R.removes p.envelopeId = true then
      ({ s with vault := remove s.vault }, .goOn)
    else (s, .stop)

def messageOf (v : Vault) (messageId : String) : Option Message :=
  v.messages.find? (fun m => m.messageId == messageId)

def contactOfMessage (v : Vault) (m : Message) : Option Contact :=
  match v.conversations.find? (fun c => c.conversationId == m.conversationId) with
  | none => none
  | some c => contactOf v c.contactId

/-- The joins and the condition of the query of `flushOutbox`. -/
def eligible (v : Vault) (now : Nat) (row : OutboxRow) : Bool :=
  match messageOf v row.messageId with
  | none => false
  | some m =>
    match contactOfMessage v m with
    | none => false
    | some c => !c.identityChanged && (match m.disappearAt with | none => true | some t => now < t)

def queuedMessages (v : Vault) (now : Nat) : List OutboxRow :=
  (v.outbox.filter (eligible v now)).insertionSort (fun a b => a.createdAt ≤ b.createdAt)

def eligibleControl (v : Vault) (row : ControlRow) : Bool :=
  match contactOf v row.contactId with
  | none => false
  | some c => !c.identityChanged

def queuedControls (v : Vault) : List ControlRow :=
  (v.controlOutbox.filter (eligibleControl v)).insertionSort
    (fun a b => a.createdAt ≤ b.createdAt)

def OutboxRow.packet (row : OutboxRow) : Packet := ⟨row.envelopeId, row.mailboxId, row.ciphertext⟩

def ControlRow.packet (row : ControlRow) : Packet :=
  ⟨row.envelopeId, row.mailboxId, row.ciphertext⟩

def markSent (messageIds : List String) (v : Vault) : Vault :=
  { v with messages := v.messages.map (fun m =>
      if m.messageId ∈ messageIds then { m with status := .sent } else m) }

def deleteOutbox (id : String) (v : Vault) : Vault :=
  { v with outbox := v.outbox.filter (fun row => row.envelopeId != id) }

def deleteControl (id : String) (v : Vault) : Vault :=
  { v with controlOutbox := v.controlOutbox.filter (fun row => row.envelopeId != id) }

def sendMessageRow (R : Routing) (s : Outgoing) (row : OutboxRow) : Outgoing × Signal :=
  sendEnvelope R (OutboxRow.packet row)
    (fun v => deleteOutbox row.envelopeId (markSent [row.messageId] v)) s

def flushOutbox (R : Routing) (now : Nat) (s : Outgoing) : Attempts Outgoing OutboxRow :=
  attempt (sendMessageRow R) s (queuedMessages s.vault now)

def expiredControl (R : Routing) (row : ControlRow) : Bool :=
  match row.expiresAt with
  | none => false
  | some t => t ≤ R.clock row.envelopeId

def sendControlRow (R : Routing) (s : Outgoing) (row : ControlRow) : Outgoing × Signal :=
  if expiredControl R row then
    if R.removes row.envelopeId then
      ({ s with vault := deleteControl row.envelopeId s.vault }, .goOn)
    else (s, .escape)
  else sendEnvelope R (ControlRow.packet row) (deleteControl row.envelopeId) s

def flushControls (R : Routing) (s : Outgoing) : Attempts Outgoing ControlRow :=
  attempt (sendControlRow R) s (queuedControls s.vault)

/-- The transaction of a job whose peer accepted. -/
def completeJob (s : Outgoing) (p : Packet) : Outgoing :=
  let sentIds := (s.vault.outbox.filter (fun row => row.envelopeId == p.envelopeId)).map
    OutboxRow.messageId
  { vault := deleteControl p.envelopeId (deleteOutbox p.envelopeId
      { s.vault with messages := s.vault.messages.map (fun m =>
          if m.messageId ∈ sentIds ∧ m.status = .queued then { m with status := .sent } else m) })
    jobs := s.jobs.filter (fun q => q.envelopeId != p.envelopeId) }

/-- `INSERT OR IGNORE INTO tor_inbox`. -/
def storeIncoming (inbox : List InboxRow) (senderId : String) (p : Packet) : List InboxRow :=
  if inbox.any (fun row => row.envelopeId == p.envelopeId) then inbox
  else inbox ++ [⟨p.envelopeId, p.ciphertext, senderId⟩]

/-- The JSON of an inbox row. -/
def InboxRow.entry (row : InboxRow) : Entry :=
  .object ⟨.num 1 true "1", .str row.envelopeId none, .str row.ciphertext none,
    .str row.senderId none⟩

/-- `LIMIT 256` without an order: in rowid order. -/
def waiting (inbox : List InboxRow) : List InboxRow := inbox.take 256

/-- `/api/messages/pending`; `none` passes on to the relay. -/
def pending (mode : Mode) (inbox : List InboxRow) : Option (List InboxRow) :=
  if mode = .relayOnly then none
  else if waiting inbox ≠ [] ∨ mode = .direct then some (waiting inbox)
  else none

/-- `/api/messages/ack`: the inbox left, and the ids passed on to the relay. -/
def acknowledge (inbox : List InboxRow) : List String → List InboxRow × List String
  | [] => (inbox, [])
  | id :: rest =>
    if inbox.any (fun row => row.envelopeId == id) then
      acknowledge (inbox.filter (fun row => row.envelopeId != id)) rest
    else ((acknowledge inbox rest).1, id :: (acknowledge inbox rest).2)

/-- The envelopes a sender holds for delivery. -/
def heldIds (v : Vault) : List String :=
  v.outbox.map OutboxRow.envelopeId ++ v.controlOutbox.map ControlRow.envelopeId

def inboxIds (inbox : List InboxRow) : List String := inbox.map InboxRow.envelopeId

section Inbox

variable {inbox : List InboxRow} {ids : List String} {id senderId : String} {p : Packet}

theorem mem_acknowledge {row : InboxRow} :
    row ∈ (acknowledge inbox ids).1 ↔ row ∈ inbox ∧ row.envelopeId ∉ ids := by
  induction ids generalizing inbox with
  | nil => simp [acknowledge]
  | cons id rest ih =>
    unfold acknowledge
    split
    · rw [ih]
      simp only [List.mem_filter, bne_iff_ne, List.mem_cons, not_or]
      exact and_assoc
    · next hid =>
      rw [ih]
      have hne (h : row ∈ inbox) : row.envelopeId ≠ id := fun he =>
        hid (List.any_eq_true.mpr ⟨row, h, by simp [he]⟩)
      simp only [List.mem_cons, not_or]
      exact ⟨fun h => ⟨h.1, hne h.1, h.2⟩, fun h => ⟨h.1, h.2.2⟩⟩

theorem acknowledge_keeps (h : id ∈ inboxIds inbox) (hid : id ∉ ids) :
    id ∈ inboxIds (acknowledge inbox ids).1 := by
  obtain ⟨row, hrow, rfl⟩ := List.mem_map.mp h
  exact List.mem_map.mpr ⟨row, mem_acknowledge.mpr ⟨hrow, hid⟩, rfl⟩

theorem storeIncoming_keeps (h : id ∈ inboxIds inbox) :
    id ∈ inboxIds (storeIncoming inbox senderId p) := by
  unfold storeIncoming
  split
  · exact h
  · simp only [inboxIds, List.map_append, List.mem_append]
    exact .inl h

theorem storeIncoming_stores : p.envelopeId ∈ inboxIds (storeIncoming inbox senderId p) := by
  unfold storeIncoming
  split
  · next h =>
    obtain ⟨row, hrow, he⟩ := List.any_eq_true.mp h
    exact List.mem_map.mpr ⟨row, hrow, by simpa using he⟩
  · simp [inboxIds]

end Inbox

section Flush

variable {R : Routing} {s : Outgoing} {now : Nat} {id : String}

theorem startJob_vault (p : Packet) : (startJob s p).vault = s.vault := by
  unfold startJob
  split <;> rfl

theorem sendEnvelope_direct (hmode : R.mode = .direct) (p : Packet) (remove : Vault → Vault) :
    (sendEnvelope R p remove s).1.vault = s.vault := by
  have hroute : route R p ≠ .relay := by
    unfold route
    rw [if_neg (by simp [hmode])]
    split
    · exact nofun
    · simp [hmode]
  unfold sendEnvelope
  cases h : route R p with
  | job => exact startJob_vault p
  | nothing => rfl
  | relay => exact absurd h hroute

/-- Without a relay no envelope leaves the outbox during a pass. -/
theorem flushOutbox_direct (hmode : R.mode = .direct) :
    (flushOutbox R now s).state.vault = s.vault :=
  attempt_invariant (I := fun (t : Outgoing) => t.vault = s.vault)
    (fun _ _ _ h => (sendEnvelope_direct hmode _ _).trans h) rfl

def expiredIds (R : Routing) (v : Vault) : List String :=
  ((queuedControls v).filter (expiredControl R)).map ControlRow.envelopeId

theorem mem_held_deleteControl {v : Vault} {other : String} (hne : id ≠ other)
    (h : id ∈ heldIds v) : id ∈ heldIds (deleteControl other v) := by
  rcases List.mem_append.mp h with h | h
  · exact List.mem_append_left _ h
  · obtain ⟨row, hrow, rfl⟩ := List.mem_map.mp h
    refine List.mem_append_right _ (List.mem_map.mpr ⟨row, ?_, rfl⟩)
    exact List.mem_filter.mpr ⟨hrow, bne_iff_ne.mpr hne⟩

theorem mem_held_deleteOutbox {v : Vault} {other : String} (hne : id ≠ other)
    (h : id ∈ heldIds v) : id ∈ heldIds (deleteOutbox other v) := by
  rcases List.mem_append.mp h with h | h
  · obtain ⟨row, hrow, rfl⟩ := List.mem_map.mp h
    refine List.mem_append_left _ (List.mem_map.mpr ⟨row, ?_, rfl⟩)
    exact List.mem_filter.mpr ⟨hrow, bne_iff_ne.mpr hne⟩
  · exact List.mem_append_right _ h

/-- Without a relay the only control envelopes a pass removes are those that expired. -/
theorem flushControls_direct (hmode : R.mode = .direct) (h : id ∈ heldIds s.vault) :
    id ∈ heldIds (flushControls R s).state.vault ∨ id ∈ expiredIds R s.vault := by
  refine attempt_invariant
    (I := fun (t : Outgoing) => id ∈ heldIds t.vault ∨ id ∈ expiredIds R s.vault) ?_ (.inl h)
  intro t row hrow ht
  rcases ht with ht | ht
  · unfold sendControlRow
    split
    · next hexp =>
      split
      · by_cases hne : id = row.envelopeId
        · subst hne
          exact .inr (List.mem_map.mpr ⟨row, List.mem_filter.mpr ⟨hrow, hexp⟩, rfl⟩)
        · exact .inl (mem_held_deleteControl hne ht)
      · exact .inl ht
    · rw [sendEnvelope_direct hmode]
      exact .inl ht
  · exact .inr ht

/-- A completed job removes nothing but its own envelope. -/
theorem completeJob_held {p : Packet} (h : id ∈ heldIds s.vault) :
    id ∈ heldIds (completeJob s p).vault ∨ id = p.envelopeId := by
  by_cases hne : id = p.envelopeId
  · exact .inr hne
  · exact .inl (mem_held_deleteControl hne (mem_held_deleteOutbox hne h))

end Flush

end TorRouting
