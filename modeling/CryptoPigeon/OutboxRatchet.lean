import CryptoPigeon.ConsumeIncoming
import CryptoPigeon.TorRouting
import CryptoPigeon.TransitionSystem

/-! # Encrypting once and sending many times

Every encryption runs inside a SQLite transaction that also inserts the outbox row with
its bytes: a sent message, a queued control, or the delivery receipt of a received
message. A transaction is the list of its statements; one that throws or dies after any
of them leaves the database as it was. Passes attempt the committed rows one by one, and
jobs outlive the row they were started for. `consumed` and `enqueued` are history inside
the database: the encryptions its ratchet states went through, and the rows ever inserted.
`sent`, `invoked` and `learned` are history outside of it. -/
namespace OutboxRatchet

open TransitionSystem ConsumingLoop VaultStore SyncMessages ConsumeIncoming TorRouting

/-- One use of a ratchet: for which message or control, whose ratchet, and the bytes. -/
structure Encryption where
  item : String
  contactId : String
  ciphertext : String
  deriving DecidableEq, Repr

/-- A row inserted into one of the outboxes. -/
structure Envelope where
  item : String
  contactId : String
  packet : Packet
  deriving DecidableEq, Repr

def Envelope.encryption (e : Envelope) : Encryption := ⟨e.item, e.contactId, e.packet.ciphertext⟩

/-- `mirror` is Android's `outbox_envelopes`. -/
structure Database (σ : Type) where
  vault : Vault
  sessions : String → σ
  mirror : List Packet
  consumed : List Encryption
  enqueued : List Envelope

/-- A statement of a transaction. The ciphertext is a local variable between the
encryption and the inserts. -/
inductive Instruction (σ : Type) where
  | encrypt (item contactId plaintext : String)
  | decrypt (contactId : String) (session : σ)
  | tables (update : Vault → Vault)
  | insertOutbox (contactId : String) (row : OutboxRow)
  | insertControl (row : ControlRow)
  | persistPacket (envelopeId mailboxId : String)

structure Working (σ : Type) where
  db : Database σ
  ciphertext : String
  invoked : List String

/-- `INSERT OR IGNORE INTO outbox_envelopes`. -/
def persistPacket (mirror : List Packet) (p : Packet) : List Packet :=
  if mirror.any (fun q => q.envelopeId == p.envelopeId) then mirror else mirror ++ [p]

variable {σ : Type} (encrypt : σ → String → σ × String)

/-- The two inserts take their bytes from the local variable. -/
def exec (w : Working σ) : Instruction σ → Working σ
  | .encrypt item contactId plaintext =>
    let r := encrypt (w.db.sessions contactId) plaintext
    { db := { w.db with
        sessions := Function.update w.db.sessions contactId r.1
        consumed := w.db.consumed ++ [⟨item, contactId, r.2⟩] }
      ciphertext := r.2
      invoked := w.invoked ++ [item] }
  | .decrypt contactId session =>
    { w with db := { w.db with sessions := Function.update w.db.sessions contactId session } }
  | .tables update => { w with db := { w.db with vault := update w.db.vault } }
  | .insertOutbox contactId row =>
    { w with db := { w.db with
        vault := { w.db.vault with
          outbox := w.db.vault.outbox ++ [{ row with ciphertext := w.ciphertext }] }
        enqueued := w.db.enqueued ++
          [⟨row.messageId, contactId, ⟨row.envelopeId, row.mailboxId, w.ciphertext⟩⟩] } }
  | .insertControl row =>
    { w with db := { w.db with
        vault := { w.db.vault with
          controlOutbox := w.db.vault.controlOutbox ++ [{ row with ciphertext := w.ciphertext }] }
        enqueued := w.db.enqueued ++
          [⟨row.envelopeId, row.contactId, ⟨row.envelopeId, row.mailboxId, w.ciphertext⟩⟩] } }
  | .persistPacket envelopeId mailboxId =>
    { w with db := { w.db with
        mirror := persistPacket w.db.mirror ⟨envelopeId, mailboxId, w.ciphertext⟩ } }

def run (w : Working σ) (l : List (Instruction σ)) : Working σ := l.foldl (exec encrypt) w

/-- A message to send; the row's own ciphertext is not used. -/
structure Draft where
  message : Message
  contactId : String
  plaintext : String
  row : OutboxRow
  attachment : Option Manifest

structure Control where
  plaintext : String
  row : ControlRow

/-- A received envelope, the session its decryption leaves, and the receipt to queue. -/
structure Incoming (σ : Type) where
  envelopeId : String
  contactId : String
  session : σ
  payload : Payload
  outcome : Outcome
  receipt : Control

inductive Operation (σ : Type) where
  | send (d : Draft)
  | controls (l : List Control)
  | consume (r : Incoming σ)

/-- Only Android mirrors the packet. -/
def mirrored (kind : ClientKind) (envelopeId mailboxId : String) : List (Instruction σ) :=
  match kind with
  | .desktop => []
  | .android => [.persistPacket envelopeId mailboxId]

def storeSentAttachment (d : Draft) (v : Vault) : Vault :=
  match d.attachment with
  | none => v
  | some manifest =>
    { v with attachments := v.attachments ++
        [⟨manifest.attachmentId, d.message.messageId, manifest.json⟩] }

/-- The transaction of `sendMessage` and of Android's `send`. -/
def sendMessage (kind : ClientKind) (d : Draft) : List (Instruction σ) :=
  [.encrypt d.row.messageId d.contactId d.plaintext,
    .tables (fun v => { v with messages := v.messages ++ [d.message] }),
    .insertOutbox d.contactId d.row] ++
  mirrored kind d.row.envelopeId d.row.mailboxId ++ [.tables (storeSentAttachment d)]

def queueControl (kind : ClientKind) (c : Control) : List (Instruction σ) :=
  [.encrypt c.row.envelopeId c.row.contactId c.plaintext, .insertControl c.row] ++
  mirrored kind c.row.envelopeId c.row.mailboxId

/-- The conversation a received envelope belongs to, there once it has been found. -/
def conversationIn (r : Incoming σ) (v : Vault) : String :=
  (findOrCreateConversation v r.contactId r.outcome.conversationId).2

def applyProfile : ClientKind → Vault → String → Payload → Vault
  | .desktop => SyncMessages.applyProfile
  | .android => ConsumeIncoming.applyProfile

def markConsumed (kind : ClientKind) (id : String) (v : Vault) : Vault :=
  match kind with
  | .desktop => markSeen v id
  | .android => { v with seen := v.seen ++ [id], processed := v.processed ++ [id] }

def linkMessage (r : Incoming σ) (remote : String) (v : Vault) : Vault :=
  { v with messageLinks := v.messageLinks ++ [⟨r.outcome.messageId, remote⟩] }

/-- The link to the sender's message and the receipt for it. -/
def receiptStatements (kind : ClientKind) (r : Incoming σ) : List (Instruction σ) :=
  match r.payload.messageId with
  | none => []
  | some remote =>
    if isRemoteId remote then .tables (linkMessage r remote) :: queueControl kind r.receipt else []

/-- What the transaction of a received envelope stores between its conversation and its id. -/
def payloadStatements (kind : ClientKind) (r : Incoming σ) : List (Instruction σ) :=
  if r.payload.kind ≠ .text then
    [.tables (fun v => applyControl v (conversationIn r v) r.payload)]
  else
    [.tables (fun v => storeMessage v (conversationIn r v) r.envelopeId r.payload r.outcome)] ++
    receiptStatements kind r ++
    [.tables (fun v => storeAttachment v r.payload r.outcome)]

def consumeEnvelope (kind : ClientKind) (r : Incoming σ) : List (Instruction σ) :=
  [.decrypt r.contactId r.session,
    .tables (fun v =>
      (findOrCreateConversation v r.contactId r.outcome.conversationId).1),
    .tables (fun v => applyProfile kind v r.contactId r.payload)] ++
  payloadStatements kind r ++ [.tables (markConsumed kind r.envelopeId)]

def statements (kind : ClientKind) : Operation σ → List (Instruction σ)
  | .send d => sendMessage kind d
  | .controls l => l.flatMap (queueControl kind)
  | .consume r => consumeEnvelope kind r

/-- The messages and controls a list of statements encrypts, in order. -/
def items : List (Instruction σ) → List String
  | [] => []
  | .encrypt item _ _ :: rest => item :: items rest
  | _ :: rest => items rest

/-- The envelope ids it gives out. -/
def envelopeIds : List (Instruction σ) → List String
  | [] => []
  | .insertOutbox _ row :: rest => row.envelopeId :: envelopeIds rest
  | .insertControl row :: rest => row.envelopeId :: envelopeIds rest
  | _ :: rest => envelopeIds rest

def packets (db : Database σ) : List Packet := db.enqueued.map Envelope.packet

section Transaction

variable {kind : ClientKind} {w : Working σ} {db db' db'' : Database σ}
  {l k : List (Instruction σ)} {encrypt}

theorem run_append : run encrypt w (l ++ k) = run encrypt (run encrypt w l) k :=
  List.foldl_append

theorem items_append : items (l ++ k) = items l ++ items k := by
  induction l with
  | nil => rfl
  | cons i rest ih => cases i <;> simp [items, ih]

theorem envelopeIds_append : envelopeIds (l ++ k) = envelopeIds l ++ envelopeIds k := by
  induction l with
  | nil => rfl
  | cons i rest ih => cases i <;> simp [envelopeIds, ih]

theorem exec_invoked (i : Instruction σ) :
    (exec encrypt w i).invoked = w.invoked ++ items [i] := by
  cases i <;> simp [exec, items]

theorem run_invoked : (run encrypt w l).invoked = w.invoked ++ items l := by
  induction l generalizing w with
  | nil => simp [run, items]
  | cons i rest ih =>
    have hi : run encrypt w (i :: rest) = run encrypt (exec encrypt w i) rest := rfl
    rw [hi, ih, exec_invoked, List.append_assoc, ← items_append]
    rfl

/-- `db'` is `db` after statements that inserted the rows `new`, each with the bytes of an
encryption of its own. -/
structure Inserts (db db' : Database σ) (new : List Envelope) : Prop where
  enqueued : db'.enqueued = db.enqueued ++ new
  consumed : db'.consumed = db.consumed ++ new.map Envelope.encryption
  outbox : ∀ row ∈ db'.vault.outbox, row ∈ db.vault.outbox ∨
    OutboxRow.packet row ∈ new.map Envelope.packet
  controlOutbox : ∀ row ∈ db'.vault.controlOutbox, row ∈ db.vault.controlOutbox ∨
    ControlRow.packet row ∈ new.map Envelope.packet
  mirror : ∀ p ∈ db'.mirror, p ∈ db.mirror ∨ p ∈ new.map Envelope.packet

theorem Inserts.append {new more : List Envelope} (h : Inserts db db' new)
    (k : Inserts db' db'' more) : Inserts db db'' (new ++ more) := by
  refine ⟨?_, ?_, fun row hrow => ?_, fun row hrow => ?_, fun p hp => ?_⟩
  · rw [k.enqueued, h.enqueued, List.append_assoc]
  · rw [k.consumed, h.consumed, List.append_assoc, List.map_append]
  · rw [List.map_append]
    rcases k.outbox row hrow with hrow | hrow
    · exact (h.outbox row hrow).imp_right (List.mem_append_left _)
    · exact .inr (List.mem_append_right _ hrow)
  · rw [List.map_append]
    rcases k.controlOutbox row hrow with hrow | hrow
    · exact (h.controlOutbox row hrow).imp_right (List.mem_append_left _)
    · exact .inr (List.mem_append_right _ hrow)
  · rw [List.map_append]
    rcases k.mirror p hp with hp | hp
    · exact (h.mirror p hp).imp_right (List.mem_append_left _)
    · exact .inr (List.mem_append_right _ hp)

/-- The update leaves both outboxes as they are. -/
def KeepsOutboxes (update : Vault → Vault) : Prop :=
  ∀ v, (update v).outbox = v.outbox ∧ (update v).controlOutbox = v.controlOutbox

/-- Statements that insert the rows `new` into whatever database they start from. -/
def InsertsWith (encrypt : σ → String → σ × String) (l : List (Instruction σ)) : Prop :=
  ∀ w : Working σ, ∃ new, Inserts w.db (run encrypt w l).db new ∧
    new.map Envelope.item = items l ∧
    new.map (fun e => e.packet.envelopeId) = envelopeIds l

theorem InsertsWith.append (hl : InsertsWith encrypt l) (hk : InsertsWith encrypt k) :
    InsertsWith encrypt (l ++ k) := by
  intro w
  obtain ⟨new, hnew, hitems, hids⟩ := hl w
  obtain ⟨more, hmore, hitems', hids'⟩ := hk (run encrypt w l)
  refine ⟨new ++ more, ?_, ?_, ?_⟩
  · rw [run_append]
    exact hnew.append hmore
  · rw [List.map_append, items_append, hitems, hitems']
  · rw [List.map_append, envelopeIds_append, hids, hids']

theorem insertsWith_nil : InsertsWith encrypt [] :=
  fun _ => ⟨[], ⟨by simp [run], by simp [run], fun _ h => .inl h, fun _ h => .inl h,
    fun _ h => .inl h⟩, rfl, rfl⟩

theorem insertsWith_tables {update : Vault → Vault} (h : KeepsOutboxes update) :
    InsertsWith encrypt [.tables update] := by
  intro w
  refine ⟨[], ⟨by simp [run, exec], by simp [run, exec], fun row hrow => .inl ?_,
    fun row hrow => .inl ?_, fun _ h => .inl h⟩, rfl, rfl⟩
  · exact (h w.db.vault).1 ▸ hrow
  · exact (h w.db.vault).2 ▸ hrow

theorem insertsWith_decrypt (contactId : String) (session : σ) :
    InsertsWith encrypt [.decrypt contactId session] :=
  fun _ => ⟨[], ⟨by simp [run, exec], by simp [run, exec], fun _ h => .inl h,
    fun _ h => .inl h, fun _ h => .inl h⟩, rfl, rfl⟩

theorem mem_persistPacket {mirror : List Packet} {p q : Packet}
    (h : q ∈ persistPacket mirror p) : q ∈ mirror ∨ q = p := by
  unfold persistPacket at h
  split at h
  · exact .inl h
  · simpa using h

theorem insertsWith_message (d : Draft) : InsertsWith encrypt
    ([.encrypt d.row.messageId d.contactId d.plaintext,
      .tables (fun v => { v with messages := v.messages ++ [d.message] }),
      .insertOutbox d.contactId d.row] ++
    mirrored kind d.row.envelopeId d.row.mailboxId) := by
  intro w
  let bytes := (encrypt (w.db.sessions d.contactId) d.plaintext).2
  let packet : Packet := ⟨d.row.envelopeId, d.row.mailboxId, bytes⟩
  refine ⟨[⟨d.row.messageId, d.contactId, packet⟩], ?_, ?_, ?_⟩
  · cases kind with
    | desktop =>
      refine ⟨rfl, rfl, fun row hrow => ?_, fun row hrow => .inl hrow, fun p hp => .inl hp⟩
      exact (List.mem_append.mp hrow).imp_right fun h => by
        rw [List.mem_singleton.mp h]; exact List.mem_cons_self
    | android =>
      refine ⟨rfl, rfl, fun row hrow => ?_, fun row hrow => .inl hrow, fun p hp => ?_⟩
      · exact (List.mem_append.mp hrow).imp_right fun h => by
          rw [List.mem_singleton.mp h]; exact List.mem_cons_self
      · exact (mem_persistPacket hp).imp_right fun h => List.mem_singleton.mpr h
  · cases kind <;> rfl
  · cases kind <;> rfl

theorem insertsWith_queueControl (c : Control) : InsertsWith encrypt (queueControl kind c) := by
  intro w
  let bytes := (encrypt (w.db.sessions c.row.contactId) c.plaintext).2
  let packet : Packet := ⟨c.row.envelopeId, c.row.mailboxId, bytes⟩
  refine ⟨[⟨c.row.envelopeId, c.row.contactId, packet⟩], ?_, ?_, ?_⟩
  · cases kind with
    | desktop =>
      refine ⟨rfl, rfl, fun row hrow => .inl hrow, fun row hrow => ?_, fun p hp => .inl hp⟩
      exact (List.mem_append.mp hrow).imp_right fun h => by
        rw [List.mem_singleton.mp h]; exact List.mem_cons_self
    | android =>
      refine ⟨rfl, rfl, fun row hrow => .inl hrow, fun row hrow => ?_, fun p hp => ?_⟩
      · exact (List.mem_append.mp hrow).imp_right fun h => by
          rw [List.mem_singleton.mp h]; exact List.mem_cons_self
      · exact (mem_persistPacket hp).imp_right fun h => List.mem_singleton.mpr h
  · cases kind <;> rfl
  · cases kind <;> rfl

theorem insertsWith_controls (l : List Control) :
    InsertsWith encrypt (l.flatMap (queueControl kind)) := by
  induction l with
  | nil => exact insertsWith_nil
  | cons c rest ih => exact (insertsWith_queueControl c).append ih

theorem storeSentAttachment_keeps (d : Draft) : KeepsOutboxes (storeSentAttachment d) := by
  intro v
  unfold storeSentAttachment
  split <;> exact ⟨rfl, rfl⟩

theorem findOrCreateConversation_keeps (contactId newId : String) :
    KeepsOutboxes (fun v => (findOrCreateConversation v contactId newId).1) := by
  intro v
  dsimp only [findOrCreateConversation]
  split <;> exact ⟨rfl, rfl⟩

theorem applyProfile_keeps (contactId : String) (p : Payload) :
    KeepsOutboxes (fun v => applyProfile kind v contactId p) := by
  intro v
  cases kind with
  | desktop =>
    dsimp only [applyProfile, SyncMessages.applyProfile]
    split
    · split <;> exact ⟨rfl, rfl⟩
    · exact ⟨rfl, rfl⟩
  | android =>
    dsimp only [applyProfile, ConsumeIncoming.applyProfile]
    split
    · exact ⟨rfl, rfl⟩
    · split <;> exact ⟨rfl, rfl⟩

theorem applyControl_keeps (conversation : Vault → String) (p : Payload) :
    KeepsOutboxes (fun v => applyControl v (conversation v) p) := by
  intro v
  dsimp only [applyControl]
  split <;> exact ⟨rfl, rfl⟩

theorem storeAttachment_keeps (p : Payload) (o : Outcome) :
    KeepsOutboxes (fun v => storeAttachment v p o) := by
  intro v
  dsimp only [storeAttachment]
  split <;> exact ⟨rfl, rfl⟩

theorem markConsumed_keeps (id : String) : KeepsOutboxes (markConsumed kind id) := by
  intro v
  cases kind with
  | desktop =>
    dsimp only [markConsumed, markSeen]
    split <;> exact ⟨rfl, rfl⟩
  | android => exact ⟨rfl, rfl⟩

theorem insertsWith_receipt (r : Incoming σ) : InsertsWith encrypt (receiptStatements kind r) := by
  unfold receiptStatements
  split
  · exact insertsWith_nil
  · next remote _ =>
    split
    · have hlink : KeepsOutboxes (linkMessage r remote) := fun _ => ⟨rfl, rfl⟩
      exact (insertsWith_tables hlink).append (insertsWith_queueControl r.receipt)
    · exact insertsWith_nil

theorem insertsWith_payload (r : Incoming σ) : InsertsWith encrypt (payloadStatements kind r) := by
  unfold payloadStatements
  split
  · exact insertsWith_tables (applyControl_keeps (conversationIn r) r.payload)
  · have hstore : InsertsWith encrypt [.tables (fun v =>
        storeMessage v (conversationIn r v) r.envelopeId r.payload r.outcome)] :=
      insertsWith_tables fun _ => ⟨rfl, rfl⟩
    exact (hstore.append (insertsWith_receipt r)).append
      (insertsWith_tables (storeAttachment_keeps r.payload r.outcome))

theorem insertsWith_consume (r : Incoming σ) : InsertsWith encrypt (consumeEnvelope kind r) := by
  have hresolved : InsertsWith encrypt [.decrypt r.contactId r.session,
      .tables (fun v => (findOrCreateConversation v r.contactId r.outcome.conversationId).1),
      .tables (fun v => applyProfile kind v r.contactId r.payload)] :=
    ((insertsWith_decrypt r.contactId r.session).append
      (insertsWith_tables (findOrCreateConversation_keeps _ _))).append
      (insertsWith_tables (applyProfile_keeps r.contactId r.payload))
  exact (hresolved.append (insertsWith_payload r)).append
    (insertsWith_tables (markConsumed_keeps r.envelopeId))

/-- No transaction encrypts without inserting the bytes, nor inserts other bytes. -/
theorem statements_insert (op : Operation σ) : InsertsWith encrypt (statements kind op) := by
  cases op with
  | send d =>
    exact (insertsWith_message d).append (insertsWith_tables (storeSentAttachment_keeps d))
  | controls l => exact insertsWith_controls l
  | consume r => exact insertsWith_consume r

end Transaction

inductive Destination where
  | mailbox (id : String)
  | dropbox (tag : String)
  deriving DecidableEq, Repr

structure Transmission where
  envelopeId : String
  destination : Destination
  ciphertext : String
  deriving DecidableEq, Repr

/-- `secrets` are the send secrets stored for the contact of a device. -/
structure State (σ : Type) where
  db : Database σ
  jobs : List Packet
  sent : List Transmission
  invoked : List String
  secrets : String → Option String
  learned : List (String × String)

/-- What one attempt finds: the transport, the hour, and whether the relay knows no
dropboxes (404). -/
structure Attempt where
  routing : Routing
  hour : Nat
  incompatible : Bool

inductive Event (σ : Type) where
  | commit (op : Operation σ)
  | abort (op : Operation σ) (executed : Nat)
  | attempt (A : Attempt) (row : OutboxRow)
  | attemptControl (A : Attempt) (row : ControlRow)
  | transmit (p : Packet)
  | fallback (p : Packet)
  | complete (p : Packet)
  | abandon (p : Packet)
  | restart
  | expire (messageId : String)
  | establish (contactId : String) (session : σ)
  | contacts (v : Vault)
  | learn (device secret : String)

variable (routingTag : String → Nat → String)

def mailboxTransmission (p : Packet) : Transmission :=
  ⟨p.envelopeId, .mailbox p.mailboxId, p.ciphertext⟩

/-- `routingTag(secret, now/3600000)` names the dropbox of this hour. -/
def dropboxTransmission (secret : String) (hour : Nat) (p : Packet) : Transmission :=
  ⟨p.envelopeId, .dropbox (routingTag secret hour), p.ciphertext⟩

/-- The requests of one relay attempt; only Android tries a dropbox first. -/
def relayTransmissions (kind : ClientKind) (secrets : String → Option String) (A : Attempt)
    (typing : Bool) (p : Packet) : List Transmission :=
  match kind, secrets p.mailboxId with
  | .android, some secret =>
    if '-' ∈ p.envelopeId.toList ∧ typing = false then
      dropboxTransmission routingTag secret A.hour p ::
        (if A.incompatible then [mailboxTransmission p] else [])
    else [mailboxTransmission p]
  | _, _ => [mailboxTransmission p]

/-- The mirror after `persistPacket`, and the packet `sendPersisted` reads back. -/
def persisted (kind : ClientKind) (mirror : List Packet) (p : Packet) : List Packet × Packet :=
  match kind with
  | .desktop => (mirror, p)
  | .android =>
    (persistPacket mirror p,
      ((persistPacket mirror p).find? (fun q => q.envelopeId == p.envelopeId)).getD p)

def forget (id : String) (mirror : List Packet) : List Packet :=
  mirror.filter (fun q => q.envelopeId != id)

/-- One envelope of a pass, handed to its transport. -/
def attempt (kind : ClientKind) (A : Attempt) (typing : Bool) (p : Packet)
    (remove : Vault → Vault) (s : State σ) : State σ :=
  let stored := persisted kind s.db.mirror p
  let r := sendEnvelope A.routing stored.2 remove ⟨s.db.vault, s.jobs⟩
  { s with
    db := { s.db with
      vault := r.1.vault
      mirror := if r.2 = .goOn then forget p.envelopeId stored.1 else stored.1 }
    jobs := r.1.jobs
    sent := s.sent ++ (if route A.routing stored.2 = .relay then
      relayTransmissions routingTag kind s.secrets A typing stored.2 else []) }

def attemptMessage (kind : ClientKind) (A : Attempt) (row : OutboxRow) (s : State σ) : State σ :=
  attempt routingTag kind A false (OutboxRow.packet row)
    (fun v => deleteOutbox row.envelopeId (markSent [row.messageId] v)) s

def removeControl (id : String) (db : Database σ) : Database σ :=
  { db with vault := deleteControl id db.vault, mirror := forget id db.mirror }

/-- A typing notice that has expired is deleted and not sent. -/
def attemptControl (kind : ClientKind) (A : Attempt) (row : ControlRow) (s : State σ) : State σ :=
  if expiredControl A.routing row then { s with db := removeControl row.envelopeId s.db }
  else
    attempt routingTag kind A row.expiresAt.isSome (ControlRow.packet row)
      (deleteControl row.envelopeId) s

def working (s : State σ) : Working σ := ⟨s.db, "", s.invoked⟩

/-- The outbox rows of an expired message go with it, mirrored packets without a row too. -/
def expire (messageId : String) (db : Database σ) : Database σ :=
  let vault : Vault :=
    { db.vault with
      messages := db.vault.messages.filter (fun m => m.messageId != messageId)
      outbox := db.vault.outbox.filter (fun row => row.messageId != messageId) }
  { db with vault := vault, mirror := db.mirror.filter (fun p => p.envelopeId ∈ heldIds vault) }

def complete (p : Packet) (s : State σ) : State σ :=
  let c := completeJob ⟨s.db.vault, s.jobs⟩ p
  { s with
    db := { s.db with vault := c.vault, mirror := forget p.envelopeId s.db.mirror }
    jobs := c.jobs }

def next (kind : ClientKind) (s : State σ) : Event σ → State σ
  | .commit op =>
    let w := run encrypt (working s) (statements kind op)
    { s with db := w.db, invoked := w.invoked }
  | .abort op executed =>
    { s with invoked := (run encrypt (working s) ((statements kind op).take executed)).invoked }
  | .attempt A row => attemptMessage routingTag kind A row s
  | .attemptControl A row => attemptControl routingTag kind A row s
  | .transmit p => { s with sent := s.sent ++ [mailboxTransmission p] }
  | .fallback p => { s with sent := s.sent ++ [mailboxTransmission p] }
  | .complete p => complete p s
  | .abandon p => { s with jobs := s.jobs.filter (fun q => q.envelopeId != p.envelopeId) }
  | .restart => { s with jobs := [] }
  | .expire messageId => { s with db := expire messageId s.db }
  | .establish contactId session =>
    { s with db := { s.db with sessions := Function.update s.db.sessions contactId session } }
  | .contacts v => { s with db := { s.db with vault := v } }
  | .learn device secret =>
    { s with
      secrets := Function.update s.secrets device (some secret)
      learned := (device, secret) :: s.learned }

/-- Message and envelope ids are random and never given out twice. -/
structure Fresh (s : State σ) (l : List (Instruction σ)) : Prop where
  items : (items l).Nodup
  uninvoked : ∀ item ∈ OutboxRatchet.items l, item ∉ s.invoked
  ids : (envelopeIds l).Nodup
  unused : ∀ id ∈ envelopeIds l, id ∉ (packets s.db).map Packet.envelopeId

def Enabled (kind : ClientKind) (s : State σ) : Event σ → Prop
  | .commit op => Fresh s (statements kind op)
  | .abort op _ => Fresh s (statements kind op)
  | .attempt _ row => row ∈ s.db.vault.outbox
  | .attemptControl _ row => row ∈ s.db.vault.controlOutbox
  | .transmit p => p ∈ s.jobs
  | .fallback p => p ∈ s.jobs
  | .complete p => p ∈ s.jobs
  | .abandon p => p ∈ s.jobs
  | .contacts v => SameMail s.db.vault v
  | _ => True

/-- Nothing was ever queued. -/
structure Initial (s : State σ) : Prop where
  outbox : s.db.vault.outbox = []
  controlOutbox : s.db.vault.controlOutbox = []
  mirror : s.db.mirror = []
  consumed : s.db.consumed = []
  enqueued : s.db.enqueued = []
  jobs : s.jobs = []
  sent : s.sent = []
  invoked : s.invoked = []
  secrets : ∀ device, s.secrets device = none

def system (kind : ClientKind) : System (State σ) (Event σ) where
  Initial := Initial
  Enabled := Enabled kind
  next := next encrypt routingTag kind

/-- The mailbox itself, or a dropbox of a secret that was stored for it. -/
def Addressed (s : State σ) (mailboxId : String) : Destination → Prop
  | .mailbox id => id = mailboxId
  | .dropbox tag => ∃ secret hour, (mailboxId, secret) ∈ s.learned ∧ tag = routingTag secret hour

/-- The transmission is one of the packet. -/
structure Carries (s : State σ) (t : Transmission) (p : Packet) : Prop where
  envelopeId : t.envelopeId = p.envelopeId
  ciphertext : t.ciphertext = p.ciphertext
  addressed : Addressed routingTag s p.mailboxId t.destination

structure Invariant (s : State σ) : Prop where
  consumed : s.db.consumed = s.db.enqueued.map Envelope.encryption
  outbox : ∀ row ∈ s.db.vault.outbox, OutboxRow.packet row ∈ packets s.db
  controlOutbox : ∀ row ∈ s.db.vault.controlOutbox, ControlRow.packet row ∈ packets s.db
  mirror : ∀ p ∈ s.db.mirror, p ∈ packets s.db
  jobs : ∀ p ∈ s.jobs, p ∈ packets s.db
  ids : ((packets s.db).map Packet.envelopeId).Nodup
  sent : ∀ t ∈ s.sent, ∃ p ∈ packets s.db, Carries routingTag s t p
  invoked : s.invoked.Nodup
  items : ∀ e ∈ s.db.enqueued, e.item ∈ s.invoked
  secrets : ∀ device secret, s.secrets device = some secret → (device, secret) ∈ s.learned

section Run

variable {encrypt routingTag} {kind : ClientKind} {s t : State σ} {e : Event σ}

theorem initial_invariant (h : Initial s) : Invariant routingTag s := by
  have hp : packets s.db = [] := by unfold packets; rw [h.enqueued]; rfl
  refine ⟨?_, ?_, ?_, ?_, ?_, ?_, ?_, ?_, ?_, fun device secret hs => ?_⟩
  · rw [h.consumed, h.enqueued]; rfl
  · rw [h.outbox]; exact fun _ hx => by cases hx
  · rw [h.controlOutbox]; exact fun _ hx => by cases hx
  · rw [h.mirror]; exact fun _ hx => by cases hx
  · rw [h.jobs]; exact fun _ hx => by cases hx
  · rw [hp]; exact List.nodup_nil
  · rw [h.sent]; exact fun _ hx => by cases hx
  · rw [h.invoked]; exact List.nodup_nil
  · rw [h.enqueued]; exact fun _ hx => by cases hx
  · rw [h.secrets device] at hs; cases hs

theorem Carries.mono {x : Transmission} {p : Packet} (h : Carries routingTag s x p)
    (hl : ∀ x ∈ s.learned, x ∈ t.learned) : Carries routingTag t x p := by
  refine ⟨h.envelopeId, h.ciphertext, ?_⟩
  have ha := h.addressed
  cases hd : x.destination with
  | mailbox id => rw [hd] at ha; exact ha
  | dropbox tag =>
    rw [hd] at ha
    obtain ⟨secret, hour, hmem, htag⟩ := ha
    exact ⟨secret, hour, hl _ hmem, htag⟩

/-- A step that inserts no row keeps the invariant if its packets come from inserted rows. -/
theorem Invariant.of_transport (h : Invariant routingTag s)
    (henqueued : t.db.enqueued = s.db.enqueued) (hconsumed : t.db.consumed = s.db.consumed)
    (houtbox : ∀ row ∈ t.db.vault.outbox, row ∈ s.db.vault.outbox)
    (hcontrol : ∀ row ∈ t.db.vault.controlOutbox, row ∈ s.db.vault.controlOutbox)
    (hmirror : ∀ p ∈ t.db.mirror, p ∈ packets s.db)
    (hjobs : ∀ p ∈ t.jobs, p ∈ packets s.db)
    (hsent : ∀ x ∈ t.sent, x ∈ s.sent ∨ ∃ p ∈ packets s.db, Carries routingTag s x p)
    (hinvoked : t.invoked = s.invoked) (hsecrets : t.secrets = s.secrets)
    (hlearned : t.learned = s.learned) : Invariant routingTag t := by
  have hp : packets t.db = packets s.db := by unfold packets; rw [henqueued]
  refine ⟨?_, fun row hrow => ?_, fun row hrow => ?_, ?_, ?_, ?_, fun x hx => ?_, ?_, ?_, ?_⟩
  · rw [hconsumed, henqueued]; exact h.consumed
  · rw [hp]; exact h.outbox row (houtbox row hrow)
  · rw [hp]; exact h.controlOutbox row (hcontrol row hrow)
  · rw [hp]; exact hmirror
  · rw [hp]; exact hjobs
  · rw [hp]; exact h.ids
  · obtain ⟨p, hp', hc⟩ := (hsent x hx).elim (h.sent x) id
    exact ⟨p, hp ▸ hp', hc.mono fun y hy => by rw [hlearned]; exact hy⟩
  · rw [hinvoked]; exact h.invoked
  · rw [henqueued, hinvoked]; exact h.items
  · rw [hsecrets, hlearned]; exact h.secrets

theorem invoked_nodup {l : List (Instruction σ)} (h : Invariant routingTag s) (hl : Fresh s l) :
    (s.invoked ++ items l).Nodup :=
  List.nodup_append.mpr ⟨h.invoked, hl.items, by
    rintro a ha b hb rfl
    exact hl.uninvoked a hb ha⟩

theorem commit_invariant {op : Operation σ} (h : Invariant routingTag s)
    (hf : Fresh s (statements kind op)) :
    Invariant routingTag (next encrypt routingTag kind s (.commit op)) := by
  have hinsert : InsertsWith encrypt (statements kind op) := statements_insert op
  obtain ⟨new, hnew, hitems, hids⟩ := hinsert (working s)
  have hp : packets (next encrypt routingTag kind s (.commit op)).db =
      packets s.db ++ new.map Envelope.packet := by
    unfold packets
    rw [← List.map_append]
    exact congrArg _ hnew.enqueued
  have hinvoked : (next encrypt routingTag kind s (.commit op)).invoked =
      s.invoked ++ items (statements kind op) := run_invoked
  have hold (p : Packet) (hpacket : p ∈ packets s.db ∨ p ∈ new.map Envelope.packet) :
      p ∈ packets (next encrypt routingTag kind s (.commit op)).db := by
    rw [hp]; exact List.mem_append.mpr hpacket
  refine ⟨?_, fun row hrow => ?_, fun row hrow => ?_, fun p hmem => ?_, fun p hmem => ?_, ?_,
    fun x hx => ?_, ?_, fun e he => ?_, h.secrets⟩
  · refine hnew.consumed.trans ?_
    rw [show (next encrypt routingTag kind s (.commit op)).db.enqueued = s.db.enqueued ++ new from
      hnew.enqueued, List.map_append, ← h.consumed]
    rfl
  · exact hold _ ((hnew.outbox row hrow).imp_left (h.outbox row))
  · exact hold _ ((hnew.controlOutbox row hrow).imp_left (h.controlOutbox row))
  · exact hold p ((hnew.mirror p hmem).imp_left (h.mirror p))
  · exact hold p (.inl (h.jobs p hmem))
  · rw [hp, List.map_append, List.map_map]
    refine List.nodup_append.mpr ⟨h.ids, hids ▸ hf.ids, ?_⟩
    rintro a ha b hb rfl
    exact hf.unused a (hids ▸ hb) ha
  · obtain ⟨p, hpacket, hc⟩ := h.sent x hx
    exact ⟨p, hold p (.inl hpacket), hc.mono fun _ hy => hy⟩
  · rw [hinvoked]
    exact invoked_nodup h hf
  · rw [hinvoked]
    rw [show (next encrypt routingTag kind s (.commit op)).db.enqueued = s.db.enqueued ++ new from
      hnew.enqueued] at he
    rcases List.mem_append.mp he with he | he
    · exact List.mem_append_left _ (h.items e he)
    · exact List.mem_append_right _ (hitems ▸ List.mem_map_of_mem he)

theorem items_take (l : List (Instruction σ)) (n : Nat) :
    (items (l.take n)).Sublist (items l) := by
  conv_rhs => rw [← List.take_append_drop n l, items_append]
  exact List.sublist_append_left _ _

/-- What a transaction that is rolled back leaves: its encryptions were asked for. -/
theorem abort_invariant {op : Operation σ} {executed : Nat} (h : Invariant routingTag s)
    (hf : Fresh s (statements kind op)) :
    Invariant routingTag (next encrypt routingTag kind s (.abort op executed)) := by
  have hinvoked : (next encrypt routingTag kind s (.abort op executed)).invoked =
      s.invoked ++ items ((statements kind op).take executed) := run_invoked
  have hnodup : (s.invoked ++ items ((statements kind op).take executed)).Nodup :=
    (invoked_nodup h hf).sublist ((List.Sublist.refl _).append (items_take _ _))
  refine ⟨h.consumed, h.outbox, h.controlOutbox, h.mirror, h.jobs, h.ids, fun x hx => ?_, ?_,
    fun e he => ?_, h.secrets⟩
  · obtain ⟨p, hp, hc⟩ := h.sent x hx
    exact ⟨p, hp, hc.mono fun _ hy => hy⟩
  · rw [hinvoked]; exact hnodup
  · rw [hinvoked]; exact List.mem_append_left _ (h.items e he)

theorem mailbox_carries (p : Packet) : Carries routingTag s (mailboxTransmission p) p :=
  ⟨rfl, rfl, rfl⟩

theorem relay_carries {A : Attempt} {typing : Bool} {p : Packet} {x : Transmission}
    (h : Invariant routingTag s)
    (hx : x ∈ relayTransmissions routingTag kind s.secrets A typing p) :
    Carries routingTag s x p := by
  unfold relayTransmissions at hx
  split at hx
  · next secret hsecret =>
    have hmailbox {l : List Transmission} (hl : l = [] ∨ l = [mailboxTransmission p])
        (hxl : x ∈ l) : Carries routingTag s x p := by
      rcases hl with rfl | rfl
      · cases hxl
      · rw [List.mem_singleton.mp hxl]; exact mailbox_carries p
    split at hx
    · rcases List.mem_cons.mp hx with rfl | hx
      · exact ⟨rfl, rfl, secret, A.hour, h.secrets _ _ hsecret, rfl⟩
      · refine hmailbox ?_ hx
        split
        · exact .inr rfl
        · exact .inl rfl
    · exact hmailbox (.inr rfl) hx
  · rw [List.mem_singleton.mp hx]; exact mailbox_carries p

theorem persisted_packets (kind : ClientKind) {mirror l : List Packet} {p : Packet} (hp : p ∈ l)
    (hm : ∀ q ∈ mirror, q ∈ l) :
    (∀ q ∈ (persisted kind mirror p).1, q ∈ l) ∧ (persisted kind mirror p).2 ∈ l := by
  cases kind with
  | desktop => exact ⟨hm, hp⟩
  | android =>
    have hall (q : Packet) (hq : q ∈ persistPacket mirror p) : q ∈ l := by
      rcases mem_persistPacket hq with hq | rfl
      · exact hm q hq
      · exact hp
    refine ⟨hall, ?_⟩
    unfold persisted
    cases hfind : (persistPacket mirror p).find? (fun q => q.envelopeId == p.envelopeId) with
    | none => simpa [hfind] using hp
    | some q => simpa [hfind] using hall q (List.mem_of_find?_eq_some hfind)

theorem startJob_jobs {c : Outgoing} {p q : Packet} (h : q ∈ (startJob c p).jobs) :
    q ∈ c.jobs ∨ q = p := by
  unfold startJob at h
  split at h
  · exact .inl h
  · simpa using h

/-- An attempt changes the vault by its removal or not at all, and starts at most its job. -/
theorem sendEnvelope_outgoing (R : Routing) (p : Packet) (remove : Vault → Vault)
    (c : Outgoing) :
    ((sendEnvelope R p remove c).1.vault = c.vault ∨
      (sendEnvelope R p remove c).1.vault = remove c.vault) ∧
    ∀ q ∈ (sendEnvelope R p remove c).1.jobs, q ∈ c.jobs ∨ q = p := by
  unfold sendEnvelope
  cases route R p with
  | job => exact ⟨.inl (startJob_vault p), fun q hq => startJob_jobs hq⟩
  | nothing => exact ⟨.inl rfl, fun q hq => .inl hq⟩
  | relay =>
    dsimp only
    split
    · exact ⟨.inr rfl, fun q hq => .inl hq⟩
    · exact ⟨.inl rfl, fun q hq => .inl hq⟩

theorem mem_forget {mirror : List Packet} {id : String} {q : Packet} (h : q ∈ forget id mirror) :
    q ∈ mirror := List.mem_of_mem_filter h

theorem attempt_invariant {A : Attempt} {typing : Bool} {p : Packet} {remove : Vault → Vault}
    (h : Invariant routingTag s) (hp : p ∈ packets s.db)
    (houtbox : ∀ v, ∀ row ∈ (remove v).outbox, row ∈ v.outbox)
    (hcontrol : ∀ v, ∀ row ∈ (remove v).controlOutbox, row ∈ v.controlOutbox) :
    Invariant routingTag (attempt routingTag kind A typing p remove s) := by
  obtain ⟨hmirror, hstored⟩ := persisted_packets kind hp h.mirror
  obtain ⟨hvault, hjobs⟩ := sendEnvelope_outgoing A.routing (persisted kind s.db.mirror p).2
    remove ⟨s.db.vault, s.jobs⟩
  refine h.of_transport rfl rfl (fun row hrow => ?_) (fun row hrow => ?_) (fun q hq => ?_)
    (fun q hq => ?_) (fun x hx => ?_) rfl rfl rfl
  · rcases hvault with hv | hv
    · exact congrArg Vault.outbox hv ▸ hrow
    · exact houtbox _ row (hv ▸ hrow)
  · rcases hvault with hv | hv
    · exact congrArg Vault.controlOutbox hv ▸ hrow
    · exact hcontrol _ row (hv ▸ hrow)
  · dsimp only [attempt] at hq
    split at hq
    · exact hmirror q (mem_forget hq)
    · exact hmirror q hq
  · rcases hjobs q hq with hq | rfl
    · exact h.jobs q hq
    · exact hstored
  · refine (List.mem_append.mp hx).imp_right fun hx => ?_
    split at hx
    · exact ⟨_, hstored, relay_carries h hx⟩
    · cases hx

theorem deleteOutbox_rows {id : String} {ids : List String} (v : Vault) :
    ∀ row ∈ (deleteOutbox id (markSent ids v)).outbox, row ∈ v.outbox :=
  fun _ hrow => List.mem_of_mem_filter hrow

theorem attemptControl_invariant {A : Attempt} {row : ControlRow} (h : Invariant routingTag s)
    (hrow : row ∈ s.db.vault.controlOutbox) :
    Invariant routingTag (attemptControl routingTag kind A row s) := by
  unfold attemptControl
  split
  · exact h.of_transport rfl rfl (fun _ hr => hr) (fun _ hr => List.mem_of_mem_filter hr)
      (fun q hq => h.mirror q (mem_forget hq)) h.jobs (fun _ hx => .inl hx) rfl rfl rfl
  · exact attempt_invariant h (h.controlOutbox row hrow) (fun _ _ hr => hr)
      (fun _ _ hr => List.mem_of_mem_filter hr)

theorem transmit_invariant {p : Packet} (h : Invariant routingTag s) (hp : p ∈ s.jobs) :
    Invariant routingTag { s with sent := s.sent ++ [mailboxTransmission p] } := by
  refine h.of_transport rfl rfl (fun _ hr => hr) (fun _ hr => hr) h.mirror h.jobs
    (fun x hx => ?_) rfl rfl rfl
  refine (List.mem_append.mp hx).imp_right fun hx => ⟨p, h.jobs p hp, ?_⟩
  rw [List.mem_singleton.mp hx]
  exact mailbox_carries p

theorem learn_invariant {device secret : String} (h : Invariant routingTag s) :
    Invariant routingTag (next encrypt routingTag kind s (.learn device secret)) := by
  refine ⟨h.consumed, h.outbox, h.controlOutbox, h.mirror, h.jobs, h.ids, fun x hx => ?_,
    h.invoked, h.items, fun d found hd => ?_⟩
  · obtain ⟨p, hp, hc⟩ := h.sent x hx
    exact ⟨p, hp, hc.mono fun _ hy => List.mem_cons_of_mem _ hy⟩
  · dsimp only [next] at hd ⊢
    by_cases hdevice : d = device
    · subst hdevice
      rw [Function.update_self] at hd
      cases hd
      exact List.mem_cons_self
    · rw [Function.update_of_ne hdevice] at hd
      exact List.mem_cons_of_mem _ (h.secrets d found hd)

theorem step_preserves_invariant (s : State σ) (e : Event σ) (h : Invariant routingTag s)
    (he : Enabled kind s e) : Invariant routingTag (next encrypt routingTag kind s e) := by
  cases e with
  | commit op => exact commit_invariant h he
  | abort op executed => exact abort_invariant h he
  | attempt A row =>
    exact attempt_invariant h (h.outbox row he) deleteOutbox_rows (fun _ _ hr => hr)
  | attemptControl A row => exact attemptControl_invariant h he
  | transmit p => exact transmit_invariant h he
  | fallback p => exact transmit_invariant h he
  | complete p =>
    exact h.of_transport rfl rfl (fun _ hr => List.mem_of_mem_filter hr)
      (fun _ hr => List.mem_of_mem_filter hr) (fun q hq => h.mirror q (mem_forget hq))
      (fun q hq => h.jobs q (List.mem_of_mem_filter hq)) (fun _ hx => .inl hx) rfl rfl rfl
  | abandon p =>
    exact h.of_transport rfl rfl (fun _ hr => hr) (fun _ hr => hr) h.mirror
      (fun q hq => h.jobs q (List.mem_of_mem_filter hq)) (fun _ hx => .inl hx) rfl rfl rfl
  | restart =>
    exact h.of_transport rfl rfl (fun _ hr => hr) (fun _ hr => hr) h.mirror
      (fun q hq => by cases hq) (fun _ hx => .inl hx) rfl rfl rfl
  | expire messageId =>
    exact h.of_transport rfl rfl (fun _ hr => List.mem_of_mem_filter hr) (fun _ hr => hr)
      (fun q hq => h.mirror q (List.mem_of_mem_filter hq)) h.jobs (fun _ hx => .inl hx) rfl rfl rfl
  | establish contactId session =>
    exact h.of_transport rfl rfl (fun _ hr => hr) (fun _ hr => hr) h.mirror h.jobs
      (fun _ hx => .inl hx) rfl rfl rfl
  | contacts v =>
    have hv : SameMail s.db.vault v := he
    refine h.of_transport rfl rfl (fun row hr => ?_) (fun row hr => ?_) h.mirror h.jobs
      (fun _ hx => .inl hx) rfl rfl rfl
    · change row ∈ v.outbox at hr
      rw [hv] at hr; exact hr
    · change row ∈ v.controlOutbox at hr
      rw [hv] at hr; exact hr
  | learn device secret => exact learn_invariant h

theorem reachable_satisfies_invariant (h : Reachable (system encrypt routingTag kind) s) :
    Invariant routingTag s :=
  reachable_invariant (fun _ hi => initial_invariant hi)
    (fun s e hs he => step_preserves_invariant s e hs he) h

theorem Invariant.same_envelope (h : Invariant routingTag s) {p q : Packet}
    (hp : p ∈ packets s.db) (hq : q ∈ packets s.db) (hid : p.envelopeId = q.envelopeId) : p = q :=
  List.inj_on_of_nodup_map h.ids hp hq hid

end Run

section Rotating

/-- What was meant of retries: one destination and one ciphertext for an envelope id. -/
def SameTransmission (s : State σ) : Prop :=
  ∀ x ∈ s.sent, ∀ y ∈ s.sent, y.envelopeId = x.envelopeId →
    y.destination = x.destination ∧ y.ciphertext = x.ciphertext

/-- A ratchet that counts its messages. -/
def counting (session : Nat) (plaintext : String) : Nat × String :=
  (session + 1, toString session ++ ":" ++ plaintext)

def hourly (secret : String) (hour : Nat) : String := secret ++ "@" ++ toString hour

def hello : Draft where
  message := ⟨"m", "to-bob", .sent, "hello", none, .queued, none⟩
  contactId := "bob.1"
  plaintext := "hello"
  row := ⟨"e-1", "m", "bob-device", "", 0⟩
  attachment := none

def empty : State Nat where
  db := ⟨Vault.empty, fun _ => 0, [], [], []⟩
  jobs := []
  sent := []
  invoked := []
  secrets := fun _ => none
  learned := []

/-- A relay that never answers, asked in hour `hour`. -/
def unanswered (hour : Nat) : Attempt where
  routing :=
    { mode := .relayOnly, peer := fun _ => false, live := false, prepareRelay := false,
      relay := fun _ => .thrown, removes := fun _ => true, clock := fun _ => 0 }
  hour := hour
  incompatible := false

def helloRow : OutboxRow := { hello.row with ciphertext := "0:hello" }

/-- The first answer is lost and the retry is made in the next hour. -/
def retriedNextHour : List (Event Nat) :=
  [.learn "bob-device" "key", .commit (.send hello), .attempt (unanswered 0) helloRow,
    .attempt (unanswered 1) helloRow]

theorem retriedNextHour_reachable : Reachable (system counting hourly .android)
    ((system counting hourly .android).replay empty retriedNextHour) := by
  refine valid_trace_reachable (reachable_initial
    ⟨rfl, rfl, rfl, rfl, rfl, rfl, rfl, rfl, fun _ => rfl⟩) ?_
  refine ⟨trivial, ?_, ?_, ?_, trivial⟩
  · exact ⟨List.nodup_singleton _, fun _ _ => List.not_mem_nil, List.nodup_singleton _,
      fun _ _ => List.not_mem_nil⟩
  · exact List.mem_cons_self
  · exact List.mem_cons_self

end Rotating

end OutboxRatchet
