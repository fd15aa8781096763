import CryptoPigeon.OnionListener
import CryptoPigeon.BundleConfinement
import Mathlib.Data.List.Nodup
import Mathlib.Data.Option.Basic
import Mathlib.Logic.Function.Basic

/-! # What one envelope of a contact may write

One iteration of `syncMessages` and of `consumeIncoming` for a sender that is already a
contact, from decryption to the commit, with any JSON as payload. A table that is only read
by its key is a map; one that is searched is a list in rowid order. -/
namespace PayloadConfinement

open OnionListener (Json)
open ContactStore (addressOf)
open ConsumeIncoming (ClientKind)
open Function (update)

structure Contact where
  username : String
  publicUid : Option String
  identityKey : String
  verified : Bool
  identityChanged : Bool

structure Remote where
  contactId : String
  userId : String
  deviceId : String
  signalDeviceId : Nat

structure Conversation where
  conversationId : String
  contactId : String

inductive Status where
  | queued
  | sent
  | delivered
  | read
  | received
  deriving DecidableEq

structure Message where
  messageId : String
  conversationId : String
  direction : OnionListener.Direction
  plaintext : String
  receivedAt : Option Int
  remoteBlobId : Option String
  status : Status
  disappearAt : Option Int

structure Link where
  messageId : String
  remoteId : String

structure Manifest where
  attachmentId : String
  originalFilename : String
  totalPlaintextSize : Nat
  fullFileDigest : String
  attachmentKey : String
  text : String

structure Attachment where
  attachmentId : String
  messageId : String
  originalFilename : String
  fileSize : Nat
  fileHash : String
  fileKey : String

structure Download where
  attachmentId : String
  manifest : String

structure Profile where
  displayName : String
  statusLine : String

/-- `contact_routing` of Android. -/
structure Routing where
  receiveSecret : String
  sendSecret : Option String

structure ControlRow where
  envelopeId : String
  contactId : String
  mailboxId : String
  ciphertext : String
  createdAt : Int
  expiresAt : Option Int

/-- `outbox_envelopes` of Android. -/
structure Packet where
  envelopeId : String
  recipient : String
  envelopeType : String
  payload : String

structure OutboxRow where
  envelopeId : String
  messageId : String
  mailboxId : String
  ciphertext : String

structure KyberUse where
  prekeyId : Nat
  signedPrekeyId : Nat
  baseKey : String
  deriving DecidableEq

structure Database where
  contacts : String → Option Contact
  remotes : List Remote
  conversations : List Conversation
  messages : List Message
  links : List Link
  attachments : List Attachment
  downloads : List Download
  profiles : String → Option Profile
  sessions : String → Option String
  routing : String → Option Routing
  controls : List ControlRow
  packets : List Packet
  outbox : List OutboxRow
  prekeys : Nat → Option String
  kyberPrekeys : Nat → Option String
  kyberUsed : List KyberUse
  seen : List String
  processed : List String

/-- What libsignal hands to the store callbacks when it has decrypted a message for an
address: the peer's identity key, the new ratchet and the prekeys it has used. -/
structure Opened where
  plaintext : String
  identityKey : String
  session : String
  prekey : Option Nat
  kyber : Option KyberUse

structure Sealed where
  ciphertext : String
  identityKey : String
  session : String

/-- What the clients take from elsewhere: decryption and encryption for an address from
everything stored, the parsed payload, the manifest that the client's validation accepts, the
receipt's text, how a value is bound to a text column, and Android's coercions. -/
structure Runtime where
  decrypt : Database → String → String → Option Opened
  encrypt : Database → String → String → Option Sealed
  parse : String → Option Json
  validateManifest : Json → Option Manifest
  controlText : String → Database → String
  bindText : Json → Option String
  coerceString : Json → String
  coerceInt : Json → Option Int

/-- The envelope, the random ids and the clock of one iteration; `throws` is a statement
that fails for a reason of its own. -/
structure Envelope where
  envelopeId : String
  senderId : String
  ciphertext : String
  now : Int
  messageId : String
  conversationId : String
  controlId : String
  receiveSecret : String
  throws : Bool

def remoteOf (deviceId : String) (d : Database) : Option Remote :=
  d.remotes.find? (fun r => r.deviceId == deviceId)

def Remote.address (r : Remote) : String := addressOf r.userId r.signalDeviceId

def isTrustedIdentity (address key : String) (d : Database) : Bool :=
  match d.contacts address with
  | none => true
  | some c => c.identityKey == key

/-- The desktop's `saveIdentity`; Android leaves an equal key alone. -/
def saveIdentity (address key : String) (d : Database) : Database :=
  match d.contacts address with
  | none => { d with contacts := update d.contacts address (some ⟨address, none, key, false, false⟩) }
  | some c =>
    { d with
      contacts := update d.contacts address (some
        { c with
          identityKey := key
          verified := c.verified && c.identityKey == key
          identityChanged := c.identityChanged || c.identityKey != key }) }

def saveSession (address ratchet : String) (d : Database) : Database :=
  { d with sessions := update d.sessions address (some ratchet) }

def removePreKey (id : Nat) (d : Database) : Database :=
  { d with prekeys := update d.prekeys id none }

/-- Android deletes a one-time Kyber prekey and records each use of the last-resort one. -/
def markKyberPreKeyUsed (use : KyberUse) (d : Database) : Option Database :=
  if 2 ≤ use.prekeyId then some { d with kyberPrekeys := update d.kyberPrekeys use.prekeyId none }
  else if use ∈ d.kyberUsed then none
  else some { d with kyberUsed := d.kyberUsed ++ [use] }

variable (R : Runtime)

/-- The desktop's `markKyberPreKeyUsed` does nothing. -/
def decryptPayload (address ciphertext : String) (d : Database) : Option (String × Database) := do
  let opened ← R.decrypt d address ciphertext
  guard (isTrustedIdentity address opened.identityKey d = true)
  let saved := saveSession address opened.session (saveIdentity address opened.identityKey d)
  return (opened.plaintext, opened.prekey.elim saved (fun id => removePreKey id saved))

def nativeDecrypt (address ciphertext : String) (d : Database) : Option (String × Database) := do
  let opened ← R.decrypt d address ciphertext
  guard (isTrustedIdentity address opened.identityKey d = true)
  let saved := saveSession address opened.session (saveIdentity address opened.identityKey d)
  let used ← opened.kyber.elim (some saved) (fun use => markKyberPreKeyUsed use saved)
  return (opened.plaintext, opened.prekey.elim used (fun id => removePreKey id used))

def encryptPayload (address text : String) (d : Database) : Option (String × Database) := do
  let out ← R.encrypt d address text
  guard (isTrustedIdentity address out.identityKey d = true)
  return (out.ciphertext, saveSession address out.session (saveIdentity address out.identityKey d))

/-- The conversation of a contact; a new one takes an id that no row has. -/
def findOrCreateConversation (contactId newId : String) (d : Database) :
    Option (String × Database) :=
  match d.conversations.find? (fun v => v.contactId == contactId) with
  | some v => some (v.conversationId, d)
  | none =>
    if d.conversations.any (fun v => v.conversationId == newId) then none
    else some (newId, { d with conversations := d.conversations ++ [⟨newId, contactId⟩] })

def utf16Length (s : String) : Nat :=
  (s.toList.map (fun c => if c.toNat < 65536 then 1 else 2)).sum

/-- Reading a property: of `null` it throws, of any other value that is no object it is
undefined. -/
def property (key : String) : Json → Option (Option Json)
  | .null => none
  | j => some (j.get? key)

def stringField (key : String) (j : Json) : Option String :=
  (j.get? key).bind OnionListener.Json.string

def putProfile (contactId name line : String) (d : Database) : Database :=
  if utf16Length name ≤ 64 ∧ utf16Length line ≤ 140 then
    { d with profiles := update d.profiles contactId (some ⟨name, line⟩) }
  else d

/-- The desktop takes a profile whose two fields are strings. -/
def applyProfile (contactId : String) (metadata : Option Json) (d : Database) : Database :=
  match metadata.bind (stringField "displayName"), metadata.bind (stringField "statusLine") with
  | some name, some line => putProfile contactId name line d
  | _, _ => d

/-- `routedProfile` draws the secret that the contact is to send to. -/
def routedProfile (contactId secret : String) (d : Database) : Database :=
  match d.routing contactId with
  | some _ => d
  | none => { d with routing := update d.routing contactId (some ⟨secret, none⟩) }

def sendSecret (contactId secret : String) (d : Database) : Database :=
  { d with
    routing := update d.routing contactId
      ((d.routing contactId).map fun r => { r with sendSecret := some secret }) }

/-- `[A-Za-z0-9+/]{43}=`. -/
def routingSecretShape (s : String) : Bool :=
  s.length == 44 && OnionListener.base64Shape s && s.toList.getLast? == some '='

/-- `JSONObject.optString`. -/
def optString (key fallback : String) (j : Json) : String :=
  ((j.get? key).map R.coerceString).getD fallback

def nativeProfile (contactId fresh : String) (metadata : Option Json) (d : Database) : Database :=
  match metadata with
  | some (.obj fields) =>
    let m := Json.obj fields
    let secret := optString R "routingSecret" "" m
    let routed :=
      if routingSecretShape secret then sendSecret contactId secret (routedProfile contactId fresh d)
      else d
    putProfile contactId (optString R "displayName" "" m) (optString R "statusLine" "" m) routed
  | _ => d

def isSentIn (conversation : String) (m : Message) : Bool :=
  m.conversationId == conversation && m.direction == .sent

def markDelivered (conversation id : String) (d : Database) : Database :=
  { d with messages := d.messages.map fun m =>
      if m.messageId = id ∧ isSentIn conversation m = true ∧ (m.status = .queued ∨ m.status = .sent)
      then { m with status := .delivered } else m }

/-- The rowid of the named sent message of the conversation, as a position. -/
def rowOf (conversation id : String) (d : Database) : Option Nat :=
  d.messages.findIdx? (fun m => isSentIn conversation m && m.messageId == id)

def markRead (conversation id : String) (d : Database) : Database :=
  match rowOf conversation id d with
  | none => d
  | some row => { d with messages := d.messages.mapIdx fun i m =>
      if i ≤ row ∧ isSentIn conversation m = true then { m with status := .read } else m }

def applyControl (conversation kind upTo : String) (d : Database) : Database :=
  if kind = "delivered" then markDelivered conversation upTo d
  else if kind = "read_receipt" then markRead conversation upTo d
  else d

def insertSeen (id : String) (d : Database) : Option Database :=
  if id ∈ d.seen then none else some { d with seen := d.seen ++ [id] }

def insertProcessed (id : String) (d : Database) : Option Database :=
  if id ∈ d.processed then none else some { d with processed := d.processed ++ [id] }

def disappearAt (now : Int) (seconds : Option Int) : Option Int :=
  seconds.bind fun s =>
    if s = 3600 ∨ s = 86400 ∨ s = 604800 then some (now + s * 1000) else none

def insertMessage (m : Message) (d : Database) : Option Database :=
  if d.messages.any (fun x => x.messageId == m.messageId) then none
  else some { d with messages := d.messages ++ [m] }

def insertLink (l : Link) (d : Database) : Option Database :=
  if d.links.any (fun x => x.messageId == l.messageId) then none
  else some { d with links := d.links ++ [l] }

def insertAttachment (a : Attachment) (d : Database) : Option Database :=
  if d.attachments.any (fun x => x.attachmentId == a.attachmentId) then none
  else some { d with attachments := d.attachments ++ [a] }

def insertDownload (w : Download) (d : Database) : Option Database :=
  if d.downloads.any (fun x => x.attachmentId == w.attachmentId) then none
  else some { d with downloads := d.downloads ++ [w] }

def insertControl (row : ControlRow) (d : Database) : Option Database :=
  if d.controls.any (fun x => x.envelopeId == row.envelopeId) then none
  else some { d with controls := d.controls ++ [row] }

/-- `/^[a-f0-9-]{36}$/`. -/
def remoteIdShape (s : String) : Bool :=
  s.length == 36 && s.toList.all (fun c =>
    c == '-' || ('a' ≤ c && c ≤ 'f') || ('0' ≤ c && c ≤ '9'))

/-- The peer that `queueControl` joins to a conversation. -/
def peerOf (conversation : String) (d : Database) : Option Remote :=
  (d.conversations.find? (fun v => v.conversationId == conversation)).bind fun v =>
    (d.remotes.find? (fun r => r.contactId == v.contactId)).filter fun r =>
      ((d.contacts r.contactId).map Contact.identityChanged) == some false

def queueControl (e : Envelope) (conversation text : String) (d : Database) : Option Database := do
  let peer ← peerOf conversation d
  let (ciphertext, d) ← encryptPayload R peer.address text d
  insertControl ⟨e.controlId, peer.contactId, peer.deviceId, ciphertext, e.now, none⟩ d

/-- `INSERT OR IGNORE INTO outbox_envelopes`. -/
def persistPacket (p : Packet) (d : Database) : Database :=
  if d.packets.any (fun x => x.envelopeId == p.envelopeId) then d
  else { d with packets := d.packets ++ [p] }

def nativeQueueControl (e : Envelope) (conversation text : String) (d : Database) :
    Option Database := do
  let peer ← peerOf conversation d
  let (ciphertext, d) ← encryptPayload R peer.address text
    (routedProfile peer.contactId e.receiveSecret d)
  let d ← insertControl ⟨e.controlId, peer.contactId, peer.deviceId, ciphertext, e.now, none⟩ d
  return persistPacket ⟨e.controlId, peer.deviceId, "RECEIPT_DELIVERED", ciphertext⟩ d

def isObject : Json → Bool
  | .obj _ => true
  | _ => false

def truthy : Json → Bool
  | .null => false
  | .bool b => b
  | .num q => q != 0
  | .str s => s != ""
  | .arr _ | .obj _ => true

/-- `INSERT … ON CONFLICT DO NOTHING`. -/
def markSeen (id : String) (d : Database) : Database :=
  if id ∈ d.seen then d else { d with seen := d.seen ++ [id] }

/-- The manifest of an attachment that is there, once it is valid. -/
def manifestIn (payload : Json) : Option (Option Manifest) :=
  match payload.get? "attachment" with
  | none => some none
  | some j => if truthy j then (R.validateManifest j).map some else some none

def textIn (payload : Json) : Option String :=
  match payload.get? "text" with
  | none => some ""
  | some j => if truthy j then R.bindText j else some ""

def storeAttachment (e : Envelope) (m : Option Manifest) (d : Database) : Option Database :=
  match m with
  | none => some d
  | some m =>
    (insertAttachment ⟨m.attachmentId, e.messageId, m.originalFilename, m.totalPlaintextSize,
      m.fullFileDigest, m.attachmentKey⟩ d).bind (insertDownload ⟨m.attachmentId, m.text⟩)

/-- The sender's message id, if it has the shape of one: its link and the receipt for it. -/
def linkRemote (queue : String → Database → Option Database) (e : Envelope) (remote : Option String)
    (d : Database) : Option Database :=
  match remote with
  | some id => if remoteIdShape id then (insertLink ⟨e.messageId, id⟩ d).bind (queue id) else some d
  | none => some d

def storeText (e : Envelope) (conversation : String) (payload : Json) (d : Database) :
    Option Database := do
  let manifest ← manifestIn R payload
  let text ← textIn R payload
  let d ← insertMessage ⟨e.messageId, conversation, .received, text, some e.now,
    some e.envelopeId, .received,
    disappearAt e.now ((payload.get? "disappearingSeconds").bind OnionListener.Json.int)⟩ d
  let d ← linkRemote (fun id d => queueControl R e conversation (R.controlText id d) d) e
    (stringField "messageId" payload) d
  let d ← storeAttachment e manifest d
  return markSeen e.envelopeId d

/-- The transaction of the desktop; `none` is a throw, which rolls it back. -/
def commit (e : Envelope) (r : Remote) (d : Database) : Option Database := do
  guard (e.throws = false)
  let (plaintext, d) ← decryptPayload R r.address e.ciphertext d
  let payload ← R.parse plaintext
  let (conversation, d) ← findOrCreateConversation r.contactId e.conversationId d
  let metadata ← property "profile" payload
  let d := applyProfile r.contactId metadata d
  if stringField "type" payload = some "text" then storeText R e conversation payload d
  else
    let upTo := (stringField "upToMessageId" payload).getD ""
    insertSeen e.envelopeId
      (applyControl conversation ((stringField "type" payload).getD "") upTo d)

def nativeManifestIn (payload : Json) : Option (Option Manifest) :=
  match payload.get? "attachment" with
  | some (.obj fields) => (R.validateManifest (.obj fields)).map some
  | _ => some none

def nativeStoreText (e : Envelope) (conversation : String) (payload : Json) (d : Database) :
    Option Database := do
  let manifest ← nativeManifestIn R payload
  let d ← insertMessage ⟨e.messageId, conversation, .received, optString R "text" "" payload,
    some e.now, some e.envelopeId, .received,
    disappearAt e.now ((payload.get? "disappearingSeconds").bind R.coerceInt)⟩ d
  let d ← linkRemote (fun id d => nativeQueueControl R e conversation (R.controlText id d) d) e
    (some (optString R "messageId" "" payload)) d
  let d ← storeAttachment e manifest d
  let d ← insertSeen e.envelopeId d
  insertProcessed e.envelopeId d

/-- A claimed uid that is not the one known of the contact. -/
def identityMismatch (contactId : String) (payload : Json) (d : Database) : Bool :=
  let claimed := optString R "senderUid" "" payload
  claimed != "" && (((d.contacts contactId).bind Contact.publicUid).any fun uid => claimed != uid)

/-- The transaction of Android. -/
def nativeCommit (e : Envelope) (r : Remote) (d : Database) : Option Database := do
  guard (e.throws = false)
  let (plaintext, d) ← nativeDecrypt R r.address e.ciphertext d
  let payload ← R.parse plaintext
  guard (isObject payload = true)
  guard (identityMismatch R r.contactId payload d = false)
  let (conversation, d) ← findOrCreateConversation r.contactId e.conversationId d
  let d := nativeProfile R r.contactId e.receiveSecret (payload.get? "profile") d
  if optString R "type" "text" payload = "text" then nativeStoreText R e conversation payload d
  else
    let d ← insertSeen e.envelopeId (applyControl conversation (optString R "type" "text" payload)
      (optString R "upToMessageId" "" payload) d)
    insertProcessed e.envelopeId d

def identityChanged (contactId : String) (d : Database) : Bool :=
  (d.contacts contactId).any Contact.identityChanged

/-- One iteration of `syncMessages` for a sender that is a contact, and whether its envelope
is acknowledged. -/
def consume (e : Envelope) (r : Remote) (d : Database) : Database × Bool :=
  if e.envelopeId ∈ d.seen then (d, true)
  else if identityChanged r.contactId d then (d, false)
  else match commit R e r d with
    | some d' => (d', true)
    | none => (d, false)

/-- One iteration of `consumeIncoming`, its envelope id normalised. -/
def nativeConsume (e : Envelope) (r : Remote) (d : Database) : Database × Bool :=
  if e.envelopeId ∈ d.processed then (d, true)
  else if identityChanged r.contactId d then (d, false)
  else match nativeCommit R e r d with
    | some d' => (d', true)
    | none => (d, false)

/-- What the schema and the statements that write a contact's device promise: its row is
addressed to it and refers to a contact, and conversations have distinct ids. -/
structure Schema (d : Database) : Prop where
  addressed : ∀ r ∈ d.remotes, r.contactId = r.address
  pinned : ∀ r ∈ d.remotes, d.contacts r.contactId ≠ none
  conversationIds : (d.conversations.map Conversation.conversationId).Nodup

/-- A conversation of the contact. -/
def Owned (c id : String) (d : Database) : Prop :=
  ∃ v ∈ d.conversations, v.conversationId = id ∧ v.contactId = c

/-- A message of the contact. -/
def Mine (c messageId : String) (d : Database) : Prop :=
  ∃ m ∈ d.messages, m.messageId = messageId ∧ Owned c m.conversationId d

def messagesIn (id : String) (d : Database) : List Message :=
  d.messages.filter (fun m => m.conversationId == id)

/-- Only rows of the contact and the shared prekeys and id lists differ. -/
structure Touches (kind : ClientKind) (c : String) (d d' : Database) : Prop where
  contacts : d'.contacts = d.contacts
  remotes : d'.remotes = d.remotes
  conversations : ∃ new, d'.conversations = d.conversations ++ new ∧ ∀ v ∈ new, v.contactId = c
  conversationIds : (d.conversations.map Conversation.conversationId).Nodup →
    (d'.conversations.map Conversation.conversationId).Nodup
  messages : ∀ id, ¬Owned c id d' → messagesIn id d' = messagesIn id d
  kept : ∀ m ∈ d.messages, ∃ m' ∈ d'.messages,
    m'.messageId = m.messageId ∧ m'.conversationId = m.conversationId
  links : ∃ new, d'.links = d.links ++ new ∧ ∀ l ∈ new, Mine c l.messageId d'
  attachments : ∃ new, d'.attachments = d.attachments ++ new ∧ ∀ a ∈ new, Mine c a.messageId d'
  downloads : ∃ new, d'.downloads = d.downloads ++ new ∧ ∀ w ∈ new,
    ∃ a ∈ d'.attachments, a.attachmentId = w.attachmentId ∧ Mine c a.messageId d'
  profiles : ∀ k, k ≠ c → d'.profiles k = d.profiles k
  sessions : ∀ k, k ≠ c → d'.sessions k = d.sessions k
  routing : ∀ k, k ≠ c → d'.routing k = d.routing k
  controls : ∃ new, d'.controls = d.controls ++ new ∧ ∀ row ∈ new, row.contactId = c
  packets : ∃ new, d'.packets = d.packets ++ new ∧ ∀ p ∈ new,
    ∃ r ∈ d.remotes, r.contactId = c ∧ r.deviceId = p.recipient
  outbox : d'.outbox = d.outbox
  prekeys : ∀ id, d'.prekeys id = d.prekeys id ∨ d'.prekeys id = none
  kyberPrekeys : ∀ id, d'.kyberPrekeys id = d.kyberPrekeys id ∨ d'.kyberPrekeys id = none
  kyberUsed : ∃ new, d'.kyberUsed = d.kyberUsed ++ new
  seen : ∃ new, d'.seen = d.seen ++ new
  processed : ∃ new, d'.processed = d.processed ++ new
  desktop : kind = .desktop →
    d'.packets = d.packets ∧ d'.kyberUsed = d.kyberUsed ∧ d'.processed = d.processed

section Touches

variable {kind : ClientKind} {c id : String} {d d' d'' : Database} {e : Envelope} {r : Remote}

theorem Touches.refl (kind : ClientKind) (c : String) (d : Database) : Touches kind c d d where
  contacts := rfl
  remotes := rfl
  conversations := ⟨[], by simp, by simp⟩
  conversationIds h := h
  messages _ _ := rfl
  kept m hm := ⟨m, hm, rfl, rfl⟩
  links := ⟨[], by simp, by simp⟩
  attachments := ⟨[], by simp, by simp⟩
  downloads := ⟨[], by simp, by simp⟩
  profiles _ _ := rfl
  sessions _ _ := rfl
  routing _ _ := rfl
  controls := ⟨[], by simp, by simp⟩
  packets := ⟨[], by simp, by simp⟩
  outbox := rfl
  prekeys _ := .inl rfl
  kyberPrekeys _ := .inl rfl
  kyberUsed := ⟨[], by simp⟩
  seen := ⟨[], by simp⟩
  processed := ⟨[], by simp⟩
  desktop _ := ⟨rfl, rfl, rfl⟩

theorem Touches.owned (h : Touches kind c d d') (k : Owned c id d) : Owned c id d' := by
  obtain ⟨v, hv, hid, hc⟩ := k
  obtain ⟨new, heq, -⟩ := h.conversations
  exact ⟨v, heq ▸ List.mem_append_left new hv, hid, hc⟩

theorem Touches.mine (h : Touches kind c d d') (k : Mine c id d) : Mine c id d' := by
  obtain ⟨m, hm, hid, hown⟩ := k
  obtain ⟨m', hm', hid', hconv⟩ := h.kept m hm
  exact ⟨m', hm', hid'.trans hid, hconv ▸ h.owned hown⟩

theorem append_trans {α : Type} {P Q : α → Prop} {x y z : List α}
    (hxy : ∃ new, y = x ++ new ∧ ∀ a ∈ new, P a) (hyz : ∃ new, z = y ++ new ∧ ∀ a ∈ new, Q a)
    (h : ∀ a, P a → Q a) : ∃ new, z = x ++ new ∧ ∀ a ∈ new, Q a := by
  obtain ⟨k, rfl, hk⟩ := hxy
  obtain ⟨l, rfl, hl⟩ := hyz
  refine ⟨k ++ l, List.append_assoc x k l, fun a ha => ?_⟩
  rcases List.mem_append.mp ha with ha | ha
  · exact h a (hk a ha)
  · exact hl a ha

theorem Touches.trans (h : Touches kind c d d') (k : Touches kind c d' d'') : Touches kind c d d'' where
  contacts := k.contacts.trans h.contacts
  remotes := k.remotes.trans h.remotes
  conversations := append_trans h.conversations k.conversations fun _ hv => hv
  conversationIds hd := k.conversationIds (h.conversationIds hd)
  messages id hid :=
    (k.messages id hid).trans (h.messages id fun hown => hid (k.owned hown))
  kept m hm := by
    obtain ⟨m', hm', hid', hconv'⟩ := h.kept m hm
    obtain ⟨m'', hm'', hid'', hconv''⟩ := k.kept m' hm'
    exact ⟨m'', hm'', hid''.trans hid', hconv''.trans hconv'⟩
  links := append_trans h.links k.links fun _ hl => k.mine hl
  attachments := append_trans h.attachments k.attachments fun _ ha => k.mine ha
  downloads := by
    obtain ⟨new, heq, -⟩ := k.attachments
    refine append_trans h.downloads k.downloads ?_
    rintro w ⟨a, ha, hid, hmine⟩
    exact ⟨a, heq ▸ List.mem_append_left new ha, hid, k.mine hmine⟩
  profiles x hx := (k.profiles x hx).trans (h.profiles x hx)
  sessions x hx := (k.sessions x hx).trans (h.sessions x hx)
  routing x hx := (k.routing x hx).trans (h.routing x hx)
  controls := append_trans h.controls k.controls fun _ hrow => hrow
  packets := by
    have later := k.packets
    rw [h.remotes] at later
    exact append_trans h.packets later fun _ hp => hp
  outbox := k.outbox.trans h.outbox
  prekeys x := by
    rcases k.prekeys x with hx | hx
    · rw [hx]
      exact h.prekeys x
    · exact .inr hx
  kyberPrekeys x := by
    rcases k.kyberPrekeys x with hx | hx
    · rw [hx]
      exact h.kyberPrekeys x
    · exact .inr hx
  kyberUsed := by
    obtain ⟨x, hx⟩ := h.kyberUsed
    obtain ⟨y, hy⟩ := k.kyberUsed
    exact ⟨x ++ y, by rw [hy, hx, List.append_assoc]⟩
  seen := by
    obtain ⟨x, hx⟩ := h.seen
    obtain ⟨y, hy⟩ := k.seen
    exact ⟨x ++ y, by rw [hy, hx, List.append_assoc]⟩
  processed := by
    obtain ⟨x, hx⟩ := h.processed
    obtain ⟨y, hy⟩ := k.processed
    exact ⟨x ++ y, by rw [hy, hx, List.append_assoc]⟩
  desktop hk := by
    obtain ⟨hp, hu, hi⟩ := h.desktop hk
    obtain ⟨hp', hu', hi'⟩ := k.desktop hk
    exact ⟨hp'.trans hp, hu'.trans hu, hi'.trans hi⟩

theorem Schema.touches (hd : Schema d) (h : Touches kind c d d') : Schema d' where
  addressed := h.remotes ▸ hd.addressed
  pinned := by
    rw [h.remotes, h.contacts]
    exact hd.pinned
  conversationIds := h.conversationIds hd.conversationIds

theorem touches_saveSession (c ratchet : String) (d : Database) :
    Touches kind c d (saveSession c ratchet d) :=
  { Touches.refl kind c d with sessions := fun _ hk => Function.update_of_ne hk _ _ }

theorem touches_removePreKey (c : String) (n : Nat) (d : Database) :
    Touches kind c d (removePreKey n d) :=
  { Touches.refl kind c d with
    prekeys := fun k => by
      by_cases h : k = n
      · rw [h]
        exact .inr (Function.update_self _ _ _)
      · exact .inl (Function.update_of_ne h _ _) }

/-- A trusted key is the one that is pinned already. -/
theorem saveIdentity_trusted {key : String} (hpin : d.contacts c ≠ none)
    (h : isTrustedIdentity c key d = true) : saveIdentity c key d = d := by
  obtain ⟨k, hk⟩ := Option.ne_none_iff_exists'.mp hpin
  have same : k.identityKey = key := by simpa [isTrustedIdentity, hk] using h
  subst same
  have row : d.contacts c = some { k with
      identityKey := k.identityKey
      verified := k.verified && k.identityKey == k.identityKey
      identityChanged := k.identityChanged || k.identityKey != k.identityKey } := by
    simp [hk]
  unfold saveIdentity
  rw [hk]
  dsimp only
  rw [← row, Function.update_eq_self]

theorem touches_kyber {use : KyberUse} (h : markKyberPreKeyUsed use d = some d') :
    Touches .android c d d' := by
  unfold markKyberPreKeyUsed at h
  split at h
  · cases h
    exact { Touches.refl .android c d with
      kyberPrekeys := fun k => by
        by_cases hk : k = use.prekeyId
        · rw [hk]
          exact .inr (Function.update_self _ _ _)
        · exact .inl (Function.update_of_ne hk _ _) }
  split at h
  · cases h
  · cases h
    exact { Touches.refl .android c d with
      kyberUsed := ⟨_, rfl⟩
      desktop := fun h => by cases h }

theorem touches_elim {prekey : Option Nat} (h : Touches kind c d d') :
    Touches kind c d (prekey.elim d' (fun n => removePreKey n d')) := by
  cases prekey with
  | none => exact h
  | some n => exact h.trans (touches_removePreKey c n d')

theorem decryptPayload_touches {ciphertext plaintext : String} (hd : Schema d) (hr : r ∈ d.remotes)
    (h : decryptPayload R r.address ciphertext d = some (plaintext, d')) :
    Touches kind r.contactId d d' := by
  simp only [decryptPayload, Option.bind_eq_bind, Option.bind_eq_some_iff, Option.guard_eq_some',
    Option.pure_def, Option.some.injEq, Prod.mk.injEq] at h
  obtain ⟨opened, -, _, htrusted, -, rfl⟩ := h
  rw [← hd.addressed r hr] at htrusted ⊢
  rw [saveIdentity_trusted (hd.pinned r hr) htrusted]
  exact touches_elim (touches_saveSession r.contactId opened.session d)

theorem nativeDecrypt_touches {ciphertext plaintext : String} (hd : Schema d) (hr : r ∈ d.remotes)
    (h : nativeDecrypt R r.address ciphertext d = some (plaintext, d')) :
    Touches .android r.contactId d d' := by
  simp only [nativeDecrypt, Option.bind_eq_bind, Option.bind_eq_some_iff, Option.guard_eq_some',
    Option.pure_def, Option.some.injEq, Prod.mk.injEq] at h
  obtain ⟨opened, -, _, htrusted, used, hused, -, rfl⟩ := h
  rw [← hd.addressed r hr] at htrusted hused
  rw [saveIdentity_trusted (hd.pinned r hr) htrusted] at hused
  refine touches_elim ((touches_saveSession r.contactId opened.session d).trans ?_)
  cases hk : opened.kyber with
  | none =>
    rw [hk] at hused
    cases hused
    exact Touches.refl .android _ _
  | some use =>
    rw [hk] at hused
    exact touches_kyber hused

theorem encryptPayload_touches {text ciphertext : String} (hd : Schema d) (hr : r ∈ d.remotes)
    (h : encryptPayload R r.address text d = some (ciphertext, d')) :
    Touches kind r.contactId d d' := by
  simp only [encryptPayload, Option.bind_eq_bind, Option.bind_eq_some_iff, Option.guard_eq_some',
    Option.pure_def, Option.some.injEq, Prod.mk.injEq] at h
  obtain ⟨out, -, _, htrusted, -, rfl⟩ := h
  rw [← hd.addressed r hr] at htrusted ⊢
  rw [saveIdentity_trusted (hd.pinned r hr) htrusted]
  exact touches_saveSession r.contactId out.session d

theorem findOrCreateConversation_touches {newId conversation : String}
    (h : findOrCreateConversation c newId d = some (conversation, d')) :
    Touches kind c d d' ∧ Owned c conversation d' := by
  unfold findOrCreateConversation at h
  split at h
  · rename_i v hv
    cases h
    exact ⟨Touches.refl kind c d, v, List.mem_of_find?_eq_some hv, rfl,
      by simpa using List.find?_some hv⟩
  split at h
  · cases h
  rename_i hfresh
  cases h
  have unused : ∀ v ∈ d.conversations, v.conversationId ≠ newId := by simpa using hfresh
  refine ⟨{ Touches.refl kind c d with
    conversations := ⟨_, rfl, by simp⟩
    conversationIds := fun hd => ?_
    messages := fun _ _ => rfl
    links := ⟨[], by simp, by simp⟩
    attachments := ⟨[], by simp, by simp⟩
    downloads := ⟨[], by simp, by simp⟩ }, ⟨newId, c⟩, by simp, rfl, rfl⟩
  simpa [List.nodup_append] using ⟨hd, unused⟩

theorem touches_putProfile (c name line : String) (d : Database) :
    Touches kind c d (putProfile c name line d) := by
  unfold putProfile
  split
  · exact { Touches.refl kind c d with profiles := fun _ hk => Function.update_of_ne hk _ _ }
  · exact Touches.refl kind c d

theorem touches_applyProfile (c : String) (metadata : Option Json) (d : Database) :
    Touches kind c d (applyProfile c metadata d) := by
  unfold applyProfile
  split
  · exact touches_putProfile c _ _ d
  · exact Touches.refl kind c d

theorem touches_routedProfile (c secret : String) (d : Database) :
    Touches kind c d (routedProfile c secret d) := by
  unfold routedProfile
  split
  · exact Touches.refl kind c d
  · exact { Touches.refl kind c d with routing := fun _ hk => Function.update_of_ne hk _ _ }

theorem touches_sendSecret (c secret : String) (d : Database) :
    Touches kind c d (sendSecret c secret d) :=
  { Touches.refl kind c d with routing := fun _ hk => Function.update_of_ne hk _ _ }

theorem touches_nativeProfile (c fresh : String) (metadata : Option Json) (d : Database) :
    Touches kind c d (nativeProfile R c fresh metadata d) := by
  unfold nativeProfile
  split
  · dsimp only
    split
    · exact ((touches_routedProfile c fresh d).trans (touches_sendSecret c _ _)).trans
        (touches_putProfile c _ _ _)
    · exact touches_putProfile c _ _ _
  · exact Touches.refl kind c d

/-- Rewriting rows of one conversation, ids and conversations kept. -/
theorem touches_messages {conversation : String} {messages : List Message}
    (hown : Owned c conversation d)
    (hother : ∀ id, id ≠ conversation → messages.filter (fun m => m.conversationId == id) =
      messagesIn id d)
    (hkept : ∀ m ∈ d.messages, ∃ m' ∈ messages,
      m'.messageId = m.messageId ∧ m'.conversationId = m.conversationId) :
    Touches kind c d { d with messages := messages } :=
  { Touches.refl kind c d with
    messages := fun id hid => hother id fun e => hid (e ▸ hown)
    kept := hkept
    links := ⟨[], by simp, by simp⟩
    attachments := ⟨[], by simp, by simp⟩
    downloads := ⟨[], by simp, by simp⟩ }

theorem filter_map_other {conversation id : String} {f : Message → Message} (hid : id ≠ conversation)
    (hf : ∀ m, f m = m ∨ m.conversationId = conversation ∧ (f m).conversationId = conversation)
    (l : List Message) :
    (l.map f).filter (fun m => m.conversationId == id) = l.filter (fun m => m.conversationId == id) :=
  BundleConfinement.filter_map_of_missed (fun m => by
    rcases hf m with h | ⟨h, hfm⟩
    · exact .inl h
    · exact .inr ⟨by simpa [h] using hid.symm, by simpa [hfm] using hid.symm⟩) l

theorem isSentIn_conversation {conversation : String} {m : Message}
    (h : isSentIn conversation m = true) : m.conversationId = conversation := by
  simp only [isSentIn, Bool.and_eq_true, beq_iff_eq] at h
  exact h.1

theorem markDelivered_touches {conversation : String} (id : String) (hown : Owned c conversation d) :
    Touches kind c d (markDelivered conversation id d) := by
  refine touches_messages hown (fun x hx => filter_map_other hx (fun m => ?_) _) fun m hm => ?_
  · split
    · rename_i h
      have hm := isSentIn_conversation h.2.1
      exact .inr ⟨hm, hm⟩
    · exact .inl rfl
  · refine ⟨_, List.mem_map_of_mem hm, ?_⟩
    split <;> exact ⟨rfl, rfl⟩

theorem filter_mapIdx_other {conversation id : String} {f : Nat → Message → Message}
    (hid : id ≠ conversation)
    (hf : ∀ i m, f i m = m ∨ m.conversationId = conversation ∧ (f i m).conversationId = conversation)
    (l : List Message) :
    (l.mapIdx f).filter (fun m => m.conversationId == id) =
      l.filter (fun m => m.conversationId == id) := by
  induction l generalizing f with
  | nil => rfl
  | cons m l ih =>
    rw [List.mapIdx_cons, List.filter_cons, List.filter_cons, ih fun i => hf (i + 1)]
    rcases hf 0 m with h | ⟨h, hfm⟩
    · rw [h]
    · have hm : (m.conversationId == id) = false := by simpa [h] using hid.symm
      have hfm : ((f 0 m).conversationId == id) = false := by simpa [hfm] using hid.symm
      rw [hm, hfm]
      rfl

theorem markRead_touches {conversation : String} (id : String) (hown : Owned c conversation d) :
    Touches kind c d (markRead conversation id d) := by
  unfold markRead
  split
  · exact Touches.refl kind c d
  rename_i row hrow
  refine touches_messages hown (fun x hx => filter_mapIdx_other hx (fun i m => ?_) _) fun m hm => ?_
  · split
    · rename_i h
      have hm := isSentIn_conversation h.2
      exact .inr ⟨hm, hm⟩
    · exact .inl rfl
  · obtain ⟨i, hi, rfl⟩ := List.getElem_of_mem hm
    refine ⟨_, List.mem_mapIdx.mpr ⟨i, hi, rfl⟩, ?_⟩
    split <;> exact ⟨rfl, rfl⟩

theorem applyControl_touches {conversation : String} (name upTo : String)
    (hown : Owned c conversation d) : Touches kind c d (applyControl conversation name upTo d) := by
  unfold applyControl
  split
  · exact markDelivered_touches upTo hown
  split
  · exact markRead_touches upTo hown
  · exact Touches.refl kind c d

theorem insertSeen_touches (h : insertSeen id d = some d') : Touches kind c d d' := by
  unfold insertSeen at h
  split at h
  · cases h
  · cases h
    exact { Touches.refl kind c d with seen := ⟨_, rfl⟩ }

theorem insertProcessed_touches (h : insertProcessed id d = some d') : Touches .android c d d' := by
  unfold insertProcessed at h
  split at h
  · cases h
  · cases h
    exact { Touches.refl .android c d with
      processed := ⟨_, rfl⟩
      desktop := fun h => by cases h }

theorem markSeen_touches (c id : String) (d : Database) : Touches kind c d (markSeen id d) := by
  unfold markSeen
  split
  · exact Touches.refl kind c d
  · exact { Touches.refl kind c d with seen := ⟨_, rfl⟩ }

theorem insertMessage_touches {m : Message} (hown : Owned c m.conversationId d)
    (h : insertMessage m d = some d') : Touches kind c d d' ∧ Mine c m.messageId d' := by
  unfold insertMessage at h
  split at h
  · cases h
  cases h
  refine ⟨touches_messages hown (fun id hid => ?_) fun x hx => ⟨x, List.mem_append_left _ hx, rfl, rfl⟩,
    m, by simp, rfl, hown⟩
  have skipped : (m.conversationId == id) = false := by simpa using hid.symm
  simp [messagesIn, List.filter_append, skipped]

theorem insertLink_touches {l : Link} (hmine : Mine c l.messageId d) (h : insertLink l d = some d') :
    Touches kind c d d' := by
  unfold insertLink at h
  split at h
  · cases h
  · cases h
    exact { Touches.refl kind c d with
      links := ⟨[l], rfl, List.forall_mem_singleton.mpr hmine⟩
      attachments := ⟨[], by simp, by simp⟩
      downloads := ⟨[], by simp, by simp⟩ }

theorem storeAttachment_touches {m : Option Manifest} (hmine : Mine c e.messageId d)
    (h : storeAttachment e m d = some d') : Touches kind c d d' := by
  unfold storeAttachment at h
  split at h
  · cases h
    exact Touches.refl kind c d
  rename_i m
  obtain ⟨u, hu, hd'⟩ := Option.bind_eq_some_iff.mp h
  unfold insertAttachment at hu
  unfold insertDownload at hd'
  split at hu
  · cases hu
  split at hd'
  · cases hd'
  cases hu
  cases hd'
  exact { Touches.refl kind c d with
    links := ⟨[], by simp, by simp⟩
    attachments := ⟨_, rfl, List.forall_mem_singleton.mpr hmine⟩
    downloads := ⟨_, rfl, List.forall_mem_singleton.mpr
      ⟨_, List.mem_append_right _ List.mem_cons_self, rfl, hmine⟩⟩ }

/-- The peer of a conversation of the contact is a device of the contact. -/
theorem peerOf_owned {conversation : String} (hd : Schema d) (hown : Owned c conversation d)
    (h : peerOf conversation d = some r) : r ∈ d.remotes ∧ r.contactId = c := by
  obtain ⟨v, hv, hr⟩ := Option.bind_eq_some_iff.mp h
  obtain ⟨hfound, -⟩ := Option.filter_eq_some_iff.mp hr
  obtain ⟨w, hw, hwid, hwc⟩ := hown
  have hvid : v.conversationId = conversation := by simpa using List.find?_some hv
  have same : v = w := List.inj_on_of_nodup_map hd.conversationIds
    (List.mem_of_find?_eq_some hv) hw (hvid.trans hwid.symm)
  have hrc : r.contactId = v.contactId := by simpa using List.find?_some hfound
  exact ⟨List.mem_of_find?_eq_some hfound, hrc.trans (same ▸ hwc)⟩

theorem insertControl_touches {row : ControlRow} (hrow : row.contactId = c)
    (h : insertControl row d = some d') : Touches kind c d d' := by
  unfold insertControl at h
  split at h
  · cases h
  · cases h
    exact { Touches.refl kind c d with controls := ⟨[row], rfl, List.forall_mem_singleton.mpr hrow⟩ }

theorem queueControl_touches {conversation text : String} (hd : Schema d)
    (hown : Owned c conversation d) (h : queueControl R e conversation text d = some d') :
    Touches kind c d d' := by
  simp only [queueControl, Option.bind_eq_bind, Option.bind_eq_some_iff] at h
  obtain ⟨peer, hpeer, ⟨ciphertext, u⟩, hu, hd'⟩ := h
  obtain ⟨hr, rfl⟩ := peerOf_owned hd hown hpeer
  exact (encryptPayload_touches R hd hr hu).trans (insertControl_touches rfl hd')

theorem persistPacket_touches {p : Packet} (hr : r ∈ d.remotes) (hp : r.deviceId = p.recipient) :
    Touches .android r.contactId d (persistPacket p d) := by
  unfold persistPacket
  split
  · exact Touches.refl .android _ d
  · exact { Touches.refl .android r.contactId d with
      packets := ⟨[p], rfl, List.forall_mem_singleton.mpr ⟨r, hr, rfl, hp⟩⟩
      desktop := fun h => by cases h }

theorem nativeQueueControl_touches {conversation text : String} (hd : Schema d)
    (hown : Owned c conversation d) (h : nativeQueueControl R e conversation text d = some d') :
    Touches .android c d d' := by
  simp only [nativeQueueControl, Option.bind_eq_bind, Option.bind_eq_some_iff, Option.pure_def,
    Option.some.injEq] at h
  obtain ⟨peer, hpeer, ⟨ciphertext, u⟩, hu, w, hw, rfl⟩ := h
  obtain ⟨hr, rfl⟩ := peerOf_owned hd hown hpeer
  have routed : Touches .android _ _ _ := touches_routedProfile peer.contactId e.receiveSecret d
  have sealed : Touches .android _ _ _ := encryptPayload_touches R (hd.touches routed) (routed.remotes ▸ hr) hu
  have queued : Touches .android _ _ _ := (routed.trans sealed).trans (insertControl_touches rfl hw)
  exact queued.trans (persistPacket_touches (queued.remotes ▸ hr) rfl)

theorem linkRemote_touches {queue : String → Database → Option Database} {remote : Option String}
    (hqueue : ∀ id u v, Touches kind c d u → queue id u = some v → Touches kind c u v)
    (hmine : Mine c e.messageId d) (h : linkRemote queue e remote d = some d') :
    Touches kind c d d' := by
  unfold linkRemote at h
  split at h
  · split at h
    · obtain ⟨u, hu, hd'⟩ := Option.bind_eq_some_iff.mp h
      have linked : Touches kind _ _ _ := insertLink_touches hmine hu
      exact linked.trans (hqueue _ _ _ linked hd')
    · cases h
      exact Touches.refl kind c d
  · cases h
    exact Touches.refl kind c d

theorem storeText_touches {conversation : String} {payload : Json} (hd : Schema d)
    (hown : Owned c conversation d) (h : storeText R e conversation payload d = some d') :
    Touches kind c d d' := by
  simp only [storeText, Option.bind_eq_bind, Option.bind_eq_some_iff, Option.pure_def,
    Option.some.injEq] at h
  obtain ⟨manifest, -, text, -, u, hu, v, hv, w, hw, rfl⟩ := h
  obtain ⟨message, mine⟩ : Touches kind _ _ _ ∧ _ := insertMessage_touches (m := ⟨e.messageId, conversation, .received, text,
    some e.now, some e.envelopeId, .received, _⟩) hown hu
  have linked : Touches kind _ _ _ := linkRemote_touches (fun id x y hx hy =>
    queueControl_touches R (hd.touches (message.trans hx)) ((message.trans hx).owned hown) hy) mine hv
  have attached : Touches kind _ _ _ := storeAttachment_touches (linked.mine mine) hw
  exact ((message.trans linked).trans attached).trans (markSeen_touches c _ w)

theorem nativeStoreText_touches {conversation : String} {payload : Json} (hd : Schema d)
    (hown : Owned c conversation d) (h : nativeStoreText R e conversation payload d = some d') :
    Touches .android c d d' := by
  simp only [nativeStoreText, Option.bind_eq_bind, Option.bind_eq_some_iff] at h
  obtain ⟨manifest, -, u, hu, v, hv, w, hw, x, hx, hd'⟩ := h
  obtain ⟨message, mine⟩ : Touches .android _ _ _ ∧ _ := insertMessage_touches (m := ⟨e.messageId, conversation, .received, _,
    some e.now, some e.envelopeId, .received, _⟩) hown hu
  have linked : Touches .android _ _ _ := linkRemote_touches (fun id x y hx hy =>
    nativeQueueControl_touches R (hd.touches (message.trans hx)) ((message.trans hx).owned hown) hy)
    mine hv
  have attached : Touches .android _ _ _ := storeAttachment_touches (linked.mine mine) hw
  exact (((message.trans linked).trans attached).trans (insertSeen_touches hx)).trans
    (insertProcessed_touches hd')

theorem commit_touches (hd : Schema d) (hr : r ∈ d.remotes) (h : commit R e r d = some d') :
    Touches kind r.contactId d d' := by
  simp only [commit, Option.bind_eq_bind, Option.bind_eq_some_iff] at h
  obtain ⟨_, -, ⟨plaintext, u⟩, hu, payload, -, ⟨conversation, v⟩, hv, metadata, -, h⟩ := h
  have opened : Touches kind _ _ _ := decryptPayload_touches R hd hr hu
  obtain ⟨found, hown⟩ : Touches kind _ _ _ ∧ _ := findOrCreateConversation_touches hv
  have named : Touches kind _ _ _ := (opened.trans found).trans (touches_applyProfile _ metadata v)
  have applied : Touches kind _ _ _ := touches_applyProfile r.contactId metadata v
  have owned := applied.owned hown
  split at h
  · exact named.trans (storeText_touches R (hd.touches named) owned h)
  · exact (named.trans (applyControl_touches _ _ owned)).trans (insertSeen_touches h)

theorem nativeCommit_touches (hd : Schema d) (hr : r ∈ d.remotes)
    (h : nativeCommit R e r d = some d') : Touches .android r.contactId d d' := by
  simp only [nativeCommit, Option.bind_eq_bind, Option.bind_eq_some_iff] at h
  obtain ⟨_, -, ⟨plaintext, u⟩, hu, payload, -, _, -, _, -, ⟨conversation, v⟩, hv, h⟩ := h
  have opened : Touches .android _ _ _ := nativeDecrypt_touches R hd hr hu
  obtain ⟨found, hown⟩ : Touches .android _ _ _ ∧ _ := findOrCreateConversation_touches hv
  have profile : Touches .android _ _ _ := touches_nativeProfile R r.contactId e.receiveSecret (payload.get? "profile") v
  have named : Touches .android _ _ _ := (opened.trans found).trans profile
  have owned := profile.owned hown
  split at h
  · exact named.trans (nativeStoreText_touches R (hd.touches named) owned h)
  · obtain ⟨w, hw, hd'⟩ := Option.bind_eq_some_iff.mp h
    exact ((named.trans (applyControl_touches _ _ owned)).trans (insertSeen_touches hw)).trans
      (insertProcessed_touches hd')

/-- `Touches`, and the messages of every other contact's conversations are as they were. On
the desktop only the tables of the contact, the one-time prekeys and the seen ids differ;
Android also writes its processed ids, its copy of the receipt and its used Kyber keys. -/
structure Confined (kind : ClientKind) (c : String) (d d' : Database) : Prop
    extends Touches kind c d d' where
  others : ∀ v ∈ d.conversations, v.contactId ≠ c →
    messagesIn v.conversationId d' = messagesIn v.conversationId d

theorem Touches.confined (hd : Schema d) (h : Touches kind c d d') : Confined kind c d d' where
  toTouches := h
  others v hv hne := by
    refine h.messages _ ?_
    rintro ⟨w, hw, hid, hc⟩
    obtain ⟨new, heq, -⟩ := h.conversations
    have hv' : v ∈ d'.conversations := heq ▸ List.mem_append_left new hv
    have same : w = v :=
      List.inj_on_of_nodup_map (h.conversationIds hd.conversationIds) hw hv' hid
    exact hne (same ▸ hc)

theorem remoteOf_mem {deviceId : String} (h : remoteOf deviceId d = some r) : r ∈ d.remotes :=
  List.mem_of_find?_eq_some h

/-- The iteration of a client. -/
def consumeBy (kind : ClientKind) (e : Envelope) (r : Remote) (d : Database) : Database × Bool :=
  match kind with
  | .desktop => consume R e r d
  | .android => nativeConsume R e r d

theorem consumeBy_cases (kind : ClientKind) (hd : Schema d) (hr : r ∈ d.remotes) :
    (consumeBy R kind e r d).1 = d ∨
      (consumeBy R kind e r d).2 = true ∧ Touches kind r.contactId d (consumeBy R kind e r d).1 := by
  cases kind with
  | desktop =>
    simp only [consumeBy, consume]
    split
    · exact .inl rfl
    split
    · exact .inl rfl
    split
    · rename_i h
      exact .inr ⟨rfl, commit_touches R hd hr h⟩
    · exact .inl rfl
  | android =>
    simp only [consumeBy, nativeConsume]
    split
    · exact .inl rfl
    split
    · exact .inl rfl
    split
    · rename_i h
      exact .inr ⟨rfl, nativeCommit_touches R hd hr h⟩
    · exact .inl rfl

/-- Consuming an envelope of a contact, whatever its payload, changes rows of that contact
and the shared key and id lists only; an envelope that is not acknowledged changes nothing. -/
theorem payload_confined (R : Runtime) (kind : ClientKind) (e : Envelope) (d : Database)
    (hd : Schema d) (r : Remote) (hr : remoteOf e.senderId d = some r) :
    ((consumeBy R kind e r d).2 = false → (consumeBy R kind e r d).1 = d) ∧
      Confined kind r.contactId d (consumeBy R kind e r d).1 := by
  rcases consumeBy_cases R kind hd (remoteOf_mem hr) with same | ⟨acknowledged, touches⟩
  · refine ⟨fun _ => same, ?_⟩
    rw [same]
    exact (Touches.refl kind r.contactId d).confined hd
  · exact ⟨fun h => (Bool.false_ne_true (h.symm.trans acknowledged)).elim, touches.confined hd⟩

section Example

/-- A contact whose every message is a delivery receipt for `m`. -/
def receipts : Runtime where
  decrypt _ _ _ := some ⟨"receipt", "key", "ratchet", none, none⟩
  encrypt _ _ _ := none
  parse _ := some (.obj [("type", .str "delivered"), ("upToMessageId", .str "m")])
  validateManifest _ := none
  controlText _ _ := ""
  bindText _ := none
  coerceString := OnionListener.Json.text
  coerceInt _ := none

def receipt : Envelope where
  envelopeId := "e"
  senderId := "bob-device"
  ciphertext := "bytes"
  now := 0
  messageId := "new"
  conversationId := "to-bob"
  controlId := "control"
  receiveSecret := "secret"
  throws := false

def bob : Remote := ⟨"bob.1", "bob", "bob-device", 1⟩

def met : Database where
  contacts k := if k = "bob.1" then some ⟨"bob", none, "key", false, false⟩ else none
  remotes := [bob]
  conversations := [⟨"to-bob", "bob.1"⟩]
  messages := [⟨"m", "to-bob", .sent, "hello", none, none, .sent, none⟩]
  links := []
  attachments := []
  downloads := []
  profiles _ := none
  sessions _ := none
  routing _ := none
  controls := []
  packets := []
  outbox := []
  prekeys _ := none
  kyberPrekeys _ := none
  kyberUsed := []
  seen := []
  processed := []

theorem met_schema : Schema met where
  addressed r hr := by
    rw [List.mem_singleton.mp hr]
    rfl
  pinned r hr := by
    rw [List.mem_singleton.mp hr]
    simp [met, bob]
  conversationIds := by simp [met]

/-- The receipt marks the message and is confined to its contact. -/
theorem receipt_confined :
    (consumeBy receipts .android receipt bob met).1.messages.map Message.status = [.delivered] ∧
    ((consumeBy receipts .android receipt bob met).2 = false →
      (consumeBy receipts .android receipt bob met).1 = met) ∧
    Confined .android "bob.1" met (consumeBy receipts .android receipt bob met).1 :=
  ⟨rfl, payload_confined receipts .android receipt met met_schema bob rfl⟩

/-- Android writes `processed_envelope_ids` for every envelope it consumes. -/
theorem processed_not_confined :
    ¬∀ (R : Runtime) (kind : ClientKind) (e : Envelope) (d : Database), Schema d →
      ∀ r, remoteOf e.senderId d = some r →
        Confined .desktop r.contactId d (consumeBy R kind e r d).1 := by
  intro h
  have desktop := (h receipts .android receipt met met_schema bob rfl).desktop rfl
  have recorded : (consumeBy receipts .android receipt bob met).1.processed = ["e"] := rfl
  rw [recorded] at desktop
  exact absurd desktop.2.2 (by simp [met])

end Example

end Touches

end PayloadConfinement
