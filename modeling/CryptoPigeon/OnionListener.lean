import CryptoPigeon.JsonText
import Mathlib.Data.Rat.Defs
import Mathlib.Tactic.Common

/-! # What the onion service answers

`TorOnionTransport.receive` of the desktop and `receive` with `Host.receive` of the phone:
the headers, the signature over the request, the identity of the sender's contact, the inbox
and the chunks of an attachment. Conversions of the two runtimes (`Number`, UTF-8 decoding,
JSON readers, base64 of a key) are parameters. -/
namespace OnionListener

open JsonText

inductive Json where
  | null
  | bool (b : Bool)
  | num (q : Rat)
  | str (s : String)
  | arr (items : List Json)
  | obj (fields : List (String × Json))

def Json.get? (key : String) : Json → Option Json
  | .obj fields => (fields.find? (fun f => f.1 == key)).map Prod.snd
  | _ => none

/-- `JSONObject.put`: the value of a key is replaced, a new key comes last. -/
def Json.put (j : Json) (key : String) (value : Json) : Json :=
  match j with
  | .obj fields =>
    if fields.any (fun f => f.1 == key) then
      .obj (fields.map (fun f => if f.1 == key then (key, value) else f))
    else .obj (fields ++ [(key, value)])
  | j => j

structure Peer where
  deviceId : String
  contactId : String
  onion : String
  authKey : String
  invite : String

structure Contact where
  contactId : String
  identityChanged : Int

structure Conversation where
  conversationId : String
  contactId : String

inductive Direction where
  | sent
  | received
  deriving DecidableEq

structure Message where
  messageId : String
  conversationId : String
  direction : Direction
  disappearAt : Option Int

structure Attachment where
  attachmentId : String
  messageId : String

structure Link where
  attachmentId : String
  blobId : String

structure Chunk where
  blobId : String
  chunkIndex : Nat
  nonce : String
  ciphertext : String

structure InboxRow where
  envelopeId : String
  envelope : Json

structure Database where
  peers : List Peer
  contacts : List Contact
  conversations : List Conversation
  messages : List Message
  attachments : List Attachment
  links : List Link
  chunks : List Chunk
  inbox : List InboxRow

/-- A request on the listener's socket; absent headers are `none`. -/
structure Request where
  method : String
  path : String
  sender : Option String
  time : Option String
  nonce : Option String
  signature : Option String
  transferEncoding : Bool
  chunks : List (List UInt8)

/-- The fields a request signs. -/
structure Content where
  sender : String
  time : Int
  nonce : String
  method : String
  path : String
  body : String

/-- The device the service runs for, whether it has been stopped or its vault left, and the
clock when the request arrived and when it is served. -/
structure Listener where
  deviceId : String
  stopped : Bool
  arrivedAt : Int
  now : Int

inductive Reply where
  | accepted
  | chunk (nonce ciphertext : String)

abbrev Served := Except String Reply × Database

def signedText (c : Content) : List Char :=
  '[' :: (quote "cp-onion-request-v1" ++ ',' :: (quote c.sender ++ ',' :: (c.time.repr.toList ++
    ',' :: (quote c.nonce ++ ',' :: (quote c.method ++ ',' :: (quote c.path ++
      ',' :: (quote (String.ofList (base64 c.body.toUTF8.data.toList)) ++ [']'])))))))

def p2pSigningBytes (c : Content) : ByteArray := (String.ofList (signedText c)).toUTF8

theorem p2pSigningBytes_inj {c c' : Content} (h : p2pSigningBytes c = p2pSigningBytes c') :
    c = c' := by
  obtain ⟨sender, time, nonce, method, path, body⟩ := c
  obtain ⟨sender', time', nonce', method', path', body'⟩ := c'
  have text := String.ofList_inj.mp (String.toByteArray_inj.mp h)
  obtain ⟨-, h⟩ := quote_append_inj (List.cons.inj text).2
  obtain ⟨rfl, h⟩ := quote_append_inj (List.cons.inj h).2
  obtain ⟨rfl, h⟩ := repr_append_inj (List.cons.inj h).2
  obtain ⟨rfl, h⟩ := quote_append_inj h
  obtain ⟨rfl, h⟩ := quote_append_inj (List.cons.inj h).2
  obtain ⟨rfl, h⟩ := quote_append_inj (List.cons.inj h).2
  obtain ⟨body64, -⟩ := quote_append_inj (List.cons.inj h).2
  have bytes := base64_inj (String.ofList_inj.mp body64)
  have data : body.toUTF8 = body'.toUTF8 := ByteArray.ext (Array.toList_inj.mp bytes)
  rw [String.toByteArray_inj.mp data]

def peerOf (sender : String) (d : Database) : Option Peer :=
  d.peers.find? (fun p => p.deviceId == sender)

def identityChanged (contactId : String) (d : Database) : Bool :=
  d.contacts.any (fun c => c.contactId == contactId && c.identityChanged == 1)

/-- `/^[a-f0-9]{32}$/`. -/
def nonceShape (nonce : String) : Bool :=
  nonce.length == 32 && nonce.toList.all (fun c => ('a' ≤ c && c ≤ 'f') || ('0' ≤ c && c ≤ '9'))

/-- The text after a literal prefix. -/
def stripPrefix (literal : String) (text : List Char) : Option (List Char) :=
  if literal.toList <+: text then some (text.drop literal.length) else none

/-- `/^\/p2p\/v1\/attachments\/([a-f0-9-]{36})\/chunks\/(\d{1,3})$/` and its two groups. -/
def chunkPath (path : String) : Option (String × Nat) :=
  (stripPrefix "/p2p/v1/attachments/" path.toList).bind fun rest =>
    (stripPrefix "/chunks/" (rest.drop 36)).bind fun digits =>
      if (rest.take 36).length = 36 ∧
          (rest.take 36).all (fun c =>
            ('a' ≤ c && c ≤ 'f') || ('0' ≤ c && c ≤ '9') || c == '-') ∧
          1 ≤ digits.length ∧ digits.length ≤ 3 ∧
          digits.all (fun c => '0' ≤ c && c ≤ '9') then
        some (String.ofList (rest.take 36), digits.foldl (fun n c => 10 * n + (c.toNat - 48)) 0)
      else none

/-- The attachments of unexpired sent messages to the contact that are linked to the blob. -/
def allowed (contactId blobId : String) (now : Int) (d : Database) : Bool :=
  d.attachments.any fun a => d.messages.any fun m =>
    m.messageId == a.messageId &&
    d.conversations.any (fun c =>
      c.conversationId == m.conversationId && c.contactId == contactId) &&
    m.direction == .sent && m.disappearAt.all (fun t => decide (now < t)) &&
    d.links.any (fun l => l.attachmentId == a.attachmentId && l.blobId == blobId)

def chunkRow (blobId : String) (index : Nat) (d : Database) : Option Chunk :=
  d.chunks.find? (fun k => k.blobId == blobId && k.chunkIndex == index)

def getChunk (contactId blobId : String) (index : Nat) (now : Int) (d : Database) :
    Except String Reply :=
  if allowed contactId blobId now d then
    match chunkRow blobId index d with
    | some k => .ok (.chunk k.nonce k.ciphertext)
    | none => .error "CHUNK_MISSING"
  else .error "UNAUTHORIZED"

/-- `INSERT OR IGNORE INTO tor_inbox`. -/
def insertOrIgnore (id : String) (envelope : Json) (d : Database) : Database :=
  if d.inbox.any (fun row => row.envelopeId == id) then d
  else { d with inbox := d.inbox ++ [⟨id, envelope⟩] }

def hexDigits (s : String) : Bool :=
  s.toList.all (fun c =>
    ('0' ≤ c && c ≤ '9') || ('a' ≤ c && c ≤ 'f') || ('A' ≤ c && c ≤ 'F'))

/-- `z.string().uuid()`: groups of 8, 4, 4, 4 and 12 hex digits. -/
def uuidShape (s : String) : Bool :=
  (s.toList.splitOn '-').map List.length == [8, 4, 4, 4, 12] &&
  (s.toList.splitOn '-').all (fun g => hexDigits (String.ofList g))

/-- `/^[A-Za-z0-9+/]+={0,2}$/`. -/
def base64Shape (s : String) : Bool :=
  let digits := s.toList.takeWhile (fun c => c != '=')
  digits != [] &&
  digits.all (fun c => ('A' ≤ c && c ≤ 'Z') || ('a' ≤ c && c ≤ 'z') || ('0' ≤ c && c ≤ '9') ||
    c == '+' || c == '/') &&
  [[], ['='], ['=', '=']].contains (s.toList.drop digits.length)

structure Capabilities where
  supportsWebRtcP2p : Option Bool
  protocolVersion : Int

structure Envelope where
  envelopeId : String
  mailboxId : String
  ciphertext : String
  clientCapabilities : Option Capabilities
  envelopeType : Option String
  ttlMs : Option Int
  createdAtMs : Option Int

def Json.string : Json → Option String
  | .str s => some s
  | _ => none

def Json.int : Json → Option Int
  | .num q => if q.den = 1 then some q.num else none
  | _ => none

/-- A `z.optional` field: absent, or there and well formed. -/
def optionalField {α : Type} (read : Json → Option α) (key : String) (j : Json) :
    Option (Option α) :=
  match j.get? key with
  | none => some none
  | some v => (read v).map some

def clientCapabilitiesSchema (j : Json) : Option Capabilities := do
  let webRtc ← optionalField (fun v => match v with | .bool b => some b | _ => none)
    "supportsWebRtcP2p" j
  let version ← (j.get? "protocolVersion").bind Json.int
  guard (0 < version)
  return ⟨webRtc, version⟩

def envelopeSchema (j : Json) : Option Envelope := do
  let version ← (j.get? "version").bind Json.int
  guard (version = 1)
  let envelopeId ← (j.get? "envelopeId").bind Json.string
  guard ((envelopeId.length = 32 ∧ hexDigits envelopeId = true) ∨ uuidShape envelopeId = true)
  let mailboxId ← (j.get? "mailboxId").bind Json.string
  guard (1 ≤ mailboxId.length)
  let ciphertext ← (j.get? "ciphertext").bind Json.string
  guard (base64Shape ciphertext = true)
  let capabilities ← optionalField clientCapabilitiesSchema "clientCapabilities" j
  let envelopeType ← optionalField Json.string "envelopeType" j
  guard (envelopeType.all fun t =>
    ["MESSAGE", "RECEIPT_DELIVERED", "RECEIPT_READ", "TYPING", "ATTACHMENT_CHUNK"].contains t)
  let ttlMs ← optionalField Json.int "ttlMs" j
  guard (ttlMs.all fun t => decide (0 < t ∧ t ≤ 30 * 24 * 60 * 60 * 1000))
  let createdAtMs ← optionalField Json.int "createdAtMs" j
  guard (createdAtMs.all fun t => decide (0 ≤ t))
  return ⟨envelopeId, mailboxId, ciphertext, capabilities, envelopeType, ttlMs, createdAtMs⟩

def Capabilities.toJson (c : Capabilities) : Json :=
  .obj ((c.supportsWebRtcP2p.map fun b => ("supportsWebRtcP2p", Json.bool b)).toList ++
    [("protocolVersion", .num c.protocolVersion)])

/-- `{...envelope, senderId: sender}`. -/
def stored (e : Envelope) (sender : String) : Json :=
  .obj ([("version", .num 1), ("envelopeId", .str e.envelopeId), ("mailboxId", .str e.mailboxId),
    ("ciphertext", .str e.ciphertext)] ++
    (e.clientCapabilities.map fun c => ("clientCapabilities", c.toJson)).toList ++
    (e.envelopeType.map fun t => ("envelopeType", Json.str t)).toList ++
    (e.ttlMs.map fun t => ("ttlMs", Json.num t)).toList ++
    (e.createdAtMs.map fun t => ("createdAtMs", Json.num t)).toList ++
    [("senderId", .str sender)])

/-- What `receive` takes from Node: `Number` (`none` is NaN or infinite), UTF-8 decoding,
`JSON.parse`, the length of a base64 text's bytes, and `verifyChallenge` on base64 texts. -/
structure Node where
  number : String → Option Rat
  toUtf8 : List UInt8 → String
  parse : String → Option Json
  decodedLength : String → Nat
  verifyChallenge : String → ByteArray → String → Bool

/-- The request once `Number.isSafeInteger(time)` holds; a missing time is NaN. -/
def contentOf (N : Node) (r : Request) : Option Content :=
  (r.time.bind N.number).bind fun time =>
    if time.den = 1 ∧ time.num.natAbs ≤ 2 ^ 53 - 1 then
      some ⟨r.sender.getD "", time.num, r.nonce.getD "", r.method, r.path,
        N.toUtf8 r.chunks.flatten⟩
    else none

def postEnvelope (N : Node) (L : Listener) (c : Content) (d : Database) : Served :=
  match (N.parse c.body).bind envelopeSchema with
  | none => (.error "TOR_REQUEST_FAILED", d)
  | some e =>
    if e.mailboxId ≠ L.deviceId ∨ 512 * 1024 < N.decodedLength e.ciphertext then
      (.error "INVALID_ENVELOPE", d)
    else (.ok .accepted, insertOrIgnore e.envelopeId (stored e c.sender) d)

/-- `TorOnionTransport.receive` of the desktop; every error is answered 403. -/
def receive (N : Node) (r : Request) (L : Listener) (d : Database) : Served :=
  if 768 * 1024 < r.chunks.flatten.length then (.error "BODY_TOO_LARGE", d)
  else match contentOf N r with
    | none => (.error "UNAUTHORIZED", d)
    | some c =>
      if L.stopped = true ∨ 120000 < (L.arrivedAt - c.time).natAbs ∨ nonceShape c.nonce = false then
        (.error "UNAUTHORIZED", d)
      else match peerOf c.sender d with
        | none => (.error "UNAUTHORIZED", d)
        | some peer =>
          if N.verifyChallenge peer.authKey (p2pSigningBytes c) (r.signature.getD "") = false then
            (.error "UNAUTHORIZED", d)
          else if identityChanged peer.contactId d then (.error "IDENTITY_CHANGED", d)
          else if c.method = "POST" ∧ c.path = "/p2p/v1/envelopes" then postEnvelope N L c d
          else match chunkPath c.path with
            | some (blob, index) =>
              if c.method = "GET" then (getChunk peer.contactId blob index L.now d, d)
              else (.error "NOT_FOUND", d)
            | none => (.error "NOT_FOUND", d)

/-- What the phone takes from its runtime: `Long.parseLong`, UTF-8 decoding, `JSONObject` with
its coercing `getString` and `getInt`, `Crypto.unb64` and `Crypto.edVerifySpki`. -/
structure Java where
  parseLong : String → Option Int
  toUtf8 : List UInt8 → String
  parse : String → Option Json
  coerceString : Json → String
  coerceInt : Json → Option Int
  decodedLength : String → Option Nat
  edVerifySpki : String → ByteArray → String → Bool

def nativeContentOf (J : Java) (r : Request) : Option Content := do
  let sender ← r.sender
  let time ← J.parseLong (r.time.getD "0")
  let nonce ← r.nonce
  return ⟨sender, time, nonce, r.method, r.path, J.toUtf8 r.chunks.flatten⟩

def Java.getString (J : Java) (key : String) (j : Json) : Option String :=
  (j.get? key).map J.coerceString

def nativePostEnvelope (J : Java) (L : Listener) (c : Content) (d : Database) : Served :=
  match J.parse c.body with
  | none => (.error "TOR_REQUEST_FAILED", d)
  | some packet =>
    match J.getString "envelopeId" packet, (packet.get? "version").bind J.coerceInt,
        J.getString "mailboxId" packet, (J.getString "ciphertext" packet).bind J.decodedLength with
    | some id, some version, some mailboxId, some length =>
      if version ≠ 1 ∨ nonceShape (String.ofList (id.toList.filter (fun ch => ch != '-'))) = false ∨
          mailboxId ≠ L.deviceId ∨ 512 * 1024 < length then
        (.error "TOR_REQUEST_FAILED", d)
      else (.ok .accepted, insertOrIgnore id (packet.put "senderId" (.str c.sender)) d)
    | _, _, _, _ => (.error "TOR_REQUEST_FAILED", d)

/-- `receive` of the socket and `Host.receive` of the phone; every error is answered 403. -/
def nativeReceive (J : Java) (r : Request) (L : Listener) (d : Database) : Served :=
  if r.transferEncoding ∨ 768 * 1024 < r.chunks.flatten.length then (.error "TOR_REQUEST_FAILED", d)
  else match nativeContentOf J r, r.signature with
    | some c, some signature =>
      if c.time < L.arrivedAt - 120000 ∨ L.arrivedAt + 120000 < c.time then
        (.error "TOR_REQUEST_FAILED", d)
      else if L.stopped = true ∨ nonceShape c.nonce = false then (.error "TOR_REQUEST_FAILED", d)
      else match peerOf c.sender d with
        | none => (.error "TOR_REQUEST_FAILED", d)
        | some peer =>
          if J.edVerifySpki peer.authKey (p2pSigningBytes c) signature = false then
            (.error "TOR_REQUEST_FAILED", d)
          else if d.peers.any (fun p =>
              p.deviceId == c.sender && identityChanged p.contactId d) then
            (.error "IDENTITY_CHANGED", d)
          else if c.method = "POST" ∧ c.path = "/p2p/v1/envelopes" then
            nativePostEnvelope J L c d
          else match chunkPath c.path with
            | some (blob, index) =>
              if c.method = "GET" then (getChunk peer.contactId blob index L.now d, d)
              else (.error "NOT_FOUND", d)
            | none => (.error "NOT_FOUND", d)
    | _, _ => (.error "TOR_REQUEST_FAILED", d)

def mailboxOf (coerce : Json → String) (j : Json) : Option String :=
  (j.get? "mailboxId").map coerce

def Json.text : Json → String
  | .str s => s
  | _ => ""

/-- The pinned key of the named sender verifies the request, its holder signed these very
fields, the request is at most two minutes old and the contact's identity has not changed. -/
structure Verified (verify : String → ByteArray → String → Bool)
    (signed : String → ByteArray → Prop) (signature : String) (L : Listener) (d : Database)
    (c : Content) (peer : Peer) : Prop where
  named : peerOf c.sender d = some peer
  verifies : verify peer.authKey (p2pSigningBytes c) signature = true
  holder : signed peer.authKey (p2pSigningBytes c)
  exact : ∀ c', p2pSigningBytes c' = p2pSigningBytes c → c' = c
  fresh : (L.arrivedAt - c.time).natAbs ≤ 120000
  unchanged : ∀ k ∈ d.contacts, k.contactId = peer.contactId → k.identityChanged ≠ 1

/-- The blob belongs to an unexpired sent message of the conversation with the contact. -/
def Linked (contactId blobId : String) (now : Int) (d : Database) : Prop :=
  ∃ a ∈ d.attachments, ∃ m ∈ d.messages, ∃ c ∈ d.conversations, ∃ l ∈ d.links,
    m.messageId = a.messageId ∧ c.conversationId = m.conversationId ∧ c.contactId = contactId ∧
    m.direction = .sent ∧ (∀ t, m.disappearAt = some t → now < t) ∧
    l.attachmentId = a.attachmentId ∧ l.blobId = blobId

def inboxIds (d : Database) : List String := d.inbox.map InboxRow.envelopeId

section Lawful

variable (verify : String → ByteArray → String → Bool) (signed : String → ByteArray → Prop)
  (coerce : Json → String) (content : Option Content) (signature : String)
  (stores : Option (String × Json))

/-- Everything one request can do. -/
inductive Outcome (L : Listener) (d : Database) : Served → Prop
  | refused (code : String) : Outcome L d (.error code, d)
  | posted (c : Content) (peer : Peer) (id : String) (envelope : Json) (hc : content = some c)
      (hv : Verified verify signed signature L d c peer) (hs : stores = some (id, envelope))
      (hm : mailboxOf coerce envelope = some L.deviceId)
      (hn : envelope.get? "senderId" = some (.str c.sender)) :
      Outcome L d (.ok .accepted, insertOrIgnore id envelope d)
  | asked (c : Content) (peer : Peer) (blob : String) (index : Nat) (hc : content = some c)
      (hv : Verified verify signed signature L d c peer) (hg : c.method = "GET")
      (hp : chunkPath c.path = some (blob, index)) :
      Outcome L d (getChunk peer.contactId blob index L.now d, d)

/-- What holds of a request, whenever and on whatever database it is served. -/
structure Lawful (serve : Listener → Database → Served) : Prop where
  authorized : ∀ L d reply, (serve L d).1 = .ok reply →
    ∃ c peer, content = some c ∧ Verified verify signed signature L d c peer
  linked : ∀ L d nonce ciphertext, (serve L d).1 = .ok (.chunk nonce ciphertext) →
    ∃ c peer blob index, content = some c ∧ peerOf c.sender d = some peer ∧
      chunkPath c.path = some (blob, index) ∧ Linked peer.contactId blob L.now d ∧
      ∃ row ∈ d.chunks, row = ⟨blob, index, nonce, ciphertext⟩
  addressed : ∀ L d, ∀ row ∈ (serve L d).2.inbox, row ∉ d.inbox →
    mailboxOf coerce row.envelope = some L.deviceId ∧
      ∃ c, content = some c ∧ row.envelope.get? "senderId" = some (.str c.sender)
  unchanged : ∀ L d, (serve L d).1 ≠ .ok .accepted → (serve L d).2 = d
  appends : ∀ L d, ∃ rows, (serve L d).2 = { d with inbox := d.inbox ++ rows }
  oneRow : ∀ L d, (inboxIds d).Nodup → (inboxIds (serve L d).2).Nodup
  replayed : ∀ L d, (serve L d).1 = .ok .accepted →
    ∃ id ∈ inboxIds (serve L d).2, ∀ L' d', id ∈ inboxIds d' → (serve L' d').2 = d'

end Lawful

theorem allowed_linked {contactId blobId : String} {now : Int} {d : Database}
    (h : allowed contactId blobId now d = true) : Linked contactId blobId now d := by
  obtain ⟨a, ha, h⟩ := List.any_eq_true.mp h
  obtain ⟨m, hm, h⟩ := List.any_eq_true.mp h
  simp only [Bool.and_eq_true, beq_iff_eq, List.any_eq_true] at h
  obtain ⟨⟨⟨⟨hma, c, hc, hcm, hcc⟩, hs⟩, ht⟩, l, hl, hla, hlb⟩ := h
  refine ⟨a, ha, m, hm, c, hc, l, hl, hma, hcm, hcc, hs, fun t h => ?_, hla, hlb⟩
  rw [h, Option.all_some] at ht
  exact of_decide_eq_true ht

theorem getChunk_linked {contactId blobId nonce ciphertext : String} {index : Nat} {now : Int}
    {d : Database} (h : getChunk contactId blobId index now d = .ok (.chunk nonce ciphertext)) :
    Linked contactId blobId now d ∧ ∃ row ∈ d.chunks, row = ⟨blobId, index, nonce, ciphertext⟩ := by
  unfold getChunk at h
  split at h
  · rename_i hallowed
    cases hrow : chunkRow blobId index d with
    | none => rw [hrow] at h; cases h
    | some k =>
      rw [hrow] at h
      obtain ⟨rfl, rfl⟩ : k.nonce = nonce ∧ k.ciphertext = ciphertext := by
        simpa using h
      have found : k.blobId = blobId ∧ k.chunkIndex = index := by
        simpa using List.find?_some hrow
      refine ⟨allowed_linked hallowed, k, List.mem_of_find?_eq_some hrow, ?_⟩
      obtain ⟨rfl, rfl⟩ := found
      rfl
  · cases h

theorem getChunk_not_accepted (contactId blobId : String) (index : Nat) (now : Int)
    (d : Database) : getChunk contactId blobId index now d ≠ .ok .accepted := by
  unfold getChunk
  split
  · split <;> intro h <;> cases h
  · intro h
    cases h

theorem insertOrIgnore_mem {id : String} {envelope : Json} {d : Database} :
    id ∈ inboxIds (insertOrIgnore id envelope d) := by
  unfold insertOrIgnore
  split
  · rename_i h
    simpa [inboxIds] using h
  · simp [inboxIds]

theorem insertOrIgnore_stored {id : String} {envelope : Json} {d : Database}
    (h : id ∈ inboxIds d) : insertOrIgnore id envelope d = d := by
  rw [insertOrIgnore, if_pos]
  simpa [inboxIds] using h

theorem insertOrIgnore_appends (id : String) (envelope : Json) (d : Database) :
    ∃ rows, insertOrIgnore id envelope d = { d with inbox := d.inbox ++ rows } := by
  unfold insertOrIgnore
  split
  · exact ⟨[], by rw [List.append_nil]⟩
  · exact ⟨_, rfl⟩

theorem insertOrIgnore_row {id : String} {envelope : Json} {d : Database} {row : InboxRow}
    (h : row ∈ (insertOrIgnore id envelope d).inbox) : row ∈ d.inbox ∨ row = ⟨id, envelope⟩ := by
  unfold insertOrIgnore at h
  split at h
  · exact .inl h
  · simpa using h

theorem insertOrIgnore_nodup {id : String} {envelope : Json} {d : Database}
    (h : (inboxIds d).Nodup) : (inboxIds (insertOrIgnore id envelope d)).Nodup := by
  unfold insertOrIgnore
  split
  · exact h
  · rename_i hnew
    have fresh : id ∉ inboxIds d := by simpa [inboxIds] using hnew
    simpa [inboxIds, List.nodup_append] using ⟨h, fun row hr e => fresh (e ▸ List.mem_map_of_mem hr)⟩

theorem lawful_of_outcome {verify : String → ByteArray → String → Bool}
    {signed : String → ByteArray → Prop} {coerce : Json → String} {content : Option Content}
    {signature : String} {stores : Option (String × Json)} {serve : Listener → Database → Served}
    (h : ∀ L d, Outcome verify signed coerce content signature stores L d (serve L d)) :
    Lawful verify signed coerce content signature serve where
  authorized L d reply hr := by
    have o := h L d
    generalize serve L d = out at o hr
    cases o with
    | refused code => cases hr
    | posted c peer id envelope hc hv => exact ⟨c, peer, hc, hv⟩
    | asked c peer blob index hc hv => exact ⟨c, peer, hc, hv⟩
  linked L d nonce ciphertext hr := by
    have o := h L d
    generalize serve L d = out at o hr
    cases o with
    | refused code => cases hr
    | posted => cases hr
    | asked c peer blob index hc hv hg hp =>
      obtain ⟨hl, row⟩ := getChunk_linked hr
      exact ⟨c, peer, blob, index, hc, hv.named, hp, hl, row⟩
  addressed L d row hrow hnew := by
    have o := h L d
    generalize serve L d = out at o hrow
    cases o with
    | refused code => exact absurd hrow hnew
    | posted c peer id envelope hc hv hs hm hn =>
      rcases insertOrIgnore_row hrow with old | rfl
      · exact absurd old hnew
      · exact ⟨hm, c, hc, hn⟩
    | asked => exact absurd hrow hnew
  unchanged L d hr := by
    have o := h L d
    generalize serve L d = out at o hr ⊢
    cases o with
    | refused code => rfl
    | posted => exact absurd rfl hr
    | asked => rfl
  appends L d := by
    have o := h L d
    generalize serve L d = out at o ⊢
    cases o with
    | refused code => exact ⟨[], by rw [List.append_nil]⟩
    | posted c peer id envelope => exact insertOrIgnore_appends id envelope d
    | asked => exact ⟨[], by rw [List.append_nil]⟩
  oneRow L d hd := by
    have o := h L d
    generalize serve L d = out at o ⊢
    cases o with
    | refused code => exact hd
    | posted => exact insertOrIgnore_nodup hd
    | asked => exact hd
  replayed L d hr := by
    have o := h L d
    generalize serve L d = out at o hr ⊢
    cases o with
    | refused code => cases hr
    | posted c peer id envelope hc hv hs =>
      refine ⟨id, insertOrIgnore_mem, fun L' d' hid => ?_⟩
      have o' := h L' d'
      generalize serve L' d' = out' at o' ⊢
      cases o' with
      | refused code => rfl
      | posted c' peer' id' envelope' hc' hv' hs' =>
        -- The request stores the same row whenever it is accepted.
        obtain ⟨rfl, rfl⟩ : id = id' ∧ envelope = envelope' := by
          simpa using hs.symm.trans hs'
        exact insertOrIgnore_stored hid
      | asked => rfl
    | asked c peer blob index => exact absurd hr (getChunk_not_accepted _ _ _ _ _)

def storesOf (N : Node) (r : Request) : Option (String × Json) :=
  (contentOf N r).bind fun c =>
    ((N.parse c.body).bind envelopeSchema).map fun e => (e.envelopeId, stored e c.sender)

def nativeStoresOf (J : Java) (r : Request) : Option (String × Json) :=
  (nativeContentOf J r).bind fun c => (J.parse c.body).bind fun packet =>
    (J.getString "envelopeId" packet).map fun id => (id, packet.put "senderId" (.str c.sender))

theorem stored_mailbox (e : Envelope) (sender : String) :
    mailboxOf Json.text (stored e sender) = some e.mailboxId := rfl

theorem stored_sender (e : Envelope) (sender : String) :
    (stored e sender).get? "senderId" = some (.str sender) := by
  obtain ⟨_, _, _, capabilities, envelopeType, ttlMs, createdAtMs⟩ := e
  cases capabilities <;> cases envelopeType <;> cases ttlMs <;> cases createdAtMs <;> rfl

theorem find?_map_put (key : String) (v : Json) {fields : List (String × Json)}
    (h : fields.any (fun f => f.1 == key) = true) :
    (fields.map (fun f => if f.1 == key then (key, v) else f)).find? (fun f => f.1 == key) =
      some (key, v) := by
  induction fields with
  | nil => cases h
  | cons f fields ih =>
    rw [List.map_cons]
    cases hf : f.1 == key with
    | true =>
      rw [if_pos rfl, List.find?_cons_of_pos]
      exact beq_self_eq_true key
    | false =>
      have rest : fields.any (fun f => f.1 == key) = true := by simpa [hf] using h
      rw [if_neg (by simp), List.find?_cons_of_neg (by simp [hf])]
      exact ih rest

/-- Putting into an object sets the key. -/
theorem put_same {key : String} {v : Json} (fields : List (String × Json)) :
    ((Json.obj fields).put key v).get? key = some v := by
  cases h : fields.any (fun f => f.1 == key) with
  | true => simp only [Json.put, h, if_true, Json.get?, find?_map_put key v h, Option.map_some]
  | false =>
    have absent : fields.find? (fun f => f.1 == key) = none := by
      simpa using h
    simp [Json.put, h, Json.get?, List.find?_append, absent]

theorem put_other {key other : String} {v : Json} (j : Json) (h : key ≠ other) :
    (j.put key v).get? other = j.get? other := by
  cases j with
  | obj fields =>
    have skipped : (key == other) = false := by simpa using h
    cases hk : fields.any (fun f => f.1 == key) with
    | false => simp [Json.put, hk, Json.get?, List.find?_append, skipped]
    | true =>
      simp only [Json.put, hk, if_true, Json.get?]
      congr 1
      clear hk
      induction fields with
      | nil => rfl
      | cons f fields ih =>
        rw [List.map_cons]
        cases hf : f.1 == key with
        | true =>
          have passed : (f.1 == other) = false := by
            rw [beq_iff_eq.mp hf]
            exact skipped
          rw [if_pos rfl, List.find?_cons_of_neg (by simp [skipped]), ih,
            List.find?_cons_of_neg (by simp [passed])]
        | false =>
          rw [if_neg (by simp)]
          cases ho : f.1 == other with
          | true => rw [List.find?_cons_of_pos (by simp [ho]), List.find?_cons_of_pos (by simp [ho])]
          | false =>
            rw [List.find?_cons_of_neg (by simp [ho]), ih, List.find?_cons_of_neg (by simp [ho])]
  | _ => rfl

theorem obj_of_get? {key : String} {j v : Json} (h : j.get? key = some v) :
    ∃ fields, j = .obj fields := by
  cases j with
  | obj fields => exact ⟨fields, rfl⟩
  | _ => cases h

theorem identityChanged_false {contactId : String} {d : Database}
    (h : identityChanged contactId d = false) :
    ∀ k ∈ d.contacts, k.contactId = contactId → k.identityChanged ≠ 1 := by
  intro k hk hc he
  have hit := List.any_eq_false.mp h k hk
  simp [hc, he] at hit

theorem receive_outcome (N : Node) {signed : String → ByteArray → Prop}
    (unforgeable : ∀ key m s, N.verifyChallenge key m s = true → signed key m) (r : Request)
    (L : Listener) (d : Database) :
    Outcome N.verifyChallenge signed Json.text (contentOf N r) (r.signature.getD "")
      (storesOf N r) L d (receive N r L d) := by
  unfold receive
  split
  · exact .refused _
  split
  · exact .refused _
  rename_i c hc
  split
  · exact .refused _
  rename_i hok
  push Not at hok
  split
  · exact .refused _
  rename_i peer hpeer
  split
  · exact .refused _
  rename_i hverify
  split
  · exact .refused _
  rename_i hchanged
  have hv : Verified N.verifyChallenge signed (r.signature.getD "") L d c peer := by
    have verifies : N.verifyChallenge peer.authKey (p2pSigningBytes c) (r.signature.getD "") = true := by
      simpa using hverify
    exact ⟨hpeer, verifies, unforgeable _ _ _ verifies, fun _ e => p2pSigningBytes_inj e, hok.2.1,
      identityChanged_false (by simpa using hchanged)⟩
  split
  · unfold postEnvelope
    split
    · exact .refused _
    rename_i e he
    split
    · exact .refused _
    rename_i haddress
    push Not at haddress
    refine .posted c peer _ _ hc hv ?_ ?_ (stored_sender _ _)
    · rw [storesOf, hc, Option.bind_some, he]
      rfl
    · rw [stored_mailbox, haddress.1]
  split
  · rename_i blob index hp
    split
    · rename_i hg
      exact .asked c peer blob index hc hv hg hp
    · exact .refused _
  · exact .refused _

theorem native_identity {sender : String} {peer : Peer} {d : Database}
    (hpeer : peerOf sender d = some peer)
    (h : d.peers.any (fun p => p.deviceId == sender && identityChanged p.contactId d) = false) :
    identityChanged peer.contactId d = false := by
  have hit := List.any_eq_false.mp h peer (List.mem_of_find?_eq_some hpeer)
  have named : peer.deviceId = sender := by simpa using List.find?_some (show d.peers.find? _ = _ from hpeer)
  simpa [named] using hit

theorem nativeReceive_outcome (J : Java) {signed : String → ByteArray → Prop}
    (unforgeable : ∀ key m s, J.edVerifySpki key m s = true → signed key m) (r : Request)
    (L : Listener) (d : Database) :
    Outcome J.edVerifySpki signed J.coerceString (nativeContentOf J r) (r.signature.getD "")
      (nativeStoresOf J r) L d (nativeReceive J r L d) := by
  unfold nativeReceive
  split
  · exact .refused _
  split
  case h_2 => exact .refused _
  rename_i c signature hc hsignature
  split
  · exact .refused _
  rename_i hfresh
  push Not at hfresh
  split
  · exact .refused _
  split
  · exact .refused _
  rename_i peer hpeer
  split
  · exact .refused _
  rename_i hverify
  split
  · exact .refused _
  rename_i hchanged
  have hv : Verified J.edVerifySpki signed (r.signature.getD "") L d c peer := by
    have verifies : J.edVerifySpki peer.authKey (p2pSigningBytes c) (r.signature.getD "") = true := by
      rw [hsignature]
      simpa using hverify
    exact ⟨hpeer, verifies, unforgeable _ _ _ verifies, fun _ e => p2pSigningBytes_inj e, by omega,
      identityChanged_false (native_identity hpeer (by simpa using hchanged))⟩
  split
  · unfold nativePostEnvelope
    split
    · exact .refused _
    rename_i packet hpacket
    split
    case h_2 => exact .refused _
    rename_i id version mailboxId length hid hversion hmailbox hlength
    split
    · exact .refused _
    rename_i haddress
    push Not at haddress
    refine .posted c peer _ _ hc hv ?_ ?_ ?_
    · rw [nativeStoresOf, hc, Option.bind_some, hpacket, Option.bind_some, hid]
      rfl
    · rw [mailboxOf, put_other packet (by decide), ← haddress.2.2.1]
      exact hmailbox
    · obtain ⟨v, hv, -⟩ := Option.map_eq_some_iff.mp hid
      obtain ⟨fields, rfl⟩ := obj_of_get? hv
      exact put_same fields
  split
  · rename_i blob index hp
    split
    · rename_i hg
      exact .asked c peer blob index hc hv hg hp
    · exact .refused _
  · exact .refused _

/-- On both clients: an answered request was signed by the holder of the named sender's
pinned key, over exactly its fields, within two minutes and by a contact whose identity has
not changed; a chunk belongs to an unexpired message sent to that contact; a stored envelope
is addressed to this device and names the authenticated sender; anything else leaves the
database as it is, and so does a replay while the row is stored. -/
theorem onion_requests_authorized (N : Node) (J : Java) (signed : String → ByteArray → Prop)
    (unforgeable : ∀ key m s, N.verifyChallenge key m s = true → signed key m)
    (nativeUnforgeable : ∀ key m s, J.edVerifySpki key m s = true → signed key m)
    (r : Request) :
    Lawful N.verifyChallenge signed Json.text (contentOf N r) (r.signature.getD "")
      (receive N r) ∧
    Lawful J.edVerifySpki signed J.coerceString (nativeContentOf J r) (r.signature.getD "")
      (nativeReceive J r) :=
  ⟨lawful_of_outcome (receive_outcome N unforgeable r),
    lawful_of_outcome (nativeReceive_outcome J nativeUnforgeable r)⟩

section Example

def packet : Json :=
  .obj [("version", .num 1), ("envelopeId", .str "0123456789abcdef0123456789abcdef"),
    ("mailboxId", .str "bob"), ("ciphertext", .str "AAAA"), ("senderId", .str "mallory")]

def sealedBy (key : String) (_ : ByteArray) (signature : String) : Bool :=
  key == "alice-key" && signature == "by-alice"

def node : Node where
  number _ := some 1000
  toUtf8 _ := "packet"
  parse text := if text = "packet" then some packet else none
  decodedLength := String.length
  verifyChallenge := sealedBy

def java : Java where
  parseLong _ := some 1000
  toUtf8 _ := "packet"
  parse text := if text = "packet" then some packet else none
  coerceString := Json.text
  coerceInt := Json.int
  decodedLength text := some text.length
  edVerifySpki := sealedBy

def posted : Request where
  method := "POST"
  path := "/p2p/v1/envelopes"
  sender := some "alice"
  time := some "1000"
  nonce := some "00000000000000000000000000000000"
  signature := some "by-alice"
  transferEncoding := false
  chunks := []

def bob : Listener := ⟨"bob", false, 2000, 2000⟩

def pinned : Database where
  peers := [⟨"alice", "alice.1", "onion", "alice-key", "invite"⟩]
  contacts := [⟨"alice.1", 0⟩]
  conversations := []
  messages := []
  attachments := []
  links := []
  chunks := []
  inbox := []

/-- Alice's request is stored under her own id on both clients, whatever its body claims. -/
theorem posted_authorized :
    ((receive node posted bob pinned).2.inbox.map fun row => row.envelope.get? "senderId") =
      [some (.str "alice")] ∧
    ((nativeReceive java posted bob pinned).2.inbox.map fun row => row.envelope.get? "senderId") =
      [some (.str "alice")] ∧
    Lawful sealedBy (fun key _ => key = "alice-key") Json.text (contentOf node posted) "by-alice"
      (receive node posted) ∧
    Lawful sealedBy (fun key _ => key = "alice-key") Json.text (nativeContentOf java posted) "by-alice"
      (nativeReceive java posted) := by
  have unforgeable : ∀ key (m : ByteArray) s, sealedBy key m s = true → key = "alice-key" := by
    intro key m s h
    simp only [sealedBy, Bool.and_eq_true, beq_iff_eq] at h
    exact h.1
  exact ⟨rfl, rfl, onion_requests_authorized node java (fun key _ => key = "alice-key")
    unforgeable unforgeable posted⟩

end Example

end OnionListener
