import CryptoPigeon.BackupLimits
import CryptoPigeon.JsonSizes
import CryptoPigeon.SignedPayloads

/-! # The limits between an outbox and a receiver

A message or a control is encrypted and committed before it is sent. The receivers of both
clients bound the request that carries it and the ciphertext inside. Encryption is a parameter:
it pads to sixteen bytes and adds an overhead. -/
namespace WireLimits

open AttachmentManifests (Manifest attachmentManifestSchema isUuid isHex isLowerHex repeats uuid)
open BackupLimits (base64Schema)
open JsonSizes
open JsonText (base64 bufferFromBase64 decodeBase64 hex)
open LoginSignature (Client encode)
open SevenOfSeven (Bytes Text)
open Utf16Json (Writer ascii)

abbrev Str := LoginSignature.Text

def key (name : String) : Str := ascii name.toList

def writer : Client → Writer
  | .desktop => .stringify
  | .android => .orgJson

/-- The length that AES-CBC pads to. -/
def padded (n : Nat) : Nat := (n / 16 + 1) * 16

/-- A Signal session as it is when it encrypts. -/
structure Session where
  type : UInt8
  serialize : Bytes → Bytes
  overhead : Nat → Nat
  serialize_length : ∀ x, (serialize x).length = padded x.length + overhead (padded x.length)

structure Peer where
  deviceId : Text
  deviceId_uuid : isUuid deviceId = true
  identityChanged : Bool
  disappearingSeconds : Nat

/-- What a client reads and draws while it queues; a time is one that a `Date` can hold. -/
structure Context where
  session : Session
  peer : Option Peer
  displayName : Str
  statusLine : Str
  routingSecret : Vector UInt8 32
  senderUid : Option Str
  messageId : Vector UInt8 16
  envelopeId : Vector UInt8 16
  now : Nat
  now_le : now ≤ 8640000000000000

/-- A row of `message_outbox` or `control_outbox`. -/
structure Row where
  envelopeId : Text
  mailboxId : Text
  ciphertext : Text
  createdAt : Nat
  expiresAt : Option Nat
  deriving DecidableEq, Repr

/-! ## What is queued -/

def profile (c : Context) : Client → Json
  | .desktop => .obj [(key "displayName", .str c.displayName), (key "statusLine", .str c.statusLine)]
  | .android => .obj [(key "displayName", .str c.displayName), (key "statusLine", .str c.statusLine),
      (key "routingSecret", .str (ascii (base64 c.routingSecret.toList)))]

def member (name : String) (v : Option Json) : List (Str × Json) :=
  (v.map fun v => (key name, v)).toList

def utf16 (t : Text) : Str := t.flatMap fun c =>
  if c.toNat < 0x10000 then [c.toNat.toUInt16]
  else [(0xD800 + (c.toNat - 0x10000) / 0x400).toUInt16, (0xDC00 + c.toNat % 0x400).toUInt16]

/-- What `attachmentManifestSchema` leaves of a manifest. -/
def manifestJson (m : Manifest) : Json :=
  .obj [(key "attachmentId", .str (utf16 m.attachmentId)), (key "blobId", .str (utf16 m.blobId)),
    (key "originalFilename", .str m.originalFilename),
    (key "claimedMimeType", .str m.claimedMimeType),
    (key "totalPlaintextSize", .bare (Utf16Json.decimal m.totalPlaintextSize)),
    (key "chunkCount", .bare (Utf16Json.decimal m.chunkCount)),
    (key "chunkSize", .bare (Utf16Json.decimal m.chunkSize)),
    (key "chunkNonces", .arr (m.chunkNonces.map fun n => .str (utf16 n))),
    (key "fullFileDigest", .str (utf16 m.fullFileDigest)),
    (key "attachmentKey", .str (utf16 m.attachmentKey)),
    (key "encryptionVersion", .bare (Utf16Json.decimal m.encryptionVersion))]

/-- The payload of a message. -/
def messagePayload (client : Client) (c : Context) (p : Peer) (text : Str)
    (attachment : Option Json) : Json :=
  match client with
  | .desktop => .obj ([(key "type", .str (key "text")), (key "messageId", .str (ascii (uuid c.messageId))),
      (key "profile", profile c .desktop), (key "text", .str text),
      (key "disappearingSeconds", .bare (Utf16Json.decimal p.disappearingSeconds))] ++
      member "attachment" attachment)
  | .android => .obj ([(key "type", .str (key "text")), (key "text", .str text),
      (key "messageId", .str (ascii (uuid c.messageId)))] ++
      member "senderUid" (c.senderUid.map .str) ++
      [(key "profile", profile c .android),
        (key "disappearingSeconds", .bare (Utf16Json.decimal p.disappearingSeconds))] ++
      member "attachment" attachment)

/-- `JSONObject.put`, where `null` removes; with a value also the spread of an object. -/
def put (ms : List (Str × Json)) (name : Str) : Option Json → List (Str × Json)
  | none => ms.filter fun m => m.1 != name
  | some v =>
    if ms.any fun m => m.1 == name then ms.map fun m => if m.1 = name then (name, v) else m
    else ms ++ [(name, v)]

inductive Control where
  | typing (expiresAt : Nat)
  | readReceipt (upToMessageId : Str)
  | profile
  | delivered (upToMessageId : Str)
  deriving DecidableEq, Repr

def Control.expiresAt : Control → Option Nat
  | .typing e => some e
  | _ => none

/-- What the desktop's callers hand to `queueControl`. -/
def desktopControl : Control → List (Str × Json)
  | .typing e => [(key "type", .str (key "typing")), (key "expiresAt", .bare (Utf16Json.decimal e))]
  | .readReceipt id => [(key "type", .str (key "read_receipt")), (key "upToMessageId", .str id)]
  | .profile => [(key "type", .str (key "profile"))]
  | .delivered id => [(key "type", .str (key "delivered")), (key "upToMessageId", .str id)]

/-- On Android the body of `/api/control` is handed on with all its members. -/
def androidControl (body : List (Str × Json)) : Control → List (Str × Json)
  | .typing e => put body (key "expiresAt") (some (.bare (Utf16Json.decimal e)))
  | .readReceipt id => put body (key "upToMessageId") (some (.str id))
  | k => desktopControl k

/-- The payload of a control. -/
def controlPayload (client : Client) (c : Context) (body : List (Str × Json)) (k : Control) : Json :=
  match client with
  | .desktop => .obj (put (desktopControl k) (key "profile") (some (profile c .desktop)))
  | .android => .obj (put (put (androidControl body k) (key "profile") (some (profile c .android)))
      (key "senderUid") (c.senderUid.map .str))

def plaintext (client : Client) (payload : Json) : Bytes :=
  (encode client.lone (payload.text (writer client))).map UInt8.ofNat

/-- The row of a payload; the type of the Signal message comes before it. -/
def encrypted (client : Client) (c : Context) (p : Peer) (payload : Json) (expiresAt : Option Nat) :
    Row where
  envelopeId := match client with
    | .desktop => hex c.envelopeId.toList
    | .android => uuid c.envelopeId
  mailboxId := p.deviceId
  ciphertext := base64 (c.session.type :: c.session.serialize (plaintext client payload))
  createdAt := c.now
  expiresAt := expiresAt

/-- The desktop's `sendMessage`. -/
def sendMessage (c : Context) (text : Str) (attachmentManifest : Option Manifest) :
    Except String Row :=
  if !attachmentManifest.all attachmentManifestSchema then .error "ZodError"
  else
    match c.peer with
    | none => .error "conversation_not_found"
    | some p =>
      if p.identityChanged then .error "identity_changed_blocked"
      else .ok (encrypted .desktop c p
        (messagePayload .desktop c p text (attachmentManifest.map manifestJson)) none)

/-- Android's `send`. The manifest is any object that `valid` takes, `validateManifest` with the test
for the uploaded file; its other members are sent along. -/
def send (valid : Json → Bool) (c : Context) (text : Str) (attachment : Option Json) :
    Except String Row :=
  if 65536 < text.length then .error "MESSAGE_TOO_LONG"
  else
    match c.peer with
    | none => .error "conversation_not_found"
    | some p =>
      if p.identityChanged then .error "identity_changed_blocked"
      else if !attachment.all valid then .error "INVALID_ATTACHMENT_MANIFEST"
      else .ok (encrypted .android c p (messagePayload .android c p text attachment) none)

def queueControl (client : Client) (c : Context) (body : List (Str × Json)) (k : Control) :
    Except String Row :=
  match c.peer with
  | none => .error "IDENTITY_NOT_READY"
  | some p =>
    if p.identityChanged then .error "IDENTITY_NOT_READY"
    else .ok (encrypted client c p (controlPayload client c body k) k.expiresAt)

/-! ## What is sent and received -/

/-- The request to `/p2p/v1/envelopes`, of version 1; a typing control of the desktop tells when
it was made and how long it lives. -/
structure Wire where
  envelopeId : Text
  mailboxId : Text
  ciphertext : Text
  typing : Option (Nat × Nat)
  deriving DecidableEq, Repr

def Row.wire (r : Row) : Client → Wire
  | .desktop => ⟨r.envelopeId, r.mailboxId, r.ciphertext,
      r.expiresAt.map fun e => (r.createdAt, max 1 (min 10000 (e - r.createdAt)))⟩
  | .android => ⟨r.envelopeId, r.mailboxId, r.ciphertext, none⟩

def typingMembers : Option (Nat × Nat) → List (Str × Json)
  | none => []
  | some (createdAtMs, ttlMs) => [(key "envelopeType", .str (key "TYPING")),
      (key "createdAtMs", .bare (Utf16Json.decimal createdAtMs)),
      (key "ttlMs", .bare (Utf16Json.decimal ttlMs))]

def Wire.json (w : Wire) : Json :=
  .obj ([(key "version", .bare (ascii ['1'])), (key "envelopeId", .str (ascii w.envelopeId)),
    (key "mailboxId", .str (ascii w.mailboxId)), (key "ciphertext", .str (ascii w.ciphertext))] ++
    typingMembers w.typing)

def MAX_BODY : Nat := 768 * 1024

def MAX_CIPHERTEXT : Nat := 512 * 1024

/-- `envelopeSchema`, of version 1. -/
def envelopeSchema (w : Wire) : Bool :=
  (repeats isHex 32 w.envelopeId || isUuid w.envelopeId) && !w.mailboxId.isEmpty &&
    base64Schema w.ciphertext &&
    w.typing.all fun t => decide (0 < t.2 ∧ t.2 ≤ 30 * 24 * 60 * 60 * 1000)

/-- `receive` of the desktop, for a body of so many bytes. -/
def desktopReceives (deviceId : Text) (body : Nat) (w : Wire) : Bool :=
  decide (body ≤ MAX_BODY) && envelopeSchema w && w.mailboxId == deviceId &&
    decide ((bufferFromBase64 w.ciphertext).length ≤ MAX_CIPHERTEXT)

/-- `receive` of Android. -/
def androidReceives (deviceId : Text) (body : Nat) (w : Wire) : Bool :=
  decide (body ≤ MAX_BODY) && repeats isLowerHex 32 (w.envelopeId.filter (· ≠ '-')) &&
    w.mailboxId == deviceId &&
    match decodeBase64 w.ciphertext with
    | none => false
    | some bytes => decide (bytes.length ≤ MAX_CIPHERTEXT)

def bodyLength (client : Client) (w : Wire) : Nat :=
  (encode client.lone (w.json.text (writer client))).length

/-- The request of a row passes both receivers at the peer that the row is for. -/
def Deliverable (client : Client) (r : Row) : Prop :=
  desktopReceives r.mailboxId (bodyLength client (r.wire client)) (r.wire client) = true ∧
  androidReceives r.mailboxId (bodyLength client (r.wire client)) (r.wire client) = true

/-! ## The bytes of a request -/

theorem written_key (name : String) (n : Nat) (h : (key name).all isPlain = true ∧
    (key name).count 47 = 0 ∧ (key name).length = n) (client : Client) (lone : Nat) :
    written (writer client) lone (key name) = n + 2 := by
  obtain ⟨hplain, hcount, hlength⟩ := h
  cases client with
  | desktop => rw [writer, written_stringify hplain, hlength]
  | android => rw [writer, written_orgJson hplain, hcount, hlength]


theorem isHex_unit {c : Char} (h : isHex c = true ∨ c = '-') :
    isPlain c.toNat.toUInt16 = true ∧ c.toNat.toUInt16 ≠ 47 := by
  have all : ∀ n < 128, isHex (Char.ofNat n) = true ∨ Char.ofNat n = '-' →
      isPlain n.toUInt16 = true ∧ n.toUInt16 ≠ 47 := by decide +kernel
  have small : c.toNat < 128 := by
    rcases h with h | rfl
    · simp only [isHex, isLowerHex, Bool.or_eq_true, Bool.and_eq_true, decide_eq_true_eq,
        Char.le_def, UInt32.le_iff_toNat_le, Char.reduceVal, UInt32.reduceToNat,
        Char.toNat_val] at h
      omega
    · decide
  exact all c.toNat small (by simpa using h)

theorem isPlain_base64 {x : Bytes} : (ascii (base64 x)).all isPlain = true := by
  have digit : ∀ n < 64, isPlain (JsonText.base64Digit n).toNat.toUInt16 = true := by decide +kernel
  obtain ⟨ds, padding, heq, hds, -, hpadding⟩ := JsonText.base64_digits x
  rw [heq, List.all_eq_true]
  intro u hu
  obtain ⟨c, hc, rfl⟩ := List.mem_map.mp hu
  rcases List.mem_append.mp hc with hc | hc
  · obtain ⟨d, hd, rfl⟩ := List.mem_map.mp hc
    exact digit d (hds d hd)
  · have hpad : c = '=' := by
      simp only [List.mem_cons, Prod.mk.injEq, List.not_mem_nil, or_false] at hpadding
      rcases hpadding with ⟨-, rfl⟩ | ⟨-, rfl⟩ | ⟨-, rfl⟩
      · cases hc
      · simpa using hc
      · simpa using hc
    rw [hpad]
    decide

/-- An identifier fills a byte for each digit or dash, and its quotes. -/
theorem written_code {t : Text} (h : ∀ c ∈ t, isHex c = true ∨ c = '-') (client : Client)
    (lone : Nat) : written (writer client) lone (ascii t) = t.length + 2 := by
  have hplain : (ascii t).all isPlain = true := by
    rw [List.all_eq_true]
    intro u hu
    obtain ⟨c, hc, rfl⟩ := List.mem_map.mp hu
    exact (isHex_unit (h c hc)).1
  have hcount : (ascii t).count 47 = 0 := by
    rw [List.count_eq_zero]
    intro hu
    obtain ⟨c, hc, heq⟩ := List.mem_map.mp hu
    exact (isHex_unit (h c hc)).2 heq
  cases client with
  | desktop => rw [writer, written_stringify hplain, ascii, List.length_map]
  | android => rw [writer, written_orgJson hplain, hcount, ascii, List.length_map]

theorem isVersion_hex {c : Char} (h : AttachmentManifests.isVersion c = true) : isHex c = true := by
  simp only [AttachmentManifests.isVersion, isHex, isLowerHex, Bool.or_eq_true, Bool.and_eq_true,
    decide_eq_true_eq, Char.le_def, UInt32.le_iff_toNat_le, Char.reduceVal,
    UInt32.reduceToNat] at h ⊢
  omega

theorem isVariant_hex {c : Char} (h : AttachmentManifests.isVariant c = true) : isHex c = true := by
  simp only [AttachmentManifests.isVariant, List.contains_iff_mem, List.mem_cons, List.not_mem_nil,
    or_false] at h
  rcases h with rfl | rfl | rfl | rfl | rfl | rfl <;> decide

theorem isUuid_code {t : Text} (h : isUuid t = true) : ∀ c ∈ t, isHex c = true ∨ c = '-' := by
  have hex {t : Text} (h : t.all (fun c => isHex c || c == '-') = true) :
      ∀ c ∈ t, isHex c = true ∨ c = '-' := by
    intro c hc
    simpa using List.all_eq_true.mp h c hc
  simp only [isUuid, Bool.or_eq_true, beq_iff_eq] at h
  rcases h with (h | rfl) | rfl
  · refine AttachmentManifests.matchesEach_all (fun p hp c hc => ?_) h
    simp only [AttachmentManifests.uuidPattern, List.mem_append, List.mem_cons,
      List.mem_replicate] at hp
    rcases hp with ⟨-, rfl⟩ | rfl | ⟨-, rfl⟩ | rfl | rfl | ⟨-, rfl⟩ | rfl | rfl | ⟨-, rfl⟩ | rfl | ⟨-, rfl⟩
    · exact .inl hc
    · exact .inr (by simpa using hc)
    · exact .inl hc
    · exact .inr (by simpa using hc)
    · exact .inl (isVersion_hex hc)
    · exact .inl hc
    · exact .inr (by simpa using hc)
    · exact .inl (isVariant_hex hc)
    · exact .inl hc
    · exact .inr (by simpa using hc)
    · exact .inl hc
  · exact hex (by decide)
  · exact hex (by decide)

theorem uuid_code (b : Vector UInt8 16) : ∀ c ∈ uuid b, isHex c = true ∨ c = '-' :=
  isUuid_code (AttachmentManifests.isUuid_uuid b)

theorem hex_code (x : Bytes) : ∀ c ∈ hex x, isHex c = true ∨ c = '-' := fun c hc => by
  left
  simp [isHex, AttachmentManifests.hex_lower hc]

/-- What a typing control adds to a request. -/
def typingSize (client : Client) : Option (Nat × Nat) → Nat
  | none => 0
  | some t => 1 + membersSize (writer client) client.lone (typingMembers (some t))

theorem bodyLength_eq (client : Client) {w : Wire} (hid : ∀ c ∈ w.envelopeId, isHex c = true ∨ c = '-')
    (hmailbox : ∀ c ∈ w.mailboxId, isHex c = true ∨ c = '-') :
    bodyLength client w = 58 + w.envelopeId.length + w.mailboxId.length +
      written (writer client) client.lone (ascii w.ciphertext) + typingSize client w.typing := by
  have hversion := written_key "version" 7 (by decide) client client.lone
  have henvelope := written_key "envelopeId" 10 (by decide) client client.lone
  have hbox := written_key "mailboxId" 9 (by decide) client client.lone
  have hcipher := written_key "ciphertext" 10 (by decide) client client.lone
  have hone : (encode client.lone (ascii ['1'])).length = 1 := by cases client <;> decide +kernel
  rw [bodyLength, text_size, Wire.json]
  cases htyping : w.typing with
  | none =>
    simp only [typingMembers, typingSize, List.append_nil, Json.size, membersSize, hversion,
      henvelope, hbox, hcipher, hone, written_code hid, written_code hmailbox]
    omega
  | some t =>
    have hne : typingMembers (some t) ≠ [] := by simp [typingMembers]
    simp only [typingSize, List.cons_append, List.nil_append, Json.size, membersSize, hversion,
      henvelope, hbox, hone, written_code hid, written_code hmailbox, membersSize_cons hne, hcipher]
    omega

theorem decimal_length {n k : Nat} (hk : 0 < k) (h : n < 10 ^ k) :
    (Utf16Json.decimal n).length ≤ k := by
  rw [Utf16Json.decimal, ascii, List.length_map, String.length_toList]
  exact (Nat.length_repr_le_iff hk).mpr h

theorem encode_decimal (lone n : Nat) :
    (encode lone (Utf16Json.decimal n)).length = (Utf16Json.decimal n).length := by
  apply encode_ascii_length
  intro u hu
  have := Utf16Json.decimal_units hu
  simp only [Utf16Json.isDecimal, Bool.or_eq_true, Bool.and_eq_true, decide_eq_true_eq,
    beq_iff_eq] at this
  rcases this with h | rfl
  · omega
  · decide

theorem typingSize_le (client : Client) {r : Row} (hcreated : r.createdAt ≤ 8640000000000000) :
    typingSize client (r.wire client).typing ≤ 84 := by
  have htype := written_key "envelopeType" 12 (by decide) client client.lone
  have hvalue := written_key "TYPING" 6 (by decide) client client.lone
  have hcreatedKey := written_key "createdAtMs" 11 (by decide) client client.lone
  have httl := written_key "ttlMs" 5 (by decide) client client.lone
  cases client with
  | android => exact Nat.zero_le _
  | desktop =>
    cases hexpires : r.expiresAt with
    | none => simp [Row.wire, hexpires, typingSize]
    | some e =>
      have h16 : (Utf16Json.decimal r.createdAt).length ≤ 16 := decimal_length (by decide) (by omega)
      have h5 : (Utf16Json.decimal (max 1 (min 10000 (e - r.createdAt)) : Nat)).length ≤ 5 :=
        decimal_length (by decide) (by omega)
      simp only [Row.wire, hexpires, Option.map_some, typingSize, typingMembers, membersSize,
        Json.size, htype, hvalue, hcreatedKey, httl, encode_decimal]
      omega

/-! ## What is delivered -/

/-- The ciphertext of a plaintext of `n` bytes is small enough. -/
def Fits (s : Session) (n : Nat) : Prop := 1 + padded n + s.overhead (padded n) ≤ MAX_CIPHERTEXT

/-- The bytes of a value that a client encrypts. -/
def payloadSize (client : Client) (v : Json) : Nat := v.size (writer client) client.lone

/-- The base64 of a ciphertext, where `org.json` writes two bytes for a slash, leaves room for the
rest of the request. -/
def HasRoom (ciphertext : Bytes) : Prop :=
  132 + (base64 ciphertext).length + (ascii (base64 ciphertext)).count 47 ≤ MAX_BODY

def sealed (client : Client) (c : Context) (payload : Json) : Bytes :=
  c.session.type :: c.session.serialize (plaintext client payload)

/-- The bytes of a member that may be missing, with its comma. -/
def memberBytes (client : Client) (name : Nat) : Option Json → Nat
  | none => 0
  | some v => name + 4 + payloadSize client v

/-- The bytes of a message: 138 for the frame, then what the client fills in. -/
def messageBytes (client : Client) (c : Context) (p : Peer) (text : Str)
    (attachment : Option Json) : Nat :=
  let string (s : Str) := written (writer client) client.lone s
  138 + string text + string c.displayName + string c.statusLine +
    (Utf16Json.decimal p.disappearingSeconds).length + memberBytes client 10 attachment +
    match client with
    | .desktop => 0
    | .android => 17 + string (ascii (base64 c.routingSecret.toList)) +
        memberBytes client 9 (c.senderUid.map .str)

theorem messageBytes_eq (client : Client) (c : Context) (p : Peer) (text : Str)
    (attachment : Option Json) :
    payloadSize client (messagePayload client c p text attachment) =
      messageBytes client c p text attachment := by
  have hname (name : String) (n : Nat) (h : (key name).all isPlain = true ∧
      (key name).count 47 = 0 ∧ (key name).length = n) :=
    written_key name n h client client.lone
  have htype := hname "type" 4 (by decide)
  have htext := hname "text" 4 (by decide)
  have hid := hname "messageId" 9 (by decide)
  have hprofile := hname "profile" 7 (by decide)
  have hdisplay := hname "displayName" 11 (by decide)
  have hstatus := hname "statusLine" 10 (by decide)
  have hsecret := hname "routingSecret" 13 (by decide)
  have hseconds := hname "disappearingSeconds" 19 (by decide)
  have hsender := hname "senderUid" 9 (by decide)
  have hattachment := hname "attachment" 10 (by decide)
  have hmessage : written (writer client) client.lone (ascii (uuid c.messageId)) = 38 := by
    rw [written_code (uuid_code c.messageId),
      BackupLimits.isUuid_length (AttachmentManifests.isUuid_uuid c.messageId)]
  cases client with
  | desktop =>
    cases attachment <;>
    · simp only [payloadSize, messagePayload, messageBytes, memberBytes, member, profile,
        Option.map_none, Option.map_some, Option.toList_none, Option.toList_some, List.append_nil,
        List.cons_append, List.nil_append, Json.size, membersSize, htype, htext, hid, hprofile,
        hdisplay, hstatus, hseconds, hattachment, hmessage, encode_decimal]
      omega
  | android =>
    cases attachment <;> cases huid : c.senderUid <;>
    · simp only [payloadSize, messagePayload, messageBytes, memberBytes, member, profile, huid,
        Option.map_none, Option.map_some, Option.toList_none, Option.toList_some, List.append_nil,
        List.cons_append, List.nil_append, Json.size, membersSize, htype, htext, hid, hprofile,
        hdisplay, hstatus, hsecret, hseconds, hsender, hattachment, hmessage, encode_decimal]
      omega

section Delivery

variable {client : Client} {c : Context} {p : Peer} {payload : Json} {expiresAt : Option Nat}

theorem sealed_length : (sealed client c payload).length =
    1 + padded (payloadSize client payload) +
      c.session.overhead (padded (payloadSize client payload)) := by
  have hplain : (plaintext client payload).length = payloadSize client payload := by
    rw [plaintext, List.length_map, text_size, payloadSize]
  rw [sealed, List.length_cons, c.session.serialize_length, hplain]
  omega

theorem sealed_fits : (sealed client c payload).length ≤ MAX_CIPHERTEXT ↔
    Fits c.session (payloadSize client payload) := by
  rw [sealed_length, Fits]

theorem encrypted_id : (∀ x ∈ (encrypted client c p payload expiresAt).envelopeId,
    isHex x = true ∨ x = '-') ∧ (encrypted client c p payload expiresAt).envelopeId.length ≤ 36 := by
  cases client with
  | desktop => exact ⟨hex_code _, by simp [encrypted, AttachmentManifests.hex_length]⟩
  | android => exact ⟨uuid_code _, by simp [encrypted,
      BackupLimits.isUuid_length (AttachmentManifests.isUuid_uuid c.envelopeId)]⟩

theorem encrypted_wire :
    ((encrypted client c p payload expiresAt).wire client).envelopeId =
      (encrypted client c p payload expiresAt).envelopeId ∧
    ((encrypted client c p payload expiresAt).wire client).mailboxId = p.deviceId ∧
    ((encrypted client c p payload expiresAt).wire client).ciphertext =
      base64 (sealed client c payload) := by
  cases client <;> exact ⟨rfl, rfl, rfl⟩

theorem encrypted_schema :
    envelopeSchema ((encrypted client c p payload expiresAt).wire client) = true := by
  have hid : (repeats isHex 32 (encrypted client c p payload expiresAt).envelopeId ||
      isUuid (encrypted client c p payload expiresAt).envelopeId) = true := by
    cases client with
    | desktop =>
      rw [Bool.or_eq_true]
      left
      simp only [repeats, encrypted, AttachmentManifests.hex_length, Vector.length_toList,
        Bool.and_eq_true, List.all_eq_true]
      refine ⟨rfl, fun x hx => ?_⟩
      simp [isHex, AttachmentManifests.hex_lower hx]
    | android => simp [encrypted, AttachmentManifests.isUuid_uuid]
  have hmailbox : p.deviceId.isEmpty = false := by
    have := BackupLimits.isUuid_length p.deviceId_uuid
    cases h : p.deviceId with
    | nil => rw [h] at this; cases this
    | cons => rfl
  have hcipher : base64Schema (base64 (sealed client c payload)) = true :=
    BackupLimits.base64Schema_base64 (List.cons_ne_nil _ _)
  have htyping : ((encrypted client c p payload expiresAt).wire client).typing.all
      (fun t => decide (0 < t.2 ∧ t.2 ≤ 30 * 24 * 60 * 60 * 1000)) = true := by
    cases client with
    | android => rfl
    | desktop =>
      cases expiresAt with
      | none => rfl
      | some e =>
        simp only [Row.wire, encrypted, Option.map_some, Option.all_some, decide_eq_true_eq]
        omega
  have hwire := @encrypted_wire client c p payload expiresAt
  rw [envelopeSchema, hwire.1, hwire.2.1, hwire.2.2, hid, hmailbox, hcipher, htyping]
  rfl

theorem filter_hex (x : Bytes) : (hex x).filter (· ≠ '-') = hex x := by
  rw [List.filter_eq_self]
  intro u hu
  have := AttachmentManifests.hex_lower hu
  simp only [decide_eq_true_eq]
  rintro rfl
  exact absurd this (by decide)

theorem encrypted_dashless : repeats isLowerHex 32
    ((encrypted client c p payload expiresAt).envelopeId.filter (· ≠ '-')) = true := by
  have dash (x : Text) : ('-' :: x).filter (· ≠ '-') = x.filter (· ≠ '-') := by simp
  cases client with
  | desktop =>
    rw [encrypted, filter_hex]
    simpa using AttachmentManifests.repeats_hex c.envelopeId.toList
  | android =>
    simp only [encrypted, uuid, List.filter_append, dash, filter_hex, repeats, List.length_append,
      AttachmentManifests.hex_length, Bool.and_eq_true, List.all_append, List.all_eq_true]
    exact ⟨rfl, fun _ => AttachmentManifests.hex_lower, fun _ => AttachmentManifests.hex_lower,
      fun _ => AttachmentManifests.hex_lower, fun _ => AttachmentManifests.hex_lower,
      fun _ => AttachmentManifests.hex_lower⟩

/-- All that a receiver may still object to is a length. -/
theorem deliverable_iff : Deliverable client (encrypted client c p payload expiresAt) ↔
    bodyLength client ((encrypted client c p payload expiresAt).wire client) ≤ MAX_BODY ∧
      Fits c.session (payloadSize client payload) := by
  have hbuffer := JsonText.bufferFromBase64_base64 (sealed client c payload)
  have hdecode := JsonText.decodeBase64_base64 (sealed client c payload)
  obtain ⟨hid, hmailbox, hcipher⟩ := @encrypted_wire client c p payload expiresAt
  have hown : (encrypted client c p payload expiresAt).mailboxId = p.deviceId := rfl
  rw [← sealed_fits, Deliverable, desktopReceives, androidReceives, hmailbox, hown, hcipher, hbuffer,
    hdecode, encrypted_schema, hid, encrypted_dashless]
  simp only [Bool.and_true, beq_self_eq_true, Bool.and_eq_true, decide_eq_true_eq, and_self]

theorem encrypted_body :
    bodyLength client ((encrypted client c p payload expiresAt).wire client) =
      94 + (encrypted client c p payload expiresAt).envelopeId.length +
        written (writer client) client.lone (ascii (base64 (sealed client c payload))) +
        typingSize client ((encrypted client c p payload expiresAt).wire client).typing := by
  obtain ⟨hid, hmailbox, hcipher⟩ := @encrypted_wire client c p payload expiresAt
  rw [bodyLength_eq client (hid ▸ encrypted_id.1) (hmailbox ▸ isUuid_code p.deviceId_uuid), hid,
    hmailbox, hcipher, BackupLimits.isUuid_length p.deviceId_uuid]
  omega

theorem deliverable_desktop : Deliverable .desktop (encrypted .desktop c p payload expiresAt) ↔
    Fits c.session (payloadSize .desktop payload) := by
  rw [deliverable_iff, and_iff_right_iff_imp, encrypted_body]
  intro hfits
  rw [← sealed_fits, MAX_CIPHERTEXT] at hfits
  have hwritten : written (writer .desktop) Client.desktop.lone
      (ascii (base64 (sealed .desktop c payload))) = (base64 (sealed .desktop c payload)).length + 2 := by
    rw [writer, written_stringify isPlain_base64, ascii, List.length_map]
  have hlength := JsonText.base64_length (sealed .desktop c payload)
  have htyping := typingSize_le .desktop (r := encrypted .desktop c p payload expiresAt) c.now_le
  have hid := (@encrypted_id .desktop c p payload expiresAt).2
  rw [hwritten, MAX_BODY]
  omega

theorem deliverable_android : Deliverable .android (encrypted .android c p payload expiresAt) ↔
    Fits c.session (payloadSize .android payload) ∧ HasRoom (sealed .android c payload) := by
  rw [deliverable_iff, and_comm, and_congr_right_iff, encrypted_body]
  intro _
  have hwritten : written (writer .android) Client.android.lone
      (ascii (base64 (sealed .android c payload))) = (base64 (sealed .android c payload)).length +
        (ascii (base64 (sealed .android c payload))).count 47 + 2 := by
    rw [writer, written_orgJson isPlain_base64, ascii, List.length_map]
  have hid : (encrypted .android c p payload expiresAt).envelopeId.length = 36 :=
    BackupLimits.isUuid_length (AttachmentManifests.isUuid_uuid c.envelopeId)
  have htyping : typingSize .android
      ((encrypted .android c p payload expiresAt).wire .android).typing = 0 := rfl
  rw [hwritten, hid, htyping, HasRoom]
  constructor <;> intro h <;> omega

end Delivery

/-! ## What is committed is delivered -/

theorem sendMessage_cases {c : Context} {text : Str} {m : Option Manifest} {r : Row}
    (h : sendMessage c text m = .ok r) :
    ∃ p, c.peer = some p ∧ r = encrypted .desktop c p
      (messagePayload .desktop c p text (m.map manifestJson)) none := by
  simp only [sendMessage] at h
  split at h
  · cases h
  · split at h
    · cases h
    · rename_i p hpeer
      split at h
      · cases h
      · exact ⟨p, hpeer, (Except.ok.inj h).symm⟩

theorem send_cases {valid : Json → Bool} {c : Context} {text : Str} {a : Option Json} {r : Row}
    (h : send valid c text a = .ok r) :
    ∃ p, c.peer = some p ∧ r = encrypted .android c p (messagePayload .android c p text a) none := by
  simp only [send] at h
  split at h
  · cases h
  · split at h
    · cases h
    · rename_i p hpeer
      split at h
      · cases h
      · split at h
        · cases h
        · exact ⟨p, hpeer, (Except.ok.inj h).symm⟩

theorem queueControl_cases {client : Client} {c : Context} {body : List (Str × Json)} {k : Control}
    {r : Row} (h : queueControl client c body k = .ok r) :
    ∃ p, r = encrypted client c p (controlPayload client c body k) k.expiresAt := by
  simp only [queueControl] at h
  split at h
  · cases h
  · split at h
    · cases h
    · exact ⟨_, (Except.ok.inj h).symm⟩

/-- A committed message or control reaches an honest receiver exactly when its JSON is short
enough for the ciphertext's limit and, from Android, the escaped request for the body's. -/
theorem committed_deliverable_iff (c : Context) :
    (∀ p text m r, c.peer = some p → sendMessage c text m = .ok r →
      (Deliverable .desktop r ↔
        Fits c.session (messageBytes .desktop c p text (m.map manifestJson)))) ∧
    (∀ valid p text a r, c.peer = some p → send valid c text a = .ok r →
      (Deliverable .android r ↔ Fits c.session (messageBytes .android c p text a) ∧
        HasRoom (sealed .android c (messagePayload .android c p text a)))) ∧
    (∀ body k r, queueControl .desktop c body k = .ok r →
      (Deliverable .desktop r ↔
        Fits c.session (payloadSize .desktop (controlPayload .desktop c body k)))) ∧
    ∀ body k r, queueControl .android c body k = .ok r →
      (Deliverable .android r ↔
        Fits c.session (payloadSize .android (controlPayload .android c body k)) ∧
          HasRoom (sealed .android c (controlPayload .android c body k))) := by
  refine ⟨?_, ?_, ?_, ?_⟩
  · intro p text m r hp h
    obtain ⟨p', hp', rfl⟩ := sendMessage_cases h
    cases hp.symm.trans hp'
    rw [← messageBytes_eq]
    exact deliverable_desktop
  · intro valid p text a r hp h
    obtain ⟨p', hp', rfl⟩ := send_cases h
    cases hp.symm.trans hp'
    rw [← messageBytes_eq]
    exact deliverable_android
  · intro body k r h
    obtain ⟨p, rfl⟩ := queueControl_cases h
    exact deliverable_desktop
  · intro body k r h
    obtain ⟨p, rfl⟩ := queueControl_cases h
    exact deliverable_android

/-- Slashes are no obstacle while they are fewer than an eighth of the largest text. -/
theorem hasRoom_of_few {x : Bytes} (hx : x.length ≤ MAX_CIPHERTEXT)
    (hslashes : (ascii (base64 x)).count 47 ≤ 87248) : HasRoom x := by
  have := JsonText.base64_length x
  rw [MAX_CIPHERTEXT] at hx
  rw [HasRoom, MAX_BODY]
  omega

/-- A session that adds nothing but the padding. -/
def plainSession : Session where
  type := 2
  serialize x := x ++ List.replicate (padded x.length - x.length) 0
  overhead _ := 0
  serialize_length x := by
    rw [List.length_append, List.length_replicate, padded]
    omega

def zeros16 : Vector UInt8 16 := Vector.replicate 16 0

def somePeer : Peer where
  deviceId := uuid zeros16
  deviceId_uuid := AttachmentManifests.isUuid_uuid zeros16
  identityChanged := false
  disappearingSeconds := 0

def someContext : Context where
  session := plainSession
  peer := some somePeer
  displayName := []
  statusLine := []
  routingSecret := Vector.replicate 32 0
  senderUid := none
  messageId := zeros16
  envelopeId := zeros16
  now := 1
  now_le := by decide

theorem short_delivered : ∃ r r' k k', sendMessage someContext (key "hello") none = .ok r ∧
    send (fun _ => true) someContext (key "hello") none = .ok r' ∧
    queueControl .desktop someContext [] .profile = .ok k ∧
    queueControl .android someContext [] .profile = .ok k' ∧
    Deliverable .desktop r ∧ Deliverable .android r' ∧ Deliverable .desktop k ∧
    Deliverable .android k' := by
  obtain ⟨hmessage, hsend, hcontrol, handroid⟩ := committed_deliverable_iff someContext
  refine ⟨_, _, _, _, rfl, rfl, rfl, rfl, ?_, ?_, ?_, ?_⟩
  · refine (hmessage somePeer (key "hello") none _ rfl rfl).mpr ?_
    rw [Fits]
    decide +kernel
  · refine (hsend (fun _ => true) somePeer (key "hello") none _ rfl rfl).mpr ?_
    rw [Fits, HasRoom]
    decide +kernel
  · refine (hcontrol [] .profile _ rfl).mpr ?_
    rw [Fits]
    decide +kernel
  · refine (handroid [] .profile _ rfl).mpr ?_
    rw [Fits, HasRoom]
    decide +kernel

/-- A long text fits into no ciphertext. -/
theorem long_not_fits {client : Client} {c : Context} {p : Peer} {text : Str} {a : Option Json}
    (h : MAX_CIPHERTEXT ≤ written (writer client) client.lone text) :
    ¬Fits c.session (messageBytes client c p text a) := by
  intro hfits
  have hlong : MAX_CIPHERTEXT ≤ messageBytes client c p text a := by
    simp only [messageBytes]
    omega
  simp only [Fits, padded] at hfits
  omega

/-- The letter `a` so many times. -/
def letters (n : Nat) : Str := List.replicate n 97

theorem letters_written (n lone : Nat) : written .stringify lone (letters n) = n + 2 := by
  have hplain : (letters n).all isPlain = true := by
    rw [List.all_eq_true]
    intro u hu
    rw [List.eq_of_mem_replicate hu]
    decide
  rw [written_stringify hplain, letters, List.length_replicate]

theorem sendMessage_somePeer (text : Str) : sendMessage someContext text none =
    .ok (encrypted .desktop someContext somePeer
      (messagePayload .desktop someContext somePeer text none) none) := rfl

theorem letters_not_delivered : ¬∀ (c : Context) (text : Str) (m : Option Manifest) (r : Row),
    sendMessage c text m = .ok r → Deliverable .desktop r := by
  intro h
  have hfits := deliverable_desktop.mp
    (h someContext (letters MAX_CIPHERTEXT) none _ (sendMessage_somePeer _))
  rw [messageBytes_eq] at hfits
  refine long_not_fits ?_ hfits
  exact (letters_written MAX_CIPHERTEXT _).symm ▸ Nat.le_add_right _ _

end WireLimits
