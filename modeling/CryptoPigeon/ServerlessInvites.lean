import CryptoPigeon.JsonSizes
import CryptoPigeon.SigningContexts
import CryptoPigeon.WireLimits
import Mathlib.Data.List.Sort

/-! # Serverless invites

An invite is a signed array, deflated and written into a URI. Both clients make such URIs and
read them; Android also checks what the identity key has signed. The URL parsers, the readers
of JSON, deflate and the signatures are parameters; `Documented` is what they promise. -/
namespace ServerlessInvites

open AttachmentManifests (isUuid matchesEach)
open JsonText (base64 bufferFromBase64 decodeBase64)
open LoginSignature (Client Text encode isHigh isLow text)
open SigningContexts (ServerlessInvite SignedPrekey canonical inviteSigningBytes
  inviteSigningBytes_inj inviteTag)
open JsonSizes (isPlain)
open Utf16Json (Scalar Writer WellFormed arrayBytes ascii)

abbrev Bytes := List UInt8

/-! ## The schema -/

def chars (t : Text) : List Char := t.map fun u => Char.ofNat u.toNat

/-- A test that only an ASCII text can pass. -/
def passes (test : List Char → Bool) (t : Text) : Bool :=
  t.all (fun u => decide (u.toNat < 128)) && test (chars t)

def isUpperHex (c : Char) : Bool := ('A' ≤ c && c ≤ 'F') || ('0' ≤ c && c ≤ '9')

/-- `/^CP-[A-F0-9]{4}-[A-F0-9]{4}$/` -/
def isPublicUid : List Char → Bool :=
  matchesEach ((· == 'C') :: (· == 'P') :: (· == '-') ::
    (List.replicate 4 isUpperHex ++ (· == '-') :: List.replicate 4 isUpperHex))

def isNameChar (c : Char) : Bool :=
  ('a' ≤ c && c ≤ 'z') || ('0' ≤ c && c ≤ '9') || c == '_'

/-- `/^[a-z0-9_]{3,32}$/` -/
def isUsername (t : List Char) : Bool :=
  decide (3 ≤ t.length ∧ t.length ≤ 32) && t.all isNameChar

def isBase32 (c : Char) : Bool := ('a' ≤ c && c ≤ 'z') || ('2' ≤ c && c ≤ '7')

/-- `/^[a-z2-7]{56}\.onion$/` -/
def isOnion : List Char → Bool :=
  matchesEach (List.replicate 56 isBase32 ++ ".onion".toList.map fun d c => c == d)

def b64 (length : Nat) (s : List Char) : Bool :=
  decide (s.length ≤ (length + 2) / 3 * 4) && (bufferFromBase64 s).length == length &&
    base64 (bufferFromBase64 s) == s

def signedSchema (size : Nat) (k : SignedPrekey) : Bool :=
  decide (0 ≤ k.id ∧ k.id ≤ 2147483647) && passes (b64 size) k.publicKey &&
    passes (b64 64) k.signature

def serverlessInviteSchema (v : ServerlessInvite) : Bool :=
  passes isPublicUid v.publicUid && passes isUsername v.username && passes isOnion v.onion &&
  passes isUuid v.userId && passes isUuid v.deviceId &&
  decide (1 ≤ v.signalDeviceId ∧ v.signalDeviceId ≤ 127) &&
  decide (1 ≤ v.registrationId ∧ v.registrationId ≤ 1073741823) &&
  passes (b64 44) v.deviceAuthPublicKey && passes (b64 33) v.identityPublicKey &&
  signedSchema 33 v.signedPrekey && signedSchema 1569 v.pqLastResortPrekey

/-! ## What throws -/

inductive Thrown where
  | error (message : String)
  /-- A call that the code leaves to a library. -/
  | library
  deriving DecidableEq, Repr

def check (ok : Bool) (message : String) : Except Thrown Unit :=
  if ok then .ok () else .error (.error message)

def called {α : Type} : Option α → Except Thrown α
  | some a => .ok a
  | none => .error .library

/-- A value that must be there. -/
def present {α : Type} (message : String) : Option α → Except Thrown α
  | some a => .ok a
  | none => .error (.error message)

@[simp] theorem check_ok {ok : Bool} {message : String} {u : Unit} :
    check ok message = .ok u ↔ ok = true := by
  cases ok <;> simp [check]

@[simp] theorem called_ok {α : Type} {o : Option α} {a : α} : called o = .ok a ↔ o = some a := by
  cases o <;> simp [called]

@[simp] theorem present_ok {α : Type} {message : String} {o : Option α} {a : α} :
    present message o = .ok a ↔ o = some a := by
  cases o <;> simp [present]

@[simp] theorem bind_ok {α β : Type} {x : Except Thrown α} {f : α → Except Thrown β} {b : β} :
    (x >>= f) = .ok b ↔ ∃ a, x = .ok a ∧ f a = .ok b := by
  cases x <;> simp [bind, Except.bind]

@[simp] theorem pure_ok {α : Type} {a b : α} : (pure a : Except Thrown α) = .ok b ↔ a = b := by
  simp [pure, Except.pure]

/-! ## The libraries -/

/-- `URL` of the desktop, with its search parameters in their order. -/
structure Url where
  protocol : Text
  hostname : Text
  pathname : Text
  hash : Text
  username : Text
  password : Text
  port : Text
  searchParams : List (Text × Text)
  deriving DecidableEq, Repr

/-- `java.net.URI`; a port of -1 is none. -/
structure Uri where
  scheme : Option Text
  host : Option Text
  path : Option Text
  userInfo : Option Text
  port : Int
  fragment : Option Text
  rawQuery : Option Text
  deriving DecidableEq, Repr

/-- An element of an array that `JSON.parse` returns; `other` is neither a string nor an integer. -/
inductive Value where
  | str (s : Text)
  | int (n : Int)
  | other
  deriving DecidableEq, Repr

/-- `org.json.JSONArray`, whose getters convert, or throw. -/
structure JsonArray where
  length : Nat
  getString : Nat → Option Text
  getInt : Nat → Option Int

/-- What throws returns nothing. -/
structure Libraries where
  /-- `new URL(uri)` -/
  url : Text → Option Url
  /-- `new URI(text)` -/
  uri : Text → Option Uri
  deflateRawSync : List Nat → Bytes
  /-- `inflateRawSync(bytes, {maxOutputLength})` -/
  inflateRawSync : Nat → Bytes → Option (List Nat)
  /-- `Deflater(9, true)` to its end. -/
  deflate : List Nat → Bytes
  /-- What the call of `inflate` after so many others puts into a buffer of 1024 bytes. -/
  inflate : Bytes → Nat → Option (List Nat)
  /-- `finished()` after so many calls of `inflate`. -/
  finished : Bytes → Nat → Bool
  /-- `JSON.parse` of the UTF-8 text, with nothing inside for what is not an array. -/
  parseJson : List Nat → Option (Option (List Value))
  /-- `new JSONArray` of the UTF-8 text. -/
  jsonArray : List Nat → Option JsonArray
  /-- `UUID.fromString` returns. -/
  uuid : Text → Bool
  /-- `createPublicKey` of an SPKI key, and its `asymmetricKeyType`. -/
  keyType : Bytes → Option String
  /-- `crypto.verify(null, bytes, key, signature)` under an SPKI key. -/
  verify : Bytes → List Nat → Bytes → Bool
  /-- `crypto.sign(null, bytes, key)` with a PKCS8 key. -/
  sign : Bytes → List Nat → Option Bytes
  /-- `Ed25519Signer` with a seed. -/
  edSign : Bytes → List Nat → Bytes
  /-- `Ed25519Signer` with a public key. -/
  edVerify : Bytes → List Nat → Bytes → Bool
  /-- `new IdentityKey(bytes, 0)`, and what its public key has signed. -/
  identityKey : Bytes → Option (Bytes → Bytes → Bool)

/-! ## Creating -/

def urlDigit (c : Char) : Char := if c = '+' then '-' else if c = '/' then '_' else c

/-- `toString('base64url')`, without padding. -/
def base64url (x : Bytes) : Text := ascii (((base64 x).filter (· != '=')).map urlDigit)

def inviteUri (data sig : Text) : Text :=
  text "pigeon://invite?v=2&data=" ++ data ++ text "&sig=" ++ sig

def createServerlessInvite (L : Libraries) (invite : ServerlessInvite) (privateKeyDer : Bytes) :
    Except Thrown Text := do
  called (if serverlessInviteSchema invite then some () else none)
  let bytes := inviteSigningBytes invite
  let sig ← called (L.sign privateKeyDer bytes)
  let uri := inviteUri (base64url (L.deflateRawSync bytes)) (base64url sig)
  check (decide ((encode Client.desktop.lone uri).length ≤ 2953)) "INVITE_TOO_LARGE"
  pure uri

/-- The bytes before the seed. -/
def pkcs8Prefix : Bytes :=
  [0x30, 0x2e, 0x02, 0x01, 0x00, 0x30, 0x05, 0x06, 0x03, 0x2b, 0x65, 0x70, 0x04, 0x22, 0x04, 0x20]

def signDeviceMessage (L : Libraries) (encoded : Option Bytes) (message : List Nat) :
    Except Thrown Bytes := do
  let encoded ← present "invalid_device_auth_key" encoded
  check (encoded.length == 48 && encoded.take 16 == pkcs8Prefix) "invalid_device_auth_key"
  pure (L.edSign (encoded.drop 16) message)

/-- `ServerlessInvite.create` -/
def create (L : Libraries) (invite : ServerlessInvite) (encoded : Option Bytes) :
    Except Thrown Text := do
  let bytes := canonical invite
  let sig ← signDeviceMessage L encoded bytes
  let uri := inviteUri (base64url (L.deflate bytes)) (base64url sig)
  check (decide (uri.length ≤ 2953)) "INVITE_TOO_LARGE"
  pure uri

/-! ## Parsing on the desktop -/

/-- `[A-Za-z0-9_-]` -/
def isUrlDigit (u : UInt16) : Bool :=
  (65 ≤ u.toNat && u.toNat ≤ 90) || (97 ≤ u.toNat && u.toNat ≤ 122) ||
    (48 ≤ u.toNat && u.toNat ≤ 57) || u == 95 || u == 45

/-- `/^[A-Za-z0-9_-]+$/` -/
def isData (t : Text) : Bool := !t.isEmpty && t.all isUrlDigit

/-- `/^[A-Za-z0-9_-]{86}$/` -/
def isSig (t : Text) : Bool := t.length == 86 && t.all isUrlDigit

/-- `searchParams.get(name)` -/
def Url.get (url : Url) (name : String) : Option Text := url.searchParams.lookup (text name)

/-- `[...searchParams.keys()].sort().join(',')` -/
def Url.keys (url : Url) : Text :=
  [44].intercalate ((url.searchParams.map Prod.fst).insertionSort (· ≤ ·))

def Url.isInvite (url : Url) : Bool :=
  url.protocol == text "pigeon:" && url.hostname == text "invite" && url.pathname.isEmpty &&
  url.hash.isEmpty && url.username.isEmpty && url.password.isEmpty && url.port.isEmpty &&
  url.get "v" == some (text "2") && url.keys == text "data,sig,v"

/-- A regular expression reads `null` as its name. -/
def nullable (t : Option Text) : Text := t.getD (text "null")

/-- The object of the schema from the elements of the array, when they have its types. -/
def readItems : List Value → Option ServerlessInvite
  | [_, .str publicUid, .str username, .str onion, .str userId, .str deviceId,
      .int signalDeviceId, .int registrationId, .str deviceAuthPublicKey, .str identityPublicKey,
      .int signedId, .str signedKey, .str signedSignature,
      .int pqId, .str pqKey, .str pqSignature] =>
    some ⟨publicUid, username, onion, userId, deviceId, signalDeviceId, registrationId,
      deviceAuthPublicKey, identityPublicKey, ⟨signedId, signedKey, signedSignature⟩,
      ⟨pqId, pqKey, pqSignature⟩⟩
  | _ => none

def parseServerlessInvite (L : Libraries) (uri : Text) : Except Thrown ServerlessInvite := do
  check (decide (uri.length ≤ 4096)) "INVALID_INVITE"
  let url ← called (L.url uri)
  check url.isInvite "INVALID_INVITE"
  check (isData (nullable (url.get "data")) && isSig (nullable (url.get "sig"))) "INVALID_INVITE"
  let data ← called (url.get "data")
  let raw ← called (L.inflateRawSync 8192 (bufferFromBase64 (chars data)))
  let parsed ← called (L.parseJson raw)
  let a ← present "INVALID_INVITE" parsed
  check (a.length == 16 && a.head? == some (.str inviteTag)) "INVALID_INVITE"
  let invite ← called ((readItems a).filter serverlessInviteSchema)
  let spki := bufferFromBase64 (chars invite.deviceAuthPublicKey)
  let type ← called (L.keyType spki)
  let sig ← called (url.get "sig")
  check (type == "ed25519" &&
    L.verify spki (inviteSigningBytes invite) (bufferFromBase64 (chars sig)))
    "INVALID_INVITE_SIGNATURE"
  pure invite

/-! ## Parsing on Android -/

/-- `text.split("&")`: empty texts at the end are left out, but for a text without the separator. -/
def split (t : Text) : List Text :=
  let parts := t.splitOn 38
  if parts.length = 1 then parts else (parts.reverse.dropWhile List.isEmpty).reverse

/-- `item.split("=", 2)` of two parts. -/
def pair (item : Text) : Option (Text × Text) :=
  match item.span (· != 61) with
  | (key, _ :: value) => some (key, value)
  | (_, []) => none

/-- The loop over the parameters; `put` returns nothing for a new key only. -/
def readQuery : List Text → List (Text × Text) → Except Thrown (List (Text × Text))
  | [], query => .ok query
  | item :: items, query => do
    let (key, value) ← present "INVALID_INVITE" (pair item)
    check (query.lookup key).isNone "INVALID_INVITE"
    readQuery items ((key, value) :: query)

def unurl64 (value : Text) : Except Thrown Bytes := do
  check (isData value) "INVALID_INVITE"
  called (if value.length % 4 = 1 then none else some (bufferFromBase64 (chars value)))

/-- The loop of `inflate` into `out`. -/
def inflateAll (L : Libraries) (bytes : Bytes) (calls : Nat) (out : List Nat) :
    Except Thrown (List Nat) :=
  if L.finished bytes calls then .ok out
  else
    match L.inflate bytes calls with
    | none => .error .library
    | some buffer =>
      if _h : buffer.length = 0 ∨ 8192 < out.length + buffer.length then
        .error (.error "INVALID_INVITE")
      else inflateAll L bytes (calls + 1) (out ++ buffer)
termination_by 8192 - out.length
decreasing_by
  rw [List.length_append]
  omega

def readArray (a : JsonArray) : Option ServerlessInvite := do
  let publicUid ← a.getString 1
  let username ← a.getString 2
  let onion ← a.getString 3
  let userId ← a.getString 4
  let deviceId ← a.getString 5
  let signalDeviceId ← a.getInt 6
  let registrationId ← a.getInt 7
  let deviceAuthPublicKey ← a.getString 8
  let identityPublicKey ← a.getString 9
  let signedId ← a.getInt 10
  let signedKey ← a.getString 11
  let signedSignature ← a.getString 12
  let pqId ← a.getInt 13
  let pqKey ← a.getString 14
  let pqSignature ← a.getString 15
  some ⟨publicUid, username, onion, userId, deviceId, signalDeviceId, registrationId,
    deviceAuthPublicKey, identityPublicKey, ⟨signedId, signedKey, signedSignature⟩,
    ⟨pqId, pqKey, pqSignature⟩⟩

/-- `Crypto.unb64` -/
def unb64 (value : Text) : Except Thrown Bytes :=
  called (if value.all (fun u => decide (u.toNat < 128)) then decodeBase64 (chars value) else none)

def check64 (value : Text) (size : Nat) : Except Thrown Unit := do
  let bytes ← unb64 value
  check (bytes.length == size && ascii (base64 bytes) == value) "INVALID_INVITE"

/-- The bytes before an Ed25519 key in its SPKI form. -/
def spkiPrefix : Bytes :=
  [0x30, 0x2a, 0x30, 0x05, 0x06, 0x03, 0x2b, 0x65, 0x70, 0x03, 0x21, 0x00]

def edVerifySpki (L : Libraries) (publicKey : Bytes) (message : List Nat) (signature : Bytes) :
    Bool :=
  publicKey.length == 44 && publicKey.take 12 == spkiPrefix &&
    L.edVerify (publicKey.drop 12) message signature

def checkPrekey (verifySignature : Bytes → Bytes → Bool) (size : Nat) (prekey : SignedPrekey) :
    Except Thrown Unit := do
  check (decide (0 ≤ prekey.id)) "INVALID_INVITE"
  check64 prekey.publicKey size
  check64 prekey.signature 64
  let key ← unb64 prekey.publicKey
  let signature ← unb64 prekey.signature
  check (verifySignature key signature) "INVALID_SIGNAL_PREKEY_SIGNATURE"

/-- The texts and numbers that are looked at before the keys. -/
def wellSpelled (v : ServerlessInvite) : Bool :=
  passes isPublicUid v.publicUid && passes isUsername v.username && passes isOnion v.onion &&
  decide (1 ≤ v.signalDeviceId ∧ v.signalDeviceId ≤ 127) &&
  decide (1 ≤ v.registrationId ∧ v.registrationId ≤ 1073741823)

/-- `ServerlessInvite.parse` -/
def parse (L : Libraries) (t : Text) : Except Thrown ServerlessInvite := do
  check (decide (t.length ≤ 4096)) "INVALID_INVITE"
  let uri ← called (L.uri t)
  check (uri.scheme == some (text "pigeon") && uri.host == some (text "invite")) "INVALID_INVITE"
  let path ← called uri.path
  check (path.isEmpty && uri.userInfo.isNone && uri.port == -1 && uri.fragment.isNone)
    "INVALID_INVITE"
  let rawQuery ← present "INVALID_INVITE" uri.rawQuery
  let query ← readQuery (split rawQuery) []
  check (query.length == 3 && query.lookup (text "v") == some (text "2") &&
    (query.lookup (text "data")).isSome && isSig ((query.lookup (text "sig")).getD []))
    "INVALID_INVITE"
  let data ← called (query.lookup (text "data"))
  let bytes ← unurl64 data
  let raw ← inflateAll L bytes 0 []
  let a ← called (L.jsonArray raw)
  check (a.length == 16) "INVALID_INVITE"
  let tag ← called (a.getString 0)
  check (tag == inviteTag) "INVALID_INVITE"
  let v ← called (readArray a)
  check (wellSpelled v) "INVALID_INVITE"
  called (if L.uuid v.deviceId && L.uuid v.userId then some () else none)
  check64 v.deviceAuthPublicKey 44
  check64 v.identityPublicKey 33
  let spki ← unb64 v.deviceAuthPublicKey
  let sig ← unurl64 ((query.lookup (text "sig")).getD [])
  check (edVerifySpki L spki (canonical v) sig) "INVALID_INVITE_SIGNATURE"
  let identity ← unb64 v.identityPublicKey
  let verifySignature ← called (L.identityKey identity)
  checkPrekey verifySignature 33 v.signedPrekey
  checkPrekey verifySignature 1569 v.pqLastResortPrekey
  pure v

/-! ## What the libraries promise -/

/-- Raw deflate data that one of the clients made of bytes. -/
structure Deflated (L : Libraries) (c : Bytes) (x : List Nat) : Prop where
  bytes : ∀ b ∈ x, b < 256
  made : c = L.deflateRawSync x ∨ c = L.deflate x

def valueOf : Scalar → Value
  | .str s => .str s
  | .int n => .int n
  | _ => .other

/-- The documented behaviour of the libraries, as far as it matters. -/
structure Documented (L : Libraries) : Prop where
  url : ∀ data sig, isData data = true → isSig sig = true →
    L.url (inviteUri data sig) = some ⟨text "pigeon:", text "invite", [], [], [], [], [],
      [(text "v", text "2"), (text "data", data), (text "sig", sig)]⟩
  uri : ∀ data sig, isData data = true → isSig sig = true →
    L.uri (inviteUri data sig) = some ⟨some (text "pigeon"), some (text "invite"), some [], none,
      -1, none, some (text "v=2&data=" ++ data ++ text "&sig=" ++ sig)⟩
  deflated_ne_nil : ∀ c x, Deflated L c x → c ≠ []
  bounded : ∀ n c x, L.inflateRawSync n c = some x → x.length ≤ n
  inflateRaw : ∀ n c x, Deflated L c x → x.length ≤ n → L.inflateRawSync n c = some x
  inflate : ∀ c x calls, Deflated L c x → 1024 * calls < x.length →
    L.finished c calls = false ∧ L.inflate c calls = some ((x.drop (1024 * calls)).take 1024)
  /-- A call that leaves room in the buffer has met the end of the data. -/
  finished : ∀ c x calls, Deflated L c x → 1024 * calls < x.length →
    x.length < 1024 * (calls + 1) → L.finished c (calls + 1) = true
  parseJson : ∀ fs : List Scalar, (∀ n, .int n ∈ fs → n.natAbs ≤ 9007199254740991) →
    L.parseJson (arrayBytes .stringify Client.desktop.lone fs) = some (some (fs.map valueOf))
  jsonArray : ∀ fs : List Scalar, ∃ a,
    L.jsonArray (arrayBytes .stringify Client.desktop.lone fs) = some a ∧ a.length = fs.length ∧
    (∀ i s, fs[i]? = some (.str s) → a.getString i = some s) ∧
    ∀ i n, fs[i]? = some (.int n) → -2147483648 ≤ n → n ≤ 2147483647 → a.getInt i = some n
  uuid : ∀ t, isUuid t = true → L.uuid (ascii t) = true
  uuid_plain : ∀ t, L.uuid t = true → ∀ u ∈ t, isHigh u = false ∧ isLow u = false

/-- The bytes of a base64 text. -/
def decoded (t : Text) : Bytes := bufferFromBase64 (chars t)

/-- The key in the invite is the one that signs. -/
structure Matches (L : Libraries) (v : ServerlessInvite) (sign : List Nat → Option Bytes) :
    Prop where
  type : L.keyType (decoded v.deviceAuthPublicKey) = some "ed25519"
  size : ∀ m s, sign m = some s → s.length = 64
  desktop : ∀ m s, sign m = some s → L.verify (decoded v.deviceAuthPublicKey) m s = true
  android : ∀ m s, sign m = some s → edVerifySpki L (decoded v.deviceAuthPublicKey) m s = true

/-! ## Texts -/

section Texts

variable {p : List Char → Bool} {t : Text} {n : Nat} {x : Bytes}

theorem toUInt16_ofNat {u : UInt16} (h : u.toNat < 128) :
    (Char.ofNat u.toNat).toNat.toUInt16 = u := by
  have hvalid : u.toNat.isValidChar := Or.inl (by omega)
  have hchar : (Char.ofNat u.toNat).toNat = u.toNat := by
    rw [Char.ofNat, dif_pos hvalid]
    rfl
  rw [hchar, Nat.toUInt16]
  exact UInt16.ofNat_toNat

theorem passes_units (h : passes p t = true) : ∀ u ∈ t, u.toNat < 128 := by
  simp only [passes, Bool.and_eq_true, List.all_eq_true, decide_eq_true_eq] at h
  exact h.1

theorem passes_chars (h : passes p t = true) : p (chars t) = true := by
  simp only [passes, Bool.and_eq_true] at h
  exact h.2

theorem ascii_chars (h : ∀ u ∈ t, u.toNat < 128) : ascii (chars t) = t := by
  rw [ascii, chars, List.map_map]
  exact (List.map_congr_left fun u hu => toUInt16_ofNat (h u hu)).trans t.map_id

theorem toNat_toUInt16 {c : Char} (h : c.toNat < 128) : c.toNat.toUInt16.toNat = c.toNat := by
  rw [Nat.toUInt16, UInt16.toNat_ofNat', Nat.mod_eq_of_lt (by omega)]

theorem chars_ascii {s : List Char} (h : ∀ c ∈ s, c.toNat < 128) : chars (ascii s) = s := by
  rw [chars, ascii, List.map_map]
  refine (List.map_congr_left fun c hc => ?_).trans s.map_id
  change Char.ofNat c.toNat.toUInt16.toNat = c
  rw [toNat_toUInt16 (h c hc), Char.ofNat_toNat]

theorem chars_base64 (x : Bytes) : chars (ascii (base64 x)) = base64 x :=
  chars_ascii fun _ hc => SignedPayloads.base64_ascii hc

theorem b64_spec {s : List Char} (h : b64 n s = true) :
    (bufferFromBase64 s).length = n ∧ base64 (bufferFromBase64 s) = s := by
  simp only [b64, Bool.and_eq_true, beq_iff_eq] at h
  exact ⟨h.1.2, h.2⟩

theorem unb64_passes (h : passes (b64 n) t = true) : unb64 t = .ok (decoded t) := by
  have hunits : t.all (fun u => decide (u.toNat < 128)) = true := by
    rw [List.all_eq_true]
    exact fun u hu => decide_eq_true (passes_units h u hu)
  have hdecode := JsonText.decodeBase64_base64 (decoded t)
  rw [decoded, (b64_spec (passes_chars h)).2] at hdecode
  rw [unb64, if_pos hunits, hdecode]
  rfl

theorem check64_passes (h : passes (b64 n) t = true) : check64 t n = .ok () := by
  obtain ⟨hlen, hbase⟩ := b64_spec (passes_chars h)
  have hsame : ascii (base64 (decoded t)) = t := by
    rw [decoded, hbase, ascii_chars (passes_units h)]
  unfold check64
  simp only [bind_ok, check_ok]
  refine ⟨decoded t, unb64_passes h, ?_⟩
  rw [Bool.and_eq_true, beq_iff_eq, beq_iff_eq]
  exact ⟨hlen, hsame⟩

theorem urlDigit_value {d : Nat} (h : d < 64) :
    JsonText.lenientValue (urlDigit (JsonText.base64Digit d)) = some d ∧
      isUrlDigit (urlDigit (JsonText.base64Digit d)).toNat.toUInt16 = true ∧
      Char.ofNat (urlDigit (JsonText.base64Digit d)).toNat.toUInt16.toNat =
        urlDigit (JsonText.base64Digit d) := by
  have all : ∀ d < 64, JsonText.lenientValue (urlDigit (JsonText.base64Digit d)) = some d ∧
      isUrlDigit (urlDigit (JsonText.base64Digit d)).toNat.toUInt16 = true ∧
      Char.ofNat (urlDigit (JsonText.base64Digit d)).toNat.toUInt16.toNat =
        urlDigit (JsonText.base64Digit d) := by decide
  exact all d h

theorem urlDigit_ne_pad {d : Nat} (h : d < 64) : urlDigit (JsonText.base64Digit d) ≠ '=' := by
  have all : ∀ d < 64, urlDigit (JsonText.base64Digit d) ≠ '=' := by decide
  exact all d h

/-- The digits of a text for URLs, and the bytes that they stand for. -/
theorem base64url_digits (x : Bytes) : ∃ ds : List Nat, (∀ d ∈ ds, d < 64) ∧
    base64url x = ascii (ds.map fun d => urlDigit (JsonText.base64Digit d)) ∧
    JsonText.sextetBytes ds = x := by
  obtain ⟨ds, padding, hbase, hlt, hbytes, hp⟩ := JsonText.base64_digits x
  refine ⟨ds, hlt, ?_, hbytes⟩
  have hdigits : (ds.map JsonText.base64Digit).filter (· != '=') = ds.map JsonText.base64Digit := by
    rw [List.filter_eq_self]
    intro c hc
    obtain ⟨d, hd, rfl⟩ := List.mem_map.mp hc
    exact bne_iff_ne.mpr (JsonText.base64Digit_ne_pad (hlt d hd))
  have hpadding : padding.filter (· != '=') = [] := by
    simp only [List.mem_cons, Prod.mk.injEq, List.not_mem_nil, or_false] at hp
    rcases hp with ⟨-, rfl⟩ | ⟨-, rfl⟩ | ⟨-, rfl⟩ <;> rfl
  rw [base64url, hbase, List.filter_append, hdigits, hpadding, List.append_nil, List.map_map]
  rfl

theorem base64url_units (x : Bytes) : (base64url x).all isUrlDigit = true := by
  obtain ⟨ds, hlt, heq, -⟩ := base64url_digits x
  rw [heq, List.all_eq_true]
  intro u hu
  simp only [ascii, List.map_map, List.mem_map] at hu
  obtain ⟨d, hd, rfl⟩ := hu
  exact (urlDigit_value (hlt d hd)).2.1

theorem decoded_base64url (x : Bytes) : decoded (base64url x) = x := by
  obtain ⟨ds, hlt, heq, hbytes⟩ := base64url_digits x
  have hchars : chars (base64url x) = ds.map fun d => urlDigit (JsonText.base64Digit d) := by
    rw [heq, chars, ascii, List.map_map, List.map_map]
    exact List.map_congr_left fun d hd => (urlDigit_value (hlt d hd)).2.2
  have htake : (ds.map fun d => urlDigit (JsonText.base64Digit d)).takeWhile (· != '=') =
      ds.map fun d => urlDigit (JsonText.base64Digit d) := by
    rw [List.takeWhile_eq_self_iff]
    intro c hc
    obtain ⟨d, hd, rfl⟩ := List.mem_map.mp hc
    exact bne_iff_ne.mpr (urlDigit_ne_pad (hlt d hd))
  have hread : ∀ d ∈ ds, (JsonText.lenientValue ∘ fun d => urlDigit (JsonText.base64Digit d)) d =
      some d := fun d hd => (urlDigit_value (hlt d hd)).1
  rw [decoded, hchars, bufferFromBase64, htake, List.filterMap_map, List.filterMap_congr hread,
    List.filterMap_some, hbytes]

/-- Four digits for three bytes, and two or three for what is left. -/
theorem base64url_length (x : Bytes) : (base64url x).length = (8 * x.length + 5) / 6 := by
  rw [base64url, ascii, List.length_map, List.length_map]
  have digit {d : Nat} (h : d < 64) : (JsonText.base64Digit d != '=') = true :=
    bne_iff_ne.mpr (JsonText.base64Digit_ne_pad h)
  induction x using JsonText.base64.induct with
  | case1 => rfl
  | case2 a =>
    have ha := a.toNat_lt
    simp [base64, digit (show a.toNat / 4 < 64 by omega),
      digit (show a.toNat % 4 * 16 < 64 by omega)]
  | case3 a b =>
    have ha := a.toNat_lt
    have hb := b.toNat_lt
    simp [base64, digit (show a.toNat / 4 < 64 by omega),
      digit (show a.toNat % 4 * 16 + b.toNat / 16 < 64 by omega),
      digit (show b.toNat % 16 * 4 < 64 by omega)]
  | case4 a b c r ih =>
    have ha := a.toNat_lt
    have hb := b.toNat_lt
    have hc := c.toNat_lt
    simp only [base64, List.filter_cons, digit (show a.toNat / 4 < 64 by omega),
      digit (show a.toNat % 4 * 16 + b.toNat / 16 < 64 by omega),
      digit (show b.toNat % 16 * 4 + c.toNat / 64 < 64 by omega),
      digit (show c.toNat % 64 < 64 by omega), if_true, List.length_cons, ih]
    omega

theorem base64url_isSig (h : x.length = 64) : isSig (base64url x) = true := by
  rw [isSig, base64url_units, base64url_length, h]
  rfl

theorem base64url_isData (h : x ≠ []) : isData (base64url x) = true := by
  have hpos := List.length_pos_iff.mpr h
  have hne : (base64url x).isEmpty = false := by
    rw [List.isEmpty_eq_false_iff, ← List.length_pos_iff, base64url_length]
    omega
  rw [isData, base64url_units, hne]
  rfl

theorem unurl64_base64url (h : x ≠ []) : unurl64 (base64url x) = .ok x := by
  have hlen : ¬(base64url x).length % 4 = 1 := by
    rw [base64url_length]
    omega
  have hdecoded := decoded_base64url x
  rw [decoded] at hdecoded
  simp only [unurl64, bind_ok, check_ok, called_ok, if_neg hlen, Option.some.injEq]
  exact ⟨(), base64url_isData h, hdecoded⟩

end Texts

/-! ## The signed bytes -/

section SignedBytes

variable {t : Text} {n : Nat}

/-- The signs that the schema's patterns allow. -/
def isCode (c : Char) : Bool :=
  ('a' ≤ c && c ≤ 'z') || ('A' ≤ c && c ≤ 'Z') || ('0' ≤ c && c ≤ '9') || c == '-' || c == '_' ||
    c == '.'

theorem isCode_plain {c : Char} (h : isCode c = true) : isPlain c.toNat.toUInt16 = true := by
  have hrange : 32 ≤ c.toNat ∧ c.toNat < 128 ∧ c.toNat ≠ 34 ∧ c.toNat ≠ 92 := by
    simp only [isCode, Bool.or_eq_true, Bool.and_eq_true, decide_eq_true_eq, Char.le_def,
      UInt32.le_iff_toNat_le, Char.reduceVal, UInt32.reduceToNat, Char.toNat_val, beq_iff_eq] at h
    rcases h with ((((h | h) | h) | rfl) | rfl) | rfl
    · omega
    · omega
    · omega
    · decide
    · decide
    · decide
  obtain ⟨hlow, hhigh, hquote, hslash⟩ := hrange
  have hnat := toNat_toUInt16 hhigh
  have hne {u : UInt16} (hu : c.toNat ≠ u.toNat) : c.toNat.toUInt16 ≠ u := by
    intro heq
    rw [← heq, hnat] at hu
    exact hu rfl
  simp only [isPlain, Bool.and_eq_true, decide_eq_true_eq, bne_iff_ne, hnat]
  exact ⟨⟨⟨hlow, hhigh⟩, hne hquote⟩, hne hslash⟩

theorem plain_of_code {p : List Char → Bool} (h : passes p t = true)
    (hp : ∀ c ∈ chars t, isCode c = true) : t.all isPlain = true := by
  rw [List.all_eq_true]
  intro u hu
  have hcode := isCode_plain (hp _ (List.mem_map_of_mem hu))
  rwa [toUInt16_ofNat (passes_units h u hu)] at hcode

theorem isUpperHex_code {c : Char} (h : isUpperHex c = true) : isCode c = true := by
  simp only [isUpperHex, isCode, Bool.or_eq_true, Bool.and_eq_true, decide_eq_true_eq,
    Char.le_def, UInt32.le_iff_toNat_le, Char.reduceVal, UInt32.reduceToNat, Char.toNat_val] at *
  omega

theorem isNameChar_code {c : Char} (h : isNameChar c = true) : isCode c = true := by
  simp only [isNameChar, isCode, Bool.or_eq_true] at *
  tauto

theorem isBase32_code {c : Char} (h : isBase32 c = true) : isCode c = true := by
  simp only [isBase32, isCode, Bool.or_eq_true, Bool.and_eq_true, decide_eq_true_eq,
    Char.le_def, UInt32.le_iff_toNat_le, Char.reduceVal, UInt32.reduceToNat, Char.toNat_val] at *
  omega

/-- A text that is written as it stands, of at most so many signs. -/
structure Spelt (n : Nat) (t : Text) : Prop where
  plain : t.all isPlain = true
  length : t.length ≤ n

theorem spelt_publicUid (h : passes isPublicUid t = true) : Spelt 12 t := by
  have hchars := passes_chars h
  constructor
  · refine plain_of_code h (AttachmentManifests.matchesEach_all (fun p hp c hc => ?_) hchars)
    simp only [List.mem_cons, List.mem_append, List.mem_replicate] at hp
    rcases hp with rfl | rfl | rfl | ⟨-, rfl⟩ | rfl | ⟨-, rfl⟩
    · rw [beq_iff_eq.mp hc]
      decide
    · rw [beq_iff_eq.mp hc]
      decide
    · rw [beq_iff_eq.mp hc]
      decide
    · exact isUpperHex_code hc
    · rw [beq_iff_eq.mp hc]
      decide
    · exact isUpperHex_code hc
  · have hlen := AttachmentManifests.matchesEach_length hchars
    rw [chars, List.length_map] at hlen
    exact hlen.le

theorem spelt_username (h : passes isUsername t = true) : Spelt 32 t := by
  have hchars := passes_chars h
  simp only [isUsername, Bool.and_eq_true, decide_eq_true_eq, List.all_eq_true] at hchars
  constructor
  · exact plain_of_code h fun c hc => isNameChar_code (hchars.2 c hc)
  · have hlen := hchars.1.2
    rwa [chars, List.length_map] at hlen

theorem spelt_onion (h : passes isOnion t = true) : Spelt 62 t := by
  have hchars := passes_chars h
  constructor
  · refine plain_of_code h (AttachmentManifests.matchesEach_all (fun p hp c hc => ?_) hchars)
    rcases List.mem_append.mp hp with hp | hp
    · rw [(List.mem_replicate.mp hp).2] at hc
      exact isBase32_code hc
    · obtain ⟨d, hd, rfl⟩ := List.mem_map.mp hp
      rw [beq_iff_eq.mp hc]
      have all : ".onion".toList.all isCode = true := by rfl
      exact List.all_eq_true.mp all d hd
  · have hlen := AttachmentManifests.matchesEach_length hchars
    rw [chars, List.length_map] at hlen
    rw [hlen]
    decide

theorem spelt_uuid (h : passes isUuid t = true) : Spelt 36 t := by
  have hchars := passes_chars h
  constructor
  · refine plain_of_code h fun c hc => ?_
    rcases WireLimits.isUuid_code hchars c hc with hhex | rfl
    · simp only [AttachmentManifests.isHex, AttachmentManifests.isLowerHex, isCode,
        Bool.or_eq_true, Bool.and_eq_true, decide_eq_true_eq, Char.le_def,
        UInt32.le_iff_toNat_le, Char.reduceVal, UInt32.reduceToNat, Char.toNat_val] at *
      omega
    · decide
  · have hlen := BackupLimits.isUuid_length hchars
    rw [chars, List.length_map] at hlen
    exact hlen.le

theorem spelt_b64 (h : passes (b64 n) t = true) : Spelt ((n + 2) / 3 * 4) t := by
  obtain ⟨hlen, hbase⟩ := b64_spec (passes_chars h)
  have htext : ascii (base64 (decoded t)) = t := by
    rw [decoded, hbase, ascii_chars (passes_units h)]
  constructor
  · rw [← htext]
    exact WireLimits.isPlain_base64
  · have hlength := congrArg List.length htext
    rw [ascii, List.length_map, JsonText.base64_length, decoded, hlen] at hlength
    exact hlength.ge

end SignedBytes

section Sizes

variable {t : Text} {n lone : Nat} {v : ServerlessInvite} {fs : List Scalar} {f : Scalar}
  {W : Writer}

/-- Every element is followed by a comma or by the last bracket. -/
theorem items_bytes (h : fs ≠ []) : (encode lone (Utf16Json.items W fs)).length + 1 =
    (fs.map fun f => (encode lone (f.write W)).length + 1).sum := by
  induction fs with
  | nil => exact absurd rfl h
  | cons f fs ih =>
    cases fs with
    | nil => simp [Utf16Json.items]
    | cons g fs =>
      have hrest := ih (List.cons_ne_nil g fs)
      rw [Utf16Json.items, JsonSizes.encode_sep_length (by decide), List.map_cons, List.sum_cons]
      · omega
      · exact List.cons_ne_nil g fs

theorem arrayBytes_length (h : fs ≠ []) : (arrayBytes W lone fs).length =
    (fs.map fun f => (encode lone (f.write W)).length + 1).sum + 1 := by
  rw [arrayBytes, Utf16Json.array, JsonSizes.enclosed_length (by decide) (by decide),
    ← items_bytes h]
  omega

/-- The most that an element adds. -/
def Fits (n : Nat) (f : Scalar) : Prop :=
  ∀ lone, (encode lone (f.write .stringify)).length + 1 ≤ n

theorem fits_str (h : Spelt n t) : Fits (n + 3) (.str t) := by
  intro lone
  have hwritten : (encode lone (Writer.stringify.quote t)).length = t.length + 2 :=
    JsonSizes.written_stringify h.plain
  rw [Scalar.write, hwritten]
  have hlength := h.length
  omega

theorem fits_int {i : Int} (hlow : 0 ≤ i) (hhigh : i < 10 ^ 10) : Fits 11 (.int i) := by
  intro lone
  obtain ⟨k, rfl⟩ := Int.eq_ofNat_of_zero_le hlow
  have hk : k < 10 ^ 10 := by exact_mod_cast hhigh
  have hlength := WireLimits.decimal_length (k := 10) (by decide) hk
  rw [Scalar.write, WireLimits.encode_decimal]
  omega

theorem sum_fits {ns : List Nat} (lone : Nat) (h : List.Forall₂ Fits ns fs) :
    (fs.map fun f => (encode lone (f.write .stringify)).length + 1).sum ≤ ns.sum := by
  induction h with
  | nil => exact Nat.le_refl 0
  | cons hf _ ih =>
    rw [List.map_cons, List.sum_cons, List.sum_cons]
    exact Nat.add_le_add (hf lone) ih

theorem signedSchema_spec {size : Nat} {k : SignedPrekey} (h : signedSchema size k = true) :
    (0 ≤ k.id ∧ k.id ≤ 2147483647) ∧ passes (b64 size) k.publicKey = true ∧
      passes (b64 64) k.signature = true := by
  simp only [signedSchema, Bool.and_eq_true, decide_eq_true_eq] at h
  exact ⟨h.1.1, h.1.2, h.2⟩

/-- What the schema says of each field. -/
structure Schema (v : ServerlessInvite) : Prop where
  publicUid : passes isPublicUid v.publicUid = true
  username : passes isUsername v.username = true
  onion : passes isOnion v.onion = true
  userId : passes isUuid v.userId = true
  deviceId : passes isUuid v.deviceId = true
  signalDeviceId : 1 ≤ v.signalDeviceId ∧ v.signalDeviceId ≤ 127
  registrationId : 1 ≤ v.registrationId ∧ v.registrationId ≤ 1073741823
  deviceAuthPublicKey : passes (b64 44) v.deviceAuthPublicKey = true
  identityPublicKey : passes (b64 33) v.identityPublicKey = true
  signedPrekey : signedSchema 33 v.signedPrekey = true
  pqLastResortPrekey : signedSchema 1569 v.pqLastResortPrekey = true

theorem schema_iff : serverlessInviteSchema v = true ↔ Schema v := by
  simp only [serverlessInviteSchema, Bool.and_eq_true, decide_eq_true_eq]
  constructor
  · rintro ⟨⟨⟨⟨⟨⟨⟨⟨⟨⟨h1, h2⟩, h3⟩, h4⟩, h5⟩, h6⟩, h7⟩, h8⟩, h9⟩, h10⟩, h11⟩
    exact ⟨h1, h2, h3, h4, h5, h6, h7, h8, h9, h10, h11⟩
  · rintro ⟨h1, h2, h3, h4, h5, h6, h7, h8, h9, h10, h11⟩
    exact ⟨⟨⟨⟨⟨⟨⟨⟨⟨⟨h1, h2⟩, h3⟩, h4⟩, h5⟩, h6⟩, h7⟩, h8⟩, h9⟩, h10⟩, h11⟩

theorem fits_items (h : Schema v) : List.Forall₂ Fits
    [15, 15, 35, 65, 39, 39, 11, 11, 63, 47, 11, 47, 91, 11, 2095, 91] v.items := by
  obtain ⟨hid, hkey, hsig⟩ := signedSchema_spec h.signedPrekey
  obtain ⟨hpqId, hpqKey, hpqSig⟩ := signedSchema_spec h.pqLastResortPrekey
  have htag : Spelt 12 inviteTag := ⟨rfl, by decide⟩
  have hdevice := h.signalDeviceId
  have hregistration := h.registrationId
  refine .cons (fits_str htag) (.cons (fits_str (spelt_publicUid h.publicUid))
    (.cons (fits_str (spelt_username h.username)) (.cons (fits_str (spelt_onion h.onion))
    (.cons (fits_str (spelt_uuid h.userId)) (.cons (fits_str (spelt_uuid h.deviceId))
    (.cons (fits_int (by omega) (by omega)) (.cons (fits_int (by omega) (by omega))
    (.cons (fits_str (spelt_b64 h.deviceAuthPublicKey))
    (.cons (fits_str (spelt_b64 h.identityPublicKey)) (.cons (fits_int (by omega) (by omega))
    (.cons (fits_str (spelt_b64 hkey)) (.cons (fits_str (spelt_b64 hsig))
    (.cons (fits_int (by omega) (by omega)) (.cons (fits_str (spelt_b64 hpqKey))
    (.cons (fits_str (spelt_b64 hpqSig)) .nil)))))))))))))))

/-- More than two of Android's buffers and less than three. -/
theorem signed_length (h : Schema v) :
    2048 < (inviteSigningBytes v).length ∧ (inviteSigningBytes v).length < 3072 := by
  have hbytes : (inviteSigningBytes v).length = (v.items.map fun f =>
      (encode Client.desktop.lone (f.write .stringify)).length + 1).sum + 1 :=
    arrayBytes_length (List.cons_ne_nil _ _)
  rw [hbytes]
  constructor
  · obtain ⟨-, hkey, -⟩ := signedSchema_spec h.pqLastResortPrekey
    have hplain := (spelt_b64 hkey).plain
    have hlen : v.pqLastResortPrekey.publicKey.length = 2092 := by
      obtain ⟨hlen, hbase⟩ := b64_spec (passes_chars hkey)
      have hlength := congrArg List.length hbase
      rw [JsonText.base64_length, hlen, chars, List.length_map] at hlength
      exact hlength.symm
    have hmem : Scalar.str v.pqLastResortPrekey.publicKey ∈ v.items := by
      simp [ServerlessInvite.items]
    have hwritten : (encode Client.desktop.lone
        (Writer.stringify.quote v.pqLastResortPrekey.publicKey)).length = 2094 := by
      have hwhole : (encode Client.desktop.lone
          (Writer.stringify.quote v.pqLastResortPrekey.publicKey)).length =
          v.pqLastResortPrekey.publicKey.length + 2 := JsonSizes.written_stringify hplain
      rw [hwhole, hlen]
    have hle := List.single_le_sum (fun n _ => Nat.zero_le n) _ (List.mem_map_of_mem
      (f := fun f => (encode Client.desktop.lone (f.write .stringify)).length + 1) hmem)
    rw [Scalar.write, hwritten] at hle
    omega
  · have hle := sum_fits Client.desktop.lone (fits_items h)
    have hsum : [15, 15, 35, 65, 39, 39, 11, 11, 63, 47, 11, 47, 91, 11, 2095, 91].sum = 2686 := by
      decide
    omega

theorem plain_wellFormed (h : t.all isPlain = true) : WellFormed t :=
  Utf16Json.wellFormed_ascii fun u hu => JsonSizes.isPlain_ascii (List.all_eq_true.mp h u hu)

/-- Both clients sign the same bytes. -/
theorem canonical_eq (h : ∀ s, .str s ∈ v.items → WellFormed s) :
    canonical v = inviteSigningBytes v := by
  rw [canonical, inviteSigningBytes, arrayBytes, Utf16Json.replaceSlash_array h]
  exact Utf16Json.encode_eq (Utf16Json.stringify_array_wellFormed v.items)

end Sizes

end ServerlessInvites
