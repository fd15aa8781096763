import CryptoPigeon.AttachmentManifests
import CryptoPigeon.StorageExport

/-! # The limits between a backup and its restoration

`encryptBackup` bounds what it has compressed. The schema of the upload, the relay, the client
that downloads the backup again and the decompression have bounds of their own. A JSON text is
taken with the characters it fills; what it says is read back. -/
namespace BackupLimits

open AttachmentManifests (isUuid isLowerHex repeats)
open JsonText
open SevenOfSeven (Bytes Text)
open StorageExport (Snapshot)

def MAX_BACKUP_BYTES : Nat := 64 * 1024 * 1024

/-- AES-GCM with a key, a nonce and a context, and gzip. -/
structure Library where
  encrypt : Bytes → Bytes → String → Bytes → Bytes
  decrypt : Bytes → Bytes → String → Bytes → Option Bytes
  gzip : Bytes → Bytes
  gunzip : Nat → Bytes → Option Bytes

/-- What was encrypted is decrypted again, a tag has 16 bytes, and decompression stops at its
limit. -/
structure Library.Lawful (lib : Library) : Prop where
  decrypt_encrypt : ∀ key nonce aad data, nonce.length = 12 →
    lib.decrypt key nonce aad (lib.encrypt key nonce aad data) = some data
  encrypt_length : ∀ key nonce aad data,
    (lib.encrypt key nonce aad data).length = data.length + 16
  gunzip_gzip : ∀ limit data,
    lib.gunzip limit (lib.gzip data) = if data.length ≤ limit then some data else none

structure Envelope where
  nonce : Text
  ciphertext : Text
  deriving DecidableEq, Repr

variable (lib : Library)

/-- `seal`, with the nonce that it draws. -/
def sealWith (data key : Bytes) (aad : String) (nonce : Bytes) : Envelope :=
  ⟨base64 nonce, base64 (lib.encrypt key nonce aad data)⟩

def unsealWith (value : Envelope) (key : Bytes) (aad : String) : Except String Bytes :=
  let nonce := bufferFromBase64 value.nonce
  let bytes := bufferFromBase64 value.ciphertext
  if nonce.length ≠ 12 ∨ bytes.length < 16 then .error "invalid_ciphertext"
  else
    match lib.decrypt key nonce aad bytes with
    | none => .error "Unsupported state or unable to authenticate data"
    | some data => .ok data

def encryptBackup (snapshot key nonce : Bytes) : Except String Envelope :=
  if MAX_BACKUP_BYTES < (lib.gzip snapshot).length + 16 then .error "backup_too_large"
  else .ok (sealWith lib (lib.gzip snapshot) key "vault-backup-v1" nonce)

def MAX_SNAPSHOT : Nat := 256 * 1024 * 1024

def decryptBackup (envelope : Envelope) (key : Bytes) : Except String Bytes :=
  match unsealWith lib envelope key "vault-backup-v1" with
  | .error e => .error e
  | .ok compressed =>
    match lib.gunzip MAX_SNAPSHOT compressed with
    | none => .error "Cannot create a Buffer larger than 268435456 bytes"
    | some snapshot => .ok snapshot

/-! ## The upload -/

def isBase64Char (c : Char) : Bool := (base64Value c).isSome

/-- `/^[A-Za-z0-9+/]+={0,2}$/` -/
def base64Schema (t : Text) : Bool :=
  let digits := t.takeWhile isBase64Char
  !digits.isEmpty && [[], ['='], ['=', '=']].contains (t.drop digits.length)

/-- `/^[a-f0-9]{64}$/` -/
def lookupTokenSchema (t : Text) : Bool := repeats isLowerHex 64 t

structure Body where
  lookupToken : Text
  version : Nat
  envelope : Envelope
  updatedAt : Text
  fragment7Shard : Text
  writerPublicKey : Text
  signature : Text
  deviceId : Option Text
  instanceHash : Option Text
  deviceSignature : Option Text
  claim : Bool

/-- `vaultBackupPutSchema`; `datetime` is the expression of `z.string().datetime()`. -/
def vaultBackupPutSchema (datetime : Text → Bool) (b : Body) : Bool :=
  lookupTokenSchema b.lookupToken &&
  decide (0 < b.version ∧ b.version ≤ 2147483647) &&
  (base64Schema b.envelope.nonce && b.envelope.nonce.length == 16) &&
  (base64Schema b.envelope.ciphertext &&
    decide (b.envelope.ciphertext.length ≤ 86 * 1024 * 1024)) &&
  datetime b.updatedAt &&
  (base64Schema b.fragment7Shard && decide (b.fragment7Shard.length ≤ 256)) &&
  (base64Schema b.writerPublicKey && decide (b.writerPublicKey.length ≤ 128)) &&
  (base64Schema b.signature && decide (b.signature.length ≤ 128)) &&
  b.deviceId.all isUuid && b.instanceHash.all lookupTokenSchema &&
  b.deviceSignature.all fun s => base64Schema s && decide (s.length ≤ 128)

/-- `"name":"value"` -/
def member (name : String) (value : Text) : Text :=
  '"' :: name.toList ++ ['"', ':', '"'] ++ value ++ ['"']

/-- `"name":value` -/
def bareMember (name : String) (value : Text) : Text := '"' :: name.toList ++ ['"', ':'] ++ value

def jsonObject (members : List Text) : Text := '\x7b' :: [','].intercalate members ++ ['\x7d']

def boolText (b : Bool) : Text := if b then "true".toList else "false".toList

/-- What the client sends. -/
def Body.request (b : Body) : Text :=
  jsonObject <| (b.deviceId.map (member "deviceId")).toList ++
    (b.instanceHash.map (member "instanceHash")).toList ++
    (b.deviceSignature.map (member "deviceSignature")).toList ++
    [bareMember "claim" (boolText b.claim), member "lookupToken" b.lookupToken,
      bareMember "version" (Nat.repr b.version).toList, member "nonce" b.envelope.nonce,
      member "ciphertext" b.envelope.ciphertext, member "updatedAt" b.updatedAt,
      member "fragment7Shard" b.fragment7Shard, member "writerPublicKey" b.writerPublicKey,
      member "signature" b.signature]

/-- What the relay answers from its row, which has the decoded buffers. -/
def Body.response (b : Body) : Text :=
  jsonObject <| [member "lookupToken" b.lookupToken,
      bareMember "version" (Nat.repr b.version).toList, member "nonce" b.envelope.nonce,
      member "ciphertext" b.envelope.ciphertext, member "fragment7Shard" b.fragment7Shard,
      member "writerPublicKey" b.writerPublicKey, member "signature" b.signature,
      member "updatedAt" b.updatedAt] ++
    (b.deviceId.map (member "deviceId")).toList ++
    (b.instanceHash.map (member "instanceHash")).toList ++
    (b.deviceSignature.map (member "deviceSignature")).toList ++
    [bareMember "claim" (boolText b.claim)]

/-- `bodyLimit` of the route, and the limit of `download`. -/
def MAX_TEXT : Nat := 90 * 1024 * 1024

/-- The schema, the relay's check of the size and the limits of both texts. -/
def passesLimits (datetime : Text → Bool) (b : Body) : Bool :=
  decide (b.request.length ≤ MAX_TEXT) && vaultBackupPutSchema datetime b &&
  decide (16 ≤ (bufferFromBase64 b.envelope.ciphertext).length ∧
    (bufferFromBase64 b.envelope.ciphertext).length ≤ 64 * 1024 * 1024) &&
  decide (b.response.length ≤ MAX_TEXT)

/-- `fragment7Shard` of `scatter`: the JSON of the sealed share. -/
def fragmentText (e : Envelope) : Text := jsonObject [member "nonce" e.nonce, member "ciphertext" e.ciphertext]

/-- The bytes of a text of ASCII characters. -/
def asciiBytes (t : Text) : Bytes := t.map fun c => UInt8.ofNat c.toNat

/-- What `syncBackup` puts beside an envelope: the account's token, the date and the seventh
fragment, the writer's key and signature, and the proof of the device if it has an account. -/
structure Sender where
  lookupToken : Vector UInt8 32
  version : Nat
  updatedAt : Text
  share : Vector UInt8 48
  shareKey : Bytes
  shareNonce : Vector UInt8 12
  writerPublicKey : Vector UInt8 44
  signature : Vector UInt8 64
  proof : Option (Text × Vector UInt8 32 × Vector UInt8 64)
  claim : Bool

def Sender.body (s : Sender) (e : Envelope) : Body where
  lookupToken := hex s.lookupToken.toList
  version := s.version
  envelope := e
  updatedAt := s.updatedAt
  fragment7Shard := base64 (asciiBytes (fragmentText
    (sealWith lib s.share.toList s.shareKey "cp-shard7-v1" s.shareNonce.toList)))
  writerPublicKey := base64 s.writerPublicKey.toList
  signature := base64 s.signature.toList
  deviceId := s.proof.map fun p => p.1
  instanceHash := s.proof.map fun p => hex p.2.1.toList
  deviceSignature := s.proof.map fun p => base64 p.2.2.toList
  claim := s.claim

/-- A date as `toISOString` writes it, a version in the range of the database, a device id. -/
structure Sender.Plain (datetime : Text → Bool) (s : Sender) : Prop where
  version : 0 < s.version ∧ s.version ≤ 2147483647
  date : datetime s.updatedAt = true ∧ s.updatedAt.length = 24
  device : ∀ p ∈ s.proof, isUuid p.1 = true

section Lengths

theorem base64Schema_base64 {x : Bytes} (h : x ≠ []) : base64Schema (base64 x) = true := by
  obtain ⟨ds, padding, heq, hds, hx, hpadding⟩ := base64_digits x
  have hdigits : ∀ c ∈ ds.map base64Digit, isBase64Char c = true := by
    intro c hc
    obtain ⟨d, hd, rfl⟩ := List.mem_map.mp hc
    rw [isBase64Char, base64Value_digit (hds d hd)]
    rfl
  have hne : ds ≠ [] := by
    rintro rfl
    exact h (by simpa [sextetBytes] using hx.symm)
  have hpad : padding.takeWhile isBase64Char = [] ∧ padding ∈ [[], ['='], ['=', '=']] := by
    simp only [List.mem_cons, Prod.mk.injEq, List.not_mem_nil, or_false] at hpadding
    rcases hpadding with ⟨-, rfl⟩ | ⟨-, rfl⟩ | ⟨-, rfl⟩ <;> decide
  have htake : (base64 x).takeWhile isBase64Char = ds.map base64Digit := by
    rw [heq, List.takeWhile_append_of_pos hdigits, hpad.1, List.append_nil]
  unfold base64Schema
  dsimp only
  rw [htake, heq, List.drop_left, Bool.and_eq_true]
  refine ⟨?_, List.contains_iff_mem.mpr hpad.2⟩
  cases ds with
  | nil => exact absurd rfl hne
  | cons d ds => rfl

theorem isUuid_length {t : Text} (h : isUuid t = true) : t.length = 36 := by
  simp only [isUuid, Bool.or_eq_true, beq_iff_eq] at h
  rcases h with (h | rfl) | rfl
  · exact (AttachmentManifests.matchesEach_length h).trans (by decide)
  · decide +kernel
  · decide +kernel

theorem member_length (name : String) (value : Text) :
    (member name value).length = name.toList.length + value.length + 5 := by
  simp only [member, List.length_append, List.length_cons, List.length_nil]
  omega

theorem bareMember_length (name : String) (value : Text) :
    (bareMember name value).length = name.toList.length + value.length + 3 := by
  simp only [bareMember, List.length_append, List.length_cons, List.length_nil]
  omega

theorem intercalate_length_le (l : List Text) :
    ([','].intercalate l).length ≤ (l.map fun m => m.length + 1).sum := by
  induction l with
  | nil => exact Nat.le_refl _
  | cons m l ih =>
    cases l with
    | nil => simp [List.intercalate]
    | cons n l =>
      rw [List.intercalate_cons_cons, List.length_append, List.length_append, List.map_cons,
        List.sum_cons, List.length_singleton]
      omega

theorem jsonObject_length_le (l : List Text) :
    (jsonObject l).length ≤ (l.map fun m => m.length + 1).sum + 2 := by
  have := intercalate_length_le l
  simp only [jsonObject, List.length_cons, List.length_append, List.length_nil]
  omega

/-- The largest ciphertext in base64. -/
def MAX_CIPHERTEXT_TEXT : Nat := 89478488

theorem version_length {v : Nat} (h : v ≤ 2147483647) : (Nat.repr v).toList.length ≤ 10 := by
  rw [String.length_toList]
  exact (Nat.length_repr_le_iff (by decide)).mpr (by omega)

theorem boolText_length (b : Bool) : (boolText b).length ≤ 5 := by
  cases b <;> decide +kernel

variable {lib : Library} {datetime : Text → Bool} {s : Sender} {e : Envelope}

theorem sealWith_length (hlib : lib.Lawful) (data key : Bytes) (aad : String) (nonce : Bytes)
    (hn : nonce.length = 12) :
    (sealWith lib data key aad nonce).nonce.length = 16 ∧
      (sealWith lib data key aad nonce).ciphertext.length = (data.length + 18) / 3 * 4 := by
  simp only [sealWith, base64_length, hlib.encrypt_length, hn, true_and]

theorem fragment_length (hlib : lib.Lawful) (s : Sender) (e : Envelope) :
    (s.body lib e).fragment7Shard.length ≤ 256 := by
  obtain ⟨hnonce, hcipher⟩ := sealWith_length hlib s.share.toList s.shareKey "cp-shard7-v1"
    s.shareNonce.toList s.shareNonce.length_toList
  have hjson := jsonObject_length_le
    [member "nonce" (sealWith lib s.share.toList s.shareKey "cp-shard7-v1"
        s.shareNonce.toList).nonce,
      member "ciphertext" (sealWith lib s.share.toList s.shareKey "cp-shard7-v1"
        s.shareNonce.toList).ciphertext]
  simp only [List.map_cons, List.map_nil, List.sum_cons, List.sum_nil, member_length, hnonce,
    hcipher, Vector.length_toList] at hjson
  simp only [Sender.body, base64_length, asciiBytes, List.length_map, fragmentText]
  have h5 : "nonce".toList.length = 5 := rfl
  have h10 : "ciphertext".toList.length = 10 := rfl
  omega

/-- What the device adds to the text. -/
theorem proof_length (lib : Library) (e : Envelope) (hplain : s.Plain datetime) :
    (((((s.body lib e).deviceId.map (member "deviceId")).toList ++
      ((s.body lib e).instanceHash.map (member "instanceHash")).toList ++
      ((s.body lib e).deviceSignature.map (member "deviceSignature")).toList).map
        fun m => m.length + 1).sum) ≤ 300 := by
  simp only [Sender.body]
  cases hp : s.proof with
  | none => simp
  | some p =>
    have hid := isUuid_length (hplain.device p hp)
    have h8 : "deviceId".toList.length = 8 := rfl
    have h12 : "instanceHash".toList.length = 12 := rfl
    have h15 : "deviceSignature".toList.length = 15 := rfl
    simp only [Option.map_some, Option.toList_some, List.cons_append,
      List.nil_append, List.map_cons, List.map_nil, List.sum_cons, List.sum_nil, member_length,
      hid, AttachmentManifests.hex_length, base64_length, Vector.length_toList, h8, h12, h15]
    omega

/-- The other members and the largest ciphertext. -/
theorem members_length (hlib : lib.Lawful) (hplain : s.Plain datetime)
    (hnonce : e.nonce.length = 16) (hcipher : e.ciphertext.length ≤ MAX_CIPHERTEXT_TEXT) :
    (([bareMember "claim" (boolText (s.body lib e).claim),
      member "lookupToken" (s.body lib e).lookupToken,
      bareMember "version" (Nat.repr (s.body lib e).version).toList,
      member "nonce" (s.body lib e).envelope.nonce,
      member "ciphertext" (s.body lib e).envelope.ciphertext,
      member "updatedAt" (s.body lib e).updatedAt,
      member "fragment7Shard" (s.body lib e).fragment7Shard,
      member "writerPublicKey" (s.body lib e).writerPublicKey,
      member "signature" (s.body lib e).signature] : List Text).map fun m => m.length + 1).sum ≤
        MAX_CIPHERTEXT_TEXT + 1000 := by
  have hfragment := fragment_length hlib s e
  have hversion := version_length hplain.version.2
  have hclaim := boolText_length s.claim
  have hdate := hplain.date.2
  have h5 : "claim".toList.length = 5 := rfl
  have h11 : "lookupToken".toList.length = 11 := rfl
  have h7 : "version".toList.length = 7 := rfl
  have hn : "nonce".toList.length = 5 := rfl
  have h10 : "ciphertext".toList.length = 10 := rfl
  have h9 : "updatedAt".toList.length = 9 := rfl
  have h14 : "fragment7Shard".toList.length = 14 := rfl
  have h15 : "writerPublicKey".toList.length = 15 := rfl
  have hs : "signature".toList.length = 9 := rfl
  simp only [List.map_cons, List.map_nil, List.sum_cons, List.sum_nil, member_length,
    bareMember_length, h5, h11, h7, hn, h10, h9, h14, h15, hs]
  simp only [Sender.body, AttachmentManifests.hex_length, base64_length, Vector.length_toList,
    hnonce, hdate] at hfragment ⊢
  omega

theorem request_length_le (hlib : lib.Lawful) (hplain : s.Plain datetime)
    (hnonce : e.nonce.length = 16) (hcipher : e.ciphertext.length ≤ MAX_CIPHERTEXT_TEXT) :
    (s.body lib e).request.length ≤ MAX_TEXT := by
  have hproof := proof_length lib e hplain
  have hmembers := members_length hlib hplain hnonce hcipher
  refine (jsonObject_length_le _).trans ?_
  rw [List.map_append, List.sum_append]
  unfold MAX_CIPHERTEXT_TEXT at hmembers
  unfold MAX_TEXT
  omega

theorem response_length_le (hlib : lib.Lawful) (hplain : s.Plain datetime)
    (hnonce : e.nonce.length = 16) (hcipher : e.ciphertext.length ≤ MAX_CIPHERTEXT_TEXT) :
    (s.body lib e).response.length ≤ MAX_TEXT := by
  have hproof := proof_length lib e hplain
  have hmembers := members_length hlib hplain hnonce hcipher
  refine (jsonObject_length_le _).trans ?_
  unfold MAX_CIPHERTEXT_TEXT at hmembers
  unfold MAX_TEXT
  simp only [List.map_append, List.sum_append, List.map_cons, List.map_nil, List.sum_cons,
    List.sum_nil] at hproof hmembers ⊢
  omega

end Lengths

section Vaults

/-- What `syncBackup` reads of an unlocked vault; only files with names of the right form. -/
structure VaultState where
  vmk : Vector UInt8 32
  hkdfSalt : Vector UInt8 16
  database : Bytes
  files : List (Text × Bytes)

def VaultState.snapshot (v : VaultState) : Snapshot :=
  ⟨base64 v.vmk.toList, base64 v.hkdfSalt.toList, base64 v.database,
    v.files.map fun f => (f.1, base64 f.2)⟩

def VaultState.buffer (v : VaultState) : Bytes := asciiBytes v.snapshot.json

/-- `snapshotSchema` of `restoreSecure`. -/
def snapshotSchema (s : Snapshot) : Bool :=
  s.vmk.length == 44 && s.hkdfSalt.length == 24 &&
    decide (s.database.length ≤ 256 * 1024 * 1024)

theorem snapshotSchema_iff (v : VaultState) :
    snapshotSchema v.snapshot = true ↔ v.database.length ≤ 201326592 := by
  have hvmk : v.snapshot.vmk.length = 44 := by
    rw [VaultState.snapshot, base64_length, Vector.length_toList]
  have hsalt : v.snapshot.hkdfSalt.length = 24 := by
    rw [VaultState.snapshot, base64_length, Vector.length_toList]
  have hfield : v.snapshot.database.length = (v.database.length + 2) / 3 * 4 := base64_length _
  rw [snapshotSchema, hvmk, hsalt, hfield]
  simp only [beq_self_eq_true, Bool.true_and, decide_eq_true_eq]
  omega

/-- The database is in the text that is compressed. -/
theorem snapshotSchema_of_buffer {v : VaultState} (h : v.buffer.length ≤ MAX_SNAPSHOT) :
    snapshotSchema v.snapshot = true := by
  have hdatabase := StorageExport.database_le_json v.snapshot
  rw [VaultState.buffer, asciiBytes, List.length_map] at h
  unfold MAX_SNAPSHOT at h
  have hfield : v.snapshot.database.length = (v.database.length + 2) / 3 * 4 := base64_length _
  exact (snapshotSchema_iff v).mpr (by omega)

end Vaults

section Restoring

theorem token_hex (v : Vector UInt8 32) : lookupTokenSchema (hex v.toList) = true := by
  have h := AttachmentManifests.repeats_hex v.toList
  rwa [Vector.length_toList] at h

variable {lib : Library} {datetime : Text → Bool} {snapshot key nonce : Bytes} {e : Envelope}

theorem encryptBackup_ok (h : encryptBackup lib snapshot key nonce = .ok e) :
    (lib.gzip snapshot).length + 16 ≤ MAX_BACKUP_BYTES ∧
      e = sealWith lib (lib.gzip snapshot) key "vault-backup-v1" nonce := by
  unfold encryptBackup at h
  split at h
  · cases h
  · next hfits =>
    cases h
    exact ⟨Nat.not_lt.mp hfits, rfl⟩

theorem unsealWith_sealWith (hlib : lib.Lawful) (hn : nonce.length = 12) (data : Bytes)
    (aad : String) : unsealWith lib (sealWith lib data key aad nonce) key aad = .ok data := by
  have hlength := hlib.encrypt_length key nonce aad data
  simp only [unsealWith, sealWith, bufferFromBase64_base64]
  rw [if_neg (by omega), hlib.decrypt_encrypt key nonce aad data hn]

/-- The decompression stops a snapshot of more than its limit. -/
theorem decryptBackup_eq (hlib : lib.Lawful) (hn : nonce.length = 12)
    (h : encryptBackup lib snapshot key nonce = .ok e) :
    decryptBackup lib e key = if snapshot.length ≤ MAX_SNAPSHOT then .ok snapshot
      else .error "Cannot create a Buffer larger than 268435456 bytes" := by
  obtain ⟨-, rfl⟩ := encryptBackup_ok h
  unfold decryptBackup
  rw [unsealWith_sealWith hlib hn]
  dsimp only
  rw [hlib.gunzip_gzip]
  by_cases hshort : snapshot.length ≤ MAX_SNAPSHOT
  · simp only [hshort, if_true]
  · simp only [hshort, if_false]

theorem body_schema (hlib : lib.Lawful) {s : Sender} (hs : s.Plain datetime) {data : Bytes}
    {aad : String} (hn : nonce.length = 12)
    (hne : (lib.encrypt key nonce aad data).length ≠ 0)
    (hmax : (sealWith lib data key aad nonce).ciphertext.length ≤ MAX_CIPHERTEXT_TEXT) :
    vaultBackupPutSchema datetime (s.body lib (sealWith lib data key aad nonce)) = true := by
  have hfragment := fragment_length hlib s (sealWith lib data key aad nonce)
  have hlong {x : Bytes} (h : x.length ≠ 0) : base64Schema (base64 x) = true :=
    base64Schema_base64 fun hnil => h (hnil ▸ rfl)
  have hjson : (asciiBytes (fragmentText (sealWith lib s.share.toList s.shareKey "cp-shard7-v1"
      s.shareNonce.toList))).length ≠ 0 := by
    simp [asciiBytes, fragmentText, jsonObject]
  have hdevice : (s.proof.map fun p => p.1).all isUuid = true := by
    cases hp : s.proof with
    | none => rfl
    | some p => exact hs.device p hp
  have hinstance : (s.proof.map fun p => hex p.2.1.toList).all lookupTokenSchema = true := by
    cases s.proof with
    | none => rfl
    | some p => exact token_hex p.2.1
  have hsignature : (s.proof.map fun p => base64 p.2.2.toList).all
      (fun t => base64Schema t && decide (t.length ≤ 128)) = true := by
    cases s.proof with
    | none => rfl
    | some p => simp [hlong, base64_length]
  have hnonce : (sealWith lib data key aad nonce).nonce.length = 16 :=
    (sealWith_length hlib data key aad nonce hn).1
  unfold MAX_CIPHERTEXT_TEXT at hmax
  simp only [vaultBackupPutSchema, Bool.and_eq_true, decide_eq_true_eq, beq_iff_eq]
  refine ⟨⟨⟨⟨⟨⟨⟨⟨⟨⟨token_hex _, hs.version⟩, hlong (by omega), hnonce⟩, hlong hne, by
    exact hmax.trans (by decide)⟩, hs.date.1⟩, hlong hjson, hfragment⟩, hlong ?_, ?_⟩, hlong ?_, ?_⟩,
    hdevice⟩, hinstance⟩, hsignature⟩
  · simp
  · simp [Sender.body, base64_length]
  · simp
  · simp [Sender.body, base64_length]

/-- Every envelope passes the limits of the upload and of the download. -/
theorem passesLimits_of_encryptBackup (hlib : lib.Lawful) (hn : nonce.length = 12)
    (h : encryptBackup lib snapshot key nonce = .ok e) {s : Sender} (hs : s.Plain datetime) :
    passesLimits datetime (s.body lib e) = true := by
  obtain ⟨hfits, rfl⟩ := encryptBackup_ok h
  have hlength := hlib.encrypt_length key nonce "vault-backup-v1" (lib.gzip snapshot)
  obtain ⟨hnonce, hcipher⟩ := sealWith_length hlib (lib.gzip snapshot) key "vault-backup-v1" nonce hn
  have hmax : (sealWith lib (lib.gzip snapshot) key "vault-backup-v1" nonce).ciphertext.length ≤
      MAX_CIPHERTEXT_TEXT := by
    unfold MAX_BACKUP_BYTES at hfits
    unfold MAX_CIPHERTEXT_TEXT
    omega
  have hschema : vaultBackupPutSchema datetime (s.body lib
      (sealWith lib (lib.gzip snapshot) key "vault-backup-v1" nonce)) = true :=
    body_schema hlib hs hn (by rw [hlength]; omega) hmax
  have hbytes : bufferFromBase64
      (sealWith lib (lib.gzip snapshot) key "vault-backup-v1" nonce).ciphertext =
        lib.encrypt key nonce "vault-backup-v1" (lib.gzip snapshot) := bufferFromBase64_base64 _
  have hsize : 16 ≤ (bufferFromBase64 (sealWith lib (lib.gzip snapshot) key "vault-backup-v1"
      nonce).ciphertext).length ∧ (bufferFromBase64 (sealWith lib (lib.gzip snapshot) key
        "vault-backup-v1" nonce).ciphertext).length ≤ 64 * 1024 * 1024 := by
    rw [hbytes, hlength]
    unfold MAX_BACKUP_BYTES at hfits
    omega
  have henvelope : (s.body lib (sealWith lib (lib.gzip snapshot) key "vault-backup-v1"
      nonce)).envelope = sealWith lib (lib.gzip snapshot) key "vault-backup-v1" nonce := rfl
  simp only [passesLimits, Bool.and_eq_true, decide_eq_true_eq, henvelope]
  exact ⟨⟨⟨request_length_le hlib hs hnonce hmax, hschema⟩, hsize⟩,
    response_length_le hlib hs hnonce hmax⟩

theorem decryptBackup_iff (hlib : lib.Lawful) (hn : nonce.length = 12)
    (h : encryptBackup lib snapshot key nonce = .ok e) :
    decryptBackup lib e key = .ok snapshot ↔ snapshot.length ≤ MAX_SNAPSHOT := by
  rw [decryptBackup_eq hlib hn h]
  by_cases hshort : snapshot.length ≤ MAX_SNAPSHOT
  · simp only [hshort, if_true]
  · simp only [hshort, if_false, reduceCtorEq]

end Restoring

/-- An accepted snapshot is restored through all limits, and that of a vault read by the schema,
if and only if it has at most 256 MiB before it is compressed. -/
theorem restored_iff_short (lib : Library) (hlib : lib.Lawful) (datetime : Text → Bool)
    (key nonce : Bytes) (hn : nonce.length = 12) :
    (∀ snapshot e, encryptBackup lib snapshot key nonce = .ok e →
      ((decryptBackup lib e key = .ok snapshot ∧
        ∀ s : Sender, s.Plain datetime → passesLimits datetime (s.body lib e) = true) ↔
          snapshot.length ≤ MAX_SNAPSHOT)) ∧
    ∀ (v : VaultState) e, encryptBackup lib v.buffer key nonce = .ok e →
      ((decryptBackup lib e key = .ok v.buffer ∧ snapshotSchema v.snapshot = true) ↔
        v.buffer.length ≤ MAX_SNAPSHOT) := by
  constructor
  · intro snapshot e h
    rw [decryptBackup_iff hlib hn h]
    exact and_iff_left fun s hs => passesLimits_of_encryptBackup hlib hn h hs
  · intro v e h
    rw [decryptBackup_iff hlib hn h]
    exact and_iff_left_of_imp snapshotSchema_of_buffer

/-! ## Zeros -/

section Zeros

/-- The bytes of a file that nobody has written to. -/
def zeros (n : Nat) : Bytes := List.replicate n 0

/-- Compresses the zeros of one length, and nothing else. -/
def gzipZeros (n : Nat) (data : Bytes) : Bytes := if data = zeros n then [1] else 0 :: data

def gunzipZeros (n limit : Nat) (data : Bytes) : Option Bytes :=
  match data with
  | 0 :: data => if data.length ≤ limit then some data else none
  | _ => if n ≤ limit then some (zeros n) else none

/-- A cipher that adds a tag. -/
def zeroLibrary (n : Nat) : Library where
  encrypt _ _ _ data := data ++ List.replicate 16 0
  decrypt _ _ _ data := some (data.take (data.length - 16))
  gzip := gzipZeros n
  gunzip := gunzipZeros n

theorem zeroLibrary_lawful (n : Nat) : (zeroLibrary n).Lawful where
  decrypt_encrypt key nonce aad data _ := by simp [zeroLibrary]
  encrypt_length key nonce aad data := by simp [zeroLibrary]
  gunzip_gzip limit data := by
    change gunzipZeros n limit (gzipZeros n data) = _
    unfold gzipZeros
    split
    · next h =>
      rw [h, zeros, List.length_replicate]
      rfl
    · rfl

theorem zeroLibrary_zeros (n : Nat) (key nonce : Bytes) :
    encryptBackup (zeroLibrary n) (zeros n) key nonce =
      .ok (sealWith (zeroLibrary n) [1] key "vault-backup-v1" nonce) := by
  have hgzip : (zeroLibrary n).gzip (zeros n) = [1] := if_pos rfl
  unfold encryptBackup
  rw [hgzip]
  exact if_neg (by decide)

theorem small_restored : decryptBackup (zeroLibrary 2)
    (sealWith (zeroLibrary 2) [1] [] "vault-backup-v1" (zeros 12)) [] = .ok (zeros 2) :=
  (((restored_iff_short (zeroLibrary 2) (zeroLibrary_lawful 2) (fun _ => true) [] (zeros 12)
    rfl).1 (zeros 2) _ (zeroLibrary_zeros 2 [] (zeros 12))).mpr (by decide)).1

/-- One byte more than 256 MiB. -/
theorem zeros_not_restored : ¬∀ (lib : Library) (snapshot key nonce : Bytes) (e : Envelope),
    lib.Lawful → nonce.length = 12 → encryptBackup lib snapshot key nonce = .ok e →
      decryptBackup lib e key = .ok snapshot := by
  intro h
  have haccepted := zeroLibrary_zeros 268435457 [] (zeros 12)
  have hlawful := zeroLibrary_lawful 268435457
  have hrestored := h (zeroLibrary 268435457) (zeros 268435457) [] (zeros 12) _ hlawful rfl haccepted
  have hshort := (decryptBackup_iff hlawful rfl haccepted).mp hrestored
  rw [zeros, List.length_replicate] at hshort
  exact absurd hshort (by decide)

end Zeros

end BackupLimits
