import CryptoPigeon.JsonText
import CryptoPigeon.LoginSignature

/-! # What an attachment manifest must look like

`encryptAndUploadAttachment` and `upload` make the manifest, `send` checks it with the
validation of its own client, and the receiver checks what it decrypts with that of the other or
of the same client. The name and the MIME type are UTF-16 text; the random bytes, the digest and
the answers to the upload's requests are parameters. -/
namespace AttachmentManifests

open JsonText (hexDigit hex base64 bufferFromBase64 decodeBase64)
open LoginSignature (Text Client isHigh isLow text)

structure Manifest where
  attachmentId : List Char
  blobId : List Char
  originalFilename : Text
  claimedMimeType : Text
  totalPlaintextSize : Nat
  chunkCount : Nat
  chunkSize : Nat
  chunkNonces : List (List Char)
  fullFileDigest : List Char
  attachmentKey : List Char
  encryptionVersion : Nat
  deriving DecidableEq, Repr

/-! ## The senders -/

def chunkBytes : Nat := 65536

def largest : Nat := 25 * 1024 * 1024

/-- `Math.ceil(size / CHUNK_SIZE)`, and `(size+65535)/65536` of a size that does not overflow. -/
def ceilChunks (size : Nat) : Nat := (size + 65535) / chunkBytes

/-- The characters of `[\x00-\x1F\x7F]`. -/
def isControl (u : UInt16) : Bool := u.toNat < 32 || u.toNat == 127

/-- The characters of `[\\/:*?"<>|]` become `_`. -/
def underscored (u : UInt16) : UInt16 :=
  if u.toNat ∈ [92, 47, 58, 42, 63, 34, 60, 62, 124] then 95 else u

def sanitizeFilename (filename : Text) : Text :=
  ((filename.filter fun u => !isControl u).map underscored).take 255

/-- The same expressions in Java. -/
def sanitize (name : Text) : Text := sanitizeFilename name

def attachmentBin : Text := text "attachment.bin"

def octetStream : Text := text "application/octet-stream"

/-- The random bytes of one upload. -/
structure Drawn where
  id : Vector UInt8 16
  key : Vector UInt8 32
  blob : Vector UInt8 16
  nonce : Nat → Vector UInt8 12

def withVersion (b : UInt8) : UInt8 := b &&& 0x0F ||| 0x40

def withVariant (b : UInt8) : UInt8 := b &&& 0x3F ||| 0x80

/-- `randomUUID()` of both platforms: version 4, in small letters. -/
def uuid (b : Vector UInt8 16) : List Char :=
  hex [b[0], b[1], b[2], b[3]] ++ '-' :: (hex [b[4], b[5]] ++ '-' ::
    (hex [withVersion b[6], b[7]] ++ '-' :: (hex [withVariant b[8], b[9]] ++ '-' ::
      hex [b[10], b[11], b[12], b[13], b[14], b[15]])))

/-- What is sent to be uploaded. -/
structure Request where
  content : List UInt8
  filename : Text
  mimeType : Option Text
  deriving DecidableEq, Repr

variable (sha256 : List UInt8 → Vector UInt8 32) (d : Drawn)

/-- `encryptAndUploadAttachment`, all of whose requests are answered. -/
def encryptAndUploadAttachment (content : List UInt8) (filename mimeType : Text) : Manifest :=
  let chunkCount := if ceilChunks content.length = 0 then 1 else ceilChunks content.length
  { attachmentId := hex d.id.toList
    blobId := uuid d.blob
    originalFilename := sanitizeFilename filename
    claimedMimeType := mimeType
    totalPlaintextSize := content.length
    chunkCount
    chunkSize := chunkBytes
    chunkNonces := (List.range chunkCount).map fun i => base64 (d.nonce i).toList
    fullFileDigest := hex (sha256 content).toList
    attachmentKey := base64 d.key.toList
    encryptionVersion := 1 }

/-- `upload` of the Android engine, all of whose requests are answered. -/
def uploadManifest (content : List UInt8) (filename mimeType : Text) : Manifest :=
  let count := max 1 (ceilChunks content.length)
  { attachmentId := hex d.id.toList
    blobId := uuid d.blob
    originalFilename := if (sanitize filename).isEmpty then attachmentBin else sanitize filename
    claimedMimeType := mimeType
    totalPlaintextSize := content.length
    chunkCount := count
    chunkSize := chunkBytes
    chunkNonces := (List.range count).map fun i => base64 (d.nonce i).toList
    fullFileDigest := hex (sha256 content).toList
    attachmentKey := base64 d.key.toList
    encryptionVersion := 1 }

/-- The manifest an upload returns, if its file is small enough and the first request and those
of the chunks are answered. The desktop wants a MIME type, Android has one by default. -/
def upload (client : Client) (answered : Nat → Bool) (r : Request) : Option Manifest :=
  if largest < r.content.length then none
  else
    let made := match client with
      | .desktop => r.mimeType.map (encryptAndUploadAttachment sha256 d r.content r.filename)
      | .android =>
        some (uploadManifest sha256 d r.content r.filename (r.mimeType.getD octetStream))
    made.filter fun m => (List.range (m.chunkCount + 1)).all answered

/-! ## The validations -/

/-- A regular expression that is one class of characters and a count. -/
def repeats (p : Char → Bool) (n : Nat) (t : List Char) : Bool := t.length == n && t.all p

/-- A regular expression that is one class after another. -/
def matchesEach : List (Char → Bool) → List Char → Bool
  | [], [] => true
  | p :: ps, c :: cs => p c && matchesEach ps cs
  | _, _ => false

section Pattern

variable {p : Char → Bool} {ps : List (Char → Bool)} {t : List Char}

theorem matchesEach_nil (h : matchesEach [] t = true) : t = [] := by
  cases t with
  | nil => rfl
  | cons c t => cases h

theorem matchesEach_cons (h : matchesEach (p :: ps) t = true) :
    ∃ c r, t = c :: r ∧ p c = true ∧ matchesEach ps r = true := by
  cases t with
  | nil => cases h
  | cons c r =>
    simp only [matchesEach, Bool.and_eq_true] at h
    exact ⟨c, r, rfl, h.1, h.2⟩

theorem matchesEach_length (h : matchesEach ps t = true) : t.length = ps.length := by
  induction ps generalizing t with
  | nil => rw [matchesEach_nil h]; rfl
  | cons p ps ih =>
    obtain ⟨c, r, rfl, -, hr⟩ := matchesEach_cons h
    rw [List.length_cons, List.length_cons, ih hr]

theorem matchesEach_all {q : Char → Prop} (hps : ∀ p ∈ ps, ∀ c, p c = true → q c)
    (h : matchesEach ps t = true) : ∀ c ∈ t, q c := by
  induction ps generalizing t with
  | nil =>
    rw [matchesEach_nil h]
    exact fun c hc => absurd hc List.not_mem_nil
  | cons p ps ih =>
    obtain ⟨d, r, rfl, hd, hr⟩ := matchesEach_cons h
    intro c hc
    rcases List.mem_cons.mp hc with rfl | hc
    · exact hps p List.mem_cons_self c hd
    · exact ih (fun q hq => hps q (List.mem_cons_of_mem p hq)) hr c hc

end Pattern

def isLowerHex (c : Char) : Bool := ('a' ≤ c && c ≤ 'f') || ('0' ≤ c && c ≤ '9')

def isHex (c : Char) : Bool := isLowerHex c || ('A' ≤ c && c ≤ 'F')

def isVersion (c : Char) : Bool := '1' ≤ c && c ≤ '8'

def isVariant (c : Char) : Bool := ['8', '9', 'a', 'b', 'A', 'B'].contains c

/-- The expression of `z.string().uuid()` but for the nil and the largest UUID. -/
def uuidPattern : List (Char → Bool) :=
  List.replicate 8 isHex ++ (· == '-') :: (List.replicate 4 isHex ++ (· == '-') ::
    isVersion :: (List.replicate 3 isHex ++ (· == '-') ::
      isVariant :: (List.replicate 3 isHex ++ (· == '-') ::
        List.replicate 12 isHex)))

def isUuid (t : List Char) : Bool :=
  matchesEach uuidPattern t || t == "00000000-0000-0000-0000-000000000000".toList ||
    t == "ffffffff-ffff-ffff-ffff-ffffffffffff".toList

/-- `attachmentManifestSchema`. -/
def attachmentManifestSchema (m : Manifest) : Bool :=
  repeats isLowerHex 32 m.attachmentId &&
  isUuid m.blobId &&
  decide (1 ≤ m.originalFilename.length ∧ m.originalFilename.length ≤ 255) &&
  decide (m.claimedMimeType.length ≤ 255) &&
  decide (m.totalPlaintextSize ≤ largest) &&
  decide (1 ≤ m.chunkCount ∧ m.chunkCount ≤ 400) &&
  decide (m.chunkSize = chunkBytes) &&
  m.chunkNonces.all (fun v => (bufferFromBase64 v).length == 12) &&
  decide (m.chunkNonces.length ≤ 400) &&
  repeats isLowerHex 64 m.fullFileDigest &&
  decide ((bufferFromBase64 m.attachmentKey).length = 32) &&
  decide (m.encryptionVersion = 1) &&
  decide (m.chunkCount = max 1 (ceilChunks m.totalPlaintextSize) ∧
    m.chunkNonces.length = m.chunkCount)

/-- How `validateManifest` fails; the decoder throws by itself. -/
inductive Rejection where
  | invalidAttachmentManifest
  | invalidAttachmentNonce
  | illegalBase64
  deriving DecidableEq, Repr

def validateNonces : List (List Char) → Except Rejection Unit
  | [] => .ok ()
  | n :: rest =>
    match decodeBase64 n with
    | none => .error .illegalBase64
    | some bytes =>
      if bytes.length ≠ 12 then .error .invalidAttachmentNonce else validateNonces rest

/-- `validateManifest` of the Android engine. -/
def validateManifest (m : Manifest) : Except Rejection Unit :=
  if !repeats isLowerHex 32 m.attachmentId ||
      !repeats (fun c => isLowerHex c || c == '-') 36 m.blobId ||
      decide (largest < m.totalPlaintextSize) ||
      decide (m.chunkCount ≠ max 1 (ceilChunks m.totalPlaintextSize)) ||
      decide (m.chunkSize ≠ 65536) || decide (m.encryptionVersion ≠ 1) ||
      decide (m.chunkNonces.length ≠ m.chunkCount) then
    .error .invalidAttachmentManifest
  else
    match decodeBase64 m.attachmentKey with
    | none => .error .illegalBase64
    | some key =>
      if decide (key.length ≠ 32) || !repeats isLowerHex 64 m.fullFileDigest ||
          decide (255 < m.originalFilename.length) then
        .error .invalidAttachmentManifest
      else validateNonces m.chunkNonces

/-- What `send` and the receiving of each client check. -/
def accepts : Client → Manifest → Bool
  | .desktop, m => attachmentManifestSchema m
  | .android, m => (validateManifest m).toBool

/-- The text that is read back from `getBytes(UTF_8)`. -/
def viaUtf8 : Text → Text
  | [] => []
  | u :: rest =>
    if isHigh u then
      match rest with
      | [] => [63]
      | v :: rest' => if isLow v then u :: v :: viaUtf8 rest' else 63 :: viaUtf8 (v :: rest')
    else if isLow u then 63 :: viaUtf8 rest
    else u :: viaUtf8 rest

/-- The manifest as it is read from the decrypted message. `JSON.stringify` escapes a surrogate
that has no other half, Java's UTF-8 does not keep it. -/
def carried (sender : Client) (m : Manifest) : Manifest :=
  match sender with
  | .desktop => m
  | .android =>
    { m with
      originalFilename := viaUtf8 m.originalFilename
      claimedMimeType := viaUtf8 m.claimedMimeType }

/-! ## What every upload makes -/

section Shapes

theorem isLowerHex_digit {n : Nat} (h : n < 16) : isLowerHex (hexDigit n) = true := by
  have all : ∀ n < 16, isLowerHex (hexDigit n) = true := by decide
  exact all n h

@[simp] theorem isHex_high (b : UInt8) : isHex (hexDigit (b.toNat / 16)) = true := by
  have hb := b.toNat_lt
  simp [isHex, isLowerHex_digit (show b.toNat / 16 < 16 by omega)]

@[simp] theorem isHex_low (b : UInt8) : isHex (hexDigit (b.toNat % 16)) = true := by
  simp [isHex, isLowerHex_digit (Nat.mod_lt b.toNat (by decide : 16 > 0))]

theorem hex_length (x : List UInt8) : (hex x).length = 2 * x.length := by
  induction x with
  | nil => rfl
  | cons b x ih =>
    have shape : hex (b :: x) = hexDigit (b.toNat / 16) :: hexDigit (b.toNat % 16) :: hex x := rfl
    rw [shape, List.length_cons, List.length_cons, ih, List.length_cons]
    omega

theorem hex_lower {x : List UInt8} {c : Char} (h : c ∈ hex x) : isLowerHex c = true := by
  obtain ⟨b, -, hc⟩ := List.mem_flatMap.mp h
  have hb := b.toNat_lt
  rcases List.mem_cons.mp hc with rfl | hc
  · exact isLowerHex_digit (by omega)
  · rw [List.mem_singleton.mp hc]
    exact isLowerHex_digit (by omega)

theorem repeats_hex (x : List UInt8) : repeats isLowerHex (2 * x.length) (hex x) = true := by
  simp only [repeats, hex_length, beq_self_eq_true, Bool.true_and, List.all_eq_true]
  exact fun _ hc => hex_lower hc

@[simp] theorem isVersion_random (b : UInt8) :
    isVersion (hexDigit ((withVersion b).toNat / 16)) = true := by
  have all : ∀ n < 256,
      isVersion (hexDigit ((withVersion (UInt8.ofNat n)).toNat / 16)) = true := by
    decide +kernel
  have hb := all b.toNat b.toNat_lt
  rwa [UInt8.ofNat_toNat] at hb

@[simp] theorem isVariant_random (b : UInt8) :
    isVariant (hexDigit ((withVariant b).toNat / 16)) = true := by
  have all : ∀ n < 256,
      isVariant (hexDigit ((withVariant (UInt8.ofNat n)).toNat / 16)) = true := by
    decide +kernel
  have hb := all b.toNat b.toNat_lt
  rwa [UInt8.ofNat_toNat] at hb

theorem isUuid_uuid (b : Vector UInt8 16) : isUuid (uuid b) = true := by
  have hmatch : matchesEach uuidPattern (uuid b) = true := by
    simp [uuidPattern, uuid, hex, matchesEach, List.replicate]
  simp [isUuid, hmatch]

theorem repeats_uuid (b : Vector UInt8 16) :
    repeats (fun c => isLowerHex c || c == '-') 36 (uuid b) = true := by
  simp only [repeats, Bool.and_eq_true, beq_iff_eq, List.all_eq_true]
  refine ⟨by simp [uuid, hex], fun c hc => ?_⟩
  simp only [uuid, List.mem_append, List.mem_cons] at hc
  rcases hc with h | rfl | h | rfl | h | rfl | h | rfl | h
  all_goals first | rfl | simp [hex_lower h]

/-- Whatever the file, the name and the MIME type. -/
structure WellMade (m : Manifest) : Prop where
  id : ∃ x : Vector UInt8 16, m.attachmentId = hex x.toList
  blob : ∃ b, m.blobId = uuid b
  size : m.totalPlaintextSize ≤ largest
  count : m.chunkCount = max 1 (ceilChunks m.totalPlaintextSize)
  chunk : m.chunkSize = chunkBytes
  nonces : m.chunkNonces.length = m.chunkCount
  nonce : ∀ n ∈ m.chunkNonces, ∃ x : Vector UInt8 12, n = base64 x.toList
  digest : ∃ x : Vector UInt8 32, m.fullFileDigest = hex x.toList
  key : ∃ x : Vector UInt8 32, m.attachmentKey = base64 x.toList
  version : m.encryptionVersion = 1

theorem repeats_hex_vector {n : Nat} (x : Vector UInt8 n) :
    repeats isLowerHex (2 * n) (hex x.toList) = true := by
  have h := repeats_hex x.toList
  rwa [Vector.length_toList] at h

theorem decoded_length {n : Nat} (x : Vector UInt8 n) :
    (bufferFromBase64 (base64 x.toList)).length = n := by
  rw [JsonText.bufferFromBase64_base64, Vector.length_toList]

/-- A file of 25 MiB has 400 chunks. -/
theorem ceilChunks_le {size : Nat} (h : size ≤ largest) : ceilChunks size ≤ 400 := by
  unfold ceilChunks chunkBytes
  unfold largest at h
  omega

theorem desktop_accepts {m : Manifest} (h : WellMade m) :
    attachmentManifestSchema m = true ↔
      (1 ≤ m.originalFilename.length ∧ m.originalFilename.length ≤ 255) ∧
        m.claimedMimeType.length ≤ 255 := by
  obtain ⟨id, hid⟩ := h.id
  obtain ⟨b, hb⟩ := h.blob
  obtain ⟨digest, hdigest⟩ := h.digest
  obtain ⟨key, hkey⟩ := h.key
  have hcount : 1 ≤ m.chunkCount ∧ m.chunkCount ≤ 400 := by
    have := ceilChunks_le h.size
    rw [h.count]
    omega
  have hnonce : m.chunkNonces.all (fun v => (bufferFromBase64 v).length == 12) = true := by
    simp only [List.all_eq_true, beq_iff_eq]
    intro v hv
    obtain ⟨x, rfl⟩ := h.nonce v hv
    exact decoded_length x
  have hid' : repeats isLowerHex 32 m.attachmentId = true := hid ▸ repeats_hex_vector id
  have hblob : isUuid m.blobId = true := hb ▸ isUuid_uuid b
  have hdigest' : repeats isLowerHex 64 m.fullFileDigest = true :=
    hdigest ▸ repeats_hex_vector digest
  have hkey' : (bufferFromBase64 m.attachmentKey).length = 32 := hkey ▸ decoded_length key
  have hnonces := h.nonces
  unfold attachmentManifestSchema
  simp only [hid', hblob, hdigest', hkey', hcount, hnonce, hnonces, h.size, h.chunk,
    h.version, ← h.count, Bool.true_and, Bool.and_true, and_self, decide_true, Bool.and_eq_true,
    decide_eq_true_eq]

theorem validateNonces_ok {ns : List (List Char)}
    (h : ∀ n ∈ ns, ∃ x : Vector UInt8 12, n = base64 x.toList) : validateNonces ns = .ok () := by
  induction ns with
  | nil => rfl
  | cons n ns ih =>
    obtain ⟨x, rfl⟩ := h n List.mem_cons_self
    rw [validateNonces, JsonText.decodeBase64_base64]
    simp only [Vector.length_toList, ne_eq, not_true_eq_false, if_false]
    exact ih fun n hn => h n (List.mem_cons_of_mem _ hn)

/-- Android looks neither for an empty name nor at the MIME type. -/
theorem android_accepts {m : Manifest} (h : WellMade m) :
    (validateManifest m).toBool = true ↔ m.originalFilename.length ≤ 255 := by
  obtain ⟨id, hid⟩ := h.id
  obtain ⟨b, hb⟩ := h.blob
  obtain ⟨digest, hdigest⟩ := h.digest
  obtain ⟨key, hkey⟩ := h.key
  have hid' : repeats isLowerHex 32 m.attachmentId = true := hid ▸ repeats_hex_vector id
  have hblob : repeats (fun c => isLowerHex c || c == '-') 36 m.blobId = true :=
    hb ▸ repeats_uuid b
  have hdigest' : repeats isLowerHex 64 m.fullFileDigest = true :=
    hdigest ▸ repeats_hex_vector digest
  have hkey' : decodeBase64 m.attachmentKey = some key.toList :=
    hkey ▸ JsonText.decodeBase64_base64 key.toList
  have hsize := Nat.not_lt.mpr h.size
  have hchunk : m.chunkSize = 65536 := h.chunk
  unfold validateManifest
  simp only [hid', hblob, hdigest', hkey', hsize, hchunk, h.version, h.nonces, ← h.count,
    validateNonces_ok h.nonce, Vector.length_toList, ne_eq, not_true_eq_false, decide_false,
    Bool.not_true, Bool.or_false, Bool.false_or, Bool.false_eq_true, if_false, decide_eq_true_eq]
  split
  · rename_i hlong
    simp only [Except.toBool, Bool.false_eq_true, false_iff, not_le]
    exact hlong
  · rename_i hshort
    simp only [Except.toBool, true_iff]
    exact Nat.not_lt.mp hshort

end Shapes

/-! ## Names -/

section Names

theorem sanitizeFilename_length (filename : Text) : (sanitizeFilename filename).length ≤ 255 := by
  unfold sanitizeFilename
  rw [List.length_take]
  exact Nat.min_le_left _ _

/-- Only control characters are taken out. -/
theorem sanitizeFilename_nonempty (filename : Text) :
    1 ≤ (sanitizeFilename filename).length ↔ ∃ u ∈ filename, isControl u = false := by
  have hfilter : 1 ≤ (filename.filter fun u => !isControl u).length ↔
      ∃ u ∈ filename, isControl u = false := by
    simp [Nat.succ_le_iff, List.length_pos_iff_exists_mem]
  rw [← hfilter]
  unfold sanitizeFilename
  rw [List.length_take, List.length_map]
  omega

theorem viaUtf8_length (t : Text) : (viaUtf8 t).length = t.length := by
  fun_induction viaUtf8 t <;> simp_all

end Names

/-! ## Agreement -/

section Agreement

variable {sha256 : List UInt8 → Vector UInt8 32} {d : Drawn} {answered : Nat → Bool}
  {r : Request} {m : Manifest}

theorem encrypted_wellMade {content : List UInt8} (h : content.length ≤ largest)
    (filename mimeType : Text) :
    WellMade (encryptAndUploadAttachment sha256 d content filename mimeType) := by
  refine ⟨⟨d.id, rfl⟩, ⟨d.blob, rfl⟩, h, ?_, rfl, ?_, ?_, ⟨sha256 content, rfl⟩, ⟨d.key, rfl⟩, rfl⟩
  · unfold encryptAndUploadAttachment
    dsimp only
    split <;> omega
  · simp [encryptAndUploadAttachment]
  · intro n hn
    obtain ⟨i, -, rfl⟩ := List.mem_map.mp hn
    exact ⟨d.nonce i, rfl⟩

theorem uploaded_wellMade {content : List UInt8} (h : content.length ≤ largest)
    (filename mimeType : Text) :
    WellMade (uploadManifest sha256 d content filename mimeType) := by
  refine ⟨⟨d.id, rfl⟩, ⟨d.blob, rfl⟩, h, rfl, rfl, ?_, ?_, ⟨sha256 content, rfl⟩, ⟨d.key, rfl⟩, rfl⟩
  · simp [uploadManifest]
  · intro n hn
    obtain ⟨i, -, rfl⟩ := List.mem_map.mp hn
    exact ⟨d.nonce i, rfl⟩

theorem carried_wellMade (h : WellMade m) (sender : Client) : WellMade (carried sender m) := by
  cases sender with
  | desktop => exact h
  | android =>
    exact ⟨h.id, h.blob, h.size, h.count, h.chunk, h.nonces, h.nonce, h.digest, h.key, h.version⟩

theorem carried_name_length (sender : Client) (m : Manifest) :
    (carried sender m).originalFilename.length = m.originalFilename.length := by
  cases sender with
  | desktop => rfl
  | android => exact viaUtf8_length _

theorem carried_mime_length (sender : Client) (m : Manifest) :
    (carried sender m).claimedMimeType.length = m.claimedMimeType.length := by
  cases sender with
  | desktop => rfl
  | android => exact viaUtf8_length _

/-- The sender's own check in `send` and the validation of any receiver pass. -/
def Delivered (sender : Client) (m : Manifest) : Prop :=
  accepts sender m = true ∧ ∀ receiver, accepts receiver (carried sender m) = true

/-- One desktop is enough for the stricter bounds: the sender itself or a receiver. -/
theorem delivered_bounds (h : WellMade m) (sender : Client) :
    Delivered sender m ↔
      (1 ≤ m.originalFilename.length ∧ m.originalFilename.length ≤ 255) ∧
        m.claimedMimeType.length ≤ 255 := by
  have hc := carried_wellMade h sender
  have desktop := desktop_accepts hc
  have android := android_accepts hc
  rw [carried_name_length, carried_mime_length] at desktop
  rw [carried_name_length] at android
  refine ⟨fun hd => desktop.mp (hd.2 .desktop), fun hb => ⟨?_, fun receiver => ?_⟩⟩
  · cases sender with
    | desktop => exact (desktop_accepts h).mpr hb
    | android => exact (android_accepts h).mpr hb.1.2
  · cases receiver with
    | desktop => exact desktop.mpr hb
    | android => exact android.mpr hb.1.2

theorem upload_made {sender : Client} (h : upload sha256 d sender answered r = some m) :
    r.content.length ≤ largest ∧
      match sender with
      | .desktop => ∃ mimeType, r.mimeType = some mimeType ∧
          m = encryptAndUploadAttachment sha256 d r.content r.filename mimeType
      | .android =>
        m = uploadManifest sha256 d r.content r.filename (r.mimeType.getD octetStream) := by
  unfold upload at h
  split at h
  · cases h
  · rename_i hsize
    refine ⟨Nat.not_lt.mp hsize, ?_⟩
    obtain ⟨hmade, -⟩ := Option.filter_eq_some_iff.mp h
    cases sender with
    | desktop =>
      obtain ⟨mimeType, hmime, heq⟩ := Option.map_eq_some_iff.mp hmade
      exact ⟨mimeType, hmime, heq.symm⟩
    | android => exact (Option.some.inj hmade).symm

/-- The name and the MIME type for which a sender's manifest is accepted. An empty name is
replaced on Android only; nobody who sends bounds the MIME type. -/
def Fits (sender : Client) (r : Request) : Prop :=
  (sender = .desktop → ∃ u ∈ r.filename, isControl u = false) ∧
    ∀ mimeType ∈ r.mimeType, mimeType.length ≤ 255

theorem android_name (filename : Text) :
    1 ≤ (if (sanitize filename).isEmpty then attachmentBin else sanitize filename).length ∧
      (if (sanitize filename).isEmpty then attachmentBin else sanitize filename).length ≤ 255 := by
  split
  · decide
  · rename_i hne
    refine ⟨?_, sanitizeFilename_length filename⟩
    rw [List.isEmpty_iff] at hne
    exact List.length_pos_of_ne_nil hne

theorem upload_wellMade {sender : Client} (h : upload sha256 d sender answered r = some m) :
    WellMade m := by
  obtain ⟨hsize, hmade⟩ := upload_made h
  cases sender with
  | desktop =>
    obtain ⟨mimeType, -, rfl⟩ := hmade
    exact encrypted_wellMade hsize _ _
  | android =>
    rw [hmade]
    exact uploaded_wellMade hsize _ _

theorem bounds_iff_fits {sender : Client} (h : upload sha256 d sender answered r = some m) :
    ((1 ≤ m.originalFilename.length ∧ m.originalFilename.length ≤ 255) ∧
      m.claimedMimeType.length ≤ 255) ↔ Fits sender r := by
  obtain ⟨-, hmade⟩ := upload_made h
  cases sender with
  | desktop =>
    obtain ⟨mimeType, hmime, rfl⟩ := hmade
    have hname := sanitizeFilename_nonempty r.filename
    have hlength := sanitizeFilename_length r.filename
    constructor
    · rintro ⟨⟨hpos, -⟩, hmax⟩
      refine ⟨fun _ => hname.mp hpos, fun t ht => ?_⟩
      rw [hmime] at ht
      cases ht
      exact hmax
    · rintro ⟨hpos, hmax⟩
      exact ⟨⟨hname.mpr (hpos rfl), hlength⟩, hmax mimeType hmime⟩
  | android =>
    rw [hmade]
    constructor
    · rintro ⟨-, hmax⟩
      refine ⟨fun hdesktop => absurd hdesktop (by decide), fun t ht => ?_⟩
      rw [Option.mem_def.mp ht] at hmax
      exact hmax
    · rintro ⟨-, hmax⟩
      refine ⟨android_name r.filename, ?_⟩
      show (r.mimeType.getD octetStream).length ≤ 255
      cases hmime : r.mimeType with
      | none => decide
      | some mimeType => exact hmax mimeType hmime

theorem delivered_iff_fits {sender : Client} (h : upload sha256 d sender answered r = some m) :
    Delivered sender m ↔ Fits sender r :=
  (delivered_bounds (upload_wellMade h) sender).trans (bounds_iff_fits h)

end Agreement

def drawn : Drawn :=
  ⟨.replicate 16 0, .replicate 32 0, .replicate 16 0, fun _ => .replicate 12 0⟩

def digest : List UInt8 → Vector UInt8 32 := fun _ => .replicate 32 0

def note : Request := ⟨[104, 105], text "a.txt", some (text "text/plain")⟩

theorem note_delivered :
    Delivered .desktop
      (encryptAndUploadAttachment digest drawn note.content note.filename (text "text/plain")) := by
  have h : upload digest drawn .desktop (fun _ => true) note =
      some (encryptAndUploadAttachment digest drawn note.content note.filename
        (text "text/plain")) := by
    decide
  refine (delivered_iff_fits h).mpr ⟨fun _ => ⟨97, by decide, rfl⟩, fun mimeType hm => ?_⟩
  rw [← Option.some.inj hm]
  decide

/-- An empty file with a MIME type of 256 characters. -/
def longType : Request := ⟨[], text "a.txt", some (.replicate 256 97)⟩

/-- An empty file whose name is one control character. -/
def unnamed : Request := ⟨[], [10], some (text "text/plain")⟩

/-- What an Android sender accepts a desktop may reject, and a desktop may not send what it has
uploaded. -/
theorem manifests_rejected :
    (¬ ∀ r m, upload digest drawn .android (fun _ => true) r = some m →
      accepts .android m = true → Delivered .android m) ∧
    ¬ ∀ r m, upload digest drawn .desktop (fun _ => true) r = some m →
      accepts .desktop m = true := by
  refine ⟨fun h => ?_, fun h => ?_⟩
  · have hd := h longType
      (uploadManifest digest drawn longType.content longType.filename (.replicate 256 97))
      (by decide +kernel) (by decide +kernel)
    have hrejected : accepts .desktop (carried .android (uploadManifest digest drawn
        longType.content longType.filename (.replicate 256 97))) = false := by
      decide +kernel
    rw [hd.2 .desktop] at hrejected
    cases hrejected
  · have haccepted := h unnamed
      (encryptAndUploadAttachment digest drawn unnamed.content unnamed.filename
        (text "text/plain")) (by decide)
    have hrejected : accepts .desktop (encryptAndUploadAttachment digest drawn unnamed.content
        unnamed.filename (text "text/plain")) = false := by
      decide
    rw [haccepted] at hrejected
    cases hrejected

end AttachmentManifests
