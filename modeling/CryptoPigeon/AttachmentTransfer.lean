import CryptoPigeon.BackupLimits

/-! # Attachments from sender to receiver

The sender cuts a file into chunks, encrypts each with its place among them and uploads them; the
receiver fetches what the manifest names, decrypts it and records the file. The cipher is ideal:
it opens what was sealed and nothing else. What the place of storage answers is up to it. -/
namespace AttachmentTransfer

open AttachmentManifests
open BackupLimits (base64Schema)
open JsonText (base64 bufferFromBase64 decodeBase64 hex unhex)
open LoginSignature (Client text)

abbrev Bytes := List UInt8

/-! ## The cipher -/

structure Aead where
  encrypt : Bytes → Bytes → Bytes → Bytes → Bytes
  decrypt : Bytes → Bytes → Bytes → Bytes → Option Bytes

/-- One use of a key. -/
structure Sealing where
  key : Bytes
  nonce : Bytes
  aad : Bytes
  plaintext : Bytes
  deriving DecidableEq, Repr

def Aead.sealing (a : Aead) (s : Sealing) : Bytes := a.encrypt s.key s.nonce s.aad s.plaintext

/-- Everything that was ever sealed is opened, nothing else is, and the tag has 16 bytes. -/
structure Aead.Ideal (a : Aead) (log : Sealing → Prop) : Prop where
  opens : ∀ s, log s → a.decrypt s.key s.nonce s.aad (a.sealing s) = some s.plaintext
  only : ∀ key nonce aad c p, a.decrypt key nonce aad c = some p → log ⟨key, nonce, aad, p⟩
  length : ∀ s, (a.sealing s).length = s.plaintext.length + 16

/-- `writeUInt32BE` -/
def be32 (n : Nat) : Bytes :=
  [(n / 16777216).toUInt8, (n / 65536).toUInt8, (n / 256).toUInt8, n.toUInt8]

def makeAad (attachmentId : Bytes) (chunkIndex totalChunkCount : Nat) : Bytes :=
  attachmentId ++ be32 chunkIndex ++ be32 totalChunkCount ++ be32 1

/-- `chunkAad` of Android, from the digits of the id. -/
def chunkAad (id : List Char) (index count : Nat) : Option Bytes :=
  (unhex id).map fun bytes => bytes ++ be32 index ++ be32 count ++ be32 1

/-! ## Counts -/

/-- `Math.ceil(size / 65536)` -/
def mathCeil (size : Nat) : Nat := if size % 65536 = 0 then size / 65536 else size / 65536 + 1

/-- `Math.ceil(totalSize / CHUNK_SIZE) || 1` of the desktop's sender. -/
def desktopCount (size : Nat) : Nat := if mathCeil size = 0 then 1 else mathCeil size

/-- `Math.max(1,(data.length+65535)/65536)` of Android. -/
def androidCount (size : Nat) : Nat := max 1 ((size + 65535) / 65536)

/-- `Math.max(1,Math.ceil(v.totalSize/65536))` of the schema, the relay and Tor routing. -/
def checkedCount (size : Nat) : Nat := max 1 (mathCeil size)

/-! ## Sending -/

variable (d : Drawn) (content : Bytes)

/-- `plaintext.slice(start, end)` -/
def desktopChunk (i : Nat) : Bytes :=
  (content.take (min (i * 65536 + 65536) content.length)).drop (i * 65536)

/-- `Arrays.copyOfRange` -/
def androidChunk (i : Nat) : Bytes :=
  (content.take (min ((i + 1) * 65536) content.length)).drop (i * 65536)

structure Part where
  nonce : List Char
  ciphertext : List Char
  deriving DecidableEq, Repr

def senderChunk : Client → Nat → Bytes
  | .desktop => desktopChunk content
  | .android => androidChunk content

def senderCount : Client → Nat
  | .desktop => desktopCount content.length
  | .android => androidCount content.length

/-- How the sender seals a chunk. -/
def chunkSealing (sender : Client) (i : Nat) : Sealing where
  key := d.key.toList
  nonce := (d.nonce i).toList
  aad := makeAad d.id.toList i (senderCount content sender)
  plaintext := senderChunk content sender i

def uploadedPart (a : Aead) (sender : Client) (i : Nat) : Part where
  nonce := base64 (d.nonce i).toList
  ciphertext := base64 (a.sealing (chunkSealing d content sender i))

/-! ## Storing -/

/-- Who keeps the chunks: the relay or the spool of one of the clients. -/
inductive Storage where
  | relay
  | spool (client : Client)
  deriving DecidableEq, Repr

structure Store where
  blobs : List (List Char × Nat)
  chunks : List ((List Char × Nat) × Part)
  deriving Repr

def Store.count (s : Store) (blobId : List Char) : Option Nat :=
  (s.blobs.find? fun b => b.1 == blobId).map Prod.snd

def Store.chunk (s : Store) (blobId : List Char) (i : Nat) : Option Part :=
  (s.chunks.find? fun c => c.1 == (blobId, i)).map Prod.snd

/-- The condition on the first request. -/
def Storage.takesUpload : Storage → List Char → Nat → Nat → Bool
  | .relay, blobId, chunkCount, totalSize => isUuid blobId &&
      decide (0 < chunkCount ∧ chunkCount ≤ 400 ∧ totalSize ≤ largest ∧
        chunkCount = checkedCount totalSize)
  | .spool .desktop, blobId, chunkCount, totalSize =>
    repeats (fun c => isLowerHex c || c == '-') 36 blobId &&
      decide (1 ≤ chunkCount ∧ chunkCount ≤ 400 ∧ totalSize ≤ largest ∧
        chunkCount = checkedCount totalSize)
  | .spool .android, blobId, chunkCount, totalSize =>
    decide (totalSize ≤ largest ∧ chunkCount = androidCount totalSize) &&
      repeats (fun c => isLowerHex c || c == '-') 36 blobId

/-- `/api/attachments/upload`; a blob that exists is left alone by the relay and an error in a
spool. -/
def handleUpload (k : Storage) (s : Store) (blobId : List Char) (chunkCount totalSize : Nat) :
    Option Store :=
  if !k.takesUpload blobId chunkCount totalSize then none
  else
    match s.count blobId, k with
    | none, _ => some { s with blobs := (blobId, chunkCount) :: s.blobs }
    | some _, .relay => some s
    | some _, .spool _ => none

/-- The condition on a chunk's two strings. -/
def Storage.takesPart : Storage → Part → Bool
  | .relay, p => base64Schema p.nonce && base64Schema p.ciphertext &&
      (bufferFromBase64 p.nonce).length == 12 &&
      decide (16 ≤ (bufferFromBase64 p.ciphertext).length ∧
        (bufferFromBase64 p.ciphertext).length ≤ 65536 + 16)
  | .spool .desktop, p => (bufferFromBase64 p.nonce).length == 12 &&
      decide (16 ≤ (bufferFromBase64 p.ciphertext).length ∧
        (bufferFromBase64 p.ciphertext).length ≤ 65552)
  | .spool .android, p => (decodeBase64 p.nonce).any (fun b => b.length == 12) &&
      (decodeBase64 p.ciphertext).any fun b => decide (b.length ≤ 65552)

/-- The relay keeps buffers and encodes them again. -/
def Storage.kept : Storage → Part → Part
  | .relay, p => ⟨base64 (bufferFromBase64 p.nonce), base64 (bufferFromBase64 p.ciphertext)⟩
  | .spool _, p => p

/-- `/api/attachments/:blobId/chunks`; a chunk that exists is replaced at the relay and an error
in a spool. -/
def handleChunk (k : Storage) (s : Store) (blobId : List Char) (i : Nat) (p : Part) :
    Option Store :=
  match s.count blobId with
  | none => none
  | some chunkCount =>
    if chunkCount ≤ i || !k.takesPart p then none
    else
      match s.chunk blobId i, k with
      | some _, .spool _ => none
      | _, _ => some { s with chunks := ((blobId, i), k.kept p) :: s.chunks }

def handleChunks (k : Storage) (blobId : List Char) (part : Nat → Part) :
    List Nat → Store → Option Store
  | [], s => some s
  | i :: rest, s => (handleChunk k s blobId i (part i)).bind (handleChunks k blobId part rest)

/-- All requests of an upload. -/
def uploadAll (a : Aead) (sender : Client) (k : Storage) (s : Store) : Option Store :=
  (handleUpload k s (uuid d.blob) (senderCount content sender) content.length).bind
    (handleChunks k (uuid d.blob) (uploadedPart d content a sender)
      (List.range (senderCount content sender)))

/-- What a receiver in a Tor mode takes from a peer into `tor_download_chunks`. -/
def prefetched (m : Manifest) (i : Nat) (p : Part) : Option Part :=
  if m.chunkNonces[i]? = some p.nonce ∧ (bufferFromBase64 p.ciphertext).length ≤ 65552 then
    some p
  else none

/-! ## Downloading -/

/-- A row of `attachments`. -/
structure Row where
  attachmentId : List Char
  messageId : List Char
  encryptedLocalPath : Option (List Char)
  deriving DecidableEq, Repr

/-- The two tables and the cached files of the receiver; a file is named by its attachment. -/
structure Local where
  attachments : List Row
  downloads : List (List Char)
  files : List (List Char × Bytes)
  deriving DecidableEq, Repr

def Local.cacheAttachment (l : Local) (id : List Char) (bytes : Bytes) : Local :=
  { l with files := (id, bytes) :: l.files }

/-- `UPDATE attachments SET encrypted_local_path=?` of the rows in question. -/
def Local.update (l : Local) (id : List Char) (p : Row → Bool) : Local :=
  let placed (row : Row) : Row :=
    if p row then { row with encryptedLocalPath := some id } else row
  { l with attachments := l.attachments.map placed }

/-- `DELETE FROM attachment_downloads WHERE attachment_id=?` -/
def Local.deleteDownload (l : Local) (id : List Char) : Local :=
  { l with downloads := l.downloads.filter (· != id) }

/-- What becomes of the last request of the desktop: it throws or is answered, well or not. -/
inductive Deletion where
  | thrown
  | answered (ok : Bool)
  deriving DecidableEq, Repr

/-- The loop over the chunks from the `i`-th on, of which `n` are left. -/
def fetchChunks (opened : Nat → Part → Option Bytes) (fits : Bytes → Bool)
    (responses : Nat → Option Part) : Nat → Nat → Bytes → Option Bytes
  | 0, _, output => some output
  | n + 1, i, output =>
    match (responses i).bind (opened i) with
    | none => none
    | some plain =>
      if fits (output ++ plain) then fetchChunks opened fits responses n (i + 1) (output ++ plain)
      else none

/-- The nonce has to be the manifest's; it and the place are what the chunk was sealed with. -/
def desktopOpened (a : Aead) (m : Manifest) (i : Nat) (p : Part) : Option Bytes :=
  if m.chunkNonces[i]? ≠ some p.nonce then none
  else
    a.decrypt (bufferFromBase64 m.attachmentKey) (bufferFromBase64 p.nonce)
      (makeAad ((unhex m.attachmentId).getD []) i m.chunkCount) (bufferFromBase64 p.ciphertext)

def androidOpened (a : Aead) (m : Manifest) (i : Nat) (p : Part) : Option Bytes :=
  if m.chunkNonces[i]? ≠ some p.nonce then none
  else do
    let key ← decodeBase64 m.attachmentKey
    let nonce ← decodeBase64 p.nonce
    let ciphertext ← decodeBase64 p.ciphertext
    let aad ← chunkAad m.attachmentId i m.chunkCount
    a.decrypt key nonce aad ciphertext

/-- The digest of the manifest is that of the bytes, which are as many as it says. -/
def Intact (sha256 : Bytes → Vector UInt8 32) (m : Manifest) (bytes : Bytes) : Bool :=
  unhex m.fullFileDigest == some (sha256 bytes).toList && bytes.length == m.totalPlaintextSize

/-- What is returned, if nothing is thrown, and what is left in the tables and files. -/
def downloadAndDecryptAttachment (sha256 : Bytes → Vector UInt8 32) (a : Aead) (m : Manifest)
    (messageId : List Char) (responses : Nat → Option Part) (deletion : Deletion) (l : Local) :
    Option Bytes × Local :=
  if !attachmentManifestSchema m then (none, l)
  else
    match fetchChunks (desktopOpened a m) (fun _ => true) responses m.chunkCount 0 [] with
    | none => (none, l)
    | some fullPlaintext =>
      if !Intact sha256 m fullPlaintext then (none, l)
      else
        let cached := l.cacheAttachment m.attachmentId fullPlaintext
        let p row := row.attachmentId == m.attachmentId && row.messageId == messageId
        if l.attachments.countP p ≠ 1 then (none, cached)
        else
          let done := (cached.update m.attachmentId p).deleteDownload m.attachmentId
          -- the request comes after the commit, and only an answer is looked at
          match deletion with
          | .thrown => (none, done)
          | .answered _ => (some fullPlaintext, done)

/-- One round of `downloadPending`; what it caches stands for what it returns. -/
def downloadPending (sha256 : Bytes → Vector UInt8 32) (a : Aead) (m : Manifest)
    (responses : Nat → Option Part) (l : Local) : Option Bytes × Local :=
  if !(validateManifest m).toBool then (none, l)
  else
    match fetchChunks (androidOpened a m)
        (fun output => decide (output.length ≤ m.totalPlaintextSize)) responses m.chunkCount 0 []
      with
    | none => (none, l)
    | some bytes =>
      if !Intact sha256 m bytes then (none, l)
      else
        (some bytes,
          ((l.cacheAttachment m.attachmentId bytes).update m.attachmentId
            (fun row => row.attachmentId == m.attachmentId)).deleteDownload m.attachmentId)

def download (sha256 : Bytes → Vector UInt8 32) (a : Aead) (receiver : Client) (m : Manifest)
    (messageId : List Char) (responses : Nat → Option Part) (deletion : Deletion) (l : Local) :
    Option Bytes × Local :=
  match receiver with
  | .desktop => downloadAndDecryptAttachment sha256 a m messageId responses deletion l
  | .android => downloadPending sha256 a m responses l

/-! ## Counts and chunks -/

section Chunks

theorem mathCeil_eq (size : Nat) : mathCeil size = ceilChunks size := by
  unfold mathCeil ceilChunks chunkBytes
  split <;> omega

theorem checkedCount_eq (size : Nat) : checkedCount size = max 1 (ceilChunks size) := by
  rw [checkedCount, mathCeil_eq]

theorem desktopCount_eq (size : Nat) : desktopCount size = max 1 (ceilChunks size) := by
  unfold desktopCount
  rw [mathCeil_eq]
  split <;> omega

theorem androidCount_eq (size : Nat) : androidCount size = max 1 (ceilChunks size) := rfl

theorem senderCount_eq (content : Bytes) (sender : Client) :
    senderCount content sender = max 1 (ceilChunks content.length) := by
  cases sender with
  | desktop => exact desktopCount_eq _
  | android => exact androidCount_eq _

theorem senderChunk_eq (content : Bytes) (sender : Client) (i : Nat) :
    senderChunk content sender i = (content.take ((i + 1) * 65536)).drop (i * 65536) := by
  have hend : i * 65536 + 65536 = (i + 1) * 65536 := by omega
  have htake (n : Nat) : content.take (min n content.length) = content.take n :=
    List.take_eq_take_min.symm
  cases sender with
  | desktop => rw [senderChunk, desktopChunk, hend, htake]
  | android => rw [senderChunk, androidChunk, htake]

theorem senderChunk_length (content : Bytes) (sender : Client) (i : Nat) :
    (senderChunk content sender i).length ≤ 65536 := by
  rw [senderChunk_eq, List.length_drop, List.length_take]
  omega

/-- A chunk goes on where those before it end. -/
theorem take_append_senderChunk (content : Bytes) (sender : Client) (i : Nat) :
    content.take (i * 65536) ++ senderChunk content sender i = content.take ((i + 1) * 65536) := by
  have hfront : content.take (i * 65536) = (content.take ((i + 1) * 65536)).take (i * 65536) := by
    rw [List.take_take, Nat.min_eq_left (by omega)]
  rw [senderChunk_eq, hfront, List.take_append_drop]

/-- The last chunk ends with the file. -/
theorem take_senderCount (content : Bytes) (sender : Client) :
    content.take (senderCount content sender * 65536) = content := by
  apply List.take_of_length_le
  rw [senderCount_eq]
  unfold ceilChunks chunkBytes
  omega

theorem senderCount_lt {content : Bytes} (h : content.length ≤ largest) (sender : Client) :
    1 ≤ senderCount content sender ∧ senderCount content sender ≤ 400 := by
  have hceil := ceilChunks_le h
  rw [senderCount_eq]
  omega

theorem be32_inj {i j : Nat} (hi : i < 4294967296) (hj : j < 4294967296) (h : be32 i = be32 j) :
    i = j := by
  simp only [be32, List.cons.injEq, and_true, ← UInt8.toNat_inj, UInt8.toNat_ofNat',
    Nat.toUInt8_eq] at h
  omega

/-- Of ids of one length the id, the place and the count are all found again. -/
theorem makeAad_inj {id id' : Bytes} {i j count count' : Nat} (hlen : id.length = id'.length)
    (hi : i < 4294967296) (hj : j < 4294967296) (hc : count < 4294967296)
    (hc' : count' < 4294967296) (h : makeAad id i count = makeAad id' j count') :
    id = id' ∧ i = j ∧ count = count' := by
  simp only [makeAad, List.append_left_inj] at h
  obtain ⟨h, hcount⟩ := List.append_inj' h rfl
  obtain ⟨hid, hplace⟩ := List.append_inj h hlen
  exact ⟨hid, be32_inj hi hj hplace, be32_inj hc hc' hcount⟩

end Chunks

/-! ## What the stores give back -/

section Stores

variable {a : Aead} {d : Drawn} {content : Bytes} {sender : Client}

/-- No storage turns down what a sender announces. -/
theorem takesUpload_sender (k : Storage) (b : Vector UInt8 16) (h : content.length ≤ largest) :
    k.takesUpload (uuid b) (senderCount content sender) content.length = true := by
  have hcount := senderCount_lt h sender
  have hchecked : senderCount content sender = checkedCount content.length := by
    rw [senderCount_eq, checkedCount_eq]
  have handroid : senderCount content sender = androidCount content.length := by
    rw [senderCount_eq, androidCount_eq]
  cases k with
  | relay =>
    simp only [Storage.takesUpload, isUuid_uuid, Bool.true_and, decide_eq_true_eq]
    exact ⟨hcount.1, hcount.2, h, hchecked⟩
  | spool client =>
    cases client with
    | desktop =>
      simp only [Storage.takesUpload, repeats_uuid, Bool.true_and, decide_eq_true_eq]
      exact ⟨hcount.1, hcount.2, h, hchecked⟩
    | android =>
      simp only [Storage.takesUpload, repeats_uuid, Bool.and_true, decide_eq_true_eq]
      exact ⟨h, handroid⟩

theorem takesPart_uploaded (hlength : ∀ s, (a.sealing s).length = s.plaintext.length + 16)
    (k : Storage) (i : Nat) : k.takesPart (uploadedPart d content a sender i) = true := by
  have hsealed := hlength (chunkSealing d content sender i)
  have hchunk : (chunkSealing d content sender i).plaintext.length ≤ 65536 :=
    senderChunk_length content sender i
  have hnonce : base64Schema (base64 (d.nonce i).toList) = true := by
    apply BackupLimits.base64Schema_base64
    exact List.ne_nil_of_length_pos (by rw [Vector.length_toList]; decide)
  have hciphertext :
      base64Schema (base64 (a.sealing (chunkSealing d content sender i))) = true := by
    apply BackupLimits.base64Schema_base64
    exact List.ne_nil_of_length_pos (by omega)
  cases k with
  | relay =>
    simp only [Storage.takesPart, uploadedPart, hnonce, hciphertext,
      JsonText.bufferFromBase64_base64, Vector.length_toList, beq_self_eq_true, Bool.true_and,
      decide_eq_true_eq]
    omega
  | spool client =>
    cases client with
    | desktop =>
      simp only [Storage.takesPart, uploadedPart, JsonText.bufferFromBase64_base64,
        Vector.length_toList, beq_self_eq_true, Bool.true_and, decide_eq_true_eq]
      omega
    | android =>
      simp only [Storage.takesPart, uploadedPart, JsonText.decodeBase64_base64, Option.any_some,
        Vector.length_toList, beq_self_eq_true, Bool.true_and, decide_eq_true_eq]
      omega

/-- The relay's second encoding is the first. -/
theorem kept_uploaded (k : Storage) (i : Nat) :
    k.kept (uploadedPart d content a sender i) = uploadedPart d content a sender i := by
  cases k with
  | relay => simp only [Storage.kept, uploadedPart, JsonText.bufferFromBase64_base64]
  | spool _ => rfl

theorem handleChunk_stores {k : Storage} {s : Store} {blobId : List Char} {count i : Nat}
    {p : Part} (hcount : s.count blobId = some count) (hi : i < count)
    (htakes : k.takesPart p = true) (hnew : s.chunk blobId i = none) :
    handleChunk k s blobId i p = some { s with chunks := ((blobId, i), k.kept p) :: s.chunks } := by
  have hguard : (decide (count ≤ i) || !k.takesPart p) = false := by
    rw [htakes, Bool.not_true, Bool.or_false, decide_eq_false_iff_not]
    omega
  simp only [handleChunk, hcount, hguard, Bool.false_eq_true, if_false, hnew]

/-- Every part is found under its place, what was under other places stays there. -/
theorem handleChunks_stores {k : Storage} {blobId : List Char} {part : Nat → Part} {count : Nat}
    (htakes : ∀ i, k.takesPart (part i) = true) (is : List Nat) (s : Store)
    (hcount : s.count blobId = some count) (hlt : ∀ i ∈ is, i < count) (hnodup : is.Nodup)
    (hnew : ∀ i ∈ is, s.chunk blobId i = none) :
    ∃ s', handleChunks k blobId part is s = some s' ∧
      (∀ i ∈ is, s'.chunk blobId i = some (k.kept (part i))) ∧
      ∀ i ∉ is, s'.chunk blobId i = s.chunk blobId i := by
  induction is generalizing s with
  | nil => exact ⟨s, rfl, fun i hi => absurd hi List.not_mem_nil, fun _ _ => rfl⟩
  | cons i rest ih =>
    obtain ⟨hni, hnodup⟩ := List.nodup_cons.mp hnodup
    have hstep := handleChunk_stores hcount (hlt i List.mem_cons_self) (htakes i)
      (hnew i List.mem_cons_self)
    let s₁ : Store := { s with chunks := ((blobId, i), k.kept (part i)) :: s.chunks }
    have hother (j : Nat) (hj : j ≠ i) : s₁.chunk blobId j = s.chunk blobId j := by
      have hne : ((blobId, i) == (blobId, j)) = false := by
        rw [beq_eq_false_iff_ne]
        exact fun heq => hj (congrArg Prod.snd heq).symm
      simp only [s₁, Store.chunk, List.find?_cons, hne]
    have hhere : s₁.chunk blobId i = some (k.kept (part i)) := by
      simp only [s₁, Store.chunk, List.find?_cons, beq_self_eq_true, Option.map_some]
    obtain ⟨s', hrun, hin, hout⟩ := ih s₁ hcount
      (fun j hj => hlt j (List.mem_cons_of_mem i hj)) hnodup fun j hj => by
        rw [hother j fun heq => hni (heq ▸ hj)]
        exact hnew j (List.mem_cons_of_mem i hj)
    refine ⟨s', ?_, fun j hj => ?_, fun j hj => ?_⟩
    · rw [handleChunks, hstep, Option.bind_some, hrun]
    · rcases List.mem_cons.mp hj with rfl | hj
      · rw [hout j hni, hhere]
      · exact hin j hj
    · rw [List.mem_cons, not_or] at hj
      rw [hout j hj.2, hother j hj.1]

/-- The blob id is not in use. -/
def Store.Unused (s : Store) (blobId : List Char) : Prop :=
  s.count blobId = none ∧ ∀ i, s.chunk blobId i = none

theorem uploadAll_stores (hlength : ∀ s, (a.sealing s).length = s.plaintext.length + 16)
    (hsize : content.length ≤ largest) (k : Storage) {s : Store} (h : s.Unused (uuid d.blob)) :
    ∃ s', uploadAll d content a sender k s = some s' ∧
      ∀ i < senderCount content sender,
        s'.chunk (uuid d.blob) i = some (uploadedPart d content a sender i) := by
  let s₁ : Store := { s with blobs := (uuid d.blob, senderCount content sender) :: s.blobs }
  have hupload : handleUpload k s (uuid d.blob) (senderCount content sender) content.length =
      some s₁ := by
    simp only [handleUpload, takesUpload_sender k d.blob hsize, h.1, Bool.not_true,
      Bool.false_eq_true, if_false, s₁]
  have hcount : s₁.count (uuid d.blob) = some (senderCount content sender) := by
    simp only [s₁, Store.count, List.find?_cons, beq_self_eq_true, Option.map_some]
  have htakes (i : Nat) : k.takesPart (uploadedPart d content a sender i) = true :=
    takesPart_uploaded hlength k i
  obtain ⟨s', hrun, hin, -⟩ := handleChunks_stores htakes
    (List.range (senderCount content sender)) s₁ hcount (fun i hi => List.mem_range.mp hi)
    List.nodup_range fun i _ => h.2 i
  refine ⟨s', ?_, fun i hi => ?_⟩
  · rw [uploadAll, hupload, Option.bind_some, hrun]
  · rw [hin i (List.mem_range.mpr hi), kept_uploaded]

end Stores

/-! ## What the receivers open -/

section Opening

variable {sha256 : Bytes → Vector UInt8 32} {a : Aead} {log : Sealing → Prop} {d : Drawn}
  {content bytes plain : Bytes} {sender : Client} {m : Manifest} {i : Nat} {p : Part}
  {opened : Nat → Part → Option Bytes} {fits : Bytes → Bool} {responses : Nat → Option Part}

/-- The key of the attachment was drawn for it: what was sealed with it are its chunks. -/
def Fresh (log : Sealing → Prop) (d : Drawn) (content : Bytes) (sender : Client) : Prop :=
  ∀ s, s.key = d.key.toList →
    (log s ↔ ∃ i < senderCount content sender, s = chunkSealing d content sender i)

/-- What the receiver reads of the manifest. -/
structure Sent (sha256 : Bytes → Vector UInt8 32) (d : Drawn) (content : Bytes) (sender : Client)
    (m : Manifest) : Prop where
  id : m.attachmentId = hex d.id.toList
  blob : m.blobId = uuid d.blob
  key : m.attachmentKey = base64 d.key.toList
  nonce : ∀ i < senderCount content sender,
    m.chunkNonces[i]? = some (base64 (d.nonce i).toList)
  count : m.chunkCount = senderCount content sender
  size : m.totalPlaintextSize = content.length
  digest : m.fullFileDigest = hex (sha256 content).toList

theorem decrypt_sealed (ideal : a.Ideal log) (fresh : Fresh log d content sender)
    (hi : i < senderCount content sender) :
    a.decrypt d.key.toList (d.nonce i).toList (makeAad d.id.toList i (senderCount content sender))
      (a.sealing (chunkSealing d content sender i)) = some (senderChunk content sender i) :=
  ideal.opens (chunkSealing d content sender i) ((fresh _ rfl).mpr ⟨i, hi, rfl⟩)

/-- With the additional data of a place no other chunk is opened, whatever is decrypted. -/
theorem decrypt_only (ideal : a.Ideal log) (fresh : Fresh log d content sender)
    (hsize : content.length ≤ largest) (hi : i < senderCount content sender) {nonce c : Bytes}
    (h : a.decrypt d.key.toList nonce (makeAad d.id.toList i (senderCount content sender)) c =
      some plain) :
    plain = senderChunk content sender i := by
  have hlog := ideal.only _ _ _ _ _ h
  obtain ⟨j, hj, heq⟩ := (fresh _ rfl).mp hlog
  have hmax := (senderCount_lt hsize sender).2
  have haad : makeAad d.id.toList i (senderCount content sender) =
      makeAad d.id.toList j (senderCount content sender) := congrArg Sealing.aad heq
  obtain ⟨-, rfl, -⟩ := makeAad_inj rfl (by omega) (by omega) (by omega) (by omega) haad
  exact congrArg Sealing.plaintext heq

theorem chunkAad_hex (id : Bytes) (i count : Nat) :
    chunkAad (hex id) i count = some (makeAad id i count) := by
  rw [chunkAad, JsonText.unhex_hex, Option.map_some, makeAad]

theorem desktopOpened_eq (h : Sent sha256 d content sender m) (i : Nat) (p : Part) :
    desktopOpened a m i p =
      if m.chunkNonces[i]? ≠ some p.nonce then none
      else a.decrypt d.key.toList (bufferFromBase64 p.nonce)
        (makeAad d.id.toList i (senderCount content sender)) (bufferFromBase64 p.ciphertext) := by
  rw [desktopOpened, h.key, h.id, h.count, JsonText.bufferFromBase64_base64, JsonText.unhex_hex,
    Option.getD_some]

theorem androidOpened_eq (h : Sent sha256 d content sender m) (i : Nat) (p : Part) :
    androidOpened a m i p =
      if m.chunkNonces[i]? ≠ some p.nonce then none
      else (decodeBase64 p.nonce).bind fun nonce => (decodeBase64 p.ciphertext).bind fun c =>
        a.decrypt d.key.toList nonce (makeAad d.id.toList i (senderCount content sender)) c := by
  rw [androidOpened, h.key, h.id, h.count, JsonText.decodeBase64_base64, chunkAad_hex]
  rfl

def clientOpened (a : Aead) (m : Manifest) : Client → Nat → Part → Option Bytes
  | .desktop => desktopOpened a m
  | .android => androidOpened a m

theorem opened_uploaded (ideal : a.Ideal log) (fresh : Fresh log d content sender)
    (h : Sent sha256 d content sender m) (hi : i < senderCount content sender)
    (receiver : Client) :
    clientOpened a m receiver i (uploadedPart d content a sender i) =
      some (senderChunk content sender i) := by
  have hsealed := decrypt_sealed ideal fresh hi
  have hnonce : ¬ m.chunkNonces[i]? ≠ some (uploadedPart d content a sender i).nonce :=
    fun hne => hne (h.nonce i hi)
  cases receiver with
  | desktop =>
    rw [clientOpened, desktopOpened_eq h, if_neg hnonce]
    simp only [uploadedPart, JsonText.bufferFromBase64_base64]
    exact hsealed
  | android =>
    rw [clientOpened, androidOpened_eq h, if_neg hnonce]
    simp only [uploadedPart, JsonText.decodeBase64_base64, Option.bind_some]
    exact hsealed

/-- Whatever is answered in a place, nothing but its chunk comes out. -/
theorem opened_only (ideal : a.Ideal log) (fresh : Fresh log d content sender)
    (hsize : content.length ≤ largest) (h : Sent sha256 d content sender m)
    (hi : i < senderCount content sender) (receiver : Client)
    (hopened : clientOpened a m receiver i p = some plain) :
    plain = senderChunk content sender i := by
  cases receiver with
  | desktop =>
    rw [clientOpened, desktopOpened_eq h] at hopened
    split at hopened
    · cases hopened
    · exact decrypt_only ideal fresh hsize hi hopened
  | android =>
    rw [clientOpened, androidOpened_eq h] at hopened
    split at hopened
    · cases hopened
    · obtain ⟨nonce, -, hopened⟩ := Option.bind_eq_some_iff.mp hopened
      obtain ⟨c, -, hopened⟩ := Option.bind_eq_some_iff.mp hopened
      exact decrypt_only ideal fresh hsize hi hopened

/-- The loop that has got to the `i`-th chunk holds the file up to there. -/
theorem fetchChunks_only
    (hopened : ∀ i < senderCount content sender, ∀ p plain, opened i p = some plain →
      plain = senderChunk content sender i)
    (n i : Nat) (hn : i + n = senderCount content sender)
    (h : fetchChunks opened fits responses n i (content.take (i * 65536)) = some bytes) :
    bytes = content := by
  induction n generalizing i with
  | zero =>
    have hend : i = senderCount content sender := by omega
    rw [fetchChunks, hend, take_senderCount] at h
    exact (Option.some.inj h).symm
  | succ n ih =>
    rw [fetchChunks] at h
    split at h
    · cases h
    · rename_i plain hplain
      obtain ⟨p, -, hp⟩ := Option.bind_eq_some_iff.mp hplain
      have hchunk := hopened i (by omega) p plain hp
      split at h
      · rw [hchunk, take_append_senderChunk] at h
        exact ih (i + 1) (by omega) h
      · cases h

theorem fetchChunks_all
    (hopened : ∀ i < senderCount content sender,
      (responses i).bind (opened i) = some (senderChunk content sender i))
    (hfits : ∀ output : Bytes, output.length ≤ content.length → fits output = true)
    (n i : Nat) (hn : i + n = senderCount content sender) :
    fetchChunks opened fits responses n i (content.take (i * 65536)) = some content := by
  induction n generalizing i with
  | zero =>
    have hend : i = senderCount content sender := by omega
    rw [fetchChunks, hend, take_senderCount]
  | succ n ih =>
    have hroom : fits (content.take ((i + 1) * 65536)) = true := by
      apply hfits
      rw [List.length_take]
      exact Nat.min_le_right _ _
    rw [fetchChunks, hopened i (by omega)]
    simp only [take_append_senderChunk, hroom, if_true]
    exact ih (i + 1) (by omega)

theorem intact_content (h : Sent sha256 d content sender m) : Intact sha256 m content = true := by
  rw [Intact, h.digest, h.size, JsonText.unhex_hex]
  simp only [beq_self_eq_true, Bool.and_self]

end Opening

/-! ## Exact transfer -/

section Exactness

variable {sha256 : Bytes → Vector UInt8 32} {a : Aead} {log : Sealing → Prop} {d : Drawn}
  {content bytes : Bytes} {sender receiver : Client} {m : Manifest} {messageId : List Char}
  {responses : Nat → Option Part} {deletion : Deletion} {l : Local}

/-- The row of the attachment has no local path and its download is noted. -/
def Waiting (l : Local) (id messageId : List Char) : Prop :=
  l.attachments.filter (·.attachmentId == id) = [⟨id, messageId, none⟩] ∧ id ∈ l.downloads

/-- The row has its path, where the bytes are, and no download is noted. -/
def Arrived (l : Local) (id messageId : List Char) (bytes : Bytes) : Prop :=
  l.attachments.filter (·.attachmentId == id) = [⟨id, messageId, some id⟩] ∧
    id ∉ l.downloads ∧ l.files.lookup id = some bytes

/-- The honest answers: those of the store, or what a Tor mode has fetched from it before. -/
def Honest (m : Manifest) (s : Store) (responses : Nat → Option Part) : Prop :=
  ∀ i < m.chunkCount, responses i = s.chunk m.blobId i ∨
    responses i = (s.chunk m.blobId i).bind (prefetched m i)

/-- Uploads and downloads of one file, from any store and with any answers. -/
structure Exact (sha256 : Bytes → Vector UInt8 32) (a : Aead) (d : Drawn) (content : Bytes)
    (sender receiver : Client) (m : Manifest) (messageId : List Char) (deletion : Deletion) :
    Prop where
  counts : m.chunkCount = desktopCount content.length ∧
    m.chunkCount = androidCount content.length ∧ m.chunkCount = checkedCount content.length ∧
    m.chunkCount = max 1 (ceilChunks content.length)
  additional : ∀ (id id' : Vector UInt8 16) (i j count count' : Nat), i < 4294967296 →
    j < 4294967296 → count < 4294967296 → count' < 4294967296 →
    makeAad id.toList i count = makeAad id'.toList j count' →
      id = id' ∧ i = j ∧ count = count'
  returned : ∀ (k : Storage) (s : Store), s.Unused m.blobId →
    ∃ s', uploadAll d content a sender k s = some s' ∧
      ∀ responses, Honest m s' responses → ∀ l, Waiting l m.attachmentId messageId →
        (download sha256 a receiver m messageId responses deletion l).1 = some content ∧
          Arrived (download sha256 a receiver m messageId responses deletion l).2
            m.attachmentId messageId content
  safe : ∀ responses l, Waiting l m.attachmentId messageId →
    download sha256 a receiver m messageId responses deletion l = (none, l) ∨
      (download sha256 a receiver m messageId responses deletion l).1 = some content ∧
        Arrived (download sha256 a receiver m messageId responses deletion l).2
          m.attachmentId messageId content

/-- On a desktop the name and the MIME type have to fit its schema, and the relay has to answer
the last request. -/
def Transferable (sender receiver : Client) (r : Request) (deletion : Deletion) : Prop :=
  receiver = .desktop → Fits sender r ∧ deletion ≠ .thrown

theorem waiting_changes {id : List Char} (h : Waiting l id messageId) :
    l.attachments.countP (fun row => row.attachmentId == id && row.messageId == messageId) = 1 := by
  have hand : (fun row : Row => row.attachmentId == id && row.messageId == messageId) =
      fun row => row.messageId == messageId && row.attachmentId == id := by
    funext row
    rw [Bool.and_comm]
  rw [hand, List.countP_eq_length_filter, ← List.filter_filter, h.1]
  simp only [List.filter_cons, beq_self_eq_true, if_true, List.filter_nil, List.length_singleton]

/-- What is written after the bytes are checked; both clients' conditions pick out the row. -/
theorem arrived_update {id : List Char} (h : Waiting l id messageId) {p : Row → Bool}
    (hp : p ⟨id, messageId, none⟩ = true) :
    Arrived (((l.cacheAttachment id bytes).update id p).deleteDownload id) id messageId bytes := by
  refine ⟨?_, ?_, ?_⟩
  · let placed (row : Row) : Row :=
      if p row then { row with encryptedLocalPath := some id } else row
    have hid : (fun row : Row => row.attachmentId == id) ∘ placed =
        fun row => row.attachmentId == id := by
      funext row
      simp only [Function.comp_apply, placed]
      split <;> rfl
    show (l.attachments.map placed).filter (fun row => row.attachmentId == id) = _
    rw [List.filter_map, hid, h.1, List.map_singleton]
    simp only [placed, hp, if_true]
  · show id ∉ l.downloads.filter (· != id)
    simp only [List.mem_filter, bne_self_eq_false, Bool.false_eq_true, and_false,
      not_false_eq_true]
  · exact List.lookup_cons_self

/-- What the fetched bytes lead to, once the manifest is accepted. -/
theorem downloadAndDecryptAttachment_fetched (h : Sent sha256 d content sender m)
    (hschema : attachmentManifestSchema m = true)
    (hfetch : fetchChunks (desktopOpened a m) (fun _ => true) responses m.chunkCount 0 [] =
      some content)
    (hl : Waiting l m.attachmentId messageId) (ok : Bool) :
    ∃ l', downloadAndDecryptAttachment sha256 a m messageId responses (.answered ok) l =
        (some content, l') ∧
      downloadAndDecryptAttachment sha256 a m messageId responses .thrown l = (none, l') ∧
      Arrived l' m.attachmentId messageId content := by
  have hchanges := waiting_changes hl
  refine ⟨_, ?_, ?_, arrived_update hl (p := fun row =>
    row.attachmentId == m.attachmentId && row.messageId == messageId) ?_⟩
  · simp only [downloadAndDecryptAttachment, hschema, hfetch, intact_content h, hchanges,
      Bool.not_true, Bool.false_eq_true, if_false, ne_eq, not_true_eq_false]
  · simp only [downloadAndDecryptAttachment, hschema, hfetch, intact_content h, hchanges,
      Bool.not_true, Bool.false_eq_true, if_false, ne_eq, not_true_eq_false]
  · simp only [beq_self_eq_true, Bool.and_self]

theorem downloadPending_fetched (h : Sent sha256 d content sender m)
    (hvalid : (validateManifest m).toBool = true)
    (hfetch : fetchChunks (androidOpened a m)
      (fun output => decide (output.length ≤ m.totalPlaintextSize)) responses m.chunkCount 0 [] =
        some content)
    (hl : Waiting l m.attachmentId messageId) :
    ∃ l', downloadPending sha256 a m responses l = (some content, l') ∧
      Arrived l' m.attachmentId messageId content := by
  refine ⟨_, ?_, arrived_update hl (p := fun row => row.attachmentId == m.attachmentId) ?_⟩
  · simp only [downloadPending, hvalid, hfetch, intact_content h, Bool.not_true,
      Bool.false_eq_true, if_false]
  · simp only [beq_self_eq_true]

def clientFits (m : Manifest) : Client → Bytes → Bool
  | .desktop => fun _ => true
  | .android => fun output => decide (output.length ≤ m.totalPlaintextSize)

/-- If the last request is answered, the fetched bytes decide. -/
theorem download_fetched (h : Sent sha256 d content sender m)
    (haccepts : accepts receiver m = true)
    (hanswered : receiver = .desktop → deletion ≠ .thrown)
    (hfetch : fetchChunks (clientOpened a m receiver) (clientFits m receiver) responses
      m.chunkCount 0 [] = some content)
    (hl : Waiting l m.attachmentId messageId) :
    (download sha256 a receiver m messageId responses deletion l).1 = some content ∧
      Arrived (download sha256 a receiver m messageId responses deletion l).2
        m.attachmentId messageId content := by
  cases receiver with
  | desktop =>
    cases deletion with
    | thrown => exact absurd rfl (hanswered rfl)
    | answered ok =>
      obtain ⟨l', hdone, -, harrived⟩ :=
        downloadAndDecryptAttachment_fetched h haccepts hfetch hl ok
      rw [download, hdone]
      exact ⟨rfl, harrived⟩
  | android =>
    obtain ⟨l', hdone, harrived⟩ := downloadPending_fetched h haccepts hfetch hl
    rw [download, hdone]
    exact ⟨rfl, harrived⟩

/-- Without all chunks nothing is changed. -/
theorem download_unfetched
    (hfetch : fetchChunks (clientOpened a m receiver) (clientFits m receiver) responses
      m.chunkCount 0 [] = none) :
    download sha256 a receiver m messageId responses deletion l = (none, l) := by
  cases receiver with
  | desktop =>
    have hf : fetchChunks (desktopOpened a m) (fun _ => true) responses m.chunkCount 0 [] = none :=
      hfetch
    simp only [download, downloadAndDecryptAttachment, hf, ite_self]
  | android =>
    have hf : fetchChunks (androidOpened a m)
        (fun output => decide (output.length ≤ m.totalPlaintextSize)) responses
        m.chunkCount 0 [] = none := hfetch
    simp only [download, downloadPending, hf, ite_self]

theorem fetched_only (ideal : a.Ideal log) (fresh : Fresh log d content sender)
    (hsize : content.length ≤ largest) (h : Sent sha256 d content sender m)
    (hfetch : fetchChunks (clientOpened a m receiver) (clientFits m receiver) responses
      m.chunkCount 0 [] = some bytes) :
    bytes = content := by
  have hstart : fetchChunks (clientOpened a m receiver) (clientFits m receiver) responses
      m.chunkCount 0 (content.take (0 * 65536)) = some bytes := by
    rw [Nat.zero_mul, List.take_zero]
    exact hfetch
  have hopened (i : Nat) (hi : i < senderCount content sender) (p : Part) (plain : Bytes)
      (hp : clientOpened a m receiver i p = some plain) : plain = senderChunk content sender i :=
    opened_only ideal fresh hsize h hi receiver hp
  exact fetchChunks_only hopened m.chunkCount 0 (by rw [h.count, Nat.zero_add]) hstart

/-- A part in Tor is what its peer has of it. -/
theorem prefetched_uploaded (ideal : a.Ideal log) (h : Sent sha256 d content sender m) {i : Nat}
    (hi : i < senderCount content sender) :
    prefetched m i (uploadedPart d content a sender i) =
      some (uploadedPart d content a sender i) := by
  have hsealed := ideal.length (chunkSealing d content sender i)
  have hchunk : (chunkSealing d content sender i).plaintext.length ≤ 65536 :=
    senderChunk_length content sender i
  have hnonce : m.chunkNonces[i]? = some (uploadedPart d content a sender i).nonce := h.nonce i hi
  have hlen : (bufferFromBase64 (uploadedPart d content a sender i).ciphertext).length ≤
      65552 := by
    simp only [uploadedPart, JsonText.bufferFromBase64_base64]
    omega
  rw [prefetched, if_pos ⟨hnonce, hlen⟩]

theorem honest_fetched (ideal : a.Ideal log) (fresh : Fresh log d content sender)
    (h : Sent sha256 d content sender m) {s : Store}
    (hs : ∀ i < senderCount content sender,
      s.chunk m.blobId i = some (uploadedPart d content a sender i))
    (hhonest : Honest m s responses) :
    fetchChunks (clientOpened a m receiver) (clientFits m receiver) responses m.chunkCount 0 [] =
      some content := by
  have hresponse (i : Nat) (hi : i < senderCount content sender) :
      responses i = some (uploadedPart d content a sender i) := by
    rcases hhonest i (h.count ▸ hi) with hr | hr
    · rw [hr, hs i hi]
    · rw [hr, hs i hi, Option.bind_some, prefetched_uploaded ideal h hi]
  have hopened (i : Nat) (hi : i < senderCount content sender) :
      (responses i).bind (clientOpened a m receiver i) = some (senderChunk content sender i) := by
    rw [hresponse i hi, Option.bind_some, opened_uploaded ideal fresh h hi receiver]
  have hfits (output : Bytes) (ho : output.length ≤ content.length) :
      clientFits m receiver output = true := by
    cases receiver with
    | desktop => rfl
    | android =>
      rw [clientFits, h.size, decide_eq_true_eq]
      exact ho
  have hall := fetchChunks_all hopened hfits m.chunkCount 0 (by rw [h.count, Nat.zero_add])
  rwa [Nat.zero_mul, List.take_zero] at hall

theorem upload_sent {answered : Nat → Bool} {r : Request}
    (h : upload sha256 d sender answered r = some m) :
    Sent sha256 d r.content sender (carried sender m) := by
  obtain ⟨-, hmade⟩ := upload_made h
  cases sender with
  | desktop =>
    obtain ⟨mimeType, -, rfl⟩ := hmade
    have hcount : (encryptAndUploadAttachment sha256 d r.content r.filename mimeType).chunkCount =
        senderCount r.content .desktop := by
      show (if _ then _ else _) = desktopCount _
      rw [desktopCount, mathCeil_eq]
    refine ⟨rfl, rfl, rfl, fun i hi => ?_, hcount, rfl, rfl⟩
    have hi' : i < if ceilChunks r.content.length = 0 then 1 else ceilChunks r.content.length := by
      rw [← hcount] at hi
      exact hi
    show ((List.range _).map _)[i]? = _
    rw [List.getElem?_map, List.getElem?_range hi', Option.map_some]
  | android =>
    rw [hmade]
    refine ⟨rfl, rfl, rfl, fun i hi => ?_, rfl, rfl, rfl⟩
    have hi' : i < max 1 (ceilChunks r.content.length) := hi
    show ((List.range _).map _)[i]? = _
    rw [List.getElem?_map, List.getElem?_range hi', Option.map_some]

theorem android_carried {answered : Nat → Bool} {r : Request}
    (h : upload sha256 d sender answered r = some m) :
    accepts .android (carried sender m) = true := by
  have hname := carried_name_length sender m
  refine (android_accepts (carried_wellMade (upload_wellMade h) sender)).mpr ?_
  rw [hname]
  obtain ⟨-, hmade⟩ := upload_made h
  cases sender with
  | desktop =>
    obtain ⟨mimeType, -, rfl⟩ := hmade
    exact sanitizeFilename_length r.filename
  | android =>
    rw [hmade]
    exact (android_name r.filename).2

theorem desktop_carried {answered : Nat → Bool} {r : Request}
    (h : upload sha256 d sender answered r = some m) :
    accepts .desktop (carried sender m) = true ↔ Fits sender r := by
  have hbounds := desktop_accepts (carried_wellMade (upload_wellMade h) sender)
  rw [carried_name_length, carried_mime_length] at hbounds
  exact hbounds.trans (bounds_iff_fits h)

theorem carried_accepts {answered : Nat → Bool} {r : Request}
    (h : upload sha256 d sender answered r = some m)
    (hfits : receiver = .desktop → Fits sender r) :
    accepts receiver (carried sender m) = true := by
  cases receiver with
  | desktop => exact (desktop_carried h).mpr (hfits rfl)
  | android => exact android_carried h

/-- The desktop that rejects the manifest asks for nothing. -/
theorem rejected_none (h : accepts .desktop m = false) :
    download sha256 a .desktop m messageId responses deletion l = (none, l) := by
  have hschema : attachmentManifestSchema m = false := h
  simp only [download, downloadAndDecryptAttachment, hschema, Bool.not_false, if_true]

/-- The desktop whose last request throws returns nothing, whatever it has written. -/
theorem thrown_none :
    (download sha256 a .desktop m messageId responses .thrown l).1 = none := by
  simp only [download, downloadAndDecryptAttachment]
  split
  · rfl
  · split
    · rfl
    · split
      · rfl
      · split <;> rfl

theorem exact_counts (h : Sent sha256 d content sender m) :
    m.chunkCount = desktopCount content.length ∧ m.chunkCount = androidCount content.length ∧
      m.chunkCount = checkedCount content.length ∧
      m.chunkCount = max 1 (ceilChunks content.length) := by
  rw [h.count, senderCount_eq, desktopCount_eq, androidCount_eq, checkedCount_eq]
  exact ⟨rfl, rfl, rfl, rfl⟩

/-- Some download of an exact transfer returns the file. -/
theorem exact_returns
    (h : Exact sha256 a d content sender receiver m messageId deletion) :
    ∃ responses l, (download sha256 a receiver m messageId responses deletion l).1 =
      some content := by
  obtain ⟨s', -, hreturned⟩ := h.returned .relay ⟨[], []⟩ ⟨rfl, fun _ => rfl⟩
  have hwaiting : Waiting ⟨[⟨m.attachmentId, messageId, none⟩], [m.attachmentId], []⟩
      m.attachmentId messageId := by
    refine ⟨?_, List.mem_singleton_self m.attachmentId⟩
    simp only [List.filter_cons, beq_self_eq_true, if_true, List.filter_nil]
  obtain ⟨hdone, -⟩ := hreturned (fun i => s'.chunk m.blobId i) (fun i _ => .inl rfl) _ hwaiting
  exact ⟨_, _, hdone⟩

/-- One honest download shows what the desktop asks for; the other direction is the cipher's. -/
theorem exact_iff_transferable {answered : Nat → Bool} {r : Request}
    (ideal : a.Ideal log) (fresh : Fresh log d r.content sender)
    (h : upload sha256 d sender answered r = some m) :
    Exact sha256 a d r.content sender receiver (carried sender m) messageId deletion ↔
      Transferable sender receiver r deletion := by
  have hsent := upload_sent h
  have hsize := (upload_made h).1
  constructor
  · rintro hexact rfl
    obtain ⟨responses, l, hdone⟩ := exact_returns hexact
    refine ⟨(desktop_carried h).mp ?_, ?_⟩
    · by_contra hrejected
      rw [rejected_none (Bool.not_eq_true _ ▸ hrejected)] at hdone
      cases hdone
    · rintro rfl
      rw [thrown_none] at hdone
      cases hdone
  · intro htransferable
    have haccepts := carried_accepts h fun hdesktop => (htransferable hdesktop).1
    have hanswered (hdesktop : receiver = .desktop) : deletion ≠ .thrown :=
      (htransferable hdesktop).2
    refine ⟨exact_counts hsent, ?_, ?_, ?_⟩
    · intro id id' i j count count' hi hj hc hc' heq
      have hlen : id.toList.length = id'.toList.length := by
        rw [Vector.length_toList, Vector.length_toList]
      obtain ⟨hid, hplace, hcount⟩ := makeAad_inj hlen hi hj hc hc' heq
      exact ⟨Vector.toList_inj.mp hid, hplace, hcount⟩
    · intro k s hs
      rw [hsent.blob] at hs
      obtain ⟨s', hrun, hin⟩ := uploadAll_stores ideal.length hsize k hs
      refine ⟨s', hrun, fun responses hhonest l hl => ?_⟩
      rw [← hsent.blob] at hin
      exact download_fetched hsent haccepts hanswered
        (honest_fetched ideal fresh hsent hin hhonest) hl
    · intro responses l hl
      cases hfetch : fetchChunks (clientOpened a (carried sender m) receiver)
          (clientFits (carried sender m) receiver) responses (carried sender m).chunkCount 0 [] with
      | none => exact .inl (download_unfetched hfetch)
      | some bytes =>
        have heq := fetched_only ideal fresh hsize hsent hfetch
        rw [heq] at hfetch
        exact .inr (download_fetched hsent haccepts hanswered hfetch hl)

end Exactness

/-! ## A cipher that remembers what was sealed -/

def sealer (log : List Sealing) : Aead where
  encrypt _ _ _ p := p ++ List.replicate 16 0
  decrypt key nonce aad c :=
    let p := c.take (c.length - 16)
    if ⟨key, nonce, aad, p⟩ ∈ log then some p else none

theorem sealer_ideal (log : List Sealing) : (sealer log).Ideal (· ∈ log) := by
  refine ⟨fun s hs => ?_, fun key nonce aad c p h => ?_, fun s => ?_⟩
  · have htake : ((sealer log).sealing s).take (((sealer log).sealing s).length - 16) =
        s.plaintext := by
      simp only [sealer, Aead.sealing, List.length_append, List.length_replicate,
        Nat.add_sub_cancel, List.take_left]
    simp only [sealer] at htake ⊢
    simp only [htake]
    exact if_pos hs
  · simp only [sealer] at h
    split at h
    · rename_i hmem
      rw [Option.some.inj h] at hmem
      exact hmem
    · cases h
  · simp only [sealer, Aead.sealing, List.length_append, List.length_replicate]

/-- What is sealed of a file that is one chunk. -/
def oneChunk (content : Bytes) : List Sealing := [chunkSealing drawn content .desktop 0]

theorem oneChunk_fresh {content : Bytes} (h : senderCount content .desktop = 1) :
    Fresh (· ∈ oneChunk content) drawn content .desktop := by
  intro s _
  show s ∈ oneChunk content ↔ _
  rw [h, oneChunk, List.mem_singleton]
  constructor
  · exact fun heq => ⟨0, Nat.one_pos, heq⟩
  · rintro ⟨i, hi, heq⟩
    obtain rfl : i = 0 := by omega
    exact heq

def noteManifest : Manifest :=
  encryptAndUploadAttachment digest drawn note.content note.filename (text "text/plain")

def unnamedManifest : Manifest :=
  encryptAndUploadAttachment digest drawn unnamed.content unnamed.filename (text "text/plain")

theorem note_exact :
    Exact digest (sealer (oneChunk note.content)) drawn note.content .desktop .desktop
      noteManifest [] (.answered false) := by
  have hupload : upload digest drawn .desktop (fun _ => true) note = some noteManifest := by
    decide +kernel
  refine (exact_iff_transferable (sealer_ideal (oneChunk note.content))
    (oneChunk_fresh (by decide)) hupload).mpr fun _ =>
      ⟨⟨fun _ => ⟨97, by decide, rfl⟩, ?_⟩, ?_⟩
  · intro mimeType hm
    rw [← Option.some.inj hm]
    decide
  · exact fun h => nomatch h

/-- A desktop that gets all chunks but no answer to its last request fails with the row written;
one that is sent a file without a name never gets it. -/
theorem transfers_not_exact :
    (upload digest drawn .desktop (fun _ => true) note = some noteManifest ∧
      download digest (sealer (oneChunk note.content)) .desktop noteManifest []
        (fun i =>
          some (uploadedPart drawn note.content (sealer (oneChunk note.content)) .desktop i))
        .thrown ⟨[⟨noteManifest.attachmentId, [], none⟩], [noteManifest.attachmentId], []⟩ =
          (none, ⟨[⟨noteManifest.attachmentId, [], some noteManifest.attachmentId⟩], [],
            [(noteManifest.attachmentId, note.content)]⟩) ∧
      ¬ Exact digest (sealer (oneChunk note.content)) drawn note.content .desktop .desktop
        noteManifest [] .thrown) ∧
    upload digest drawn .desktop (fun _ => true) unnamed = some unnamedManifest ∧
      ¬ Exact digest (sealer (oneChunk unnamed.content)) drawn unnamed.content .desktop .desktop
        unnamedManifest [] (.answered true) := by
  refine ⟨⟨by decide +kernel, by decide +kernel, fun hexact => ?_⟩, by decide +kernel,
    fun hexact => ?_⟩
  · obtain ⟨responses, l, hdone⟩ := exact_returns hexact
    rw [thrown_none] at hdone
    cases hdone
  · obtain ⟨responses, l, hdone⟩ := exact_returns hexact
    have hrejected : accepts .desktop unnamedManifest = false := by decide +kernel
    rw [rejected_none hrejected] at hdone
    cases hdone

end AttachmentTransfer
