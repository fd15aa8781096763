import CryptoPigeon.SevenOfSeven

/-! # Exported storage and its import

`exportStorage` writes one file with the snapshot of a vault, sealed under a key that needs the
seventh share. The importing program selects the file, opens it with the vault id, the password
and the seventh share, and shares the key of the vault anew around that share. A JSON text is
taken as the value it writes, with the characters it fills. -/
namespace StorageExport

open SevenOfSeven JsonText

section State

/-- The file that `attachmentPath` names below the root of a vault. -/
structure Path where
  root : Text
  id : Text
  deriving DecidableEq, Repr

/-- A row of `attachments`. -/
structure Row where
  id : Text
  encryptedLocalPath : Option Path
  deriving DecidableEq, Repr

structure Tables (R : Type) where
  attachments : List Row
  rest : R

/-- `/^[a-f0-9]{32}$/` -/
def isAttachmentName (t : Text) : Bool :=
  t.length == 32 && t.all fun c => ('a' ≤ c && c ≤ 'f') || ('0' ≤ c && c ≤ '9')

/-- `deriveVaultKeys` of a vault id and a password. -/
structure VaultKeys where
  kek : Bytes
  fragments : Keys

/-- An unlocked vault with its directory `attachments`. Paths are those of `attachmentPath`, which
takes only names that it exports. -/
structure Vault (R : Type) where
  keys : VaultKeys
  vmk : Bytes
  hkdfSalt : Bytes
  seventh : Block
  tables : Tables R
  directory : List (Text × Bytes)
  vmk_length : vmk.length = 32
  hkdfSalt_length : hkdfSalt.length = 16
  ids_nodup : (tables.attachments.map Row.id).Nodup
  ids_named : ∀ r ∈ tables.attachments, r.encryptedLocalPath.isSome → isAttachmentName r.id
  directory_nodup : (directory.map Prod.fst).Nodup

variable {R : Type}

/-- `shard7File` -/
def Vault.capsule (v : Vault R) : Sealed :=
  sealAs v.seventh.bytes v.keys.fragments.backup "cp-shard7-v1"

def seventh (capsule : Sealed) (keys : VaultKeys) : Except String Bytes :=
  match unsealAs keys.fragments.backup "cp-shard7-v1" capsule with
  | none => .error "invalid_ciphertext"
  | some share => if share.length ≠ 48 then .error "INVALID_SHARD7_FILE" else .ok share

/-- The files of the directory that are exported. -/
def Vault.files (v : Vault R) : List (Text × Bytes) := v.directory.filter fun f => isAttachmentName f.1

/-- The rows that name a file. -/
def cachedIds (t : Tables R) : List Text :=
  (t.attachments.filter fun r => r.encryptedLocalPath.isSome).map Row.id

end State

section Snapshots

structure Snapshot where
  vmk : Text
  hkdfSalt : Text
  database : Text
  files : List (Text × Text)
  deriving DecidableEq, Repr

def vmkKey : Text := "\x7b\"format\":1,\"vmk\":\"".toList
def hkdfSaltKey : Text := "\",\"hkdfSalt\":\"".toList
def databaseKey : Text := "\",\"database\":\"".toList
def filesKey : Text := "\",\"files\":\x7b".toList
def closingBraces : Text := "\x7d\x7d".toList

/-- A member of `files`. -/
def memberJson (f : Text × Text) : Text := '"' :: f.1 ++ ['"', ':', '"'] ++ f.2 ++ ['"']

def Snapshot.json (s : Snapshot) : Text :=
  vmkKey ++ s.vmk ++ hkdfSaltKey ++ s.hkdfSalt ++ databaseKey ++ s.database ++ filesKey ++
    [','].intercalate (s.files.map memberJson) ++ closingBraces

structure Decoded where
  vmk : Bytes
  hkdfSalt : Bytes
  database : Bytes
  files : List (Text × Bytes)
  deriving DecidableEq, Repr

/-- `snapshotSchema.parse` and the checks of `importStorage` after it. -/
def parseSnapshot (s : Snapshot) : Except String Decoded :=
  if s.vmk.length ≠ 44 ∨ s.hkdfSalt.length ≠ 24 ∨ 256 * 1024 * 1024 < s.database.length then
    .error "INVALID_REQUEST"
  else if (bufferFromBase64 s.vmk).length ≠ 32 ∨ (bufferFromBase64 s.hkdfSalt).length ≠ 16 then
    .error "INVALID_STORAGE_FILE"
  else if s.files.any fun f => !isAttachmentName f.1 then .error "invalid_snapshot_path"
  else .ok ⟨bufferFromBase64 s.vmk, bufferFromBase64 s.hkdfSalt, bufferFromBase64 s.database,
    s.files.map fun f => (f.1, bufferFromBase64 f.2)⟩

def MAX_FILES : Nat := 10000

/-- `SnapshotCodec.decode` of a text with each field once. -/
def decodeSnapshot (s : Snapshot) : Except String Decoded :=
  if 44 < s.vmk.length ∨ 24 < s.hkdfSalt.length then .error "snapshot_metadata_too_large"
  else
    match decodeBase64 s.vmk, decodeBase64 s.hkdfSalt, decodeBase64 s.database,
      s.files.mapM fun f => (decodeBase64 f.2).map fun b => (f.1, b) with
    | some vmk, some hkdfSalt, some database, some files =>
      if vmk.length ≠ 32 then .error "invalid_snapshot_key"
      else if hkdfSalt.length ≠ 16 then .error "invalid_snapshot_salt"
      else if (s.files.any fun f => !isAttachmentName f.1) ∨ ¬ (s.files.map Prod.fst).Nodup ∨
          MAX_FILES < s.files.length then .error "invalid_snapshot_path"
      else .ok ⟨vmk, hkdfSalt, database, files⟩
    | _, _, _, _ => .error "invalid_snapshot_base64"

end Snapshots

section Runtime

/-- The libraries: SHA-256 and HKDF, AES-GCM, gzip and SQLCipher. `storageKey` is the HKDF of the
backup key and the digest of the seventh share. -/
structure Runtime (R : Type) where
  crypto : Crypto
  storageKey : Bytes → Bytes → Bytes
  encrypt : Bytes → Bytes → String → Bytes → Bytes
  decrypt : Bytes → Bytes → String → Bytes → Option Bytes
  gzip : Snapshot → Bytes
  gunzip : Nat → Bytes → Option Snapshot
  image : Bytes → Bytes → Tables R → Bytes
  openDb : Bytes → Bytes → Bytes → Option (Tables R)

/-- What they are relied on for: what was written is read again, a tag has 16 bytes, and
decompression stops at its limit. -/
structure Runtime.Lawful {R : Type} (rt : Runtime R) : Prop where
  decrypt_encrypt : ∀ key nonce context plain, nonce.length = 12 →
    rt.decrypt key nonce context (rt.encrypt key nonce context plain) = some plain
  encrypt_length : ∀ key nonce context plain,
    (rt.encrypt key nonce context plain).length = plain.length + 16
  gunzip_gzip : ∀ limit s,
    rt.gunzip limit (rt.gzip s) = if s.json.length ≤ limit then some s else none
  openDb_image : ∀ vmk salt t, rt.openDb vmk salt (rt.image vmk salt t) = some t

end Runtime

section Files

def STORAGE_HEADER : String := "CPVAULT1\n"

/-- A storage file: its header and the two texts of its JSON value. Android writes each slash of
them with a backslash. -/
structure StorageFile where
  header : String
  nonce : Text
  ciphertext : Text
  escapesSlash : Bool
  deriving DecidableEq, Repr

def quoted (escapesSlash : Bool) (t : Text) : Text :=
  '"' :: (t.flatMap fun c => if escapesSlash && c == '/' then ['\\', '/'] else [c]) ++ ['"']

def StorageFile.text (f : StorageFile) : Text :=
  f.header.toList ++ "\x7b\"nonce\":".toList ++ quoted f.escapesSlash f.nonce ++
    ",\"ciphertext\":".toList ++ quoted f.escapesSlash f.ciphertext ++ "\x7d".toList

def StorageFile.length (f : StorageFile) : Nat := f.text.length

/-- `fileEnvelope`, for a file that is longer than its header. -/
def fileEnvelope (file : StorageFile) (header : String) (limit : Nat) : Except String StorageFile :=
  if limit < file.length ∨ file.header ≠ header then .error "INVALID_SOVEREIGN_FILE" else .ok file

def MAX_STORAGE : Nat := 64 * 1024 * 1024

variable {R : Type} (rt : Runtime R)

def encodeStorage (escapesSlash : Bool) (compressed : Bytes) (capsule : Sealed) (keys : VaultKeys)
    (nonce : Bytes) : Except String StorageFile := do
  let share ← seventh capsule keys
  let key := rt.storageKey keys.fragments.backup (rt.crypto.sha256 share)
  .ok ⟨STORAGE_HEADER, base64 nonce, base64 (rt.encrypt key nonce "cp-app-storage-v1" compressed),
    escapesSlash⟩

def decodeStorage (file : StorageFile) (capsule : Sealed) (keys : VaultKeys) :
    Except String Bytes := do
  let share ← seventh capsule keys
  let key := rt.storageKey keys.fragments.backup (rt.crypto.sha256 share)
  let sealedFile ← fileEnvelope file STORAGE_HEADER MAX_STORAGE
  let nonce := bufferFromBase64 sealedFile.nonce
  let ciphertext := bufferFromBase64 sealedFile.ciphertext
  if nonce.length ≠ 12 ∨ base64 nonce ≠ sealedFile.nonce ∨ ciphertext.length < 16 ∨
      base64 ciphertext ≠ sealedFile.ciphertext then .error "INVALID_SOVEREIGN_FILE"
  else
    match rt.decrypt key nonce "cp-app-storage-v1" ciphertext with
    | none => .error "invalid_ciphertext"
    | some compressed => .ok compressed

end Files

section Platforms

/-- What the two programs do differently; a limit that a program does not have is `none`. -/
structure Platform where
  fragments : Fragments
  emptyStore : fragments.Store
  escapesSlash : Bool
  maxPlaintext : Nat
  maxCompressed : Option Nat
  maxFiles : Option Nat
  maxText : Option Nat
  bodyLimit : Nat
  payloadLimit : Option Nat
  selectLimit : Nat
  decode : Snapshot → Except String Decoded
  checksName : Bool

/-- The longest string of the runtime, `buffer.constants.MAX_STRING_LENGTH`. -/
def MAX_STRING_LENGTH : Nat := 536870888

def desktopApp (c : Crypto) : Platform where
  fragments := desktop c
  emptyStore := (⟨none, none, none, none, none, none⟩ : HorcruxStore)
  escapesSlash := false
  maxPlaintext := MAX_STRING_LENGTH
  maxCompressed := none
  maxFiles := none
  maxText := some MAX_STRING_LENGTH
  bodyLimit := 25 * 1024 * 1024
  payloadLimit := some (24 * 1024 * 1024)
  selectLimit := 18 * 1024 * 1024
  decode := parseSnapshot
  checksName := false

def androidApp (c : Crypto) : Platform where
  fragments := android c
  emptyStore := (⟨"", [], none, none, none, none, none, none, none⟩ : NativeFragments)
  escapesSlash := true
  maxPlaintext := 256 * 1024 * 1024
  maxCompressed := some (64 * 1024 * 1024 - 16)
  maxFiles := some MAX_FILES
  maxText := none
  bodyLimit := 36 * 1024 * 1024
  payloadLimit := none
  selectLimit := MAX_STORAGE
  decode := decodeSnapshot
  checksName := true

def exceeds (n : Nat) (limit : Option Nat) : Bool := limit.any fun l => l < n

variable {R : Type} (rt : Runtime R) (P : Platform)

def snapshot (v : Vault R) : Snapshot where
  vmk := base64 v.vmk
  hkdfSalt := base64 v.hkdfSalt
  database := base64 (rt.image v.vmk v.hkdfSalt v.tables)
  files := v.files.map fun f => (f.1, base64 f.2)

def Platform.exportStorage (v : Vault R) (nonce : Bytes) : Except String StorageFile := do
  let s := snapshot rt v
  if exceeds s.files.length P.maxFiles then .error "too_many_backup_files"
  else if P.maxPlaintext < s.json.length ∨ exceeds (rt.gzip s).length P.maxCompressed then
    .error "backup_too_large"
  else
    let file ← encodeStorage rt P.escapesSlash (rt.gzip s) v.capsule v.keys nonce
    if exceeds file.length P.maxText then .error "Invalid string length" else .ok file

/-- The body of `/api/vault/storage/import`, with the base64 text of a file. -/
structure Request where
  storagePayload : StorageFile
  storageDocumentUri : Option Text

def payloadLength (file : StorageFile) : Nat := (file.length + 2) / 3 * 4

def Request.length (r : Request) : Nat :=
  21 + payloadLength r.storagePayload +
    match r.storageDocumentUri with
    | none => 0
    | some uri => 24 + uri.length

def Platform.select (r : Request) : Except String StorageFile :=
  if P.bodyLimit < r.length then .error "BODY_TOO_LARGE"
  else if exceeds (payloadLength r.storagePayload) P.payloadLimit then .error "INVALID_REQUEST"
  else fileEnvelope r.storagePayload STORAGE_HEADER P.selectLimit

/-- `UPDATE attachments SET encrypted_local_path=? WHERE attachment_id=?` -/
def updatePath (root id : Text) (rows : List Row) : List Row :=
  rows.map fun r => if r.id = id then { r with encryptedLocalPath := some ⟨root, id⟩ } else r

/-- The loop over the rows that name a file; `names` are the files that were imported. -/
def relocateAttachments (checksName : Bool) (root : Text) (names ids : List Text)
    (rows : List Row) : Except String (List Row) :=
  match ids with
  | [] => .ok rows
  | id :: rest =>
    if checksName && !isAttachmentName id then .error "invalid_snapshot_path"
    else if id ∉ names then .error "BACKUP_ATTACHMENT_MISSING"
    else relocateAttachments checksName root names rest (updatePath root id rows)

/-- A locked vault: its fragments, its configuration and its files. -/
structure Stored (P : Platform) where
  fragments : P.fragments.Store
  vmkNonce : Bytes
  hkdfSalt : Bytes
  hashes : List Text
  database : Bytes
  attachments : List (Text × Bytes)

structure Opened (R : Type) where
  vmk : Bytes
  tables : Tables R
  attachments : List (Text × Bytes)

/-- `unlockSecure` and `NativeVault.open` with an external seventh share. -/
def Platform.unlock (stored : Stored P) (keys : VaultKeys) (clientShard : Option Text)
    (capsule : Sealed) : Except String (Opened R) := do
  let share ← seventh capsule keys
  if some (hex (rt.crypto.sha256 share)) ≠ stored.hashes[6]? then .error "SHARD7_FILE_MISMATCH"
  else
    let wrapped ← (P.fragments.collect keys.fragments clientShard (some capsule) stored.hashes
      stored.fragments).2
    match rt.decrypt keys.kek stored.vmkNonce "vmk-wrap-v1" wrapped with
    | none => .error "invalid_ciphertext"
    | some vmk =>
      match rt.openDb vmk stored.hkdfSalt stored.database with
      | none => .error "file is not a database"
      | some tables => .ok ⟨vmk, tables, stored.attachments⟩

def Platform.importStorage (file : StorageFile) (keys : VaultKeys) (capsule : Sealed) (root : Text)
    (random : Random) (nonce : Bytes) : Except String (Stored P × Text) := do
  let compressed ← decodeStorage rt file capsule keys
  match rt.gunzip (256 * 1024 * 1024) compressed with
  | none => .error "snapshot_too_large"
  | some s =>
    let snapshot ← P.decode s
    let share ← seventh capsule keys
    let (fragments, split) ← P.fragments.scatter keys.fragments random
      (rt.encrypt keys.kek nonce "vmk-wrap-v1" snapshot.vmk) (some share) P.emptyStore
    match rt.openDb snapshot.vmk snapshot.hkdfSalt snapshot.database with
    | none => .error "file is not a database"
    | some tables =>
      let rows ← relocateAttachments P.checksName root (snapshot.files.map Prod.fst)
        (cachedIds tables) tables.attachments
      let stored : Stored P :=
        { fragments
          vmkNonce := nonce
          hkdfSalt := snapshot.hkdfSalt
          hashes := split.hashes
          database := rt.image snapshot.vmk snapshot.hkdfSalt { tables with attachments := rows }
          attachments := snapshot.files }
      -- the import ends by opening what it wrote
      let _ ← P.unlock rt stored keys (some split.clientShard) capsule
      .ok (stored, split.clientShard)

end Platforms

section Reading

variable {R : Type} {rt : Runtime R} {v : Vault R}

theorem seventh_capsule (v : Vault R) : seventh v.capsule v.keys = .ok v.seventh.bytes := by
  simp [seventh, Vault.capsule, unsealAs_sealAs, v.seventh.length_eq]

/-- The file of a vault, before its size is looked at. -/
def sealedStorage (rt : Runtime R) (P : Platform) (v : Vault R) (nonce : Bytes) : StorageFile :=
  let key := rt.storageKey v.keys.fragments.backup (rt.crypto.sha256 v.seventh.bytes)
  ⟨STORAGE_HEADER, base64 nonce,
    base64 (rt.encrypt key nonce "cp-app-storage-v1" (rt.gzip (snapshot rt v))), P.escapesSlash⟩

theorem file_of_export {P : Platform} {nonce : Bytes} {file : StorageFile}
    (h : P.exportStorage rt v nonce = .ok file) : file = sealedStorage rt P v nonce := by
  simp only [Platform.exportStorage, encodeStorage, seventh_capsule, bind, Except.bind] at h
  split_ifs at h
  exact (Except.ok.inj h).symm

/-- What was sealed is unsealed, if the reader takes a file of that length. -/
theorem decodeStorage_sealed (h : rt.Lawful) (P : Platform) {nonce : Bytes}
    (hn : nonce.length = 12) :
    decodeStorage rt (sealedStorage rt P v nonce) v.capsule v.keys =
      if MAX_STORAGE < (sealedStorage rt P v nonce).length then .error "INVALID_SOVEREIGN_FILE"
      else .ok (rt.gzip (snapshot rt v)) := by
  have hheader : (sealedStorage rt P v nonce).header = STORAGE_HEADER := rfl
  have hnonce : (sealedStorage rt P v nonce).nonce = base64 nonce := rfl
  have hciphertext : (sealedStorage rt P v nonce).ciphertext = base64 (rt.encrypt
    (rt.storageKey v.keys.fragments.backup (rt.crypto.sha256 v.seventh.bytes)) nonce
    "cp-app-storage-v1" (rt.gzip (snapshot rt v))) := rfl
  simp only [decodeStorage, seventh_capsule, bind, Except.bind, fileEnvelope]
  by_cases hlong : MAX_STORAGE < (sealedStorage rt P v nonce).length
  · simp [hlong]
  · simp [hlong, hheader, hnonce, hciphertext, bufferFromBase64_base64, hn, h.encrypt_length,
      h.decrypt_encrypt]

theorem base64_vmk (v : Vault R) : (base64 v.vmk).length = 44 := by
  rw [base64_length, v.vmk_length]

theorem base64_salt (v : Vault R) : (base64 v.hkdfSalt).length = 24 := by
  rw [base64_length, v.hkdfSalt_length]

theorem files_named (v : Vault R) :
    ((snapshot rt v).files.any fun f => !isAttachmentName f.1) = false := by
  rw [List.any_eq_false]
  intro f hf
  obtain ⟨g, hg, rfl⟩ := List.mem_map.mp hf
  simp [(List.mem_filter.mp hg).2]

theorem database_le_json (s : Snapshot) : s.database.length ≤ s.json.length := by
  have within : s.database.Sublist s.json := by
    unfold Snapshot.json
    refine List.Sublist.trans ?_ (List.sublist_append_left _ _)
    refine List.Sublist.trans ?_ (List.sublist_append_left _ _)
    refine List.Sublist.trans ?_ (List.sublist_append_left _ _)
    exact List.sublist_append_right _ _
  exact within.length_le

theorem parse_snapshot (hjson : (snapshot rt v).json.length ≤ 256 * 1024 * 1024) :
    parseSnapshot (snapshot rt v) =
      .ok ⟨v.vmk, v.hkdfSalt, rt.image v.vmk v.hkdfSalt v.tables, v.files⟩ := by
  have hdb := database_le_json (snapshot rt v)
  have sizes : ¬ ((snapshot rt v).vmk.length ≠ 44 ∨ (snapshot rt v).hkdfSalt.length ≠ 24 ∨
      256 * 1024 * 1024 < (snapshot rt v).database.length) := by
    rintro (hv | hs | hd)
    · exact hv (base64_vmk v)
    · exact hs (base64_salt v)
    · omega
  have decoded : ¬ ((bufferFromBase64 (snapshot rt v).vmk).length ≠ 32 ∨
      (bufferFromBase64 (snapshot rt v).hkdfSalt).length ≠ 16) := by
    simp [snapshot, bufferFromBase64_base64, v.vmk_length, v.hkdfSalt_length]
  rw [parseSnapshot, if_neg sizes, if_neg decoded, files_named, if_neg (by simp)]
  simp [snapshot, bufferFromBase64_base64, Function.comp_def]

theorem decode_files (l : List (Text × Bytes)) :
    (l.map fun f => (f.1, base64 f.2)).mapM
      (fun f => (decodeBase64 f.2).map fun b => (f.1, b)) = some l := by
  induction l with
  | nil => rfl
  | cons f l ih => simp [decodeBase64_base64, ih]

theorem decode_snapshot (rt : Runtime R) (v : Vault R) : decodeSnapshot (snapshot rt v) =
    if MAX_FILES < v.files.length then .error "invalid_snapshot_path"
    else .ok ⟨v.vmk, v.hkdfSalt, rt.image v.vmk v.hkdfSalt v.tables, v.files⟩ := by
  have sizes : ¬ (44 < (snapshot rt v).vmk.length ∨ 24 < (snapshot rt v).hkdfSalt.length) := by
    simp [snapshot, base64_vmk, base64_salt]
  have names : ((snapshot rt v).files.map Prod.fst).Nodup := by
    have : (snapshot rt v).files.map Prod.fst = v.files.map Prod.fst := by
      simp [snapshot, Function.comp_def]
    rw [this]
    exact v.directory_nodup.sublist (List.filter_sublist.map _)
  have count : (snapshot rt v).files.length = v.files.length := by simp [snapshot]
  have hv : decodeBase64 (snapshot rt v).vmk = some v.vmk := decodeBase64_base64 _
  have hs : decodeBase64 (snapshot rt v).hkdfSalt = some v.hkdfSalt := decodeBase64_base64 _
  have hd : decodeBase64 (snapshot rt v).database =
      some (rt.image v.vmk v.hkdfSalt v.tables) := decodeBase64_base64 _
  have hf : (snapshot rt v).files.mapM (fun f => (decodeBase64 f.2).map fun b => (f.1, b)) =
      some v.files := decode_files v.files
  rw [decodeSnapshot, if_neg sizes, hv, hs, hd, hf]
  simp [v.vmk_length, v.hkdfSalt_length, files_named, names, count]

/-- Both programs read the snapshot that was written. -/
theorem decode_app {c : Crypto} {P : Platform} (hP : P = desktopApp c ∨ P = androidApp c)
    (hjson : (snapshot rt v).json.length ≤ 256 * 1024 * 1024) :
    if exceeds v.files.length P.maxFiles then ∃ e, P.decode (snapshot rt v) = .error e
    else P.decode (snapshot rt v) =
      .ok ⟨v.vmk, v.hkdfSalt, rt.image v.vmk v.hkdfSalt v.tables, v.files⟩ := by
  rcases hP with rfl | rfl
  · simpa [desktopApp, exceeds] using parse_snapshot hjson
  · have := decode_snapshot rt v
    by_cases hmany : MAX_FILES < v.files.length
    · simp [androidApp, exceeds, hmany, this]
    · simp [androidApp, exceeds, hmany, this]

end Reading

section Relocation

/-- The loop fails at the first file that is missing and else moves the paths it was given. -/
theorem relocate_eq {checksName : Bool} {root : Text} {names ids : List Text} {rows : List Row}
    (hnamed : ∀ id ∈ ids, isAttachmentName id) :
    relocateAttachments checksName root names ids rows =
      if ∀ id ∈ ids, id ∈ names then
        .ok (rows.map fun r =>
          if r.id ∈ ids then { r with encryptedLocalPath := some ⟨root, r.id⟩ } else r)
      else .error "BACKUP_ATTACHMENT_MISSING" := by
  induction ids generalizing rows with
  | nil => simp [relocateAttachments]
  | cons id rest ih =>
    have hname : (checksName && !isAttachmentName id) = false := by
      simp [hnamed id List.mem_cons_self]
    rw [relocateAttachments, hname, if_neg (by simp)]
    by_cases hid : id ∈ names
    · rw [if_neg (by simpa using hid), ih fun i hi => hnamed i (List.mem_cons_of_mem _ hi)]
      have hall : (∀ i ∈ id :: rest, i ∈ names) ↔ ∀ i ∈ rest, i ∈ names := by simp [hid]
      by_cases hrest : ∀ i ∈ rest, i ∈ names
      · rw [if_pos hrest, if_pos (hall.mpr hrest), updatePath, List.map_map]
        congr 1
        refine List.map_congr_left fun r _ => ?_
        by_cases h : r.id = id
        · by_cases h' : id ∈ rest <;> simp [h, h']
        · by_cases h' : r.id ∈ rest <;> simp [h, h']
      · rw [if_neg hrest, if_neg fun h => hrest (hall.mp h)]
    · rw [if_pos hid, if_neg fun h => hid (h id List.mem_cons_self)]

/-- The tables with the files below another root. -/
def moved {R : Type} (root : Text) (t : Tables R) : Tables R :=
  { t with
    attachments := t.attachments.map fun r =>
      { r with encryptedLocalPath := r.encryptedLocalPath.map fun _ => ⟨root, r.id⟩ } }

theorem mem_cachedIds {R : Type} {v : Vault R} {r : Row} (hr : r ∈ v.tables.attachments) :
    r.id ∈ cachedIds v.tables ↔ r.encryptedLocalPath.isSome := by
  constructor
  · intro h
    obtain ⟨r', hr', hid⟩ := List.mem_map.mp h
    have hmem := List.mem_filter.mp hr'
    rw [← List.inj_on_of_nodup_map v.ids_nodup hmem.1 hr hid]
    exact hmem.2
  · intro h
    exact List.mem_map.mpr ⟨r, List.mem_filter.mpr ⟨hr, h⟩, rfl⟩

theorem cachedIds_named {R : Type} (v : Vault R) :
    ∀ id ∈ cachedIds v.tables, isAttachmentName id := by
  intro id hid
  obtain ⟨r, hr, rfl⟩ := List.mem_map.mp hid
  exact v.ids_named r (List.mem_filter.mp hr).1 (List.mem_filter.mp hr).2

theorem moved_attachments {R : Type} (v : Vault R) (root : Text) :
    (v.tables.attachments.map fun r => if r.id ∈ cachedIds v.tables then
      { r with encryptedLocalPath := some ⟨root, r.id⟩ } else r) =
        (moved root v.tables).attachments := by
  refine List.map_congr_left fun r hr => ?_
  by_cases hid : r.id ∈ cachedIds v.tables
  · obtain ⟨path, hpath⟩ := Option.isSome_iff_exists.mp ((mem_cachedIds hr).mp hid)
    simp [hid, hpath]
  · have hnone : r.encryptedLocalPath = none := by
      simpa using fun h => hid ((mem_cachedIds hr).mpr h)
    rw [if_neg hid]
    cases r
    simp_all

end Relocation

section Sharing

variable {c : Crypto} {P : Platform} {wrapped : Bytes}

/-- What both programs recover from a scattered key and the sealed seventh share. -/
def Recovers (c : Crypto) (P : Platform) (keys : Keys) (random : Random) (wrapped : Bytes)
    (share : Block) : Prop :=
  ∃ store out, P.fragments.scatter keys random wrapped (some share.bytes) P.emptyStore =
      .ok (store, out) ∧
    out.hashes[6]? = some (hex (c.sha256 share.bytes)) ∧
    (P.fragments.collect keys (some out.clientShard)
      (some (sealAs share.bytes keys.backup "cp-shard7-v1")) out.hashes store).2 = .ok wrapped

theorem recovers (keys : Keys) (random : Random) (hP : P = desktopApp c ∨ P = androidApp c) (hw : wrapped.length = 48)
    (share : Block) : Recovers c P keys random wrapped share := by
  have h7 := dealt_length ⟨wrapped, hw⟩ (some share) random
  have hdeal := deal_eq ⟨wrapped, hw⟩ (some share) random
  have hsum := sum_dealt ⟨wrapped, hw⟩ (some share) random
  have hseventh : ((dealt ⟨wrapped, hw⟩ (some share) random).map Block.bytes).getD 6 [] =
      share.bytes := rfl
  have hdigest : ((dealt ⟨wrapped, hw⟩ (some share) random).map Block.bytes |>.map
      (shardDigest c))[6]? = some (hex (c.sha256 share.bytes)) := rfl
  rcases hP with rfl | rfl
  · obtain ⟨store, out, hscatter, hhashes, hout, hreads⟩ :=
      desktop_scatter (c := c) (k := keys) (d := (desktopApp c).emptyStore) h7 hdeal
    rw [hout, hseventh] at hreads
    have hcollect := desktop_collect h7 hreads
    rw [hsum] at hcollect
    exact ⟨store, out, hscatter, hhashes ▸ hdigest, hhashes ▸ hcollect⟩
  · have hdeal' : (android c).deal random wrapped (some share.bytes) =
        .ok ((dealt ⟨wrapped, hw⟩ (some share) random).map Block.bytes) := by
      simp only [android, split_eq]
      exact hdeal
    obtain ⟨store, out, hscatter, hhashes, hout, hreads⟩ :=
      android_scatter (c := c) (k := keys) (n := (androidApp c).emptyStore) h7 hdeal'
    rw [hout, hseventh] at hreads
    have hcollect := android_collect h7 hreads
    rw [hsum] at hcollect
    exact ⟨store, out, hscatter, hhashes ▸ hdigest, hhashes ▸ hcollect⟩

end Sharing

section Import

variable {R : Type} {rt : Runtime R} {v : Vault R} {P Q : Platform} {nonce : Bytes}

/-- The file is selected, imported and opened with the client share that the import returns; the
master key, the tables and the attachments are those of the vault. -/
def Imports (rt : Runtime R) (Q : Platform) (v : Vault R) (request : Request) (root : Text)
    (random : Random) (nonce : Bytes) : Prop :=
  ∃ file stored client, Q.select request = .ok file ∧
    Q.importStorage rt file v.keys v.capsule root random nonce = .ok (stored, client) ∧
    Q.unlock rt stored v.keys (some client) v.capsule = .ok ⟨v.vmk, moved root v.tables, v.files⟩

/-- The sealed snapshot is within the limits of the importing program, and every row that names a
file has it. -/
def Fits (rt : Runtime R) (P Q : Platform) (v : Vault R) (nonce : Bytes) (uri : Option Text) :
    Prop :=
  (Request.mk (sealedStorage rt P v nonce) uri).length ≤ Q.bodyLimit ∧
    exceeds (payloadLength (sealedStorage rt P v nonce)) Q.payloadLimit = false ∧
    (sealedStorage rt P v nonce).length ≤ Q.selectLimit ∧
    (snapshot rt v).json.length ≤ 256 * 1024 * 1024 ∧
    exceeds v.files.length Q.maxFiles = false ∧
    ∀ id ∈ cachedIds v.tables, id ∈ v.directory.map Prod.fst

theorem select_iff {uri : Option Text} {file : StorageFile} :
    Q.select ⟨sealedStorage rt P v nonce, uri⟩ = .ok file ↔
      file = sealedStorage rt P v nonce ∧
        (Request.mk (sealedStorage rt P v nonce) uri).length ≤ Q.bodyLimit ∧
        exceeds (payloadLength (sealedStorage rt P v nonce)) Q.payloadLimit = false ∧
        (sealedStorage rt P v nonce).length ≤ Q.selectLimit := by
  have hheader : (sealedStorage rt P v nonce).header = STORAGE_HEADER := rfl
  unfold Platform.select fileEnvelope
  dsimp only
  rw [hheader]
  constructor
  · intro h
    split_ifs at h with hbody hpayload hlong
    exact ⟨(Except.ok.inj h).symm, by omega, by simpa using hpayload,
      not_lt.mp fun h' => hlong (.inl h')⟩
  · rintro ⟨rfl, hbody, hpayload, hlong⟩
    rw [if_neg (by omega), if_neg (by simp [hpayload]), if_neg (by simp; omega)]

theorem mem_files_iff {id : Text} (hid : isAttachmentName id) :
    id ∈ v.files.map Prod.fst ↔ id ∈ v.directory.map Prod.fst := by
  constructor
  · intro h
    obtain ⟨f, hf, rfl⟩ := List.mem_map.mp h
    exact List.mem_map.mpr ⟨f, (List.mem_filter.mp hf).1, rfl⟩
  · intro h
    obtain ⟨f, hf, rfl⟩ := List.mem_map.mp h
    exact List.mem_map.mpr ⟨f, List.mem_filter.mpr ⟨hf, hid⟩, rfl⟩

/-- Rows and files that the loop accepts. -/
theorem relocate_vault (checksName : Bool) (root : Text) (v : Vault R) :
    relocateAttachments checksName root (v.files.map Prod.fst) (cachedIds v.tables)
      v.tables.attachments =
        if ∀ id ∈ cachedIds v.tables, id ∈ v.directory.map Prod.fst then
          .ok (moved root v.tables).attachments
        else .error "BACKUP_ATTACHMENT_MISSING" := by
  have hiff : (∀ id ∈ cachedIds v.tables, id ∈ v.files.map Prod.fst) ↔
      ∀ id ∈ cachedIds v.tables, id ∈ v.directory.map Prod.fst :=
    forall₂_congr fun id hid => mem_files_iff (cachedIds_named v id hid)
  rw [relocate_eq (cachedIds_named v), moved_attachments]
  exact if_congr hiff rfl rfl

end Import

section Result

variable {R : Type} {rt : Runtime R} {v : Vault R} {P Q : Platform} {nonce wrapNonce : Bytes}
  {root : Text} {random : Random}

/-- What the importing program finds in the file, up to the writing of the new fragments. -/
structure Accepted (rt : Runtime R) (Q : Platform) (v : Vault R) : Prop where
  text : (snapshot rt v).json.length ≤ 256 * 1024 * 1024
  count : exceeds v.files.length Q.maxFiles = false
  cached : ∀ id ∈ cachedIds v.tables, id ∈ v.directory.map Prod.fst

theorem selectLimit_le {c : Crypto} (hQ : Q = desktopApp c ∨ Q = androidApp c) :
    Q.selectLimit ≤ MAX_STORAGE := by
  rcases hQ with rfl | rfl <;> simp [desktopApp, androidApp, MAX_STORAGE]

theorem decodeStorage_short (hrt : rt.Lawful) (hn : nonce.length = 12)
    (hlen : (sealedStorage rt P v nonce).length ≤ MAX_STORAGE) :
    decodeStorage rt (sealedStorage rt P v nonce) v.capsule v.keys =
      .ok (rt.gzip (snapshot rt v)) := by
  rw [decodeStorage_sealed hrt P hn, if_neg (by omega)]

theorem wrapped_length (hrt : rt.Lawful) (v : Vault R) (nonce : Bytes) :
    (rt.encrypt v.keys.kek nonce "vmk-wrap-v1" v.vmk).length = 48 := by
  rw [hrt.encrypt_length, v.vmk_length]

theorem accepted_of_import (hrt : rt.Lawful)
    (hQ : Q = desktopApp rt.crypto ∨ Q = androidApp rt.crypto) (hn : nonce.length = 12)
    (hlen : (sealedStorage rt P v nonce).length ≤ MAX_STORAGE) {r : Stored Q × Text}
    (h : Q.importStorage rt (sealedStorage rt P v nonce) v.keys v.capsule root random wrapNonce =
      .ok r) : Accepted rt Q v := by
  simp only [Platform.importStorage, decodeStorage_short hrt hn hlen, hrt.gunzip_gzip, bind,
    Except.bind] at h
  have htext : (snapshot rt v).json.length ≤ 256 * 1024 * 1024 := by
    by_contra hlong
    rw [if_neg hlong] at h
    cases h
  rw [if_pos htext] at h
  dsimp only at h
  have hdecode := decode_app hQ htext
  have hcount : exceeds v.files.length Q.maxFiles = false := by
    by_contra hmany
    rw [if_pos (by simpa using hmany)] at hdecode
    obtain ⟨e, he⟩ := hdecode
    rw [he] at h
    cases h
  rw [if_neg (by simp [hcount])] at hdecode
  obtain ⟨store, out, hscatter, -, -⟩ :=
    recovers v.keys.fragments random hQ (wrapped_length hrt v wrapNonce) v.seventh
  rw [hdecode, seventh_capsule] at h
  dsimp only at h
  rw [hscatter] at h
  dsimp only at h
  rw [hrt.openDb_image] at h
  dsimp only at h
  rw [relocate_vault] at h
  refine ⟨htext, hcount, ?_⟩
  by_contra hmissing
  rw [if_neg hmissing] at h
  cases h

theorem import_of_accepted (root : Text) (random : Random) (hrt : rt.Lawful)
    (hQ : Q = desktopApp rt.crypto ∨ Q = androidApp rt.crypto) (hn : nonce.length = 12)
    (hw : wrapNonce.length = 12) (hlen : (sealedStorage rt P v nonce).length ≤ MAX_STORAGE)
    (h : Accepted rt Q v) :
    ∃ stored client, Q.importStorage rt (sealedStorage rt P v nonce) v.keys v.capsule root random
        wrapNonce = .ok (stored, client) ∧
      Q.unlock rt stored v.keys (some client) v.capsule =
        .ok ⟨v.vmk, moved root v.tables, v.files⟩ := by
  have hdecode := decode_app hQ h.text
  rw [if_neg (by simp [h.count])] at hdecode
  obtain ⟨store, out, hscatter, hdigest, hcollect⟩ :=
    recovers v.keys.fragments random hQ (wrapped_length hrt v wrapNonce) v.seventh
  let stored : Stored Q :=
    { fragments := store
      vmkNonce := wrapNonce
      hkdfSalt := v.hkdfSalt
      hashes := out.hashes
      database := rt.image v.vmk v.hkdfSalt (moved root v.tables)
      attachments := v.files }
  have hunlock : Q.unlock rt stored v.keys (some out.clientShard) v.capsule =
      .ok ⟨v.vmk, moved root v.tables, v.files⟩ := by
    have hsame : ¬ some (hex (rt.crypto.sha256 v.seventh.bytes)) ≠ stored.hashes[6]? := by
      rw [not_not]
      exact hdigest.symm
    simp only [Platform.unlock, seventh_capsule, bind, Except.bind]
    rw [if_neg hsame]
    have hcollected : (Q.fragments.collect v.keys.fragments (some out.clientShard)
        (some v.capsule) stored.hashes stored.fragments).2 =
          .ok (rt.encrypt v.keys.kek wrapNonce "vmk-wrap-v1" v.vmk) := hcollect
    rw [hcollected]
    dsimp only
    rw [hrt.decrypt_encrypt _ _ _ _ hw]
    dsimp only
    rw [hrt.openDb_image]
  refine ⟨stored, out.clientShard, ?_, hunlock⟩
  simp only [Platform.importStorage, decodeStorage_short hrt hn hlen, hrt.gunzip_gzip, bind,
    Except.bind]
  rw [if_pos h.text]
  dsimp only
  rw [hdecode, seventh_capsule]
  dsimp only
  rw [hscatter]
  dsimp only
  rw [hrt.openDb_image]
  dsimp only
  rw [relocate_vault, if_pos h.cached]
  have hopen := hunlock
  simp only [stored, moved] at hopen
  dsimp only [moved]
  rw [hopen]
  rfl

end Result

section Sizes

variable {R : Type} {rt : Runtime R} {v : Vault R} {nonce : Bytes}

/-- A desktop file holds its header, 16 characters of nonce and the base64 text of the sealed
snapshot. -/
theorem desktop_length (hrt : rt.Lawful) (hn : nonce.length = 12) (c : Crypto) :
    (sealedStorage rt (desktopApp c) v nonce).length =
      53 + ((rt.gzip (snapshot rt v)).length + 18) / 3 * 4 := by
  have header : STORAGE_HEADER.toList.length = 9 := by decide
  have opening : ("\x7b\"nonce\":".toList).length = 9 := by decide
  have middle : (",\"ciphertext\":".toList).length = 14 := by decide
  have closing : ("\x7d".toList).length = 1 := by decide
  have plain : ∀ t : Text, (quoted false t).length = t.length + 2 := by
    intro t
    simp [quoted]
  simp only [StorageFile.length, StorageFile.text, sealedStorage, desktopApp, List.length_append,
    plain, header, opening, middle, closing, base64_length, hn, hrt.encrypt_length]
  omega

/-- Between two desktops the limit is 14155718 bytes of compressed snapshot. -/
theorem desktop_fits_iff (hrt : rt.Lawful) (hn : nonce.length = 12) (c : Crypto) :
    Fits rt (desktopApp c) (desktopApp c) v nonce none ↔
      (rt.gzip (snapshot rt v)).length ≤ 14155718 ∧
        (snapshot rt v).json.length ≤ 256 * 1024 * 1024 ∧
        ∀ id ∈ cachedIds v.tables, id ∈ v.directory.map Prod.fst := by
  have hlen := desktop_length (v := v) hrt hn c
  have select : (desktopApp c).selectLimit = 18874368 := rfl
  have body : (desktopApp c).bodyLimit = 26214400 := rfl
  have payload : (desktopApp c).payloadLimit = some 25165824 := rfl
  constructor
  · rintro ⟨-, -, hselect, htext, -, hcached⟩
    rw [hlen, select] at hselect
    exact ⟨by omega, htext, hcached⟩
  · rintro ⟨hsize, htext, hcached⟩
    have hpayload : payloadLength (sealedStorage rt (desktopApp c) v nonce) ≤ 25165824 := by
      rw [payloadLength, hlen]
      omega
    refine ⟨?_, ?_, ?_, htext, rfl, hcached⟩
    · rw [body, Request.length]
      dsimp only
      omega
    · rw [payload, exceeds, Option.any_some]
      simpa using hpayload
    · rw [hlen, select]
      omega

end Sizes

section Plain

/-- Characters of three bytes each, texts ended by a zero. -/
def pack (l : List Text) : Bytes :=
  l.flatMap fun t => (t.flatMap fun c => [1, UInt8.ofNat c.toNat, UInt8.ofNat (c.toNat / 256),
    UInt8.ofNat (c.toNat / 65536)]) ++ [0]

def unpack (acc : Text) : Bytes → List Text
  | 0 :: r => acc :: unpack [] r
  | 1 :: a :: b :: c :: r =>
    unpack (acc ++ [Char.ofNat (a.toNat + 256 * b.toNat + 65536 * c.toNat)]) r
  | _ => []

theorem unpack_text (t acc : Text) (r : Bytes) :
    unpack acc ((t.flatMap fun c => [1, UInt8.ofNat c.toNat, UInt8.ofNat (c.toNat / 256),
      UInt8.ofNat (c.toNat / 65536)]) ++ 0 :: r) = (acc ++ t) :: unpack [] r := by
  induction t generalizing acc with
  | nil => simp [unpack]
  | cons c t ih =>
    have hc : c.toNat < 1114112 := by
      have := c.valid
      simp only [UInt32.isValidChar, Nat.isValidChar] at this
      have h : c.toNat = c.val.toNat := rfl
      omega
    have hsum : c.toNat % 256 + 256 * (c.toNat / 256 % 256) + 65536 * (c.toNat / 65536 % 256) =
        c.toNat := by
      omega
    simp [unpack, ih, hsum]

theorem unpack_pack (l : List Text) : unpack [] (pack l) = l := by
  induction l with
  | nil => rfl
  | cons t l ih =>
    have shape : pack (t :: l) = (t.flatMap fun c => [1, UInt8.ofNat c.toNat,
        UInt8.ofNat (c.toNat / 256), UInt8.ofNat (c.toNat / 65536)]) ++ 0 :: pack l := by
      simp [pack]
    rw [shape, unpack_text, ih, List.nil_append]

theorem pack_length (l : List Text) :
    (pack l).length = (l.map fun t => t.length * 4 + 1).sum := by
  simp [pack, List.length_flatMap]

def Snapshot.texts (s : Snapshot) : List Text :=
  s.vmk :: s.hkdfSalt :: s.database :: s.files.flatMap fun f => [f.1, f.2]

def pairs : List Text → List (Text × Text)
  | a :: b :: r => (a, b) :: pairs r
  | _ => []

theorem pairs_flatMap (l : List (Text × Text)) : pairs (l.flatMap fun f => [f.1, f.2]) = l := by
  induction l with
  | nil => rfl
  | cons f l ih => simp [pairs, ih]

def Row.texts (r : Row) : List Text :=
  match r.encryptedLocalPath with
  | none => [r.id, [], [], []]
  | some p => [r.id, ['+'], p.root, p.id]

def readRows : List Text → List Row
  | id :: [] :: _ :: _ :: rest => ⟨id, none⟩ :: readRows rest
  | id :: _ :: root :: name :: rest => ⟨id, some ⟨root, name⟩⟩ :: readRows rest
  | _ => []

theorem readRows_texts (l : List Row) : readRows (l.flatMap Row.texts) = l := by
  induction l with
  | nil => rfl
  | cons r l ih =>
    obtain ⟨id, path⟩ := r
    cases path with
    | none => simp [Row.texts, readRows, ih]
    | some p => simp [Row.texts, readRows, ih]

/-- Libraries that store everything as it is. -/
def plain : Runtime Unit where
  crypto := ⟨id, id⟩
  storageKey key _ := key
  encrypt _ _ _ data := data ++ List.replicate 16 0
  decrypt _ _ _ data := some (data.take (data.length - 16))
  gzip s := pack s.texts
  gunzip limit data :=
    match unpack [] data with
    | vmk :: hkdfSalt :: database :: files =>
      let s : Snapshot := ⟨vmk, hkdfSalt, database, pairs files⟩
      if s.json.length ≤ limit then some s else none
    | _ => none
  image _ _ t := pack (t.attachments.flatMap Row.texts)
  openDb _ _ data := some ⟨readRows (unpack [] data), ()⟩

theorem plain_lawful : plain.Lawful where
  decrypt_encrypt _ _ _ data _ := by simp [plain]
  encrypt_length _ _ _ data := by simp [plain]
  gunzip_gzip limit s := by
    simp only [plain, unpack_pack, Snapshot.texts, pairs_flatMap]
  openDb_image _ _ t := by
    simp [plain, unpack_pack, readRows_texts]

def attachmentName : Text := List.replicate 32 'a'

/-- A vault with one attachment of `n` bytes. -/
def oneAttachment (n : Nat) : Vault Unit where
  keys := ⟨[1], ⟨[2], [3]⟩⟩
  vmk := List.replicate 32 7
  hkdfSalt := List.replicate 16 9
  seventh := 0
  tables := ⟨[⟨attachmentName, some ⟨['/'], attachmentName⟩⟩], ()⟩
  directory := [(attachmentName, List.replicate n 5)]
  vmk_length := by simp
  hkdfSalt_length := by simp
  ids_nodup := by simp
  ids_named := by
    intro r hr _
    obtain rfl : r = _ := List.mem_singleton.mp hr
    decide
  directory_nodup := by simp

theorem attachmentName_length : attachmentName.length = 32 := by simp [attachmentName]

theorem oneAttachment_files (n : Nat) : (oneAttachment n).files = (oneAttachment n).directory := by
  have named : isAttachmentName attachmentName = true := by decide
  simp [Vault.files, oneAttachment, named]

theorem oneAttachment_database (n : Nat) : (plain.image (oneAttachment n).vmk
    (oneAttachment n).hkdfSalt (oneAttachment n).tables).length = 268 := by
  simp [plain, oneAttachment, Row.texts, pack_length, attachmentName_length]

theorem oneAttachment_gzip (n : Nat) :
    (plain.gzip (snapshot plain (oneAttachment n))).length = 1845 + (n + 2) / 3 * 16 := by
  have gzip : plain.gzip (snapshot plain (oneAttachment n)) =
    pack (snapshot plain (oneAttachment n)).texts := rfl
  have content : ((oneAttachment n).files.map fun f => (f.1, base64 f.2)) =
      [(attachmentName, base64 (List.replicate n 5))] := by
    rw [oneAttachment_files]
    rfl
  have vmk : (oneAttachment n).vmk.length = 32 := (oneAttachment n).vmk_length
  have salt : (oneAttachment n).hkdfSalt.length = 16 := (oneAttachment n).hkdfSalt_length
  rw [gzip, pack_length]
  simp only [Snapshot.texts, snapshot, content, List.flatMap_cons, List.flatMap_nil, List.map_cons,
    List.map_nil, List.sum_cons, List.sum_nil, List.append_nil, base64_length, vmk, salt,
    oneAttachment_database, attachmentName_length, List.length_replicate]
  omega

theorem json_length (s : Snapshot) : s.json.length = 60 + s.vmk.length + s.hkdfSalt.length +
    s.database.length + ([','].intercalate (s.files.map memberJson)).length := by
  have opening : vmkKey.length = 19 := by decide
  have salt : hkdfSaltKey.length = 14 := by decide
  have database : databaseKey.length = 14 := by decide
  have files : filesKey.length = 11 := by decide
  have closing : closingBraces.length = 2 := by decide
  simp only [Snapshot.json, List.length_append, opening, salt, database, files, closing]
  omega

theorem oneAttachment_json (n : Nat) :
    (snapshot plain (oneAttachment n)).json.length = 525 + (n + 2) / 3 * 4 := by
  have vmk : (oneAttachment n).vmk.length = 32 := (oneAttachment n).vmk_length
  have salt : (oneAttachment n).hkdfSalt.length = 16 := (oneAttachment n).hkdfSalt_length
  have content : ([','].intercalate ((snapshot plain (oneAttachment n)).files.map memberJson)).length
      = 37 + (n + 2) / 3 * 4 := by
    have files : (snapshot plain (oneAttachment n)).files =
        [(attachmentName, base64 (List.replicate n 5))] := by
      rw [snapshot, oneAttachment_files]
      rfl
    rw [files, List.map_singleton, List.intercalate_singleton]
    simp only [memberJson, List.length_append, List.length_cons, List.length_nil, base64_length,
      attachmentName_length, List.length_replicate]
    omega
  rw [json_length, content]
  simp only [snapshot, base64_length, vmk, salt, oneAttachment_database]
  omega

/-- The writer takes every size that the program accepts. -/
theorem oneAttachment_exported {n : Nat} (hn : n ≤ 25 * 1024 * 1024) (nonce : Bytes)
    (hnonce : nonce.length = 12) :
    (desktopApp plain.crypto).exportStorage plain (oneAttachment n) nonce =
      .ok (sealedStorage plain (desktopApp plain.crypto) (oneAttachment n) nonce) := by
  have hlen := desktop_length (v := oneAttachment n) plain_lawful hnonce plain.crypto
  rw [oneAttachment_gzip] at hlen
  have htext := oneAttachment_json n
  have maxPlaintext : (desktopApp plain.crypto).maxPlaintext = 536870888 := rfl
  have maxText : (desktopApp plain.crypto).maxText = some 536870888 := rfl
  have plaintextFits : ¬ ((desktopApp plain.crypto).maxPlaintext <
      (snapshot plain (oneAttachment n)).json.length ∨
        exceeds (plain.gzip (snapshot plain (oneAttachment n))).length
          (desktopApp plain.crypto).maxCompressed = true) := by
    rw [maxPlaintext, htext]
    rintro (h | h)
    · omega
    · cases h
  have textFits : ¬ exceeds (sealedStorage plain (desktopApp plain.crypto) (oneAttachment n)
      nonce).length (desktopApp plain.crypto).maxText = true := by
    rw [maxText, exceeds, Option.any_some, hlen]
    simp only [decide_eq_true_eq]
    omega
  simp only [Platform.exportStorage, encodeStorage, seventh_capsule, bind, Except.bind]
  rw [if_neg (by simp [exceeds, desktopApp]), if_neg plaintextFits]
  exact if_neg textFits

def zeroNonce : Bytes := List.replicate 12 0

end Plain

end StorageExport
