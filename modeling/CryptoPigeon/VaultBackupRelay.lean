import Mathlib.Logic.Function.Basic
import Mathlib.Tactic.Push

/-! # The relay's vault backups and instance locks

One backup row per lookup token, replaced under a version compare-and-set, and one
instance lock per device. Locks are written by backup uploads only and read by every
authorised request. Hashing and signature verification are parameters; text fields that
the relay compares after decoding are kept decoded. -/
namespace VaultBackupRelay

abbrev LookupToken := String
abbrev DeviceId := String
abbrev Bytes := List UInt8

structure BackupBody where
  lookupToken : LookupToken
  version : Nat
  nonce : Bytes
  ciphertext : Bytes
  updatedAt : String
  fragment7Shard : Bytes
  writerPublicKey : Bytes
  signature : String
  deviceId : Option DeviceId
  instanceHash : Option String
  deviceSignature : Option String
  claim : Bool
  deriving DecidableEq, Repr

/-- What is signed: an upload without its signature, a deletion, or an instance hash. -/
inductive SigningPayload where
  | backupWrite (unsigned : BackupBody)
  | backupDelete (token : LookupToken) (version : Nat)
  | vaultInstance (hash : String)
  deriving DecidableEq, Repr

structure Primitives where
  /-- Hex digest of a text, as `createHash('sha256').update(text)`. -/
  sha256 : String → String
  digest : Bytes → String
  verifyChallenge : Bytes → SigningPayload → String → Bool

structure BackupRow where
  version : Nat
  nonce : Bytes
  ciphertext : Bytes
  fragment7Shard : Bytes
  writerPublicKey : Bytes
  signature : String
  signedAt : String
  deviceId : Option DeviceId
  instanceHash : Option String
  deviceSignature : Option String
  claim : Bool
  ciphertextSha256 : Option String
  deriving DecidableEq, Repr

structure Device where
  authPublicKey : Bytes
  revoked : Bool
  userRevoked : Bool
  deriving DecidableEq, Repr

structure Session where
  token : String
  deviceId : DeviceId
  expiresAt : Nat
  deriving DecidableEq, Repr

structure Relay where
  backups : LookupToken → Option BackupRow
  locks : DeviceId → Option String
  devices : DeviceId → Option Device
  sessions : List Session

inductive PutReply where
  | invalidRequest
  | lookupMismatch
  | backupTooLarge
  | invalidBackupSignature
  | backupDigestMismatch
  | backupConflict
  | internalError
  | invalidDeviceProof
  | vaultMoved
  | skipped (version : Nat)
  | stored (version : Nat)
  deriving DecidableEq, Repr

/-- Answered with status 200. -/
def PutReply.Accepted : PutReply → Prop
  | .skipped _ | .stored _ => True
  | _ => False

instance (r : PutReply) : Decidable r.Accepted := by
  cases r <;> unfold PutReply.Accepted <;> infer_instance

def backupSigningPayload (b : BackupBody) : SigningPayload :=
  .backupWrite { b with signature := "" }

def maxVersion : Nat := 2147483647

def maxCiphertext : Nat := 64 * 1024 * 1024

/-- The checks made before the transaction begins. -/
def screenPut (P : Primitives) (b : BackupBody) (pathToken : Option LookupToken)
    (suppliedDigest : Option String) : Option PutReply :=
  if b.version = 0 ∨ maxVersion < b.version then some .invalidRequest
  else if pathToken.isSome ∧ pathToken ≠ some b.lookupToken then some .lookupMismatch
  else if b.ciphertext.length < 16 ∨ maxCiphertext < b.ciphertext.length then
    some .backupTooLarge
  else if b.writerPublicKey.length ≠ 44 ∨
      P.verifyChallenge b.writerPublicKey (backupSigningPayload b) b.signature = false then
    some .invalidBackupSignature
  else if suppliedDigest.isSome ∧ suppliedDigest ≠ some (P.digest b.ciphertext) then
    some .backupDigestMismatch
  else none

/-- A replay of the same complete signed backup. -/
def identical (P : Primitives) (old : BackupRow) (b : BackupBody) : Bool :=
  old.ciphertextSha256.getD (P.digest old.ciphertext) == P.digest b.ciphertext &&
    old.writerPublicKey == b.writerPublicKey && old.nonce == b.nonce &&
    old.fragment7Shard == b.fragment7Shard && old.deviceId == b.deviceId &&
    old.instanceHash == b.instanceHash && old.deviceSignature == b.deviceSignature &&
    old.claim == b.claim

def replayed (P : Primitives) (old : Option BackupRow) (b : BackupBody) : Bool :=
  match old with
  | none => false
  | some row => identical P row b

def rowVersion (old : Option BackupRow) : Nat :=
  match old with
  | none => 0
  | some row => row.version

def foreignWriter (old : Option BackupRow) (b : BackupBody) : Bool :=
  match old with
  | none => false
  | some row => row.writerPublicKey != b.writerPublicKey

/-- The version compare-and-set and the binding of the token to its first writer. -/
def conflicts (P : Primitives) (old : Option BackupRow) (b : BackupBody) : Bool :=
  foreignWriter old b ||
    (b.version != rowVersion old + 1 && !(replayed P old b && b.version == rowVersion old))

def deviceVerified (P : Primitives) (s : Relay) (device : DeviceId) (hash signature : String) :
    Bool :=
  match s.devices device with
  | none => false
  | some row => !row.revoked &&
      P.verifyChallenge row.authPublicKey (.vaultInstance hash) signature

/-- The device part of an upload: no proof, a refused one, or the device and its hash. -/
inductive DeviceProof where
  | absent
  | refused (reply : PutReply)
  | proved (device : DeviceId) (hash : String)
  deriving DecidableEq, Repr

def checkDevice (P : Primitives) (s : Relay) (b : BackupBody) : DeviceProof :=
  match b.deviceId, b.instanceHash, b.deviceSignature with
  | none, none, none => .absent
  | some device, some hash, some signature =>
    if deviceVerified P s device hash signature = false then .refused .invalidDeviceProof
    else if (s.locks device).isSome ∧ s.locks device ≠ some hash ∧ b.claim = false then
      .refused .vaultMoved
    else .proved device hash
  | _, _, _ => .refused .internalError

def rowOf (P : Primitives) (b : BackupBody) : BackupRow :=
  { version := b.version
    nonce := b.nonce
    ciphertext := b.ciphertext
    fragment7Shard := b.fragment7Shard
    writerPublicKey := b.writerPublicKey
    signature := b.signature
    signedAt := b.updatedAt
    deviceId := b.deviceId
    instanceHash := b.instanceHash
    deviceSignature := b.deviceSignature
    claim := b.claim
    ciphertextSha256 := some (P.digest b.ciphertext) }

def storeBackup (P : Primitives) (s : Relay) (b : BackupBody) : Relay :=
  { s with backups := Function.update s.backups b.lookupToken (some (rowOf P b)) }

/-- The lock upsert, and the end of every session of a claimed device. -/
def takeLock (s : Relay) (b : BackupBody) (replay : Bool) (device : DeviceId) (hash : String) :
    Relay :=
  let locked := if !replay || b.claim then
      { s with locks := Function.update s.locks device (some hash) } else s
  if b.claim then
    { locked with sessions := locked.sessions.filter (fun x => x.deviceId != device) }
  else locked

def finishPut (P : Primitives) (s : Relay) (b : BackupBody) (old : Option BackupRow) :
    PutReply × Relay :=
  if replayed P old b && !b.claim then (.skipped (rowVersion old), s)
  else (.stored b.version, storeBackup P s b)

/-- `PUT /api/vault-backup/:lookupToken`; every refusal rolls the transaction back. -/
def putBackup (P : Primitives) (s : Relay) (b : BackupBody) (pathToken : Option LookupToken)
    (suppliedDigest : Option String) : PutReply × Relay :=
  match screenPut P b pathToken suppliedDigest with
  | some reply => (reply, s)
  | none =>
    let old := s.backups b.lookupToken
    if conflicts P old b then (.backupConflict, s)
    else
      match checkDevice P s b with
      | .refused reply => (reply, s)
      | .absent => finishPut P s b old
      | .proved device hash => finishPut P (takeLock s b (replayed P old b) device hash) b old

/-- `GET /api/vault-backup/:lookupToken`. -/
def getBackup (s : Relay) (token : LookupToken) : Option BackupRow := s.backups token

inductive DeleteReply where
  | invalidBackupSignature
  | backupConflict
  | ok
  deriving DecidableEq, Repr

/-- `DELETE /api/vault-backup/:lookupToken`, bound to the version the writer names. -/
def deleteBackup (P : Primitives) (s : Relay) (token : LookupToken) (version : Nat)
    (signature : String) : DeleteReply × Relay :=
  match s.backups token with
  | none => (.invalidBackupSignature, s)
  | some row =>
    if P.verifyChallenge row.writerPublicKey (.backupDelete token version) signature = false
    then (.invalidBackupSignature, s)
    else if row.version = version then
      (.ok, { s with backups := Function.update s.backups token none })
    else (.backupConflict, s)

inductive AuthReply where
  | unauthorizedMissingToken
  | unauthorizedInvalidToken
  | vaultMoved
  | authenticated (device : DeviceId)
  deriving DecidableEq, Repr

/-- The session query of the middleware: live, of a device and a user not revoked. -/
def sessionDevice (s : Relay) (now : Nat) (token : String) : Option DeviceId :=
  (s.sessions.find? (fun x => x.token == token && decide (now < x.expiresAt) &&
    match s.devices x.deviceId with
    | none => false
    | some row => !row.revoked && !row.userRevoked)).map Session.deviceId

/-- `authMiddleware`: a locked device needs the header whose hash is the lock. -/
def authMiddleware (P : Primitives) (s : Relay) (now : Nat) (bearer : Option String)
    (instanceHeader : Option String) : AuthReply :=
  match bearer with
  | none => .unauthorizedMissingToken
  | some token =>
    match sessionDevice s now token with
    | none => .unauthorizedInvalidToken
    | some device =>
      match s.locks device with
      | none => .authenticated device
      | some hash =>
        match instanceHeader with
        | none => .vaultMoved
        | some header => if P.sha256 header = hash then .authenticated device else .vaultMoved

section Put

variable {P : Primitives} {s : Relay} {b : BackupBody} {pathToken : Option LookupToken}
variable {suppliedDigest : Option String}

theorem screenPut_refuses {reply : PutReply}
    (h : screenPut P b pathToken suppliedDigest = some reply) : ¬reply.Accepted := by
  unfold screenPut at h
  repeat' split at h
  all_goals cases h
  all_goals exact id

theorem checkDevice_refuses {reply : PutReply} (h : checkDevice P s b = .refused reply) :
    ¬reply.Accepted := by
  unfold checkDevice at h
  split at h
  · cases h
  · split at h
    · cases h; exact id
    · split at h
      · cases h; exact id
      · cases h
  · cases h; exact id

/-- The proof is taken only from a live device, and never past another instance's lock
unless the upload claims it. -/
theorem checkDevice_proved {device : DeviceId} {hash : String}
    (h : checkDevice P s b = .proved device hash) :
    b.deviceId = some device ∧ b.instanceHash = some hash ∧
      (s.locks device = none ∨ s.locks device = some hash ∨ b.claim = true) := by
  unfold checkDevice at h
  split at h
  · cases h
  · next dev h' sig hd hh hs =>
    split at h
    · cases h
    · split at h
      · cases h
      · next hl =>
        cases h
        refine ⟨hd, hh, ?_⟩
        cases hlock : s.locks device with
        | none => exact Or.inl rfl
        | some other =>
          right
          by_contra hno
          push Not at hno
          refine hl ⟨by rw [hlock]; rfl, by rw [hlock]; exact hno.1, ?_⟩
          simpa using hno.2
  · cases h

theorem finishPut_locks (old : Option BackupRow) : (finishPut P s b old).2.locks = s.locks := by
  unfold finishPut
  split <;> rfl

theorem finishPut_sessions (old : Option BackupRow) :
    (finishPut P s b old).2.sessions = s.sessions := by
  unfold finishPut
  split <;> rfl

theorem finishPut_devices (old : Option BackupRow) :
    (finishPut P s b old).2.devices = s.devices := by
  unfold finishPut
  split <;> rfl

theorem takeLock_backups (replay : Bool) (device : DeviceId) (hash : String) :
    (takeLock s b replay device hash).backups = s.backups := by
  unfold takeLock
  dsimp only
  split <;> split <;> rfl

theorem takeLock_devices (replay : Bool) (device : DeviceId) (hash : String) :
    (takeLock s b replay device hash).devices = s.devices := by
  unfold takeLock
  dsimp only
  split <;> split <;> rfl

theorem takeLock_locks (s : Relay) (b : BackupBody) (replay : Bool) (device : DeviceId)
    (hash : String) : (takeLock s b replay device hash).locks =
      if !replay || b.claim then Function.update s.locks device (some hash) else s.locks := by
  unfold takeLock
  dsimp only
  split <;> split <;> rfl

theorem takeLock_sessions (s : Relay) (b : BackupBody) (replay : Bool) (device : DeviceId)
    (hash : String) : (takeLock s b replay device hash).sessions =
      if b.claim then s.sessions.filter (fun x => x.deviceId != device) else s.sessions := by
  unfold takeLock
  dsimp only
  split <;> split <;> rfl

/-- Everything an upload can do: refuse and change nothing, or pass every check, take the
device's lock if it proves one, and store or skip. -/
theorem putBackup_cases (P : Primitives) (s : Relay) (b : BackupBody)
    (pathToken : Option LookupToken) (suppliedDigest : Option String) :
    (∃ reply, ¬reply.Accepted ∧ putBackup P s b pathToken suppliedDigest = (reply, s)) ∨
    (screenPut P b pathToken suppliedDigest = none ∧
      conflicts P (s.backups b.lookupToken) b = false ∧
      ((checkDevice P s b = .absent ∧ putBackup P s b pathToken suppliedDigest =
          finishPut P s b (s.backups b.lookupToken)) ∨
        ∃ device hash, checkDevice P s b = .proved device hash ∧
          putBackup P s b pathToken suppliedDigest =
            finishPut P (takeLock s b (replayed P (s.backups b.lookupToken) b) device hash) b
              (s.backups b.lookupToken))) := by
  unfold putBackup
  cases hscreen : screenPut P b pathToken suppliedDigest with
  | some reply => exact Or.inl ⟨reply, screenPut_refuses hscreen, rfl⟩
  | none =>
    dsimp only
    by_cases hc : conflicts P (s.backups b.lookupToken) b = true
    · left
      exact ⟨.backupConflict, id, by rw [if_pos hc]⟩
    · rw [if_neg hc]
      cases hd : checkDevice P s b with
      | refused reply => exact Or.inl ⟨reply, checkDevice_refuses hd, rfl⟩
      | absent => exact Or.inr ⟨rfl, by simpa using hc, Or.inl ⟨rfl, rfl⟩⟩
      | proved device hash =>
        exact Or.inr ⟨rfl, by simpa using hc, Or.inr ⟨device, hash, rfl, rfl⟩⟩

/-- An upload that claims nothing never replaces a lock. -/
theorem putBackup_keeps_lock {device : DeviceId} {hash : String} (hclaim : b.claim = false)
    (hlock : s.locks device = some hash) :
    (putBackup P s b pathToken suppliedDigest).2.locks device = some hash := by
  rcases putBackup_cases P s b pathToken suppliedDigest with
    ⟨reply, -, he⟩ | ⟨-, -, ⟨-, he⟩ | ⟨dev, h', hproof, he⟩⟩
  · rw [he]; exact hlock
  · rw [he, finishPut_locks]; exact hlock
  · rw [he, finishPut_locks]
    obtain ⟨-, -, hallowed⟩ := checkDevice_proved hproof
    rw [takeLock_locks]
    split
    · by_cases hd : device = dev
      · subst hd
        rcases hallowed with hnone | hsame | hc
        · rw [hnone] at hlock; cases hlock
        · simpa [hsame] using hlock
        · rw [hclaim] at hc; cases hc
      · simpa [hd] using hlock
    · exact hlock

/-- The end of an upload without a claim, once it conflicts with nothing. -/
theorem finishPut_row {old : Option BackupRow} (hclaim : b.claim = false)
    (hold : s.backups b.lookupToken = old) (hc : conflicts P old b = false) :
    ((finishPut P s b old).1 ≠ .stored b.version ∧
      (finishPut P s b old).2.backups b.lookupToken = old) ∨
    ((finishPut P s b old).1 = .stored b.version ∧
      (finishPut P s b old).2.backups b.lookupToken = some (rowOf P b) ∧
      b.version = rowVersion old + 1) := by
  unfold finishPut
  split
  · exact Or.inl ⟨by simp, hold⟩
  · next hreplay =>
    right
    refine ⟨rfl, by simp [storeBackup], ?_⟩
    simp only [hclaim, Bool.not_false, Bool.and_true, Bool.not_eq_true] at hreplay
    simp only [conflicts, hreplay, Bool.false_and, Bool.not_false, Bool.and_true,
      Bool.or_eq_false_iff, bne_eq_false_iff_eq] at hc
    exact hc.2

/-- What an upload without a claim leaves under its own token: the same row, or its own
as the immediate successor of the row's version. -/
theorem putBackup_row (pathToken : Option LookupToken) (suppliedDigest : Option String)
    (hclaim : b.claim = false) :
    ((putBackup P s b pathToken suppliedDigest).1 ≠ .stored b.version ∧
      (putBackup P s b pathToken suppliedDigest).2.backups b.lookupToken =
        s.backups b.lookupToken) ∨
    ((putBackup P s b pathToken suppliedDigest).1 = .stored b.version ∧
      (putBackup P s b pathToken suppliedDigest).2.backups b.lookupToken =
        some (rowOf P b) ∧
      b.version = rowVersion (s.backups b.lookupToken) + 1) := by
  rcases putBackup_cases P s b pathToken suppliedDigest with
    ⟨reply, hno, he⟩ | ⟨-, hc, ⟨-, he⟩ | ⟨dev, h', -, he⟩⟩
  · rw [he]
    refine Or.inl ⟨fun heq => hno ?_, rfl⟩
    change reply = _ at heq
    rw [heq]; trivial
  · rw [he]
    exact finishPut_row hclaim rfl hc
  · rw [he]
    exact finishPut_row hclaim (by rw [takeLock_backups]) hc

/-- An upload only ever sets the lock of the device it proves, to the hash it proves. -/
theorem putBackup_lock (pathToken : Option LookupToken) (suppliedDigest : Option String)
    (device : DeviceId) :
    (putBackup P s b pathToken suppliedDigest).2.locks device = s.locks device ∨
    (b.deviceId = some device ∧
      (putBackup P s b pathToken suppliedDigest).2.locks device = b.instanceHash) := by
  rcases putBackup_cases P s b pathToken suppliedDigest with
    ⟨reply, -, he⟩ | ⟨-, -, ⟨-, he⟩ | ⟨dev, hash, hproof, he⟩⟩
  · rw [he]; exact Or.inl rfl
  · rw [he, finishPut_locks]; exact Or.inl rfl
  · rw [he, finishPut_locks]
    obtain ⟨hdev, hhash, -⟩ := checkDevice_proved hproof
    rw [takeLock_locks]
    split
    · by_cases hd : device = dev
      · subst hd; exact Or.inr ⟨hdev, by simp [hhash]⟩
      · exact Or.inl (by simp [hd])
    · exact Or.inl rfl

theorem putBackup_keeps_devices :
    (putBackup P s b pathToken suppliedDigest).2.devices = s.devices := by
  rcases putBackup_cases P s b pathToken suppliedDigest with
    ⟨reply, -, he⟩ | ⟨-, -, ⟨-, he⟩ | ⟨dev, h', -, he⟩⟩
  · rw [he]
  · rw [he, finishPut_devices]
  · rw [he, finishPut_devices, takeLock_devices]

/-- Only the row under the upload's own token can change. -/
theorem putBackup_other_row {token : LookupToken} (h : token ≠ b.lookupToken) :
    (putBackup P s b pathToken suppliedDigest).2.backups token = s.backups token := by
  have finish : ∀ r : Relay, (finishPut P r b (s.backups b.lookupToken)).2.backups token =
      r.backups token := by
    intro r
    unfold finishPut
    split
    · rfl
    · simp [storeBackup, h]
  rcases putBackup_cases P s b pathToken suppliedDigest with
    ⟨reply, -, he⟩ | ⟨-, -, ⟨-, he⟩ | ⟨dev, h', -, he⟩⟩
  · rw [he]
  · rw [he, finish]
  · rw [he, finish, takeLock_backups]

end Put

section Auth

variable {P : Primitives} {s : Relay} {now : Nat} {bearer header : Option String}
variable {device : DeviceId} {hash : String}

/-- With a lock in place the header's hash decides. -/
theorem authenticated_locked (hlock : s.locks device = some hash)
    (h : authMiddleware P s now bearer header = .authenticated device) :
    ∃ token instanceToken, bearer = some token ∧ sessionDevice s now token = some device ∧
      header = some instanceToken ∧ P.sha256 instanceToken = hash := by
  unfold authMiddleware at h
  split at h
  · cases h
  · next token =>
    split at h
    · cases h
    · next dev hdev =>
      split at h
      · next hnone =>
        cases h
        rw [hlock] at hnone; cases hnone
      · next hash' hlock' =>
        split at h
        · cases h
        · next value =>
          split at h
          · next heq =>
            cases h
            rw [hlock] at hlock'
            cases hlock'
            exact ⟨token, value, rfl, hdev, rfl, heq⟩
          · cases h

theorem locked_authenticated {token instanceToken : String}
    (hsession : sessionDevice s now token = some device) (hlock : s.locks device = some hash)
    (hhash : P.sha256 instanceToken = hash) :
    authMiddleware P s now (some token) (some instanceToken) = .authenticated device := by
  simp [authMiddleware, hsession, hlock, hhash]

end Auth

end VaultBackupRelay
