import CryptoPigeon.VaultBackupRelay

/-! # The client side of a cloud backup

What `syncBackup` (desktop) and `prepareBackup`/`uploadPreparedBackup` (Android) send and
what they remember. Both sign the version after the last one they saw succeed; Android
also skips a ciphertext it has already uploaded and checks the acknowledged version. -/
namespace VaultBackupClient

open VaultBackupRelay

inductive Platform where
  | desktop
  | android
  deriving DecidableEq, Repr

/-- What the keys and the vault database of one provisioning contribute to an upload. -/
structure Account where
  lookupToken : LookupToken
  writerPublicKey : Bytes
  fragment7Shard : Bytes
  deviceId : DeviceId
  registered : Bool
  signBackup : SigningPayload → String
  signDevice : SigningPayload → String

structure Config where
  backupVersion : Nat
  cloudBackupEnabled : Bool
  shard7External : Bool
  lastUploadedBackupSha256 : Option String
  deriving DecidableEq, Repr

/-- An encrypted snapshot; every encryption draws a new nonce. -/
structure Sealed where
  nonce : Bytes
  ciphertext : Bytes
  updatedAt : String
  deriving DecidableEq, Repr

def unsignedBody (P : Primitives) (a : Account) (instanceToken : String) (claim : Bool)
    (version : Nat) (snapshot : Sealed) : BackupBody :=
  let hash := P.sha256 instanceToken
  { lookupToken := a.lookupToken
    version := version
    nonce := snapshot.nonce
    ciphertext := snapshot.ciphertext
    updatedAt := snapshot.updatedAt
    fragment7Shard := a.fragment7Shard
    writerPublicKey := a.writerPublicKey
    signature := ""
    deviceId := if a.registered then some a.deviceId else none
    instanceHash := if a.registered then some hash else none
    deviceSignature := if a.registered then some (a.signDevice (.vaultInstance hash)) else none
    claim := claim }

/-- The next version is signed when the upload starts. -/
def backupBody (P : Primitives) (a : Account) (c : Config) (instanceToken : String)
    (claim : Bool) (snapshot : Sealed) : BackupBody :=
  let body := unsignedBody P a instanceToken claim (c.backupVersion + 1) snapshot
  { body with signature := a.signBackup (backupSigningPayload body) }

def digestHeader (P : Primitives) (platform : Platform) (b : BackupBody) : Option String :=
  match platform with
  | .desktop => none
  | .android => some (P.digest b.ciphertext)

/-- Android returns `skipped` without a request for a ciphertext it uploaded last. -/
def skipsUpload (P : Primitives) (platform : Platform) (c : Config) (b : BackupBody) : Bool :=
  platform == .android && !b.claim && c.lastUploadedBackupSha256 == some (P.digest b.ciphertext)

def sendBackup (P : Primitives) (platform : Platform) (r : Relay) (b : BackupBody) :
    PutReply × Relay :=
  putBackup P r b (some b.lookupToken) (digestHeader P platform b)

/-- `putBackup` of the Android transport: which acknowledged versions are believed. -/
def acknowledgedVersion (b : BackupBody) : PutReply → Option Nat
  | .stored v => if v = b.version then some v else none
  | .skipped v => if v = b.version ∨ v = b.version - 1 then some v else none
  | _ => none

/-- The version is advanced only by a success the client sees. -/
def recordReply (P : Primitives) (platform : Platform) (c : Config) (b : BackupBody)
    (reply : PutReply) : Config :=
  match platform with
  | .desktop => if reply.Accepted then { c with backupVersion := b.version } else c
  | .android =>
    match acknowledgedVersion b reply with
    | none => c
    | some v =>
      { c with
        backupVersion := v
        lastUploadedBackupSha256 := some (P.digest b.ciphertext) }

/-- An unlock through the relay's share reads the version there; one through the saved
file does not ask the relay. -/
def unlockVersion (c : Config) (row : Option BackupRow) : Config :=
  if c.shard7External then c
  else
    match row with
    | none => c
    | some row => { c with backupVersion := row.version }

end VaultBackupClient
