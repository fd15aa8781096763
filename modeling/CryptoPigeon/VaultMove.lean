import CryptoPigeon.VaultBackupClient

/-! # Moving a vault to another installation

Restore drops the instance token and the relay session, keeps the seventh share in a file
and leaves cloud backup off. What the restored vault can then do at the relay is
authenticate, send requests, turn cloud backup on and upload; `syncBackup` has a `claim`
parameter that every caller leaves false. -/
namespace VaultMove

open VaultBackupRelay VaultBackupClient

structure Client where
  config : Config
  instanceToken : Option String
  session : Option String
  deriving DecidableEq, Repr

/-- What `restoreSecure` (desktop) and `restore` (Android) leave of the downloaded vault. -/
def restored (row : BackupRow) : Client where
  config :=
    { backupVersion := row.version
      cloudBackupEnabled := false
      shard7External := true
      lastUploadedBackupSha256 := none }
  instanceToken := none
  session := none

inductive Operation where
  | authenticate (now : Nat) (sessionToken : String)
  | request (now : Nat)
  | syncBackup (snapshot : Sealed) (newToken : String)
  | setCloudBackup (enabled : Bool)
  deriving DecidableEq, Repr

structure State where
  relay : Relay
  client : Client

def sessionLifetime : Nat := 24 * 60 * 60 * 1000

/-- The challenge is answered with the device key, which the restored vault has. -/
def respond (r : Relay) (device : DeviceId) (now : Nat) (sessionToken : String) :
    Option Relay :=
  match r.devices device with
  | none => none
  | some row =>
    if row.revoked then none
    else some { r with sessions := r.sessions ++ [⟨sessionToken, device, now + sessionLifetime⟩] }

/-- A request carries the session and, once one exists, the instance token. -/
def sendRequest (P : Primitives) (s : State) (now : Nat) : AuthReply :=
  authMiddleware P s.relay now s.client.session s.client.instanceToken

def syncBackup (P : Primitives) (platform : Platform) (a : Account) (claim : Bool) (s : State)
    (snapshot : Sealed) (newToken : String) : State :=
  if s.client.config.cloudBackupEnabled = false then s
  else
    let token := s.client.instanceToken.getD newToken
    let body := backupBody P a s.client.config token claim snapshot
    let named := { s.client with instanceToken := some token }
    if skipsUpload P platform s.client.config body then { s with client := named }
    else
      let answer := sendBackup P platform s.relay body
      { relay := answer.2
        client := { named with config := recordReply P platform named.config body answer.1 } }

def next (P : Primitives) (platform : Platform) (a : Account) (s : State) : Operation → State
  | .authenticate now sessionToken =>
    match respond s.relay a.deviceId now sessionToken with
    | none => s
    | some relay => ⟨relay, { s.client with session := some sessionToken }⟩
  | .request _ => s
  | .syncBackup snapshot newToken => syncBackup P platform a false s snapshot newToken
  | .setCloudBackup enabled =>
    { s with client := { s.client with
        config := { s.client.config with cloudBackupEnabled := enabled } } }

def run (P : Primitives) (platform : Platform) (a : Account) (s : State) :
    List Operation → State
  | [] => s
  | op :: ops => run P platform a (next P platform a s op) ops

/-- The restored instance is accepted for the device and the previous one no longer is. -/
def Transferred (P : Primitives) (device : DeviceId) (previous : String) (s : State) : Prop :=
  (∃ now, sendRequest P s now = .authenticated device) ∧
  ∀ now bearer, authMiddleware P s.relay now bearer (some previous) ≠ .authenticated device

variable {P : Primitives} {platform : Platform} {a : Account} {s : State}
variable {device : DeviceId} {hash previous : String}

/-- No operation of the client replaces a lock. -/
theorem next_keeps_lock (h : s.relay.locks device = some hash) (op : Operation) :
    (next P platform a s op).relay.locks device = some hash := by
  cases op with
  | authenticate now sessionToken =>
    simp only [next, respond]
    cases s.relay.devices a.deviceId with
    | none => exact h
    | some row => cases hr : row.revoked <;> simpa [hr] using h
  | request now => exact h
  | syncBackup snapshot newToken =>
    simp only [next, syncBackup]
    split
    · exact h
    split
    · exact h
    · exact putBackup_keeps_lock rfl h
  | setCloudBackup enabled => exact h

theorem run_keeps_lock (h : s.relay.locks device = some hash) (ops : List Operation) :
    (run P platform a s ops).relay.locks device = some hash := by
  induction ops generalizing s with
  | nil => exact h
  | cons op ops ih => exact ih (next_keeps_lock h op)

/-- Under the previous instance's lock, whoever is accepted has its hash, and then the
previous instance is accepted with the same session. -/
theorem lock_prevents_transfer (h : s.relay.locks device = some (P.sha256 previous)) :
    ¬Transferred P device previous s := by
  rintro ⟨⟨now, haccept⟩, hreject⟩
  obtain ⟨token, header, hbearer, hsession, -, hhash⟩ := authenticated_locked h haccept
  exact hreject now (some token) (locked_authenticated hsession h rfl)

/-- Whatever the restored vault does, the device is never transferred to it. -/
theorem restore_never_transfers (relay : Relay) (row : BackupRow)
    (h : relay.locks a.deviceId = some (P.sha256 previous)) (ops : List Operation) :
    ¬Transferred P a.deviceId previous (run P platform a ⟨relay, restored row⟩ ops) :=
  lock_prevents_transfer (run_keeps_lock h ops)

/-- The real hashes of the two sample instance tokens. -/
def movePrimitives : Primitives where
  sha256 := fun token =>
    if token = "previous-instance" then
      "c48cb36d80e10820c5d384e3382723c347251b7cbd1f2b0a955c26a8d91301a2"
    else "2222703ebb8f2a6fd31e9b44e92ac9079c7454341740c49afa60a63883ba5e20"
  digest := fun _ => "cc8cd41cef907c4d216069122c4b89936211361f9050a717a1e37ad1862e952f"
  verifyChallenge := fun _ _ signature => signature == "signed"

def moveAccount : Account where
  lookupToken := "lookup"
  writerPublicKey := List.replicate 44 0
  fragment7Shard := []
  deviceId := "device"
  registered := true
  signBackup := fun _ => "signed"
  signDevice := fun _ => "signed"

def previousBody : BackupBody :=
  backupBody movePrimitives moveAccount ⟨0, true, false, none⟩ "previous-instance" false
    ⟨[0], List.replicate 16 1, "2026-01-01T00:00:00Z"⟩

/-- The relay after the previous instance's first upload. -/
def lockedRelay : Relay :=
  (sendBackup movePrimitives .desktop
    ⟨fun _ => none, fun _ => none, fun _ => some ⟨[], false, false⟩, []⟩ previousBody).2

theorem restore_never_transfers_sample :
    ¬Transferred movePrimitives "device" "previous-instance"
      (run movePrimitives .desktop moveAccount
        ⟨lockedRelay, restored (rowOf movePrimitives previousBody)⟩
        [.authenticate 0 "session", .request 1]) :=
  restore_never_transfers (a := moveAccount) lockedRelay _ (by decide) _

/-- Everything the restored vault can try: a new session, cloud backup, an upload. -/
def enableBackup : List Operation :=
  [.authenticate 0 "session", .setCloudBackup true,
    .syncBackup ⟨[1], List.replicate 16 1, "2026-01-02T00:00:00Z"⟩ "restored-instance",
    .request 1]

/-- The upload is refused, the restored instance stays rejected with a valid session, the
previous one stays accepted with the same session, and no other sequence does better. -/
theorem restored_instance_stays_rejected :
    (¬∃ ops, Transferred movePrimitives "device" "previous-instance"
      (run movePrimitives .desktop moveAccount
        ⟨lockedRelay, restored (rowOf movePrimitives previousBody)⟩ ops)) ∧
    sendRequest movePrimitives
      (run movePrimitives .desktop moveAccount
        ⟨lockedRelay, restored (rowOf movePrimitives previousBody)⟩ enableBackup) 1 =
      .vaultMoved ∧
    authMiddleware movePrimitives
      (run movePrimitives .desktop moveAccount
        ⟨lockedRelay, restored (rowOf movePrimitives previousBody)⟩ enableBackup).relay 1
      (some "session") (some "previous-instance") = .authenticated "device" := by
  refine ⟨?_, by decide, by decide⟩
  rintro ⟨ops, htransfer⟩
  have hlock : lockedRelay.locks "device" =
      some (movePrimitives.sha256 "previous-instance") := by decide
  exact lock_prevents_transfer (run_keeps_lock hlock ops) htransfer

end VaultMove
