import CryptoPigeon.TransitionSystem
import CryptoPigeon.VaultBackupClient

/-! # Backup attempts of one vault against the relay

One vault instance uploads under its own lookup token. An upload whose response is not
seen stays in flight and may reach the relay at any later time or never. `landed` is
history: the relay applied an upload since the client last learned the relay's version,
and the client did not see it. -/
namespace BackupSync

open TransitionSystem VaultBackupRelay VaultBackupClient

structure State where
  relay : Relay
  config : Config
  instanceToken : Option String
  inFlight : List BackupBody
  unlocked : Bool
  landed : Bool

/-- `elsewhere` is anything the relay does for other tokens and other devices. -/
inductive Event where
  | upload (snapshot : Sealed) (newToken : String) (seen : Bool)
  | arrive (b : BackupBody)
  | lock
  | unlock
  | elsewhere (relay : Relay)

variable (P : Primitives) (platform : Platform) (a : Account)

def uploadBody (s : State) (snapshot : Sealed) (newToken : String) : BackupBody :=
  backupBody P a s.config (s.instanceToken.getD newToken) false snapshot

def next (s : State) : Event → State
  | .upload snapshot newToken seen =>
    if s.config.cloudBackupEnabled = false then s
    else
      let body := uploadBody P a s snapshot newToken
      let named := { s with instanceToken := some (s.instanceToken.getD newToken) }
      if skipsUpload P platform s.config body then named
      else if seen then
        { named with
          relay := (sendBackup P platform s.relay body).2
          config := recordReply P platform s.config body (sendBackup P platform s.relay body).1 }
      else { named with inFlight := body :: s.inFlight }
  | .arrive b =>
    { s with
      relay := (sendBackup P platform s.relay b).2
      inFlight := s.inFlight.erase b
      landed := s.landed || (sendBackup P platform s.relay b).1 == .stored b.version }
  | .lock => { s with unlocked := false }
  | .unlock =>
    { s with
      config := unlockVersion s.config (getBackup s.relay a.lookupToken)
      unlocked := true
      landed := if s.config.shard7External then s.landed else false }
  | .elsewhere relay => { s with relay := relay }

/-- The snapshot is within the relay's limits and newly encrypted. -/
structure Fresh (s : State) (snapshot : Sealed) : Prop where
  size : 16 ≤ snapshot.ciphertext.length ∧ snapshot.ciphertext.length ≤ maxCiphertext
  version : s.config.backupVersion < maxVersion
  nonce : ∀ row, s.relay.backups a.lookupToken = some row → row.nonce ≠ snapshot.nonce
  digest : s.config.lastUploadedBackupSha256 ≠ some (P.digest snapshot.ciphertext)

def Enabled (s : State) : Event → Prop
  | .upload snapshot _ _ => Fresh P a s snapshot
  | .arrive b => b ∈ s.inFlight
  | .lock => s.unlocked = true
  | .unlock => s.unlocked = false
  | .elsewhere relay =>
    relay.backups a.lookupToken = s.relay.backups a.lookupToken ∧
    relay.locks a.deviceId = s.relay.locks a.deviceId ∧
    relay.devices a.deviceId = s.relay.devices a.deviceId

/-- The device, if registered, is live at the relay under the key it signs with. -/
def DeviceLive (r : Relay) : Prop :=
  a.registered = true → ∃ row, r.devices a.deviceId = some row ∧ row.revoked = false ∧
    ∀ p, P.verifyChallenge row.authPublicKey p (a.signDevice p) = true

/-- No other instance holds the device's lock. -/
def OwnLock (r : Relay) (instanceToken : Option String) : Prop :=
  r.locks a.deviceId = none ∨
    ∃ token, instanceToken = some token ∧ r.locks a.deviceId = some (P.sha256 token)

/-- In step with the relay, with nothing in flight. -/
structure Initial (s : State) : Prop where
  enabled : s.config.cloudBackupEnabled = true
  version : rowVersion (s.relay.backups a.lookupToken) = s.config.backupVersion
  writer : ∀ row, s.relay.backups a.lookupToken = some row →
    row.writerPublicKey = a.writerPublicKey
  device : DeviceLive P a s.relay
  lock : OwnLock P a s.relay s.instanceToken
  in_flight : s.inFlight = []
  landed : s.landed = false

def system : System State Event :=
  ⟨Initial P a, Enabled P a, next P platform a⟩

/-- The signatures of the vault's writer key verify under its public key. -/
structure Signs : Prop where
  key : a.writerPublicKey.length = 44
  verifies : ∀ p, P.verifyChallenge a.writerPublicKey p (a.signBackup p) = true

/-- An upload of this vault no newer than the successor of `version`. -/
structure Own (version : Nat) (instanceToken : Option String) (b : BackupBody) : Prop where
  token : b.lookupToken = a.lookupToken
  writer : b.writerPublicKey = a.writerPublicKey
  claim : b.claim = false
  version : b.version ≤ version + 1
  device : b.deviceId = none ∨ (b.deviceId = some a.deviceId ∧
    ∃ token, instanceToken = some token ∧ b.instanceHash = some (P.sha256 token))

structure Invariant (s : State) : Prop where
  enabled : s.config.cloudBackupEnabled = true
  version : rowVersion (s.relay.backups a.lookupToken) =
    s.config.backupVersion + if s.landed then 1 else 0
  writer : ∀ row, s.relay.backups a.lookupToken = some row →
    row.writerPublicKey = a.writerPublicKey
  device : DeviceLive P a s.relay
  lock : OwnLock P a s.relay s.instanceToken
  in_flight : ∀ b ∈ s.inFlight, Own P a s.config.backupVersion s.instanceToken b

section Steps

variable {P a} {s : State} {b : BackupBody}

@[simp] theorem uploadBody_lookupToken (snapshot : Sealed) (newToken : String) :
    (uploadBody P a s snapshot newToken).lookupToken = a.lookupToken := rfl

@[simp] theorem uploadBody_version (snapshot : Sealed) (newToken : String) :
    (uploadBody P a s snapshot newToken).version = s.config.backupVersion + 1 := rfl

@[simp] theorem uploadBody_nonce (snapshot : Sealed) (newToken : String) :
    (uploadBody P a s snapshot newToken).nonce = snapshot.nonce := rfl

@[simp] theorem uploadBody_ciphertext (snapshot : Sealed) (newToken : String) :
    (uploadBody P a s snapshot newToken).ciphertext = snapshot.ciphertext := rfl

@[simp] theorem uploadBody_writerPublicKey (snapshot : Sealed) (newToken : String) :
    (uploadBody P a s snapshot newToken).writerPublicKey = a.writerPublicKey := rfl

@[simp] theorem uploadBody_claim (snapshot : Sealed) (newToken : String) :
    (uploadBody P a s snapshot newToken).claim = false := rfl

theorem uploadBody_own (snapshot : Sealed) (newToken : String) :
    Own P a s.config.backupVersion (some (s.instanceToken.getD newToken))
      (uploadBody P a s snapshot newToken) := by
  refine ⟨rfl, rfl, rfl, Nat.le_refl _, ?_⟩
  cases hr : a.registered with
  | false => exact Or.inl (by simp [uploadBody, backupBody, unsignedBody, hr])
  | true =>
    refine Or.inr ⟨by simp [uploadBody, backupBody, unsignedBody, hr], _, rfl, ?_⟩
    simp [uploadBody, backupBody, unsignedBody, hr]

/-- Naming the instance keeps every lock and every body that was its own. -/
theorem named_invariant (h : Invariant P a s) (newToken : String) :
    Invariant P a { s with instanceToken := some (s.instanceToken.getD newToken) } := by
  refine ⟨h.enabled, h.version, h.writer, h.device, ?_, ?_⟩
  · rcases h.lock with hl | ⟨token, ht, hl⟩
    · exact Or.inl hl
    · exact Or.inr ⟨token, by simp [ht], hl⟩
  · intro b hb
    obtain ⟨h1, h2, h3, h4, h5⟩ := h.in_flight b hb
    refine ⟨h1, h2, h3, h4, ?_⟩
    rcases h5 with h5 | ⟨h5, token, ht, hh⟩
    · exact Or.inl h5
    · exact Or.inr ⟨h5, token, by simp [ht], hh⟩

/-- What the relay keeps of this vault when it handles an upload of this vault. -/
theorem sendBackup_keeps (h : Invariant P a s) (hb : Own P a s.config.backupVersion s.instanceToken b) :
    (∀ row, (sendBackup P platform s.relay b).2.backups a.lookupToken = some row →
      row.writerPublicKey = a.writerPublicKey) ∧
    DeviceLive P a (sendBackup P platform s.relay b).2 ∧
    OwnLock P a (sendBackup P platform s.relay b).2 s.instanceToken := by
  unfold sendBackup
  refine ⟨?_, ?_, ?_⟩
  · rw [← hb.token]
    rcases putBackup_row (P := P) (s := s.relay) (some b.lookupToken)
      (digestHeader P platform b) hb.claim with ⟨-, he⟩ | ⟨-, he, -⟩
    · rw [he, hb.token]; exact h.writer
    · rw [he]
      intro row hrow
      cases hrow
      exact hb.writer
  · unfold DeviceLive
    rw [putBackup_keeps_devices]
    exact h.device
  · rcases putBackup_lock (P := P) (s := s.relay) (b := b) (some b.lookupToken)
      (digestHeader P platform b) a.deviceId with he | ⟨hd, he⟩
    · unfold OwnLock
      rw [he]; exact h.lock
    · rcases hb.device with hnone | ⟨-, token, ht, hh⟩
      · rw [hnone] at hd; cases hd
      · exact Or.inr ⟨token, ht, by rw [he, hh]⟩

theorem upload_screened (hsigns : Signs P a) {snapshot : Sealed} (hf : Fresh P a s snapshot)
    (newToken : String) :
    screenPut P (uploadBody P a s snapshot newToken)
      (some (uploadBody P a s snapshot newToken).lookupToken)
      (digestHeader P platform (uploadBody P a s snapshot newToken)) = none := by
  have hsize := hf.size
  have hversion := hf.version
  have hv : ¬((uploadBody P a s snapshot newToken).version = 0 ∨
      maxVersion < (uploadBody P a s snapshot newToken).version) := by
    simp only [uploadBody_version]
    omega
  have hc : ¬((uploadBody P a s snapshot newToken).ciphertext.length < 16 ∨
      maxCiphertext < (uploadBody P a s snapshot newToken).ciphertext.length) := by
    simp only [uploadBody_ciphertext]
    omega
  have hk : ¬((uploadBody P a s snapshot newToken).writerPublicKey.length ≠ 44 ∨
      P.verifyChallenge (uploadBody P a s snapshot newToken).writerPublicKey
        (backupSigningPayload (uploadBody P a s snapshot newToken))
        (uploadBody P a s snapshot newToken).signature = false) := by
    rintro (hk | hk)
    · exact hk hsigns.key
    · have hok := hsigns.verifies (backupSigningPayload (uploadBody P a s snapshot newToken))
      change P.verifyChallenge a.writerPublicKey _ (a.signBackup _) = false at hk
      rw [show backupSigningPayload (uploadBody P a s snapshot newToken) =
        backupSigningPayload (unsignedBody P a (s.instanceToken.getD newToken) false
          (s.config.backupVersion + 1) snapshot) from rfl] at hk hok
      rw [hok] at hk
      cases hk
  unfold screenPut
  rw [if_neg hv, if_neg (by simp), if_neg hc, if_neg hk, if_neg]
  cases platform <;> simp [digestHeader]

/-- The device proof of this vault is refused by neither the key nor the lock. -/
theorem upload_device_admitted (h : Invariant P a s) (snapshot : Sealed) (newToken : String)
    (reply : PutReply) :
    checkDevice P s.relay (uploadBody P a s snapshot newToken) ≠ .refused reply := by
  cases hr : a.registered with
  | false => simp [checkDevice, uploadBody, backupBody, unsignedBody, hr]
  | true =>
    obtain ⟨row, hrow, hlive, hverify⟩ := h.device hr
    have hproof : ∀ hash, deviceVerified P s.relay a.deviceId hash
        (a.signDevice (.vaultInstance hash)) = true := by
      intro hash
      simp [deviceVerified, hrow, hlive, hverify]
    simp only [checkDevice, uploadBody, backupBody, unsignedBody, hr, if_true, hproof,
      Bool.true_eq_false, if_false]
    rcases h.lock with hl | ⟨token, ht, hl⟩
    · simp [hl]
    · simp [hl, ht]

theorem upload_not_replayed {snapshot : Sealed} (hf : Fresh P a s snapshot)
    (newToken : String) :
    replayed P (s.relay.backups a.lookupToken) (uploadBody P a s snapshot newToken) = false := by
  cases hrow : s.relay.backups a.lookupToken with
  | none => rfl
  | some row =>
    have hne : (row.nonce == snapshot.nonce) = false := by simpa using hf.nonce row hrow
    simp [replayed, identical, hne]

theorem upload_conflicts (h : Invariant P a s) {snapshot : Sealed} (hf : Fresh P a s snapshot)
    (newToken : String) :
    conflicts P (s.relay.backups a.lookupToken) (uploadBody P a s snapshot newToken) =
      s.landed := by
  have hwriter : foreignWriter (s.relay.backups a.lookupToken)
      (uploadBody P a s snapshot newToken) = false := by
    cases hrow : s.relay.backups a.lookupToken with
    | none => rfl
    | some row => simp [foreignWriter, h.writer row hrow]
  have hv := h.version
  unfold conflicts
  rw [hwriter, upload_not_replayed hf, hv]
  cases s.landed <;> simp

/-- The relay's answer to an attempt that gets through both ways. -/
theorem upload_reply (hsigns : Signs P a) (h : Invariant P a s) {snapshot : Sealed}
    (hf : Fresh P a s snapshot) (newToken : String) :
    (sendBackup P platform s.relay (uploadBody P a s snapshot newToken)).1 =
      if s.landed then .backupConflict else .stored (s.config.backupVersion + 1) := by
  have hc := upload_conflicts h hf newToken
  unfold sendBackup putBackup
  rw [upload_screened platform hsigns hf]
  dsimp only
  rw [show (uploadBody P a s snapshot newToken).lookupToken = a.lookupToken from rfl, hc]
  cases hl : s.landed with
  | true => simp
  | false =>
    have hr := upload_not_replayed hf newToken
    have finish : ∀ r : Relay, (finishPut P r (uploadBody P a s snapshot newToken)
        (s.relay.backups a.lookupToken)).1 = .stored (s.config.backupVersion + 1) := by
      intro r
      simp [finishPut, hr]
    rw [if_neg (by simp), if_neg (by simp)]
    cases hd : checkDevice P s.relay (uploadBody P a s snapshot newToken) with
    | absent => exact finish _
    | refused reply => exact absurd hd (upload_device_admitted h snapshot newToken reply)
    | proved device hash => exact finish _

theorem initial_invariant (h : Initial P a s) : Invariant P a s := by
  refine ⟨h.enabled, ?_, h.writer, h.device, h.lock, ?_⟩
  · rw [h.version, h.landed]; rfl
  · intro b hb
    rw [h.in_flight] at hb
    cases hb

/-- The config after an accepted upload that stored the next version. -/
theorem recordReply_stored {c : Config} {v : Nat} (hv : b.version = v) :
    (recordReply P platform c b (.stored v)).backupVersion = v ∧
    (recordReply P platform c b (.stored v)).cloudBackupEnabled = c.cloudBackupEnabled := by
  cases platform with
  | desktop => simp [recordReply, PutReply.Accepted, hv]
  | android => simp [recordReply, acknowledgedVersion, hv]

theorem recordReply_conflict {c : Config} :
    recordReply P platform c b .backupConflict = c := by
  cases platform with
  | desktop => simp [recordReply, PutReply.Accepted]
  | android => simp [recordReply, acknowledgedVersion]

/-- The row under the vault's token after one of its own uploads was handled. -/
theorem sendBackup_version (r : Relay) {version : Nat} {instanceToken : Option String}
    (hb : Own P a version instanceToken b) :
    ((sendBackup P platform r b).1 ≠ .stored b.version ∧
      rowVersion ((sendBackup P platform r b).2.backups a.lookupToken) =
        rowVersion (r.backups a.lookupToken)) ∨
    ((sendBackup P platform r b).1 = .stored b.version ∧
      rowVersion ((sendBackup P platform r b).2.backups a.lookupToken) = b.version ∧
      b.version = rowVersion (r.backups a.lookupToken) + 1) := by
  rw [← hb.token]
  rcases putBackup_row (P := P) (s := r) (some b.lookupToken)
    (digestHeader P platform b) hb.claim with ⟨hr, he⟩ | ⟨hr, he, hv⟩
  · exact Or.inl ⟨hr, congrArg rowVersion he⟩
  · exact Or.inr ⟨hr, congrArg rowVersion he, hv⟩

theorem upload_seen_invariant (hsigns : Signs P a) (h : Invariant P a s) {snapshot : Sealed}
    (hf : Fresh P a s snapshot) (newToken : String) :
    Invariant P a
      { s with
        instanceToken := some (s.instanceToken.getD newToken)
        relay := (sendBackup P platform s.relay (uploadBody P a s snapshot newToken)).2
        config := recordReply P platform s.config (uploadBody P a s snapshot newToken)
          (sendBackup P platform s.relay (uploadBody P a s snapshot newToken)).1 } := by
  have hn := named_invariant h newToken
  have hown := uploadBody_own (P := P) (a := a) (s := s) snapshot newToken
  obtain ⟨hwriter, hdevice, hlock⟩ := sendBackup_keeps platform hn hown
  have hreply := upload_reply platform hsigns h hf newToken
  have hversion := sendBackup_version platform s.relay hown
  have hv := h.version
  cases hl : s.landed with
  | true =>
    rw [hl] at hreply
    refine ⟨?_, ?_, hwriter, hdevice, hlock, ?_⟩
    · rw [hreply]
      simpa [recordReply_conflict platform] using h.enabled
    · rcases hversion with ⟨-, he⟩ | ⟨he, -, -⟩
      · change rowVersion ((sendBackup P platform s.relay _).2.backups _) = _
        rw [he, hv, hreply, hl]
        simp [recordReply_conflict platform]
      · change (sendBackup P platform s.relay _).1 = _ at he
        rw [hreply] at he; cases he
    · rw [hreply]
      simpa [recordReply_conflict platform] using hn.in_flight
  | false =>
    rw [hl] at hreply hv
    obtain ⟨hstored, henabled⟩ := recordReply_stored (P := P) (c := s.config) platform
      (uploadBody_version (P := P) (a := a) (s := s) snapshot newToken)
    refine ⟨?_, ?_, hwriter, hdevice, hlock, ?_⟩
    · rw [hreply]
      exact henabled.trans h.enabled
    · rcases hversion with ⟨hne, -⟩ | ⟨-, he, -⟩
      · exact absurd hreply hne
      · change rowVersion ((sendBackup P platform s.relay _).2.backups _) = _
        rw [hreply]
        simp only [Bool.false_eq_true, if_false]
        rw [hstored]
        exact he
    · intro b hb
      obtain ⟨h1, h2, h3, h4, h5⟩ := hn.in_flight b hb
      refine ⟨h1, h2, h3, ?_, h5⟩
      rw [hreply]
      change b.version ≤ (recordReply P platform s.config _ (.stored _)).backupVersion + 1
      rw [hstored]
      change b.version ≤ s.config.backupVersion + 1 at h4
      omega

theorem arrive_invariant (h : Invariant P a s) (hb : b ∈ s.inFlight) :
    Invariant P a (next P platform a s (.arrive b)) := by
  have hown := h.in_flight b hb
  obtain ⟨hwriter, hdevice, hlock⟩ := sendBackup_keeps platform h hown
  have hv := h.version
  have hle := hown.version
  refine ⟨h.enabled, ?_, hwriter, hdevice, hlock, ?_⟩
  · change rowVersion ((sendBackup P platform s.relay b).2.backups _) =
      s.config.backupVersion + if (s.landed || _) then 1 else 0
    rcases sendBackup_version platform s.relay hown with ⟨hne, he⟩ | ⟨hr, he, hsucc⟩
    · rw [he, hv]
      simp [hne]
    · rw [he]
      cases hl : s.landed with
      | true =>
        -- a second upload cannot land: no body is two versions ahead
        rw [hl, if_pos rfl] at hv
        omega
      | false =>
        rw [hl] at hv
        simp only [hr, beq_self_eq_true, Bool.or_true, if_true]
        simp only [Bool.false_eq_true, if_false] at hv
        omega
  · intro c hc
    exact h.in_flight c (List.mem_of_mem_erase hc)

theorem unlock_invariant (h : Invariant P a s) :
    Invariant P a (next P platform a s .unlock) := by
  have hv := h.version
  cases hx : s.config.shard7External with
  | true =>
    have hsame : unlockVersion s.config (getBackup s.relay a.lookupToken) = s.config := by
      simp [unlockVersion, hx]
    refine ⟨?_, ?_, h.writer, h.device, h.lock, ?_⟩
    · simpa [next, hsame] using h.enabled
    · simpa [next, hsame, hx] using hv
    · intro b hb
      obtain ⟨h1, h2, h3, h4, h5⟩ := h.in_flight b hb
      exact ⟨h1, h2, h3, by simpa [next, hsame] using h4, h5⟩
  | false =>
    have hset : (unlockVersion s.config (getBackup s.relay a.lookupToken)).backupVersion =
        rowVersion (s.relay.backups a.lookupToken) ∧
        (unlockVersion s.config (getBackup s.relay a.lookupToken)).cloudBackupEnabled =
          s.config.cloudBackupEnabled := by
      unfold unlockVersion getBackup
      cases hrow : s.relay.backups a.lookupToken with
      | none =>
        rw [hrow] at hv
        simp only [rowVersion] at hv ⊢
        simp only [hx, Bool.false_eq_true, if_false]
        exact ⟨by omega, trivial⟩
      | some row => simp [hx, rowVersion]
    refine ⟨?_, ?_, h.writer, h.device, h.lock, ?_⟩
    · exact hset.2.trans h.enabled
    · simp [next, hx, hset.1]
    · intro b hb
      obtain ⟨h1, h2, h3, h4, h5⟩ := h.in_flight b hb
      refine ⟨h1, h2, h3, ?_, h5⟩
      change b.version ≤ (unlockVersion s.config _).backupVersion + 1
      rw [hset.1]
      omega

theorem step_preserves_invariant (hsigns : Signs P a) (h : Invariant P a s) {e : Event}
    (he : Enabled P a s e) : Invariant P a (next P platform a s e) := by
  cases e with
  | upload snapshot newToken seen =>
    have hn := named_invariant h newToken
    simp only [next]
    split
    · exact h
    split
    · exact hn
    split
    · exact upload_seen_invariant platform hsigns h he newToken
    · refine ⟨hn.enabled, hn.version, hn.writer, hn.device, hn.lock, ?_⟩
      intro b hb
      rcases List.mem_cons.mp hb with rfl | hb
      · exact uploadBody_own snapshot newToken
      · exact hn.in_flight b hb
  | arrive b => exact arrive_invariant platform h he
  | lock => exact ⟨h.enabled, h.version, h.writer, h.device, h.lock, h.in_flight⟩
  | unlock => exact unlock_invariant platform h
  | elsewhere relay =>
    obtain ⟨hbackups, hlocks, hdevices⟩ := he
    refine ⟨h.enabled, ?_, ?_, ?_, ?_, h.in_flight⟩
    · change rowVersion (relay.backups a.lookupToken) = _
      rw [hbackups]; exact h.version
    · intro row hrow
      change relay.backups a.lookupToken = some row at hrow
      rw [hbackups] at hrow
      exact h.writer row hrow
    · intro hr
      change ∃ row, relay.devices a.deviceId = some row ∧ _
      rw [hdevices]; exact h.device hr
    · change OwnLock P a relay s.instanceToken
      unfold OwnLock
      rw [hlocks]; exact h.lock

theorem reachable_in_step (hsigns : Signs P a) (h : Reachable (system P platform a) s) :
    Invariant P a s :=
  reachable_invariant (fun _ hi => initial_invariant hi)
    (fun _ _ hs he => step_preserves_invariant platform hsigns hs he) h

/-- The next attempt that gets through is accepted exactly when the relay applied nothing
unseen since the client last learned its version; then the copy there is the new one. -/
theorem attempt_accepted_iff_nothing_landed (hsigns : Signs P a)
    (h : Reachable (system P platform a) s) {snapshot : Sealed} (hf : Fresh P a s snapshot)
    (newToken : String) :
    ((sendBackup P platform s.relay (uploadBody P a s snapshot newToken)).1.Accepted ↔
      s.landed = false) ∧
    ((sendBackup P platform s.relay (uploadBody P a s snapshot newToken)).1 = .backupConflict ↔
      s.landed = true) ∧
    (s.landed = false →
      (next P platform a s (.upload snapshot newToken true)).relay.backups a.lookupToken =
        some (rowOf P (uploadBody P a s snapshot newToken))) := by
  have hi := reachable_in_step platform hsigns h
  have hreply := upload_reply platform hsigns hi hf newToken
  refine ⟨?_, ?_, fun hl => ?_⟩
  · rw [hreply]
    cases s.landed <;> simp [PutReply.Accepted]
  · rw [hreply]
    cases s.landed <;> simp
  · rw [hl] at hreply
    have hskip : skipsUpload P platform s.config (uploadBody P a s snapshot newToken) = false := by
      have hne : (s.config.lastUploadedBackupSha256 == some (P.digest snapshot.ciphertext)) =
          false := by simpa using hf.digest
      simp [skipsUpload, hne]
    simp only [next, hi.enabled, hskip, Bool.true_eq_false, Bool.false_eq_true, if_false, if_true]
    rcases putBackup_row (P := P) (s := s.relay) (b := uploadBody P a s snapshot newToken)
      (some a.lookupToken) (digestHeader P platform (uploadBody P a s snapshot newToken)) rfl with
      ⟨hne, -⟩ | ⟨-, hrow, -⟩
    · exact absurd hreply hne
    · exact hrow

end Steps

/-- The real digests of the sample inputs; the sample signatures all verify. -/
def samplePrimitives : Primitives where
  sha256 := fun _ => "c48cb36d80e10820c5d384e3382723c347251b7cbd1f2b0a955c26a8d91301a2"
  digest := fun b =>
    if b = List.replicate 16 1 then
      "cc8cd41cef907c4d216069122c4b89936211361f9050a717a1e37ad1862e952f"
    else "292afde3b64e6636d68f1120d9242f1f85e38ef7bf306e4407c2303eb63791ef"
  verifyChallenge := fun _ _ signature => signature == "signed"

def sampleAccount : Account where
  lookupToken := "lookup"
  writerPublicKey := List.replicate 44 0
  fragment7Shard := []
  deviceId := "device"
  registered := false
  signBackup := fun _ => "signed"
  signDevice := fun _ => "signed"

/-- A vault that holds its seventh share in a file, before its first cloud backup. -/
def firstBackup : State where
  relay := ⟨fun _ => none, fun _ => none, fun _ => none, []⟩
  config := ⟨0, true, true, none⟩
  instanceToken := none
  inFlight := []
  unlocked := true
  landed := false

def sampleSnapshot (k : UInt8) : Sealed := ⟨[k], List.replicate 16 k, "2026-01-01T00:00:00Z"⟩

theorem firstBackup_initial : Initial samplePrimitives sampleAccount firstBackup :=
  ⟨rfl, rfl, fun _ hr => (by cases hr), fun hr => (by cases hr), Or.inl rfl, rfl, rfl⟩

theorem sampleSigns : Signs samplePrimitives sampleAccount := ⟨rfl, fun _ => rfl⟩

theorem first_attempt_accepted :
    (sendBackup samplePrimitives .desktop firstBackup.relay
      (uploadBody samplePrimitives sampleAccount firstBackup (sampleSnapshot 1)
        "previous-instance")).1.Accepted := by
  have hf : Fresh samplePrimitives sampleAccount firstBackup (sampleSnapshot 1) :=
    ⟨by decide, by decide, fun _ hr => (by cases hr), by decide⟩
  exact (attempt_accepted_iff_nothing_landed .desktop sampleSigns
    (reachable_initial firstBackup_initial) hf "previous-instance").1.mpr rfl

/-- The first backup is applied, its answer is lost, the vault is locked and unlocked. -/
def lostAnswer : List Event :=
  [.upload (sampleSnapshot 1) "previous-instance" false,
    .arrive (uploadBody samplePrimitives sampleAccount firstBackup (sampleSnapshot 1)
      "previous-instance"),
    .lock, .unlock]

/-- An unlock through the saved file does not re-read the version, so the next attempt
that gets through is a conflict. -/
theorem lost_answer_wedges_backup :
    Reachable (system samplePrimitives .desktop sampleAccount)
      ((system samplePrimitives .desktop sampleAccount).replay firstBackup lostAnswer) ∧
    (sendBackup samplePrimitives .desktop
      ((system samplePrimitives .desktop sampleAccount).replay firstBackup lostAnswer).relay
      (uploadBody samplePrimitives sampleAccount
        ((system samplePrimitives .desktop sampleAccount).replay firstBackup lostAnswer)
        (sampleSnapshot 2) "previous-instance")).1 = .backupConflict := by
  refine ⟨valid_trace_reachable (reachable_initial firstBackup_initial) ?_, by decide⟩
  refine ⟨⟨by decide, by decide, fun _ hr => (by cases hr), by decide⟩, ?_, rfl, rfl, trivial⟩
  exact List.mem_cons_self

end BackupSync
