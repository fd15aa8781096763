import CryptoPigeon.TransitionSystem
import CryptoPigeon.VaultBackupRelay
import Mathlib

/-! # The life of a backup record

Uploads and deletions by anyone, in any order. A record keeps its writer until it is
deleted, and what it holds changes only with the next version. An upload that is sent again
finds its own record: it is skipped, unless it claims, when the lock and the end of the
sessions are carried out once more. -/
namespace BackupRecords

open TransitionSystem VaultBackupRelay

/-- A deletion asks for the writer's key first, and deletes by token and version after. -/
structure State where
  relay : Relay
  deletions : List (LookupToken × Nat)

inductive Event where
  | put (b : BackupBody) (pathToken : Option LookupToken) (suppliedDigest : Option String)
  | get (token : LookupToken)
  | checkDelete (token : LookupToken) (version : Nat) (signature : String)
  | commitDelete (token : LookupToken) (version : Nat)
  | login (x : Session)

/-- The token and the version of a deletion that was let through. -/
def Enabled (s : State) : Event → Prop
  | .commitDelete token version => (token, version) ∈ s.deletions
  | _ => True

def mayDelete (P : Primitives) (s : Relay) (token : LookupToken) (version : Nat) (signature : String) :
    Bool :=
  match s.backups token with
  | none => false
  | some row => P.verifyChallenge row.writerPublicKey (.backupDelete token version) signature

/-- `DELETE FROM vault_backups WHERE lookup_token=$1 AND version=$2`. -/
def deleteRow (token : LookupToken) (version : Nat) (s : Relay) : Relay :=
  match s.backups token with
  | none => s
  | some row =>
    if row.version = version then { s with backups := Function.update s.backups token none } else s

def next (P : Primitives) (s : State) : Event → State
  | .put b pathToken suppliedDigest =>
    { s with relay := (putBackup P s.relay b pathToken suppliedDigest).2 }
  | .get _ => s
  | .checkDelete token version signature =>
    { s with
      deletions :=
        if mayDelete P s.relay token version signature then (token, version) :: s.deletions
        else s.deletions }
  | .commitDelete token version =>
    { relay := deleteRow token version s.relay
      deletions := s.deletions.erase (token, version) }
  | .login x => { s with relay := { s.relay with sessions := x :: s.relay.sessions } }

/-- A digest that was stored is that of the ciphertext. -/
def Consistent (P : Primitives) (s : Relay) : Prop :=
  ∀ token row, s.backups token = some row →
    row.ciphertextSha256 = none ∨ row.ciphertextSha256 = some (P.digest row.ciphertext)

def system (P : Primitives) : System State Event :=
  ⟨fun s => Consistent P s.relay ∧ s.deletions = [], Enabled, next P⟩

/-- The columns that only change with the version. -/
structure Kept (a b : BackupRow) : Prop where
  version : b.version = a.version
  nonce : b.nonce = a.nonce
  ciphertext : b.ciphertext = a.ciphertext
  fragment7Shard : b.fragment7Shard = a.fragment7Shard
  deviceId : b.deviceId = a.deviceId
  instanceHash : b.instanceHash = a.instanceHash
  deviceSignature : b.deviceSignature = a.deviceSignature
  claim : b.claim = a.claim

/-- The row is that of a body which its writer signed. -/
def Signed (P : Primitives) (token : LookupToken) (row : BackupRow) : Prop :=
  ∃ b, row = rowOf P b ∧ b.lookupToken = token ∧
    P.verifyChallenge row.writerPublicKey (backupSigningPayload b) b.signature = true

/-- What one step may make of a record. -/
structure RowLaw (P : Primitives) (token : LookupToken) (a b : BackupRow) : Prop where
  writer : b.writerPublicKey = a.writerPublicKey
  columns : Kept a b ∨ (b.version = a.version + 1 ∧ Signed P token b)

/-- An upload that must be refused. -/
inductive Improper (P : Primitives) (s : Relay) (b : BackupBody) : Prop where
  | foreign (row : BackupRow) (found : s.backups b.lookupToken = some row)
      (writer : row.writerPublicKey ≠ b.writerPublicKey)
  | version (skipped : b.version ≠ rowVersion (s.backups b.lookupToken) + 1)
      (fresh : replayed P (s.backups b.lookupToken) b = false ∨
        b.version ≠ rowVersion (s.backups b.lookupToken))
  | incomplete (some : b.deviceId.isSome ∨ b.instanceHash.isSome ∨ b.deviceSignature.isSome)
      (missing : b.deviceId = none ∨ b.instanceHash = none ∨ b.deviceSignature = none)
  | unproved (device : DeviceId) (hash signature : String) (named : b.deviceId = some device)
      (instance_ : b.instanceHash = some hash) (proof : b.deviceSignature = some signature)
      (invalid : deviceVerified P s device hash signature = false)
  | moved (device : DeviceId) (hash other : String) (named : b.deviceId = some device)
      (instance_ : b.instanceHash = some hash) (locked : s.locks device = some other)
      (differs : other ≠ hash) (unclaimed : b.claim = false)

section Rows

variable {P : Primitives} {s : Relay} {b : BackupBody} {pathToken : Option LookupToken}
variable {suppliedDigest : Option String}

theorem screenPut_verified (h : screenPut P b pathToken suppliedDigest = none) :
    P.verifyChallenge b.writerPublicKey (backupSigningPayload b) b.signature = true := by
  unfold screenPut at h
  split at h
  · cases h
  · split at h
    · cases h
    · split at h
      · cases h
      · split at h
        · cases h
        · next hkey => simpa using fun hv => hkey (.inr hv)

theorem identical_kept (hdigest : Function.Injective P.digest) {row : BackupRow}
    (hrow : row.ciphertextSha256 = none ∨ row.ciphertextSha256 = some (P.digest row.ciphertext))
    (h : identical P row b = true) (hversion : b.version = row.version) :
    (rowOf P b).writerPublicKey = row.writerPublicKey ∧ Kept row (rowOf P b) := by
  simp only [identical, Bool.and_eq_true, beq_iff_eq] at h
  obtain ⟨⟨⟨⟨⟨⟨⟨hd, hwriter⟩, hnonce⟩, hfragment⟩, hdevice⟩, hinstance⟩, hsignature⟩, hclaim⟩ := h
  have hcipher : b.ciphertext = row.ciphertext := by
    refine hdigest ?_
    obtain hnone | hsome := hrow
    · rw [hnone] at hd
      exact hd.symm
    · rw [hsome] at hd
      exact hd.symm
  exact ⟨hwriter.symm, hversion, hnonce.symm, hcipher, hfragment.symm, hdevice.symm, hinstance.symm,
    hsignature.symm, hclaim.symm⟩

/-- What an upload leaves under its token: the row it found, or its own. -/
theorem putBackup_stores (P : Primitives) (s : Relay) (b : BackupBody)
    (pathToken : Option LookupToken) (suppliedDigest : Option String) :
    (putBackup P s b pathToken suppliedDigest).2.backups = s.backups ∨
      (screenPut P b pathToken suppliedDigest = none ∧
        conflicts P (s.backups b.lookupToken) b = false ∧
        (putBackup P s b pathToken suppliedDigest).2.backups =
          Function.update s.backups b.lookupToken (some (rowOf P b))) := by
  have finish (r : Relay) (hr : r.backups = s.backups) :
      (finishPut P r b (s.backups b.lookupToken)).2.backups = s.backups ∨
        (finishPut P r b (s.backups b.lookupToken)).2.backups =
          Function.update s.backups b.lookupToken (some (rowOf P b)) := by
    unfold finishPut
    split
    · exact .inl hr
    · exact .inr (by simp [storeBackup, hr])
  rcases putBackup_cases P s b pathToken suppliedDigest with
    ⟨reply, -, he⟩ | ⟨hscreen, hc, ⟨-, he⟩ | ⟨dev, h', -, he⟩⟩
  · exact .inl (by rw [he])
  · rw [he]
    exact (finish s rfl).imp_right fun h => ⟨hscreen, hc, h⟩
  · rw [he]
    exact (finish _ (takeLock_backups _ _ _)).imp_right fun h => ⟨hscreen, hc, h⟩

theorem conflicts_row (h : conflicts P (s.backups b.lookupToken) b = false) {row : BackupRow}
    (hrow : s.backups b.lookupToken = some row) :
    row.writerPublicKey = b.writerPublicKey ∧
      (b.version = row.version + 1 ∨ (identical P row b = true ∧ b.version = row.version)) := by
  rw [hrow] at h
  simp only [conflicts, foreignWriter, rowVersion, replayed, Bool.or_eq_false_iff,
    bne_eq_false_iff_eq, Bool.and_eq_false_iff, Bool.not_eq_false', Bool.and_eq_true, beq_iff_eq] at h
  exact h

theorem putBackup_rowLaw (hdigest : Function.Injective P.digest) (hs : Consistent P s)
    (pathToken : Option LookupToken) (suppliedDigest : Option String) {token : LookupToken}
    {row row' : BackupRow} (hrow : s.backups token = some row)
    (hrow' : (putBackup P s b pathToken suppliedDigest).2.backups token = some row') :
    RowLaw P token row row' := by
  have hrefl : RowLaw P token row row := ⟨rfl, .inl ⟨rfl, rfl, rfl, rfl, rfl, rfl, rfl, rfl⟩⟩
  obtain heq | ⟨hscreen, hc, heq⟩ := putBackup_stores P s b pathToken suppliedDigest
  · rw [heq] at hrow'
    cases hrow.symm.trans hrow'
    exact hrefl
  · rw [heq] at hrow'
    by_cases htoken : token = b.lookupToken
    · subst htoken
      rw [Function.update_self] at hrow'
      cases hrow'
      obtain ⟨hwriter, hnext | ⟨hidentical, hversion⟩⟩ := conflicts_row hc hrow
      · exact ⟨hwriter.symm, .inr ⟨hnext, b, rfl, rfl, screenPut_verified hscreen⟩⟩
      · obtain ⟨hkey, hkept⟩ := identical_kept hdigest (hs _ row hrow) hidentical hversion
        exact ⟨hkey, .inl hkept⟩
    · rw [Function.update_of_ne htoken] at hrow'
      cases hrow.symm.trans hrow'
      exact hrefl

/-- A record begins with version 1, signed by its writer. -/
theorem putBackup_creates {token : LookupToken} {row : BackupRow} (hnone : s.backups token = none)
    (hrow : (putBackup P s b pathToken suppliedDigest).2.backups token = some row) :
    row.version = 1 ∧ Signed P token row := by
  obtain heq | ⟨hscreen, hc, heq⟩ := putBackup_stores P s b pathToken suppliedDigest
  · rw [heq, hnone] at hrow
    cases hrow
  · rw [heq] at hrow
    by_cases htoken : token = b.lookupToken
    · subst htoken
      rw [Function.update_self] at hrow
      cases hrow
      rw [hnone] at hc
      refine ⟨?_, b, rfl, rfl, screenPut_verified hscreen⟩
      have hversion : b.version = 1 := by simpa [conflicts, foreignWriter, rowVersion, replayed] using hc
      exact hversion
    · rw [Function.update_of_ne htoken, hnone] at hrow
      cases hrow

theorem improper_refused (h : Improper P s b) :
    ¬(putBackup P s b pathToken suppliedDigest).1.Accepted ∧
      (putBackup P s b pathToken suppliedDigest).2 = s := by
  rcases putBackup_cases P s b pathToken suppliedDigest with
    ⟨reply, hno, he⟩ | ⟨-, hc, hdevice⟩
  · rw [he]
    exact ⟨hno, rfl⟩
  · -- none of the improper uploads passes the checks
    exfalso
    have hproof : checkDevice P s b = .absent ∨ ∃ device hash, checkDevice P s b = .proved device hash := by
      obtain ⟨h, _⟩ | ⟨device, hash, h, _⟩ := hdevice
      · exact .inl h
      · exact .inr ⟨device, hash, h⟩
    cases h with
    | foreign row found writer => exact writer (conflicts_row hc found).1
    | version skipped fresh =>
      simp only [conflicts, Bool.or_eq_false_iff, Bool.and_eq_false_iff, bne_eq_false_iff_eq,
        Bool.not_eq_false', Bool.and_eq_true, beq_iff_eq] at hc
      obtain heq | ⟨hreplayed, hsame⟩ := hc.2
      · exact skipped heq
      · obtain hnot | hne := fresh
        · cases hreplayed.symm.trans hnot
        · exact hne hsame
    | incomplete some missing =>
      have hrefused : checkDevice P s b = .refused .internalError := by
        unfold checkDevice
        cases hd : b.deviceId <;> cases hi : b.instanceHash <;> cases hg : b.deviceSignature <;>
          simp_all
      obtain h | ⟨_, _, h⟩ := hproof
      · cases hrefused.symm.trans h
      · cases hrefused.symm.trans h
    | unproved device hash signature named instance_ proof invalid =>
      have hrefused : checkDevice P s b = .refused .invalidDeviceProof := by
        unfold checkDevice
        rw [named, instance_, proof]
        exact if_pos invalid
      obtain h | ⟨_, _, h⟩ := hproof
      · cases hrefused.symm.trans h
      · cases hrefused.symm.trans h
    | moved device hash other named instance_ locked differs unclaimed =>
      obtain h | ⟨dev, hash', h⟩ := hproof
      · unfold checkDevice at h
        rw [named, instance_] at h
        cases hg : b.deviceSignature with
        | none => rw [hg] at h; cases h
        | some signature =>
          rw [hg] at h
          dsimp only at h
          split at h
          · cases h
          · split at h <;> cases h
      · obtain ⟨hdev, hhash, hallowed⟩ := checkDevice_proved h
        cases named.symm.trans hdev
        cases instance_.symm.trans hhash
        obtain hnone | hsame | hclaim := hallowed
        · cases locked.symm.trans hnone
        · exact differs (Option.some.inj (locked.symm.trans hsame))
        · cases hclaim.symm.trans unclaimed

end Rows

section Replays

variable {P : Primitives} {s t : Relay} {b : BackupBody} {pathToken : Option LookupToken}
variable {suppliedDigest : Option String}

/-- Carrying out a claim once more would show: another lock is there, or a session. -/
def Reclaims (P : Primitives) (s : Relay) (b : BackupBody) : Prop :=
  b.claim = true ∧ ∃ device hash, checkDevice P s b = .proved device hash ∧
    (s.locks device ≠ some hash ∨ ∃ x ∈ s.sessions, x.deviceId = device)

/-- The record is the one an accepted upload left, for that upload. -/
theorem accepted_row (h : (putBackup P s b pathToken suppliedDigest).1.Accepted)
    (ht : t.backups b.lookupToken =
      (putBackup P s b pathToken suppliedDigest).2.backups b.lookupToken) :
    screenPut P b pathToken suppliedDigest = none ∧ ∃ row, t.backups b.lookupToken = some row ∧
      identical P row b = true ∧ (b.claim = true → row = rowOf P b) ∧
      (b.version = row.version ∨ b.version = row.version + 1) := by
  have hstored (row : BackupRow) (hrow : row = rowOf P b) :
      identical P row b = true ∧ (b.claim = true → row = rowOf P b) ∧
        (b.version = row.version ∨ b.version = row.version + 1) := by
    subst hrow
    exact ⟨by simp [identical, rowOf], fun _ => rfl, .inl rfl⟩
  have finish (r : Relay) (hr : r.backups = s.backups)
      (hc : conflicts P (s.backups b.lookupToken) b = false)
      (hfinish : t.backups b.lookupToken =
        (finishPut P r b (s.backups b.lookupToken)).2.backups b.lookupToken) :
      ∃ row, t.backups b.lookupToken = some row ∧ identical P row b = true ∧
        (b.claim = true → row = rowOf P b) ∧ (b.version = row.version ∨ b.version = row.version + 1) := by
    unfold finishPut at hfinish
    split at hfinish
    · next hskip =>
      rw [Bool.and_eq_true, Bool.not_eq_true'] at hskip
      change t.backups b.lookupToken = r.backups b.lookupToken at hfinish
      rw [hr] at hfinish
      cases hold : s.backups b.lookupToken with
      | none =>
        rw [hold] at hskip
        exact absurd hskip.1 nofun
      | some row =>
        rw [hold] at hskip hfinish
        obtain ⟨_, hnext | ⟨_, hsame⟩⟩ := conflicts_row hc hold
        · exact ⟨row, hfinish, hskip.1, fun hclaim => absurd (hclaim.symm.trans hskip.2) nofun, .inr hnext⟩
        · exact ⟨row, hfinish, hskip.1, fun hclaim => absurd (hclaim.symm.trans hskip.2) nofun, .inl hsame⟩
    · refine ⟨rowOf P b, ?_, hstored _ rfl⟩
      rw [hfinish]
      simp [storeBackup]
  rcases putBackup_cases P s b pathToken suppliedDigest with
    ⟨reply, hno, he⟩ | ⟨hscreen, hc, ⟨-, he⟩ | ⟨dev, hash, -, he⟩⟩
  · rw [he] at h
    exact absurd h hno
  · rw [he] at ht
    exact ⟨hscreen, finish s rfl hc ht⟩
  · rw [he] at ht
    exact ⟨hscreen, finish _ (takeLock_backups _ _ _) hc ht⟩

theorem takeLock_same {replay : Bool} {device : DeviceId} {hash : String} (hreplay : replay = true) :
    takeLock s b replay device hash = s ↔
      ¬(b.claim = true ∧ (s.locks device ≠ some hash ∨ ∃ x ∈ s.sessions, x.deviceId = device)) := by
  subst hreplay
  cases hclaim : b.claim with
  | false =>
    refine iff_of_true ?_ fun h => absurd h.1 nofun
    unfold takeLock
    simp [hclaim]
  | true =>
    constructor
    · rintro hsame ⟨_, hlock | ⟨x, hx, hdevice⟩⟩
      · have hlocks := takeLock_locks s b true device hash
        rw [hsame, hclaim] at hlocks
        exact hlock (by rw [hlocks]; simp)
      · have hsessions := takeLock_sessions s b true device hash
        rw [hsame, hclaim] at hsessions
        rw [hsessions] at hx
        have hne := (List.mem_filter.mp hx).2
        rw [hdevice] at hne
        simp at hne
    · intro hnone
      rw [not_and_or, not_or, not_not, not_exists] at hnone
      obtain hfalse | ⟨hlock, hsession⟩ := hnone
      · exact absurd rfl hfalse
      · have hlocks : (takeLock s b true device hash).locks = s.locks := by
          rw [takeLock_locks, hclaim]
          simp [← hlock]
        have hsessions : (takeLock s b true device hash).sessions = s.sessions := by
          rw [takeLock_sessions, hclaim]
          simp only [if_true, List.filter_eq_self, bne_iff_ne]
          exact fun x hx hdevice => hsession x ⟨hx, hdevice⟩
        have hbackups : (takeLock s b true device hash).backups = s.backups := takeLock_backups _ _ _
        have hdevices : (takeLock s b true device hash).devices = s.devices := takeLock_devices _ _ _
        cases hr : takeLock s b true device hash with
        | mk backups locks devices sessions =>
          rw [hr] at hlocks hsessions hbackups hdevices
          cases hlocks
          cases hsessions
          cases hbackups
          cases hdevices
          rfl

theorem storeBackup_row (s : Relay) (row : BackupRow) (hrow : s.backups b.lookupToken = some row)
    (hsame : row = rowOf P b) : storeBackup P s b = s := by
  unfold storeBackup
  rw [← hsame, ← hrow, Function.update_eq_self]

/-- An upload that passes the first checks is decided by what it shows of its device. -/
theorem putBackup_screened (hscreen : screenPut P b pathToken suppliedDigest = none)
    (hconflicts : conflicts P (t.backups b.lookupToken) b = false) :
    putBackup P t b pathToken suppliedDigest =
      match checkDevice P t b with
      | .refused reply => (reply, t)
      | .absent => finishPut P t b (t.backups b.lookupToken)
      | .proved device hash =>
        finishPut P (takeLock t b (replayed P (t.backups b.lookupToken) b) device hash) b
          (t.backups b.lookupToken) := by
  unfold putBackup
  rw [hscreen]
  dsimp only
  refine (if_neg (by simp [hconflicts])).trans ?_
  cases checkDevice P t b <;> rfl

/-- Sending an accepted upload again changes nothing, unless it claims anew. -/
theorem replay_same_iff (h : (putBackup P s b pathToken suppliedDigest).1.Accepted)
    (ht : t.backups b.lookupToken =
      (putBackup P s b pathToken suppliedDigest).2.backups b.lookupToken) :
    (putBackup P t b pathToken suppliedDigest).2 = t ↔ ¬Reclaims P t b := by
  obtain ⟨hscreen, row, hrow, hidentical, hclaimed, hversion⟩ := accepted_row h ht
  have hreplayed : replayed P (t.backups b.lookupToken) b = true := by
    rw [hrow]
    exact hidentical
  have hwriter : row.writerPublicKey = b.writerPublicKey := by
    simp only [identical, Bool.and_eq_true, beq_iff_eq] at hidentical
    exact hidentical.1.1.1.1.1.1.2
  have hconflicts : conflicts P (t.backups b.lookupToken) b = false := by
    unfold conflicts
    rw [hreplayed, hrow]
    simp only [foreignWriter, rowVersion, hwriter, bne_self_eq_false, Bool.false_or, Bool.true_and,
      Bool.and_eq_false_iff, bne_eq_false_iff_eq, Bool.not_eq_false', beq_iff_eq]
    exact hversion.symm
  have hfinish (r : Relay) (hr : r.backups = t.backups) :
      (finishPut P r b (t.backups b.lookupToken)).2 = r := by
    unfold finishPut
    rw [hreplayed]
    cases hclaim : b.claim with
    | false => rfl
    | true => exact storeBackup_row r row (by rw [hr]; exact hrow) (hclaimed hclaim)
  rw [putBackup_screened hscreen hconflicts]
  cases hdevice : checkDevice P t b with
  | absent =>
    refine iff_of_true (hfinish t rfl) ?_
    rintro ⟨_, device, hash, hproved, _⟩
    cases hdevice.symm.trans hproved
  | refused reply =>
    refine iff_of_true rfl ?_
    rintro ⟨_, device, hash, hproved, _⟩
    cases hdevice.symm.trans hproved
  | proved device hash =>
    dsimp only
    rw [hfinish _ (takeLock_backups _ _ _), takeLock_same hreplayed]
    refine not_congr ⟨fun h => ⟨h.1, device, hash, hdevice, h.2⟩, ?_⟩
    rintro ⟨hclaim, device', hash', hproved, hshows⟩
    cases hdevice.symm.trans hproved
    exact ⟨hclaim, hshows⟩

theorem replays_same_iff (h : (putBackup P s b pathToken suppliedDigest).1.Accepted)
    (ht : t.backups b.lookupToken =
      (putBackup P s b pathToken suppliedDigest).2.backups b.lookupToken) :
    (∀ n, (fun r => (putBackup P r b pathToken suppliedDigest).2)^[n] t = t) ↔ ¬Reclaims P t b := by
  rw [← replay_same_iff h ht]
  constructor
  · intro hall
    exact hall 1
  · intro hsame n
    exact Function.iterate_fixed hsame n

end Replays

section Runs

variable {P : Primitives} {s s₀ : State} {es : List Event} {token : LookupToken}

theorem deleteRow_backups (token' : LookupToken) (version : Nat) (r : Relay) :
    (deleteRow token' version r).backups token = r.backups token ∨
      (token = token' ∧ (deleteRow token' version r).backups token = none) := by
  unfold deleteRow
  split
  · exact .inl rfl
  · split
    · by_cases htoken : token = token'
      · exact .inr ⟨htoken, by simp [htoken]⟩
      · exact .inl (Function.update_of_ne htoken ..)
    · exact .inl rfl

theorem step_consistent (s : State) (e : Event) (h : Consistent P s.relay) (_ : Enabled s e) :
    Consistent P (next P s e).relay := by
  cases e with
  | get token => exact h
  | login x => exact h
  | put b pathToken suppliedDigest =>
    intro token row hrow
    obtain heq | ⟨_, _, heq⟩ := putBackup_stores P s.relay b pathToken suppliedDigest
    · exact h token row (by rw [← heq]; exact hrow)
    · change (putBackup P s.relay b pathToken suppliedDigest).2.backups token = some row at hrow
      rw [heq] at hrow
      by_cases htoken : token = b.lookupToken
      · subst htoken
        rw [Function.update_self] at hrow
        cases hrow
        exact .inr rfl
      · rw [Function.update_of_ne htoken] at hrow
        exact h token row hrow
  | checkDelete token version signature => exact h
  | commitDelete token version =>
    intro token' row hrow
    obtain hsame | ⟨_, hnone⟩ := deleteRow_backups token version s.relay
    · exact h token' row (hsame.symm.trans hrow)
    · cases hnone.symm.trans hrow

theorem run_consistent (h : Reachable (system P) s) : Consistent P s.relay :=
  reachable_invariant (M := system P) (I := fun s : State => Consistent P s.relay) (fun _ hi => hi.1)
    step_consistent h

/-- One step changes a record only as the law allows. -/
theorem step_rowLaw (hdigest : Function.Injective P.digest) (h : Consistent P s.relay) (e : Event)
    {row row' : BackupRow} (hrow : s.relay.backups token = some row)
    (hrow' : (next P s e).relay.backups token = some row') : RowLaw P token row row' := by
  have hsame (heq : (next P s e).relay.backups token = s.relay.backups token) :
      RowLaw P token row row' := by
    rw [heq] at hrow'
    cases hrow.symm.trans hrow'
    exact ⟨rfl, .inl ⟨rfl, rfl, rfl, rfl, rfl, rfl, rfl, rfl⟩⟩
  cases e with
  | get token' => exact hsame rfl
  | login x => exact hsame rfl
  | put b pathToken suppliedDigest =>
    exact putBackup_rowLaw hdigest h pathToken suppliedDigest hrow hrow'
  | checkDelete token' version signature => exact hsame rfl
  | commitDelete token' version =>
    obtain heq | ⟨_, hnone⟩ := deleteRow_backups token' version s.relay
    · exact hsame heq
    · cases hnone.symm.trans hrow'

/-- A record that is not deleted keeps its writer, and its version never decreases. -/
theorem run_writer (hdigest : Function.Injective P.digest) (hs : Consistent P s₀.relay)
    (h : Execution (system P) s₀ es s) (hes : ∀ version, .commitDelete token version ∉ es)
    {row : BackupRow} (hrow : s₀.relay.backups token = some row) :
    Consistent P s.relay ∧ ∃ row', s.relay.backups token = some row' ∧
      row'.writerPublicKey = row.writerPublicKey ∧ row.version ≤ row'.version := by
  induction h with
  | refl => exact ⟨hs, row, hrow, rfl, Nat.le_refl _⟩
  | @tail t u es e hx hu ih =>
    obtain ⟨he, rfl⟩ := hu
    obtain ⟨hconsistent, row', hrow', hwriter, hversion⟩ :=
      ih (fun version hm => hes version (List.mem_append_left _ hm))
    refine ⟨step_consistent t e hconsistent he, ?_⟩
    obtain ⟨row'', hrow''⟩ : ∃ row'', ((system P).next t e).relay.backups token = some row'' := by
      cases e with
      | get token' => exact ⟨row', hrow'⟩
      | login x => exact ⟨row', hrow'⟩
      | put b pathToken suppliedDigest =>
        obtain heq | ⟨_, _, heq⟩ := putBackup_stores P t.relay b pathToken suppliedDigest
        · exact ⟨row', (congrFun heq token).trans hrow'⟩
        · by_cases htoken : token = b.lookupToken
          · subst htoken
            exact ⟨_, (congrFun heq _).trans (Function.update_self ..)⟩
          · exact ⟨row', (congrFun heq _).trans ((Function.update_of_ne htoken ..).trans hrow')⟩
      | checkDelete token' version signature => exact ⟨row', hrow'⟩
      | commitDelete token' version =>
        have hkept : (deleteRow token' version t.relay).backups token = t.relay.backups token ∨
            (token = token' ∧ (deleteRow token' version t.relay).backups token = none) :=
          deleteRow_backups token' version t.relay
        obtain heq | ⟨htoken, _⟩ := hkept
        · exact ⟨row', heq.trans hrow'⟩
        · subst htoken
          exact absurd (List.mem_append_right _ (List.mem_singleton_self _)) (hes version)
    have hlaw := step_rowLaw hdigest hconsistent e hrow' hrow''
    refine ⟨row'', hrow'', hlaw.writer.trans hwriter, Nat.le_trans hversion ?_⟩
    obtain hkept | ⟨hnext, _⟩ := hlaw.columns
    · exact Nat.le_of_eq hkept.version.symm
    · rw [hnext]
      exact Nat.le_succ _

end Runs

/-- What holds of the records in every run. -/
structure Law (P : Primitives) (s : State) : Prop where
  lives : ∀ token es t row, Execution (system P) s es t → (∀ version, .commitDelete token version ∉ es) →
    s.relay.backups token = some row → ∃ row', t.relay.backups token = some row' ∧
      row'.writerPublicKey = row.writerPublicKey ∧ row.version ≤ row'.version
  changes : ∀ token e row row', s.relay.backups token = some row →
    (next P s e).relay.backups token = some row' → RowLaw P token row row'
  created : ∀ token b pathToken suppliedDigest row, s.relay.backups token = none →
    (putBackup P s.relay b pathToken suppliedDigest).2.backups token = some row →
    row.version = 1 ∧ Signed P token row
  refused : ∀ b pathToken suppliedDigest, Improper P s.relay b →
    ¬(putBackup P s.relay b pathToken suppliedDigest).1.Accepted ∧
      (putBackup P s.relay b pathToken suppliedDigest).2 = s.relay

/-- The records keep their law in every run; the last upload a record accepted can be sent
again any number of times without effect exactly if it claims nothing anew. -/
theorem records_law {P : Primitives} (hdigest : Function.Injective P.digest) {s : State}
    (h : Reachable (system P) s) :
    Law P s ∧ ∀ r b pathToken suppliedDigest,
      (putBackup P r b pathToken suppliedDigest).1.Accepted →
      s.relay.backups b.lookupToken =
        (putBackup P r b pathToken suppliedDigest).2.backups b.lookupToken →
      ((∀ n, (fun x => (putBackup P x b pathToken suppliedDigest).2)^[n] s.relay = s.relay) ↔
        ¬Reclaims P s.relay b) := by
  have hconsistent := run_consistent h
  refine ⟨⟨fun token es t row hx hes hrow => ?_, fun token e row row' => ?_,
    fun token b pathToken suppliedDigest row => putBackup_creates,
    fun b pathToken suppliedDigest => improper_refused⟩,
    fun r b pathToken suppliedDigest haccepted ht => replays_same_iff haccepted ht⟩
  · exact (run_writer hdigest hconsistent hx hes hrow).2
  · exact step_rowLaw hdigest hconsistent e

/-- Signatures that name what they sign, and a digest that keeps the bytes. -/
def toy : Primitives where
  sha256 := id
  digest bytes := String.ofList (bytes.map fun x => Char.ofNat x.toNat)
  verifyChallenge _ payload signature :=
    match payload with
    | .vaultInstance hash => signature == "device " ++ hash
    | _ => signature == "writer"

theorem toy_digest : Function.Injective toy.digest := by
  intro a b h
  have hchars : (a.map fun x => Char.ofNat x.toNat) = b.map fun x => Char.ofNat x.toNat :=
    String.ofList_injective h
  refine Function.Injective.list_map (fun x y hxy => ?_) hchars
  have hx : x.toNat < 256 := x.toNat_lt
  have hy : y.toNat < 256 := y.toNat_lt
  have hvalid (n : Nat) (hn : n < 256) : (Char.ofNat n).toNat = n := by
    have hv : n.isValidChar := .inl (by omega)
    simp [Char.ofNat, hv, Char.toNat, Char.ofNatAux]
  have hnat := congrArg Char.toNat hxy
  rw [hvalid _ hx, hvalid _ hy] at hnat
  exact UInt8.toNat_inj.mp hnat

/-- A claiming upload of the device d1, for its instance h1. -/
def claiming : BackupBody :=
  ⟨"t1", 1, [], List.replicate 16 0, "", [], List.replicate 44 0, "writer", some "d1", some "h1",
    some "device h1", true⟩

def beforeClaim : Relay :=
  ⟨fun _ => none, fun _ => none, fun d => if d = "d1" then some ⟨[], false, false⟩ else none, []⟩

/-- The upload was accepted, and the device logged in. -/
def afterLogin : State :=
  (system toy).replay ⟨beforeClaim, []⟩ [.put claiming none none, .login ⟨"s1", "d1", 100⟩]

theorem afterLogin_reachable : Reachable (system toy) afterLogin :=
  valid_trace_reachable (reachable_initial ⟨fun _ _ hrow => absurd hrow nofun, rfl⟩)
    ⟨trivial, trivial, trivial⟩

/-- The same upload once more logs the device out. -/
theorem claim_replayed : Reachable (system toy) afterLogin ∧
    (putBackup toy beforeClaim claiming none none).1 = .stored 1 ∧
    afterLogin.relay.backups "t1" = (putBackup toy beforeClaim claiming none none).2.backups "t1" ∧
    afterLogin.relay.sessions = [⟨"s1", "d1", 100⟩] ∧
    (putBackup toy afterLogin.relay claiming none none).2.sessions = [] :=
  ⟨afterLogin_reachable, by decide +kernel, rfl, by decide +kernel, by decide +kernel⟩

theorem afterLogin_law : Law toy afterLogin ∧ Reclaims toy afterLogin.relay claiming := by
  obtain ⟨hlaw, hreplays⟩ := records_law toy_digest afterLogin_reachable
  refine ⟨hlaw, ?_⟩
  have haccepted : (putBackup toy beforeClaim claiming none none).1.Accepted := by decide +kernel
  by_contra hno
  have hsame := (hreplays beforeClaim claiming none none haccepted rfl).mpr hno 1
  have hsessions : (putBackup toy afterLogin.relay claiming none none).2.sessions = [] := by
    decide +kernel
  have hlogin : afterLogin.relay.sessions = [⟨"s1", "d1", 100⟩] := by decide +kernel
  change (putBackup toy afterLogin.relay claiming none none).2 = afterLogin.relay at hsame
  rw [hsame, hlogin] at hsessions
  cases hsessions

end BackupRecords
