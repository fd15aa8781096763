import CryptoPigeon.LoginChallenges

/-! # Access requests and their activation

`POST /api/access/apply` is one statement; an activation holds the row of its request from the
first query to its end, takes an advisory lock for each public UID that it tries, and writes
what it has decided when it commits. Keys are the bytes that the base64 fields stand for. `hmac`
and `formatPublicUid` are the relay's hashes, `lockKey` is `hashtextextended`. `used`, `answers`
and `successes` are history, as are the request ids in the rows of users and devices. -/
namespace Activation

open TransitionSystem
open LoginChallenges (uuid)
open OnionListener (uuidShape)

abbrev Bytes := List UInt8

inductive Status where
  | pending
  | approved
  | rejected
  | activated
  deriving DecidableEq, Repr

structure AccessRequest where
  requestId : String
  username : String
  status : Status
  codeHash : Option String
  attemptCount : Nat
  expiresAt : Option Nat
  deriving DecidableEq, Repr

structure User where
  userId : String
  username : String
  publicUid : String
  requestId : String
  deriving DecidableEq, Repr

structure Device where
  deviceId : String
  userId : String
  identityKey : Bytes
  authKey : Bytes
  registrationId : Nat
  signalDeviceId : Nat
  revoked : Bool
  requestId : String
  deriving DecidableEq, Repr

inductive Table where
  | signed
  | oneTime
  | pqOneTime
  deriving DecidableEq, Repr

structure Key where
  id : Nat
  publicKey : Bytes
  signature : Bytes
  deriving DecidableEq, Repr

/-- A row of one of the three tables, unique by table, device and id. -/
structure Prekey where
  table : Table
  deviceId : String
  lastResort : Bool
  key : Key
  deriving DecidableEq, Repr

structure Session where
  token : String
  deviceId : String
  expiresAt : Nat
  deriving DecidableEq, Repr

structure Payload where
  requestId : String
  activationCode : String
  deviceId : String
  identityKey : Bytes
  authKey : Bytes
  registrationId : Nat
  signalDeviceId : Nat
  signedPrekey : Key
  oneTimePrekeys : List Key
  pqOneTimePrekeys : List Key
  pqLastResortPrekey : Key
  deriving DecidableEq, Repr

/-- `activationPayloadSchema`. -/
def activationPayloadSchema (p : Payload) : Bool :=
  uuidShape p.requestId && 20 ≤ p.activationCode.length && p.activationCode.length ≤ 256 &&
    uuidShape p.deviceId && 0 < p.registrationId && 0 < p.signalDeviceId &&
    20 ≤ p.oneTimePrekeys.length && p.oneTimePrekeys.length ≤ 200 &&
    20 ≤ p.pqOneTimePrekeys.length && p.pqOneTimePrekeys.length ≤ 200

/-- What an activation waits for: the account that exists, its commit with a wrong code, the
next public UID, its lock taken, or the inserts. -/
inductive Stage where
  | completed
  | wrong
  | trying (userId : String) (attempt : Nat)
  | locked (userId : String) (attempt : Nat)
  | inserting (userId publicUid : String)
  deriving DecidableEq, Repr

/-- An open transaction, with the row that it has locked. -/
structure Txn where
  payload : Payload
  row : AccessRequest
  stage : Stage
  locks : List String
  deriving DecidableEq, Repr

inductive Outcome where
  | invalid
  | created
  | refused
  deriving DecidableEq, Repr

/-- What a successful activation returns, and what it was asked with. -/
structure Success where
  payload : Payload
  sessionToken : String
  expiresAt : Nat
  userId : String
  deviceId : String
  username : String
  publicUid : String
  deriving DecidableEq, Repr

structure Relay where
  requests : List AccessRequest
  users : List User
  devices : List Device
  prekeys : List Prekey
  sessions : List Session

/-- `returning` are the retries that found their account and insert a session for it. -/
structure State where
  relay : Relay
  txns : List Txn
  returning : List (Payload × User × Device)
  used : List String
  answers : List (String × Outcome)
  successes : List Success

/-- The insert, or the update of a row that has expired. The row of this name is not locked. -/
def apply (requestId username codeHash : String) (now expiresAt : Nat) (s : State) : State :=
  let fresh : AccessRequest := ⟨requestId, username, .approved, some codeHash, 0, some expiresAt⟩
  let replaceable (r : AccessRequest) : Bool :=
    (r.status = .pending || r.status = .approved) && r.expiresAt.any (· < now)
  if s.relay.users.any (·.username = username) then s
  else
    match s.relay.requests.find? (·.username = username) with
    | none =>
      { s with
        relay := { s.relay with requests := fresh :: s.relay.requests }
        used := requestId :: s.used }
    | some r =>
      if replaceable r then
        { s with
          relay := { s.relay with
            requests := s.relay.requests.map fun x => if x.username = username then fresh else x }
          used := requestId :: s.used }
      else s

/-- `publicUid` of an attempt. -/
def candidate (formatPublicUid : String → String) (userId : String) : Nat → String
  | 0 => formatPublicUid userId
  | n + 1 => formatPublicUid (userId ++ ":" ++ toString (n + 1))

def matchesCode (hmac : String → String) (row : AccessRequest) (p : Payload) : Bool :=
  row.codeHash = some (hmac p.activationCode)

/-- The checks of the locked row; a refused request has written nothing. -/
def begin (hmac : String → String) (p : Payload) (userId : String) (now : Nat) (s : State) :
    State :=
  let enter (row : AccessRequest) (stage : Stage) : State :=
    { s with txns := ⟨p, row, stage, []⟩ :: s.txns }
  match s.relay.requests.find? (·.requestId = uuid p.requestId) with
  | none => s
  | some row =>
    if row.status = .activated then enter row .completed
    else if row.status ≠ .approved then s
    else if row.expiresAt.all (· < now) then s
    else if row.attemptCount ≥ 5 then s
    else if matchesCode hmac row p then enter row (.trying userId 0)
    else enter row .wrong

def write (t : Txn) (s : State) : State :=
  { s with txns := s.txns.map fun x => if x.row.requestId = t.row.requestId then t else x }

def close (t : Txn) (s : State) : State :=
  { s with txns := s.txns.filter fun x => x.row.requestId ≠ t.row.requestId }

/-- The account that exists is looked up and the transaction rolled back; only the same code,
device and keys lead to it. -/
def existing (hmac : String → String) (t : Txn) (s : State) : State :=
  match s.relay.users.find? (·.username = t.row.username) with
  | none => close t s
  | some u =>
    match s.relay.devices.find? fun d =>
        d.userId = u.userId && d.deviceId = uuid t.payload.deviceId && !d.revoked with
    | none => close t s
    | some d =>
      if matchesCode hmac t.row t.payload && d.identityKey = t.payload.identityKey &&
          d.authKey = t.payload.authKey then
        { close t s with returning := (t.payload, u, d) :: s.returning }
      else close t s

/-- The session of a retry and its answer. -/
def grant (g : Payload × User × Device) (token : String) (expiresAt : Nat) (s : State) : State :=
  { s with
    relay := { s.relay with sessions := ⟨token, g.2.2.deviceId, expiresAt⟩ :: s.relay.sessions }
    returning := s.returning.erase g
    successes :=
      ⟨g.1, token, expiresAt, g.2.1.userId, g.2.2.deviceId, g.2.1.username, g.2.1.publicUid⟩ ::
        s.successes }

def replaceRow (row : AccessRequest) (r : Relay) : Relay :=
  { r with requests := r.requests.map fun x => if x.requestId = row.requestId then row else x }

/-- The count is committed with the answer. -/
def invalid (t : Txn) (s : State) : State :=
  { close t s with
    relay := replaceRow { t.row with attemptCount := t.row.attemptCount + 1 } s.relay
    answers := (t.row.requestId, .invalid) :: s.answers }

def lockUid (formatPublicUid : String → String) (t : Txn) (s : State) : State :=
  match t.stage with
  | .trying userId n =>
    write { t with
      stage := .locked userId n, locks := candidate formatPublicUid userId n :: t.locks } s
  | _ => s

def checkUid (formatPublicUid : String → String) (t : Txn) (s : State) : State :=
  match t.stage with
  | .locked userId n =>
    let uid := candidate formatPublicUid userId n
    if s.relay.users.any (·.publicUid = uid) then write { t with stage := .trying userId (n + 1) } s
    else write { t with stage := .inserting userId uid } s
  | _ => s

def prekeyRows (p : Payload) : List Prekey :=
  let deviceId := uuid p.deviceId
  ⟨.signed, deviceId, false, p.signedPrekey⟩ ::
    p.oneTimePrekeys.map (fun k => ⟨.oneTime, deviceId, false, k⟩) ++
    p.pqOneTimePrekeys.map (fun k => ⟨.pqOneTime, deviceId, false, k⟩) ++
    [⟨.pqOneTime, deviceId, true, p.pqLastResortPrekey⟩]

/-- Primary keys and unique columns, except for `public_uid`, which the locks keep unique, and
the range of INTEGER. -/
structure Insertable (s : State) (p : Payload) (username userId : String) : Prop where
  users : ∀ u ∈ s.relay.users, u.userId ≠ userId ∧ u.username ≠ username
  devices : ∀ d ∈ s.relay.devices, d.deviceId ≠ uuid p.deviceId
  prekeys : ((prekeyRows p).map fun k => (k.table, k.key.id)).Nodup
  integers : p.registrationId < 2 ^ 31 ∧ p.signalDeviceId < 2 ^ 31 ∧
    ∀ k ∈ prekeyRows p, k.key.id < 2 ^ 31

def commit (t : Txn) (token : String) (expiresAt : Nat) (s : State) : State :=
  match t.stage with
  | .inserting userId publicUid =>
    let p := t.payload
    let row := { t.row with status := .activated, attemptCount := t.row.attemptCount + 1 }
    { close t s with
      relay := { replaceRow row s.relay with
        users := ⟨userId, t.row.username, publicUid, t.row.requestId⟩ :: s.relay.users
        devices := ⟨uuid p.deviceId, userId, p.identityKey, p.authKey, p.registrationId,
          p.signalDeviceId, false, t.row.requestId⟩ :: s.relay.devices
        prekeys := prekeyRows p ++ s.relay.prekeys
        sessions := ⟨token, uuid p.deviceId, expiresAt⟩ :: s.relay.sessions }
      answers := (t.row.requestId, .created) :: s.answers
      successes :=
        ⟨p, token, expiresAt, userId, p.deviceId, t.row.username, publicUid⟩ :: s.successes }
  | _ => s

/-- An insert is refused; the count is rolled back with the rest. -/
def refuse (t : Txn) (s : State) : State :=
  { close t s with answers := (t.row.requestId, .refused) :: s.answers }

/-- `drop` and `dropGrant` are any other failure of the request, at any point; `revoke` is
outside these routes. -/
inductive Event where
  | apply (requestId username code : String) (now expiresAt : Nat)
  | begin (p : Payload) (userId : String) (now : Nat)
  | existing (t : Txn)
  | grant (g : Payload × User × Device) (token : String) (expiresAt : Nat)
  | invalid (t : Txn)
  | lockUid (t : Txn)
  | checkUid (t : Txn)
  | commit (t : Txn) (token : String) (expiresAt : Nat)
  | refuse (t : Txn)
  | drop (t : Txn)
  | dropGrant (g : Payload × User × Device)
  | revoke (deviceId : String)

/-- A statement that waits for a row or a lock is taken when it has it. -/
def Enabled (formatPublicUid : String → String) (lockKey : String → Nat) (s : State) : Event → Prop
  | .apply requestId username _ _ _ =>
    requestId ∉ s.used ∧ ∀ t ∈ s.txns, t.row.username ≠ username
  | .begin p _ _ =>
    activationPayloadSchema p ∧ ∀ t ∈ s.txns, t.row.requestId ≠ uuid p.requestId
  | .existing t => t ∈ s.txns ∧ t.stage = .completed
  | .grant g token _ => g ∈ s.returning ∧ ∀ x ∈ s.relay.sessions, x.token ≠ token
  | .invalid t => t ∈ s.txns ∧ t.stage = .wrong
  | .lockUid t =>
    t ∈ s.txns ∧ ∃ userId n, t.stage = .trying userId n ∧
      ∀ x ∈ s.txns, x.row.requestId ≠ t.row.requestId →
        ∀ uid ∈ x.locks, lockKey uid ≠ lockKey (candidate formatPublicUid userId n)
  | .checkUid t => t ∈ s.txns
  | .commit t token _ =>
    t ∈ s.txns ∧ (∃ userId uid, t.stage = .inserting userId uid ∧
      Insertable s t.payload t.row.username userId) ∧ ∀ x ∈ s.relay.sessions, x.token ≠ token
  | .refuse t =>
    t ∈ s.txns ∧ ∃ userId uid, t.stage = .inserting userId uid ∧
      ¬Insertable s t.payload t.row.username userId
  | .drop t => t ∈ s.txns
  | .dropGrant _ => True
  | .revoke _ => True

def next (hmac formatPublicUid : String → String) (s : State) : Event → State
  | .apply requestId username code now expiresAt =>
    Activation.apply requestId username (hmac code) now expiresAt s
  | .begin p userId now => Activation.begin hmac p userId now s
  | .existing t => Activation.existing hmac t s
  | .grant g token expiresAt => Activation.grant g token expiresAt s
  | .invalid t => Activation.invalid t s
  | .lockUid t => Activation.lockUid formatPublicUid t s
  | .checkUid t => Activation.checkUid formatPublicUid t s
  | .commit t token expiresAt => Activation.commit t token expiresAt s
  | .refuse t => Activation.refuse t s
  | .drop t => close t s
  | .dropGrant g => { s with returning := s.returning.erase g }
  | .revoke deviceId =>
    { s with relay := { s.relay with
        devices := s.relay.devices.map fun d =>
          if d.deviceId = uuid deviceId then { d with revoked := true } else d } }

/-- No account yet, and any requests that are not activated. -/
structure Initial (s : State) : Prop where
  requests : ∀ r ∈ s.relay.requests, r.status ≠ .activated ∧ r.requestId ∈ s.used
  distinct : (s.relay.requests.map AccessRequest.requestId).Nodup ∧
    (s.relay.requests.map AccessRequest.username).Nodup
  accounts : s.relay.users = [] ∧ s.relay.devices = [] ∧ s.relay.prekeys = [] ∧
    s.relay.sessions = []
  txns : s.txns = [] ∧ s.returning = []
  answers : s.answers = [] ∧ s.successes = []

def system (hmac formatPublicUid : String → String) (lockKey : String → Nat) :
    System State Event := ⟨Initial, Enabled formatPublicUid lockKey, next hmac formatPublicUid⟩

/-- Answers to comparisons of the code of a request whose transaction was committed. -/
def counted (s : State) (requestId : String) : Nat :=
  (s.answers.filter fun a => a.1 = requestId && a.2 ≠ .refused).length

/-- The account that an answered payload leads to. -/
def Account (hmac : String → String) (r : Relay) (p : Payload) (userId publicUid : String) : Prop :=
  ∃ row ∈ r.requests, row.status = .activated ∧ row.requestId = uuid p.requestId ∧
    row.codeHash = some (hmac p.activationCode) ∧
    ∃ u ∈ r.users, u.username = row.username ∧ u.userId = userId ∧ u.publicUid = publicUid ∧
      ∃ d ∈ r.devices, d.userId = userId ∧ d.deviceId = uuid p.deviceId ∧
        d.identityKey = p.identityKey ∧ d.authKey = p.authKey

def Registering (hmac : String → String) (t : Txn) : Prop :=
  t.row.status = .approved ∧ t.row.attemptCount < 5 ∧ matchesCode hmac t.row t.payload

/-- What the stage of a transaction says. -/
def AtStage (hmac formatPublicUid : String → String) (users : List User) (t : Txn) : Prop :=
  match t.stage with
  | .completed => t.row.status = .activated
  | .wrong => t.row.status = .approved ∧ t.row.attemptCount < 5
  | .trying _ _ => Registering hmac t
  | .locked userId n => Registering hmac t ∧ candidate formatPublicUid userId n ∈ t.locks
  | .inserting _ uid => Registering hmac t ∧ uid ∈ t.locks ∧ ∀ u ∈ users, u.publicUid ≠ uid

structure Rows (requests : List AccessRequest) (used : List String) : Prop where
  ids : ∀ r ∈ requests, ∀ x ∈ requests, r.requestId = x.requestId → r = x
  names : ∀ r ∈ requests, ∀ x ∈ requests, r.username = x.username → r = x
  used : ∀ r ∈ requests, r.requestId ∈ used

structure Transactions (hmac formatPublicUid : String → String) (lockKey : String → Nat)
    (s : State) : Prop where
  held : ∀ t ∈ s.txns, t.row ∈ s.relay.requests ∧ t.row.requestId = uuid t.payload.requestId
  alone : ∀ t ∈ s.txns, ∀ x ∈ s.txns, t.row.requestId = x.row.requestId → t = x
  stages : ∀ t ∈ s.txns, AtStage hmac formatPublicUid s.relay.users t
  locks : ∀ t ∈ s.txns, ∀ x ∈ s.txns, t.row.requestId ≠ x.row.requestId →
    ∀ a ∈ t.locks, ∀ b ∈ x.locks, lockKey a ≠ lockKey b

structure Accounts (hmac : String → String) (s : State) : Prop where
  users : ∀ u ∈ s.relay.users, ∃ r ∈ s.relay.requests,
    r.status = .activated ∧ r.requestId = u.requestId ∧ r.username = u.username
  devices : ∀ d ∈ s.relay.devices, ∃ u ∈ s.relay.users,
    u.userId = d.userId ∧ u.requestId = d.requestId
  userIds : (s.relay.users.map User.userId).Nodup
  usernames : (s.relay.users.map User.username).Nodup
  publicUids : (s.relay.users.map User.publicUid).Nodup
  owners : (s.relay.devices.map Device.userId).Nodup
  successes : ∀ a ∈ s.successes, Account hmac s.relay a.payload a.userId a.publicUid ∧
    uuid a.deviceId = uuid a.payload.deviceId
  returning : ∀ g ∈ s.returning, Account hmac s.relay g.1 g.2.1.userId g.2.1.publicUid ∧
    uuid g.2.2.deviceId = uuid g.1.deviceId

/-- Nothing is in the tables without a successful answer. -/
structure Answered (s : State) : Prop where
  users : ∀ u ∈ s.relay.users, ∃ a ∈ s.successes, a.userId = u.userId
  devices : ∀ d ∈ s.relay.devices, ∃ a ∈ s.successes, uuid a.deviceId = d.deviceId
  prekeys : ∀ k ∈ s.relay.prekeys, ∃ a ∈ s.successes, uuid a.deviceId = k.deviceId
  sessions : ∀ x ∈ s.relay.sessions, ∃ a ∈ s.successes, a.sessionToken = x.token

structure Counts (s : State) : Prop where
  five : ∀ id, counted s id ≤ 5
  row : ∀ r ∈ s.relay.requests, counted s r.requestId ≤ r.attemptCount
  unused : ∀ id, id ∉ s.used → counted s id = 0

structure Invariant (hmac formatPublicUid : String → String) (lockKey : String → Nat)
    (s : State) : Prop where
  rows : Rows s.relay.requests s.used
  txns : Transactions hmac formatPublicUid lockKey s
  accounts : Accounts hmac s
  answered : Answered s
  counts : Counts s

section Steps

variable {hmac formatPublicUid : String → String} {lockKey : String → Nat} {s : State}
  {t t' x : Txn} {r row : AccessRequest} {p : Payload} {userId uid : String}

theorem uuid_uuid (text : String) : uuid (uuid text) = uuid text := by
  have hlower : ∀ c : Char, c.toLower.toLower = c.toLower := by
    intro c
    unfold Char.toLower
    grind
  unfold uuid
  rw [String.toList_ofList, List.map_map]
  exact congrArg String.ofList (List.map_congr_left fun c _ => hlower c)

theorem mem_write (h : x ∈ (write t s).txns) :
    x = t ∨ (x ∈ s.txns ∧ x.row.requestId ≠ t.row.requestId) := by
  obtain ⟨y, hy, rfl⟩ := List.mem_map.mp h
  split
  · exact .inl rfl
  · next hne => exact .inr ⟨hy, hne⟩

theorem mem_close (h : x ∈ (close t s).txns) :
    x ∈ s.txns ∧ x.row.requestId ≠ t.row.requestId := by
  obtain ⟨hx, hne⟩ := List.mem_filter.mp h
  exact ⟨hx, of_decide_eq_true hne⟩

theorem mem_replace (h : r ∈ (replaceRow row s.relay).requests) :
    r = row ∨ (r ∈ s.relay.requests ∧ r.requestId ≠ row.requestId) := by
  obtain ⟨y, hy, rfl⟩ := List.mem_map.mp h
  split
  · exact .inl rfl
  · next hne => exact .inr ⟨hy, hne⟩

theorem kept_replace (h : r ∈ s.relay.requests) (hne : r.requestId ≠ row.requestId) :
    r ∈ (replaceRow row s.relay).requests :=
  List.mem_map.mpr ⟨r, h, if_neg hne⟩

theorem row_replace (h : r ∈ s.relay.requests) (heq : r.requestId = row.requestId) :
    row ∈ (replaceRow row s.relay).requests :=
  List.mem_map.mpr ⟨r, h, if_pos heq⟩

/-- A row is rewritten under its id and name. -/
theorem Rows.replace (row : AccessRequest) (h : Rows s.relay.requests s.used) (hr : r ∈ s.relay.requests)
    (hid : row.requestId = r.requestId) (hname : row.username = r.username) :
    Rows (replaceRow row s.relay).requests s.used := by
  have other : ∀ y ∈ s.relay.requests, y.requestId ≠ row.requestId → y.username ≠ row.username := by
    intro y hy hne heq
    exact hne (congrArg AccessRequest.requestId (h.names y hy r hr (heq.trans hname)) |>.trans hid.symm)
  refine ⟨fun y hy z hz heq => ?_, fun y hy z hz heq => ?_, fun y hy => ?_⟩
  · rcases mem_replace hy with rfl | ⟨hy', hyne⟩ <;> rcases mem_replace hz with rfl | ⟨hz', hzne⟩
    · rfl
    · exact absurd heq.symm hzne
    · exact absurd heq hyne
    · exact h.ids y hy' z hz' heq
  · rcases mem_replace hy with rfl | ⟨hy', hyne⟩ <;> rcases mem_replace hz with rfl | ⟨hz', hzne⟩
    · rfl
    · exact absurd heq.symm (other z hz' hzne)
    · exact absurd heq (other y hy' hyne)
    · exact h.names y hy' z hz' heq
  · rcases mem_replace hy with rfl | ⟨hy, -⟩
    · rw [hid]
      exact h.used r hr
    · exact h.used y hy

/-- Activated rows, users and devices stay, a device up to its revocation. -/
structure Grows (r r' : Relay) : Prop where
  rows : ∀ x ∈ r.requests, x.status = .activated → x ∈ r'.requests
  users : ∀ u ∈ r.users, u ∈ r'.users
  devices : ∀ d ∈ r.devices, ∃ d' ∈ r'.devices, d'.userId = d.userId ∧
    d'.deviceId = d.deviceId ∧ d'.identityKey = d.identityKey ∧ d'.authKey = d.authKey

theorem Account.grows {r r' : Relay} (hg : Grows r r') (h : Account hmac r p userId uid) :
    Account hmac r' p userId uid := by
  obtain ⟨row, hrow, hstatus, hid, hcode, u, hu, hname, huser, huid, d, hd, hown, hdev, hik, hak⟩ := h
  obtain ⟨d', hd', hown', hdev', hik', hak'⟩ := hg.devices d hd
  exact ⟨row, hg.rows row hrow hstatus, hstatus, hid, hcode, u, hg.users u hu, hname, huser, huid,
    d', hd', hown'.trans hown, hdev'.trans hdev, hik'.trans hik, hak'.trans hak⟩

theorem Transactions.closed (h : Transactions hmac formatPublicUid lockKey s) :
    Transactions hmac formatPublicUid lockKey (close t s) where
  held x hx := h.held x (mem_close hx).1
  alone x hx y hy := h.alone x (mem_close hx).1 y (mem_close hy).1
  stages x hx := h.stages x (mem_close hx).1
  locks x hx y hy := h.locks x (mem_close hx).1 y (mem_close hy).1

/-- The transaction of a request goes on. -/
theorem Transactions.written (h : Transactions hmac formatPublicUid lockKey s) (ht : t ∈ s.txns)
    (hrow : t'.row = t.row) (hpayload : t'.payload = t.payload)
    (hstage : AtStage hmac formatPublicUid s.relay.users t')
    (hlocks : ∀ a ∈ t'.locks, a ∈ t.locks ∨
      ∀ x ∈ s.txns, x.row.requestId ≠ t.row.requestId → ∀ b ∈ x.locks, lockKey b ≠ lockKey a) :
    Transactions hmac formatPublicUid lockKey (write t' s) := by
  have apart : ∀ x ∈ s.txns, x.row.requestId ≠ t.row.requestId → ∀ a ∈ t'.locks, ∀ b ∈ x.locks,
      lockKey b ≠ lockKey a := by
    intro x hx hne a ha b hb
    rcases hlocks a ha with hold | hnew
    · exact h.locks x hx t ht hne b hb a hold
    · exact hnew x hx hne b hb
  refine ⟨fun x hx => ?_, fun x hx y hy heq => ?_, fun x hx => ?_, fun x hx y hy hne a ha b hb => ?_⟩
  · rcases mem_write hx with rfl | ⟨hx, -⟩
    · rw [hrow, hpayload]
      exact h.held t ht
    · exact h.held x hx
  · rcases mem_write hx with rfl | ⟨hx, hxne⟩ <;> rcases mem_write hy with rfl | ⟨hy, hyne⟩
    · rfl
    · exact absurd heq.symm hyne
    · exact absurd heq hxne
    · exact h.alone x hx y hy heq
  · rcases mem_write hx with rfl | ⟨hx, -⟩
    · exact hstage
    · exact h.stages x hx
  · rcases mem_write hx with rfl | ⟨hx', hxne⟩ <;> rcases mem_write hy with rfl | ⟨hy', hyne⟩
    · exact absurd rfl hne
    · exact (apart y hy' (hrow ▸ hyne) a ha b hb).symm
    · exact apart x hx' (hrow ▸ hxne) b hb a ha
    · exact h.locks x hx' y hy' hne a ha b hb

/-- Only transactions change. -/
theorem Invariant.txnsOnly {txns : List Txn} (hi : Invariant hmac formatPublicUid lockKey s)
    (h : Transactions hmac formatPublicUid lockKey { s with txns }) :
    Invariant hmac formatPublicUid lockKey { s with txns } :=
  ⟨hi.rows, h, { hi.accounts with }, { hi.answered with }, { hi.counts with }⟩

theorem invariant_close (hi : Invariant hmac formatPublicUid lockKey s) :
    Invariant hmac formatPublicUid lockKey (close t s) :=
  hi.txnsOnly hi.txns.closed

theorem begin_enter {stage : Stage} (hi : Invariant hmac formatPublicUid lockKey s)
    (hr : r ∈ s.relay.requests) (hid : r.requestId = uuid p.requestId)
    (hfree : ∀ t ∈ s.txns, t.row.requestId ≠ uuid p.requestId)
    (hstage : AtStage hmac formatPublicUid s.relay.users ⟨p, r, stage, []⟩) :
    Invariant hmac formatPublicUid lockKey { s with txns := ⟨p, r, stage, []⟩ :: s.txns } := by
  refine hi.txnsOnly ⟨fun x hx => ?_, fun x hx y hy heq => ?_, fun x hx => ?_,
    fun x hx y hy hne a ha b hb => ?_⟩
  · rcases List.mem_cons.mp hx with rfl | hx
    · exact ⟨hr, hid⟩
    · exact hi.txns.held x hx
  · rcases List.mem_cons.mp hx with rfl | hx <;> rcases List.mem_cons.mp hy with rfl | hy
    · rfl
    · exact absurd (heq.symm.trans hid) (hfree y hy)
    · exact absurd (heq.trans hid) (hfree x hx)
    · exact hi.txns.alone x hx y hy heq
  · rcases List.mem_cons.mp hx with rfl | hx
    · exact hstage
    · exact hi.txns.stages x hx
  · rcases List.mem_cons.mp hx with rfl | hx <;> rcases List.mem_cons.mp hy with rfl | hy
    · exact absurd rfl hne
    · cases ha
    · cases hb
    · exact hi.txns.locks x hx y hy hne a ha b hb

theorem invariant_begin {now : Nat} (hi : Invariant hmac formatPublicUid lockKey s)
    (hfree : ∀ t ∈ s.txns, t.row.requestId ≠ uuid p.requestId) :
    Invariant hmac formatPublicUid lockKey (Activation.begin hmac p userId now s) := by
  unfold Activation.begin
  dsimp only
  split
  · exact hi
  · next row hrow =>
    have hmem := List.mem_of_find?_eq_some hrow
    have hid : row.requestId = uuid p.requestId := by
      simpa using List.find?_some hrow
    split
    · next hdone => exact begin_enter hi hmem hid hfree hdone
    · split
      · exact hi
      · next happroved =>
        split
        · exact hi
        · split
          · exact hi
          · next hcount =>
            have hopen := And.intro (not_not.mp happroved) (Nat.not_le.mp hcount)
            split
            · next hmatch => exact begin_enter hi hmem hid hfree ⟨hopen.1, hopen.2, hmatch⟩
            · exact begin_enter hi hmem hid hfree hopen

theorem invariant_lockUid (ht : t ∈ s.txns)
    (hlock : ∃ userId n, t.stage = .trying userId n ∧
      ∀ x ∈ s.txns, x.row.requestId ≠ t.row.requestId →
        ∀ a ∈ x.locks, lockKey a ≠ lockKey (candidate formatPublicUid userId n))
    (hi : Invariant hmac formatPublicUid lockKey s) :
    Invariant hmac formatPublicUid lockKey (lockUid formatPublicUid t s) := by
  obtain ⟨userId, n, hstage, hfree⟩ := hlock
  unfold lockUid
  have hat := hi.txns.stages t ht
  unfold AtStage at hat
  rw [hstage] at hat ⊢
  refine hi.txnsOnly (hi.txns.written ht rfl rfl ⟨hat, List.mem_cons_self⟩ fun a ha => ?_)
  rcases List.mem_cons.mp ha with rfl | ha
  · exact .inr hfree
  · exact .inl ha

theorem invariant_checkUid (ht : t ∈ s.txns) (hi : Invariant hmac formatPublicUid lockKey s) :
    Invariant hmac formatPublicUid lockKey (checkUid formatPublicUid t s) := by
  unfold checkUid
  have hat := hi.txns.stages t ht
  unfold AtStage at hat
  split
  · next userId n hstage =>
    rw [hstage] at hat
    dsimp only
    split
    · exact hi.txnsOnly (hi.txns.written ht rfl rfl hat.1 fun a ha => .inl ha)
    · next hfree =>
      refine hi.txnsOnly (hi.txns.written ht rfl rfl ⟨hat.1, hat.2, fun u hu heq => hfree ?_⟩
        fun a ha => .inl ha)
      exact List.any_eq_true.mpr ⟨u, hu, decide_eq_true heq⟩
  · exact hi

/-- Only requests change, and the activated ones stay. -/
theorem Accounts.requests (requests : List AccessRequest) (h : Accounts hmac s)
    (hkept : ∀ x ∈ s.relay.requests, x.status = .activated → x ∈ requests) :
    Accounts hmac { s with relay := { s.relay with requests } } := by
  have hg : Grows s.relay { s.relay with requests } :=
    ⟨hkept, fun _ hu => hu, fun d hd => ⟨d, hd, rfl, rfl, rfl, rfl⟩⟩
  refine { h with
    users := fun u hu => ?_
    successes := fun a ha => ⟨(h.successes a ha).1.grows hg, (h.successes a ha).2⟩
    returning := fun g hm => ⟨(h.returning g hm).1.grows hg, (h.returning g hm).2⟩ }
  obtain ⟨r, hr, hstatus, hid, hname⟩ := h.users u hu
  exact ⟨r, hkept r hr hstatus, hstatus, hid, hname⟩

theorem counted_cons (answers : List (String × Outcome)) (id id' : String) (o : Outcome) :
    counted { s with answers := (id', o) :: answers } id =
      counted { s with answers } id + if id' = id ∧ o ≠ .refused then 1 else 0 := by
  unfold counted
  by_cases h : id' = id ∧ o ≠ .refused
  · rw [List.filter_cons_of_pos (by simpa using h), if_pos h, List.length_cons]
  · rw [List.filter_cons_of_neg (by simpa using h), if_neg h, Nat.add_zero]

/-- The count of the row goes up with the answer. -/
theorem Counts.answer (row : AccessRequest) {o : Outcome} {s' : State} (h : Counts s) (hrows : Rows s.relay.requests s.used)
    (hr : r ∈ s.relay.requests) (hlt : r.attemptCount < 5) (hid : row.requestId = r.requestId)
    (hcount : row.attemptCount = r.attemptCount + 1)
    (hrequests : s'.relay.requests = (replaceRow row s.relay).requests)
    (hused : s'.used = s.used) (hanswers : s'.answers = (r.requestId, o) :: s.answers) :
    Counts s' := by
  have hstep : ∀ id, counted s' id ≤ counted s id + if r.requestId = id then 1 else 0 := by
    intro id
    have heq : counted s' id = counted { s with answers := (r.requestId, o) :: s.answers } id := by
      unfold counted
      rw [hanswers]
    rw [heq, counted_cons]
    split_ifs with hboth hsame
    · exact Nat.le_refl _
    · exact absurd hboth.1 hsame
    · exact Nat.le_succ _
    · exact Nat.le_refl _
  have hother : ∀ id, r.requestId ≠ id → counted s' id ≤ counted s id := by
    intro id hne
    have := hstep id
    rwa [if_neg hne] at this
  have hrow : counted s' r.requestId ≤ r.attemptCount + 1 := by
    have := hstep r.requestId
    rw [if_pos rfl] at this
    exact this.trans (Nat.succ_le_succ (h.row r hr))
  refine ⟨fun id => ?_, fun x hx => ?_, fun id hid' => ?_⟩
  · by_cases hsame : r.requestId = id
    · subst hsame
      omega
    · exact (hother id hsame).trans (h.five id)
  · rw [hrequests] at hx
    rcases mem_replace hx with rfl | ⟨hx, hne⟩
    · rw [hid, hcount]
      exact hrow
    · exact (hother _ fun heq => hne (heq.symm.trans hid.symm)).trans (h.row x hx)
  · rw [hused] at hid'
    have hne : r.requestId ≠ id := fun heq => hid' (heq ▸ hrows.used r hr)
    exact Nat.le_zero.mp ((hother id hne).trans (Nat.le_of_eq (h.unused id hid')))

/-- The other transactions keep their rows. -/
theorem Transactions.held_replace (h : Transactions hmac formatPublicUid lockKey s)
    (row : AccessRequest) (hid : row.requestId = t.row.requestId) (hx : x ∈ (close t s).txns) :
    x.row ∈ (replaceRow row s.relay).requests ∧ x.row.requestId = uuid x.payload.requestId := by
  obtain ⟨hx, hne⟩ := mem_close hx
  exact ⟨kept_replace (h.held x hx).1 (by rw [hid]; exact hne), (h.held x hx).2⟩

/-- A row that is not activated is rewritten. -/
theorem activated_replace (row : AccessRequest) (h : Rows s.relay.requests s.used) (hr : r ∈ s.relay.requests)
    (hopen : r.status ≠ .activated) (hid : row.requestId = r.requestId) :
    ∀ y ∈ s.relay.requests, y.status = .activated → y ∈ (replaceRow row s.relay).requests := by
  intro y hy hactivated
  refine kept_replace hy fun heq => hopen ?_
  rw [← h.ids y hy r hr (heq.trans hid)]
  exact hactivated

theorem invariant_invalid (ht : t ∈ s.txns) (hstage : t.stage = .wrong)
    (hi : Invariant hmac formatPublicUid lockKey s) :
    Invariant hmac formatPublicUid lockKey (invalid t s) := by
  have hat := hi.txns.stages t ht
  unfold AtStage at hat
  rw [hstage] at hat
  obtain ⟨happroved, hlt⟩ := hat
  have hrow := (hi.txns.held t ht).1
  have hopen : t.row.status ≠ .activated := by
    rw [happroved]
    exact Status.noConfusion
  let row := { t.row with attemptCount := t.row.attemptCount + 1 }
  exact
    { rows := hi.rows.replace row hrow rfl rfl
      txns := { hi.txns.closed with held := fun x hx => hi.txns.held_replace row rfl hx }
      accounts := { hi.accounts.requests _ (activated_replace row hi.rows hrow hopen rfl) with }
      answered := { hi.answered with }
      counts := hi.counts.answer row hi.rows hrow hlt rfl rfl rfl rfl rfl }

theorem Answered.more {successes : List Success} {a : Success} (h : Answered s)
    (hs : s.successes = successes) : 
    (∀ u ∈ s.relay.users, ∃ b ∈ a :: successes, b.userId = u.userId) ∧
      (∀ d ∈ s.relay.devices, ∃ b ∈ a :: successes, uuid b.deviceId = d.deviceId) ∧
      (∀ k ∈ s.relay.prekeys, ∃ b ∈ a :: successes, uuid b.deviceId = k.deviceId) ∧
      ∀ x ∈ s.relay.sessions, ∃ b ∈ a :: successes, b.sessionToken = x.token := by
  subst hs
  refine ⟨fun u hu => ?_, fun d hd => ?_, fun k hk => ?_, fun x hx => ?_⟩
  · obtain ⟨b, hb, heq⟩ := h.users u hu
    exact ⟨b, List.mem_cons_of_mem a hb, heq⟩
  · obtain ⟨b, hb, heq⟩ := h.devices d hd
    exact ⟨b, List.mem_cons_of_mem a hb, heq⟩
  · obtain ⟨b, hb, heq⟩ := h.prekeys k hk
    exact ⟨b, List.mem_cons_of_mem a hb, heq⟩
  · obtain ⟨b, hb, heq⟩ := h.sessions x hx
    exact ⟨b, List.mem_cons_of_mem a hb, heq⟩

theorem prekeyRows_device {k : Prekey} (h : k ∈ prekeyRows p) : k.deviceId = uuid p.deviceId := by
  simp only [prekeyRows, List.mem_append, List.mem_cons, List.mem_map,
    List.not_mem_nil, or_false] at h
  rcases h with ((rfl | ⟨x, -, rfl⟩) | ⟨x, -, rfl⟩) | rfl <;> rfl

/-- The account that a commit writes. -/
theorem accounts_commit (row : AccessRequest) {requests : List AccessRequest} {sessions : List Session}
    {prekeys : List Prekey} {a : Success} {d : Device}
    (h : Accounts hmac s)
    (hkept : ∀ x ∈ s.relay.requests, x.status = .activated → x ∈ requests) (hrow : row ∈ requests)
    (hactivated : row.status = .activated) (hrowId : row.requestId = uuid p.requestId)
    (hcode : row.codeHash = some (hmac p.activationCode))
    (hinsert : Insertable s p row.username userId)
    (hfree : ∀ u ∈ s.relay.users, u.publicUid ≠ uid)
    (hd : d.userId = userId ∧ d.deviceId = uuid p.deviceId ∧ d.identityKey = p.identityKey ∧
      d.authKey = p.authKey ∧ d.requestId = row.requestId)
    (ha : a.payload = p ∧ a.userId = userId ∧ a.publicUid = uid ∧ a.deviceId = p.deviceId) :
    Accounts hmac { s with
      relay := { requests, sessions, prekeys
                 users := ⟨userId, row.username, uid, row.requestId⟩ :: s.relay.users
                 devices := d :: s.relay.devices }
      successes := a :: s.successes } := by
  have hgrows : Grows s.relay
      { requests, sessions, prekeys
        users := ⟨userId, row.username, uid, row.requestId⟩ :: s.relay.users
        devices := d :: s.relay.devices } :=
    ⟨hkept, fun _ hu => List.mem_cons_of_mem _ hu,
      fun x hx => ⟨x, List.mem_cons_of_mem _ hx, rfl, rfl, rfl, rfl⟩⟩
  obtain ⟨hown, hdevice, hidentity, hauth, hrequest⟩ := hd
  obtain ⟨hpayload, huser, huid, hdeviceId⟩ := ha
  refine
    { users := fun u hu => ?_
      devices := fun x hx => ?_
      userIds := List.nodup_cons.mpr ⟨fun hmem => ?_, h.userIds⟩
      usernames := List.nodup_cons.mpr ⟨fun hmem => ?_, h.usernames⟩
      publicUids := List.nodup_cons.mpr ⟨fun hmem => ?_, h.publicUids⟩
      owners := List.nodup_cons.mpr ⟨fun hmem => ?_, h.owners⟩
      successes := fun b hb => ?_
      returning := fun g hg => ⟨(h.returning g hg).1.grows hgrows, (h.returning g hg).2⟩ }
  · rcases List.mem_cons.mp hu with rfl | hu
    · exact ⟨row, hrow, hactivated, rfl, rfl⟩
    · obtain ⟨r, hr, hstatus, hid, hname⟩ := h.users u hu
      exact ⟨r, hkept r hr hstatus, hstatus, hid, hname⟩
  · rcases List.mem_cons.mp hx with rfl | hx
    · exact ⟨_, List.mem_cons_self, hown.symm, hrequest.symm⟩
    · obtain ⟨u, hu, hid, hreq⟩ := h.devices x hx
      exact ⟨u, List.mem_cons_of_mem _ hu, hid, hreq⟩
  · obtain ⟨u, hu, heq⟩ := List.mem_map.mp hmem
    exact (hinsert.users u hu).1 heq
  · obtain ⟨u, hu, heq⟩ := List.mem_map.mp hmem
    exact (hinsert.users u hu).2 heq
  · obtain ⟨u, hu, heq⟩ := List.mem_map.mp hmem
    exact hfree u hu heq
  · obtain ⟨x, hx, heq⟩ := List.mem_map.mp hmem
    obtain ⟨u, hu, hid, -⟩ := h.devices x hx
    exact (hinsert.users u hu).1 (hid.trans (heq.trans hown))
  · rcases List.mem_cons.mp hb with rfl | hb
    · refine ⟨?_, by rw [hdeviceId, hpayload]⟩
      rw [hpayload, huser, huid]
      exact ⟨row, hrow, hactivated, hrowId, hcode, _, List.mem_cons_self, rfl, rfl, rfl, d,
        List.mem_cons_self, hown, hdevice, hidentity, hauth⟩
    · exact ⟨(h.successes b hb).1.grows hgrows, (h.successes b hb).2⟩

theorem invariant_commit {token : String} {expiresAt : Nat} (ht : t ∈ s.txns)
    (hcommit : ∃ userId uid, t.stage = .inserting userId uid ∧
      Insertable s t.payload t.row.username userId)
    (hi : Invariant hmac formatPublicUid lockKey s) :
    Invariant hmac formatPublicUid lockKey (commit t token expiresAt s) := by
  obtain ⟨userId, uid, hstage, hinsert⟩ := hcommit
  have hat := hi.txns.stages t ht
  unfold AtStage at hat
  unfold commit
  rw [hstage] at hat ⊢
  obtain ⟨⟨happroved, hlt, hcode⟩, hlocked, hfree⟩ := hat
  obtain ⟨hrow, hid⟩ := hi.txns.held t ht
  have hopen : t.row.status ≠ .activated := by
    rw [happroved]
    exact Status.noConfusion
  let row := { t.row with status := .activated, attemptCount := t.row.attemptCount + 1 }
  have hkept := activated_replace row hi.rows hrow hopen rfl
  have hold := hi.answered.more (a := ⟨t.payload, token, expiresAt, userId, t.payload.deviceId,
    t.row.username, uid⟩) rfl
  refine
    { rows := hi.rows.replace row hrow rfl rfl
      txns := { hi.txns.closed with
        held := fun x hx => hi.txns.held_replace row rfl hx
        stages := fun x hx => ?_ }
      accounts := ?_
      answered := ?_
      counts := hi.counts.answer row hi.rows hrow hlt rfl rfl rfl rfl rfl }
  · obtain ⟨hx', hne⟩ := mem_close hx
    have hatx := hi.txns.stages x hx'
    unfold AtStage at hatx ⊢
    cases hxs : x.stage with
    | inserting userId' uid' =>
      rw [hxs] at hatx
      refine ⟨hatx.1, hatx.2.1, fun u hu => ?_⟩
      rcases List.mem_cons.mp hu with rfl | hu
      · intro heq
        exact hi.txns.locks x hx' t ht hne uid' hatx.2.1 uid hlocked (congrArg lockKey heq.symm)
      · exact hatx.2.2 u hu
    | _ =>
      rw [hxs] at hatx
      exact hatx
  · exact { accounts_commit row hi.accounts hkept (row_replace hrow rfl) rfl hid
      (of_decide_eq_true hcode) hinsert hfree ⟨rfl, rfl, rfl, rfl, rfl⟩ ⟨rfl, rfl, rfl, rfl⟩ with }
  · obtain ⟨husers, hdevices, hprekeys, hsessions⟩ := hold
    refine ⟨fun u hu => ?_, fun d hd => ?_, fun k hk => ?_, fun x hx => ?_⟩
    · rcases List.mem_cons.mp hu with rfl | hu
      · exact ⟨_, List.mem_cons_self, rfl⟩
      · exact husers u hu
    · rcases List.mem_cons.mp hd with rfl | hd
      · exact ⟨_, List.mem_cons_self, rfl⟩
      · exact hdevices d hd
    · rcases List.mem_append.mp hk with hk | hk
      · exact ⟨_, List.mem_cons_self, (prekeyRows_device hk).symm⟩
      · exact hprekeys k hk
    · rcases List.mem_cons.mp hx with rfl | hx
      · exact ⟨_, List.mem_cons_self, rfl⟩
      · exact hsessions x hx

theorem invariant_existing (ht : t ∈ s.txns) (hstage : t.stage = .completed)
    (hi : Invariant hmac formatPublicUid lockKey s) :
    Invariant hmac formatPublicUid lockKey (existing hmac t s) := by
  have hat := hi.txns.stages t ht
  unfold AtStage at hat
  rw [hstage] at hat
  obtain ⟨hrow, hid⟩ := hi.txns.held t ht
  have hclosed : Invariant hmac formatPublicUid lockKey (close t s) := invariant_close hi
  unfold existing
  split
  · exact hclosed
  · next u hu =>
    split
    · exact hclosed
    · next d hd =>
      split
      · next hmatch =>
        have hname : u.username = t.row.username := by simpa using List.find?_some hu
        have hfound := List.find?_some hd
        simp only [Bool.and_eq_true, decide_eq_true_eq, Bool.not_eq_true'] at hfound hmatch
        obtain ⟨⟨hown, hdevice⟩, -⟩ := hfound
        obtain ⟨⟨hcode, hidentity⟩, hauth⟩ := hmatch
        have haccount : Account hmac s.relay t.payload u.userId u.publicUid :=
          ⟨t.row, hrow, hat, hid, of_decide_eq_true hcode, u, List.mem_of_find?_eq_some hu, hname, rfl,
            rfl, d, List.mem_of_find?_eq_some hd, hown, hdevice, hidentity, hauth⟩
        refine ⟨hclosed.rows, { hclosed.txns with }, { hclosed.accounts with returning := fun g hg => ?_ },
          { hclosed.answered with }, { hclosed.counts with }⟩
        rcases List.mem_cons.mp hg with rfl | hg
        · exact ⟨haccount, (congrArg uuid hdevice).trans (uuid_uuid _)⟩
        · exact hi.accounts.returning g hg
      · exact hclosed

theorem invariant_grant {g : Payload × User × Device} {token : String} {expiresAt : Nat}
    (hg : g ∈ s.returning) (hi : Invariant hmac formatPublicUid lockKey s) :
    Invariant hmac formatPublicUid lockKey (grant g token expiresAt s) := by
  have hgrows : Grows s.relay (grant g token expiresAt s).relay :=
    ⟨fun _ hx _ => hx, fun _ hu => hu, fun d hd => ⟨d, hd, rfl, rfl, rfl, rfl⟩⟩
  obtain ⟨husers, hdevices, hprekeys, hsessions⟩ := hi.answered.more (a := ⟨g.1, token, expiresAt,
    g.2.1.userId, g.2.2.deviceId, g.2.1.username, g.2.1.publicUid⟩) rfl
  refine ⟨hi.rows, { hi.txns with }, { hi.accounts with
      successes := fun a ha => ?_
      returning := fun x hx => ?_ }, ⟨husers, hdevices, hprekeys, fun x hx => ?_⟩, { hi.counts with }⟩
  · rcases List.mem_cons.mp ha with rfl | ha
    · exact ⟨(hi.accounts.returning g hg).1.grows hgrows, (hi.accounts.returning g hg).2⟩
    · exact ⟨(hi.accounts.successes a ha).1.grows hgrows, (hi.accounts.successes a ha).2⟩
  · have hold := hi.accounts.returning x (List.mem_of_mem_erase hx)
    exact ⟨hold.1.grows hgrows, hold.2⟩
  · rcases List.mem_cons.mp hx with rfl | hx
    · exact ⟨_, List.mem_cons_self, rfl⟩
    · exact hsessions x hx

theorem invariant_refuse (hi : Invariant hmac formatPublicUid lockKey s) :
    Invariant hmac formatPublicUid lockKey (refuse t s) := by
  have hsame : ∀ id, counted (refuse t s) id = counted s id := by
    intro id
    have hcons : counted (refuse t s) id = _ := counted_cons (s := s) s.answers id t.row.requestId .refused
    rw [hcons, if_neg fun h => h.2 rfl, Nat.add_zero]
  refine ⟨hi.rows, { hi.txns.closed with }, { hi.accounts with }, { hi.answered with },
    ⟨fun id => ?_, fun r hr => ?_, fun id hid => ?_⟩⟩
  · rw [hsame]
    exact hi.counts.five id
  · rw [hsame]
    exact hi.counts.row r hr
  · rw [hsame]
    exact hi.counts.unused id hid

theorem invariant_revoke {deviceId : String} (hi : Invariant hmac formatPublicUid lockKey s) :
    Invariant hmac formatPublicUid lockKey (next hmac formatPublicUid s (.revoke deviceId)) := by
  have hmem : ∀ d ∈ (next hmac formatPublicUid s (.revoke deviceId)).relay.devices,
      ∃ d₀ ∈ s.relay.devices, d.userId = d₀.userId ∧ d.deviceId = d₀.deviceId ∧
        d.requestId = d₀.requestId := by
    intro d hd
    obtain ⟨d₀, hd₀, rfl⟩ := List.mem_map.mp hd
    refine ⟨d₀, hd₀, ?_⟩
    split <;> exact ⟨rfl, rfl, rfl⟩
  have hgrows : Grows s.relay (next hmac formatPublicUid s (.revoke deviceId)).relay := by
    refine ⟨fun _ hx _ => hx, fun _ hu => hu, fun d hd => ⟨_, List.mem_map_of_mem hd, ?_⟩⟩
    split <;> exact ⟨rfl, rfl, rfl, rfl⟩
  refine ⟨hi.rows, { hi.txns with }, { hi.accounts with
    devices := fun d hd => ?_
    owners := ?_
    successes := fun a ha =>
      ⟨(hi.accounts.successes a ha).1.grows hgrows, (hi.accounts.successes a ha).2⟩
    returning := fun g hg =>
      ⟨(hi.accounts.returning g hg).1.grows hgrows, (hi.accounts.returning g hg).2⟩ },
    { hi.answered with devices := fun d hd => ?_ }, { hi.counts with }⟩
  · obtain ⟨d₀, hd₀, huser, -, hrequest⟩ := hmem d hd
    obtain ⟨u, hu, huid, hreq⟩ := hi.accounts.devices d₀ hd₀
    exact ⟨u, hu, huid.trans huser.symm, hreq.trans hrequest.symm⟩
  · have howners : (next hmac formatPublicUid s (.revoke deviceId)).relay.devices.map Device.userId =
        s.relay.devices.map Device.userId := by
      simp only [next, List.map_map]
      refine List.map_congr_left fun d _ => ?_
      dsimp only [Function.comp]
      split <;> rfl
    rw [howners]
    exact hi.accounts.owners
  · obtain ⟨d₀, hd₀, -, hdevice, -⟩ := hmem d hd
    obtain ⟨a, ha, heq⟩ := hi.answered.devices d₀ hd₀
    exact ⟨a, ha, heq.trans hdevice.symm⟩

/-- A new request comes in, alone or in the place of an expired one of its name. -/
theorem invariant_applied {requests : List AccessRequest} (fresh : AccessRequest)
    (hi : Invariant hmac formatPublicUid lockKey s) (hunused : fresh.requestId ∉ s.used)
    (hfree : ∀ t ∈ s.txns, t.row.username ≠ fresh.username)
    (hmem : ∀ x ∈ requests, x = fresh ∨ (x ∈ s.relay.requests ∧ x.username ≠ fresh.username))
    (hkept : ∀ x ∈ s.relay.requests, x.username ≠ fresh.username → x ∈ requests)
    (hopen : ∀ x ∈ s.relay.requests, x.username = fresh.username → x.status ≠ .activated) :
    Invariant hmac formatPublicUid lockKey
      { s with relay := { s.relay with requests }, used := fresh.requestId :: s.used } := by
  have hne : ∀ x ∈ s.relay.requests, x.requestId ≠ fresh.requestId :=
    fun x hx heq => hunused (heq ▸ hi.rows.used x hx)
  have haccounts := hi.accounts.requests requests fun x hx hactivated =>
    hkept x hx fun hname => hopen x hx hname hactivated
  refine ⟨⟨fun x hx y hy heq => ?_, fun x hx y hy heq => ?_, fun x hx => ?_⟩,
    { hi.txns with held := fun t ht => ?_ }, { haccounts with }, { hi.answered with },
    ⟨hi.counts.five, fun x hx => ?_, fun id hid => ?_⟩⟩
  · rcases hmem x hx with rfl | ⟨hx', -⟩ <;> rcases hmem y hy with rfl | ⟨hy', -⟩
    · rfl
    · exact absurd heq.symm (hne y hy')
    · exact absurd heq (hne x hx')
    · exact hi.rows.ids x hx' y hy' heq
  · rcases hmem x hx with rfl | ⟨hx', hxne⟩ <;> rcases hmem y hy with rfl | ⟨hy', hyne⟩
    · rfl
    · exact absurd heq.symm hyne
    · exact absurd heq hxne
    · exact hi.rows.names x hx' y hy' heq
  · rcases hmem x hx with rfl | ⟨hx, -⟩
    · exact List.mem_cons_self
    · exact List.mem_cons_of_mem _ (hi.rows.used x hx)
  · exact ⟨hkept _ (hi.txns.held t ht).1 (hfree t ht), (hi.txns.held t ht).2⟩
  · rcases hmem x hx with rfl | ⟨hx, -⟩
    · exact (Nat.le_of_eq (hi.counts.unused _ hunused)).trans (Nat.zero_le _)
    · exact hi.counts.row x hx
  · exact hi.counts.unused id fun h => hid (List.mem_cons_of_mem _ h)

theorem invariant_apply {requestId username codeHash : String} {now expiresAt : Nat}
    (hunused : requestId ∉ s.used) (hfree : ∀ t ∈ s.txns, t.row.username ≠ username)
    (hi : Invariant hmac formatPublicUid lockKey s) :
    Invariant hmac formatPublicUid lockKey
      (Activation.apply requestId username codeHash now expiresAt s) := by
  unfold Activation.apply
  dsimp only
  split
  · exact hi
  · split
    · next hnone =>
      have hname : ∀ x ∈ s.relay.requests, x.username ≠ username := by
        simpa using hnone
      exact invariant_applied ⟨requestId, username, .approved, some codeHash, 0, some expiresAt⟩ hi hunused hfree
        (fun x hx => (List.mem_cons.mp hx).imp_right fun h => ⟨h, hname x h⟩)
        (fun x hx _ => List.mem_cons_of_mem _ hx) fun x hx heq => absurd heq (hname x hx)
    · next r hr =>
      split
      · next hreplaceable =>
        have hrname : r.username = username := by simpa using List.find?_some hr
        have hopen : r.status ≠ .activated := by
          intro heq
          simp [heq] at hreplaceable
        refine invariant_applied ⟨requestId, username, .approved, some codeHash, 0, some expiresAt⟩ hi hunused
          hfree (fun x hx => ?_) (fun x hx hne => ?_) fun x hx heq => ?_
        · obtain ⟨y, hy, rfl⟩ := List.mem_map.mp hx
          split
          · exact .inl rfl
          · next hne => exact .inr ⟨hy, hne⟩
        · exact List.mem_map.mpr ⟨x, hx, if_neg hne⟩
        · rw [hi.rows.names x hx r (List.mem_of_find?_eq_some hr) (heq.trans hrname.symm)]
          exact hopen
      · exact hi

end Steps

theorem next_invariant {hmac formatPublicUid : String → String} {lockKey : String → Nat} {s : State}
    {e : Event} (hi : Invariant hmac formatPublicUid lockKey s)
    (he : Enabled formatPublicUid lockKey s e) :
    Invariant hmac formatPublicUid lockKey (next hmac formatPublicUid s e) := by
  cases e with
  | apply requestId username code now expiresAt => exact invariant_apply he.1 he.2 hi
  | begin p userId now => exact invariant_begin hi he.2
  | existing t => exact invariant_existing he.1 he.2 hi
  | grant g token expiresAt => exact invariant_grant he.1 hi
  | invalid t => exact invariant_invalid he.1 he.2 hi
  | lockUid t => exact invariant_lockUid he.1 he.2 hi
  | checkUid t => exact invariant_checkUid he hi
  | commit t token expiresAt => exact invariant_commit he.1 he.2.1 hi
  | refuse t => exact invariant_refuse hi
  | drop t => exact invariant_close hi
  | dropGrant g =>
    exact ⟨hi.rows, { hi.txns with }, { hi.accounts with
      returning := fun x hx => hi.accounts.returning x (List.mem_of_mem_erase hx) },
      { hi.answered with }, { hi.counts with }⟩
  | revoke deviceId => exact invariant_revoke hi

theorem initial_invariant {hmac formatPublicUid : String → String} {lockKey : String → Nat}
    {s : State} (h : Initial s) : Invariant hmac formatPublicUid lockKey s := by
  obtain ⟨husers, hdevices, hprekeys, hsessions⟩ := h.accounts
  have hnone : ∀ id, counted s id = 0 := fun id => by simp [counted, h.answers.1]
  refine ⟨⟨fun r hr x hx heq => List.inj_on_of_nodup_map h.distinct.1 hr hx heq,
    fun r hr x hx heq => List.inj_on_of_nodup_map h.distinct.2 hr hx heq,
    fun r hr => (h.requests r hr).2⟩, ⟨?_, ?_, ?_, ?_⟩, ⟨?_, ?_, ?_, ?_, ?_, ?_, ?_, ?_⟩,
    ⟨?_, ?_, ?_, ?_⟩, ⟨fun id => ?_, fun r _ => ?_, fun id _ => hnone id⟩⟩
  case refine_17 => exact (Nat.le_of_eq (hnone id)).trans (Nat.zero_le 5)
  case refine_18 => exact (Nat.le_of_eq (hnone r.requestId)).trans (Nat.zero_le _)
  all_goals simp [husers, hdevices, hprekeys, hsessions, h.txns, h.answers]

/-- A request yields one account at most, public UIDs differ, five comparisons of a code are
committed at most, successful answers agree, and nothing is left by a failed one. -/
theorem activation_bounded (hmac formatPublicUid : String → String) (lockKey : String → Nat)
    {s : State} (h : Reachable (system hmac formatPublicUid lockKey) s) :
    (s.relay.users.map User.requestId).Nodup ∧ (s.relay.devices.map Device.requestId).Nodup ∧
      (s.relay.users.map User.publicUid).Nodup ∧
      (∀ requestId, counted s requestId ≤ 5) ∧
      (∀ a ∈ s.successes, ∀ b ∈ s.successes,
        uuid a.payload.requestId = uuid b.payload.requestId →
          a.userId = b.userId ∧ uuid a.deviceId = uuid b.deviceId ∧ a.publicUid = b.publicUid ∧
          hmac a.payload.activationCode = hmac b.payload.activationCode ∧
          uuid a.payload.deviceId = uuid b.payload.deviceId ∧
          a.payload.identityKey = b.payload.identityKey ∧ a.payload.authKey = b.payload.authKey) ∧
      Answered s := by
  have hi : Invariant hmac formatPublicUid lockKey s :=
    reachable_invariant (fun _ => initial_invariant) (fun _ _ => next_invariant) h
  have hnames := List.inj_on_of_nodup_map hi.accounts.usernames
  have huserIds := List.inj_on_of_nodup_map hi.accounts.userIds
  have howners := List.inj_on_of_nodup_map hi.accounts.owners
  have huser : ∀ u ∈ s.relay.users, ∀ v ∈ s.relay.users, u.requestId = v.requestId → u = v := by
    intro u hu v hv heq
    obtain ⟨r, hr, -, hrid, hrname⟩ := hi.accounts.users u hu
    obtain ⟨x, hx, -, hxid, hxname⟩ := hi.accounts.users v hv
    have hrow := hi.rows.ids r hr x hx (hrid.trans (heq.trans hxid.symm))
    exact hnames hu hv (hrname.symm.trans ((congrArg AccessRequest.username hrow).trans hxname))
  refine ⟨?_, ?_, hi.accounts.publicUids, hi.counts.five, fun a ha b hb hreq => ?_, hi.answered⟩
  · exact hi.accounts.userIds.of_map _ |>.map_on huser
  · refine (hi.accounts.owners.of_map _).map_on fun d hd e he heq => ?_
    obtain ⟨u, hu, hud, hureq⟩ := hi.accounts.devices d hd
    obtain ⟨v, hv, hve, hvreq⟩ := hi.accounts.devices e he
    have hsame := huser u hu v hv (hureq.trans (heq.trans hvreq.symm))
    exact howners hd he (hud.symm.trans ((congrArg User.userId hsame).trans hve))
  · obtain ⟨⟨r, hr, -, hrid, hrcode, u, hu, hun, hui, hup, d, hd, hdo, hdd, hdi, hda⟩, hadev⟩ :=
      hi.accounts.successes a ha
    obtain ⟨⟨x, hx, -, hxid, hxcode, v, hv, hvn, hvi, hvp, e, he, heo, hed, hei, hea⟩, hbdev⟩ :=
      hi.accounts.successes b hb
    obtain rfl := hi.rows.ids r hr x hx (hrid.trans (hreq.trans hxid.symm))
    obtain rfl := hnames hu hv (hun.trans hvn.symm)
    obtain rfl := howners hd he (hdo.trans (hui.symm.trans (hvi.trans heo.symm)))
    have hdevice := hdd.symm.trans hed
    exact ⟨hui.symm.trans hvi, hadev.trans (hdevice.trans hbdev.symm), hup.symm.trans hvp,
      Option.some.inj (hrcode.symm.trans hxcode), hdevice, hdi.symm.trans hei, hda.symm.trans hea⟩

section Refused

instance (s : State) (p : Payload) (username userId : String) :
    Decidable (Insertable s p username userId) :=
  decidable_of_iff
    ((∀ u ∈ s.relay.users, u.userId ≠ userId ∧ u.username ≠ username) ∧
      (∀ d ∈ s.relay.devices, d.deviceId ≠ uuid p.deviceId) ∧
      ((prekeyRows p).map fun k => (k.table, k.key.id)).Nodup ∧
      p.registrationId < 2 ^ 31 ∧ p.signalDeviceId < 2 ^ 31 ∧ ∀ k ∈ prekeyRows p, k.key.id < 2 ^ 31)
    ⟨fun ⟨hu, hd, hk, hn⟩ => ⟨hu, hd, hk, hn⟩, fun h => ⟨h.users, h.devices, h.prekeys, h.integers⟩⟩

/-- The ids and codes stand for their hashes. -/
abbrev relayOfTrace : System State Event := system id id String.length

def phone : String := "6f1c1b3e-52a7-4c55-9d0e-1f2a3b4c5d6e"

def keys (n : Nat) : List Key := (List.range 20).map fun i => ⟨n + i, [], []⟩

/-- The payload of a device, for one request. -/
def payload (requestId code : String) : Payload :=
  ⟨requestId, code, phone, [1], [2], 7, 1, ⟨1, [3], []⟩, keys 1, keys 1, ⟨100, [4], []⟩⟩

def aliceId : String := "00000000-0000-4000-8000-000000000001"

def bobId : String := "00000000-0000-4000-8000-000000000002"

def aliceCode : String := "alice-alice-alice-alice"

def bobCode : String := "bob-bob-bob-bob-bob-bob"

def aliceTxn (stage : Stage) (locks : List String) : Txn :=
  ⟨payload aliceId aliceCode, ⟨aliceId, "alice", .approved, some aliceCode, 0, some 600⟩, stage, locks⟩

def bobTxn (stage : Stage) (locks : List String) : Txn :=
  ⟨payload bobId bobCode, ⟨bobId, "bob", .approved, some bobCode, 0, some 600⟩, stage, locks⟩

/-- Bob's code is right, but the device is Alice's already. -/
def attempt : List Event :=
  [.begin (payload bobId bobCode) "bob-user" 1, .lockUid (bobTxn (.trying "bob-user" 0) []),
    .checkUid (bobTxn (.locked "bob-user" 0) ["bob-user"]),
    .refuse (bobTxn (.inserting "bob-user" "bob-user") ["bob-user"])]

def registration : List Event :=
  [.apply aliceId "alice" aliceCode 0 600, .begin (payload aliceId aliceCode) "alice-user" 1,
    .lockUid (aliceTxn (.trying "alice-user" 0) []),
    .checkUid (aliceTxn (.locked "alice-user" 0) ["alice-user"]),
    .commit (aliceTxn (.inserting "alice-user" "alice-user") ["alice-user"]) "token" 99,
    .apply bobId "bob" bobCode 0 600]

def trace : List Event :=
  registration ++ (attempt ++ (attempt ++ (attempt ++ (attempt ++ (attempt ++ attempt)))))

def empty : State := ⟨⟨[], [], [], [], []⟩, [], [], [], [], []⟩

def afterTrace : State := relayOfTrace.replay empty trace

instance (s : State) (e : Event) : Decidable (Enabled id String.length s e) :=
  match e with
  | .apply _ username _ _ _ =>
    inferInstanceAs (Decidable (_ ∉ s.used ∧ ∀ t ∈ s.txns, t.row.username ≠ username))
  | .begin p _ _ => inferInstanceAs (Decidable (activationPayloadSchema p = true ∧
      ∀ t ∈ s.txns, t.row.requestId ≠ uuid p.requestId))
  | .existing t => inferInstanceAs (Decidable (t ∈ s.txns ∧ t.stage = .completed))
  | .grant g token _ =>
    inferInstanceAs (Decidable (g ∈ s.returning ∧ ∀ x ∈ s.relay.sessions, x.token ≠ token))
  | .invalid t => inferInstanceAs (Decidable (t ∈ s.txns ∧ t.stage = .wrong))
  | .lockUid t =>
    match h : t.stage with
    | .trying userId n =>
      decidable_of_iff (t ∈ s.txns ∧ ∀ x ∈ s.txns, x.row.requestId ≠ t.row.requestId →
          ∀ uid ∈ x.locks, uid.length ≠ (candidate id userId n).length)
        (by simp [Enabled, h])
    | .completed => isFalse (by simp [Enabled, h])
    | .wrong => isFalse (by simp [Enabled, h])
    | .locked _ _ => isFalse (by simp [Enabled, h])
    | .inserting _ _ => isFalse (by simp [Enabled, h])
  | .checkUid t => inferInstanceAs (Decidable (t ∈ s.txns))
  | .commit t token _ =>
    match h : t.stage with
    | .inserting userId _ =>
      decidable_of_iff (t ∈ s.txns ∧ Insertable s t.payload t.row.username userId ∧
          ∀ x ∈ s.relay.sessions, x.token ≠ token)
        (by simp [Enabled, h])
    | .completed => isFalse (by simp [Enabled, h])
    | .wrong => isFalse (by simp [Enabled, h])
    | .locked _ _ => isFalse (by simp [Enabled, h])
    | .trying _ _ => isFalse (by simp [Enabled, h])
  | .refuse t =>
    match h : t.stage with
    | .inserting userId _ =>
      decidable_of_iff (t ∈ s.txns ∧ ¬Insertable s t.payload t.row.username userId)
        (by simp [Enabled, h])
    | .completed => isFalse (by simp [Enabled, h])
    | .wrong => isFalse (by simp [Enabled, h])
    | .locked _ _ => isFalse (by simp [Enabled, h])
    | .trying _ _ => isFalse (by simp [Enabled, h])
  | .drop t => inferInstanceAs (Decidable (t ∈ s.txns))
  | .dropGrant _ => isTrue trivial
  | .revoke _ => isTrue trivial

theorem afterTrace_reachable : Reachable relayOfTrace afterTrace := by
  have hvalid : relayOfTrace.Valid empty trace := by
    simp only [trace, registration, attempt, List.cons_append, List.nil_append, System.Valid,
      relayOfTrace, system]
    decide +kernel
  refine valid_trace_reachable (reachable_initial ?_) hvalid
  exact ⟨by simp [empty], ⟨List.nodup_nil, List.nodup_nil⟩, ⟨rfl, rfl, rfl, rfl⟩, ⟨rfl, rfl⟩, ⟨rfl, rfl⟩⟩

theorem registration_bounded : afterTrace.successes.length = 1 ∧ counted afterTrace aliceId ≤ 5 :=
  ⟨by decide +kernel, (activation_bounded id id String.length afterTrace_reachable).2.2.2.1 aliceId⟩

/-- Six comparisons of Bob's code have been answered, each with a status that tells that it
matched, and his request is not activated. -/
theorem code_compared_six_times : Reachable relayOfTrace afterTrace ∧
    (afterTrace.answers.filter fun a => a.1 = bobId).length = 6 ∧
    ∀ r ∈ afterTrace.relay.requests, r.requestId = bobId → r.status = .approved := by
  refine ⟨afterTrace_reachable, ?_, ?_⟩ <;> decide +kernel

end Refused

end Activation
