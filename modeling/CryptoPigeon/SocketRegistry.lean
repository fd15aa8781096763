import CryptoPigeon.SignalBudget
import CryptoPigeon.TransitionSystem

/-! # The relay's socket registry

`setupWebSocket` of the relay and `forwardSignal` as its sockets call it. What is awaited is a
query: one step asks it, another evaluates it in the database, a third brings the answer and runs to
the next `await`. Sockets are numbered as they are registered, and the versions of the database are
kept as history. Tokens are random, so each has one device, its `owner`. A signal that is posted
over HTTP belongs to no socket and is left out. -/
namespace SocketRegistry

open TransitionSystem
open LoginSignature (Text)

/-! ## The tables -/

/-- `sessions` -/
structure Session where
  token : String
  deviceId : String
  expiresAt : Int
  deriving DecidableEq, Repr

/-- `device_identity_keys` -/
structure Device where
  deviceId : String
  userId : String
  revokedAt : Option Int
  deriving DecidableEq, Repr

/-- `users` -/
structure User where
  userId : String
  publicUid : Option Text
  revokedAt : Option Int
  deriving DecidableEq, Repr

/-- `device_vault_locks` -/
structure Lock where
  deviceId : String
  instanceHash : String
  deriving DecidableEq, Repr

/-- `conversation_permissions` -/
structure Permission where
  userOne : String
  userTwo : String
  revokedAt : Option Int
  deriving DecidableEq, Repr

structure Database where
  sessions : List Session
  devices : List Device
  users : List User
  locks : List Lock
  permissions : List Permission
  /-- The primary key of the locks. -/
  keyed : ∀ l ∈ locks, ∀ l' ∈ locks, l.deviceId = l'.deviceId → l = l'
  /-- A lock is refused without a hash. -/
  hashed : ∀ l ∈ locks, l.instanceHash ≠ ""

/-- The sessions with this token that have not expired, joined with devices and users that are not
revoked. -/
def sessionRows (db : Database) (token : String) (now : Int) : List (Session × Device) :=
  (db.sessions.filter fun s => s.token = token ∧ s.expiresAt > now).flatMap fun s =>
    (db.devices.filter fun d => d.deviceId = s.deviceId ∧ d.revokedAt = none).flatMap fun d =>
      (db.users.filter fun u => u.userId = d.userId ∧ u.revokedAt = none).map fun _ => (s, d)

def lockOf (db : Database) (deviceId : String) : Option Lock :=
  db.locks.find? fun l => l.deviceId = deviceId

/-- `LEFT JOIN device_vault_locks l ON l.device_id=d.device_id` -/
def lockRows (db : Database) (d : Device) : List (Option Lock) :=
  match db.locks.filter fun l => l.deviceId = d.deviceId with
  | [] => [none]
  | l :: ls => (l :: ls).map some

/-- `l.instance_hash IS NULL OR l.instance_hash=$3` -/
def opens (presented : String) : Option Lock → Bool
  | none => true
  | some l => l.instanceHash == presented

/-- Whether the query of `authorized` and of the keep-alive has a row. -/
def active (db : Database) (token : String) (now : Int) (presented : String) : Bool :=
  (sessionRows db token now).any fun row => (lockRows db row.2).any (opens presented)

def senderRows (db : Database) (deviceId : String) : List User :=
  (db.devices.filter fun d => d.deviceId = deviceId ∧ d.revokedAt = none).flatMap fun d =>
    db.users.filter fun u => u.userId = d.userId ∧ u.revokedAt = none

def least (a b : String) : String := if b < a then b else a

def greatest (a b : String) : String := if b < a then a else b

def peerRows (db : Database) (toUid : Text) (sender : String) : List String :=
  (db.users.filter fun u => u.publicUid = some toUid ∧ u.revokedAt = none).flatMap fun u =>
    (db.devices.filter fun d => d.userId = u.userId ∧ d.revokedAt = none).flatMap fun d =>
      (db.permissions.filter fun p => p.userOne = least u.userId sender ∧
        p.userTwo = greatest u.userId sender ∧ p.revokedAt = none).map fun _ => d.deviceId

/-! ## Sockets and signals -/

/-- `readyState`; a socket is registered once it is open. -/
inductive Ready where
  | opened
  | closing
  | closed
  deriving DecidableEq, Repr

/-- The effect of `close` and of `terminate`: the close event comes later. -/
def Ready.shut : Ready → Ready
  | .opened => .closing
  | ready => ready

structure Socket where
  deviceId : String
  token : String
  vaultInstance : Option String
  ready : Ready
  isAlive : Bool
  pinging : Bool
  pendingSignals : Nat
  deriving DecidableEq, Repr

/-- A signal of the schema; `rest` is what the relay only passes on. -/
structure Signal where
  signalId : String
  fromUid : Text
  toUid : Text
  ttlMs : Int
  rest : String
  deriving DecidableEq, Repr

inductive Reason where
  | unauthorized
  | senderMismatch
  | rateLimited
  | contactNotApproved
  | expired
  | peerOffline
  deriving DecidableEq, Repr

inductive Frame where
  | ping
  | pong
  | signal (signal : Signal)
  /-- `WEBRTC_SIGNAL_RESULT`; delivered if there is no reason. -/
  | result (signalId : String) (reason : Option Reason)
  | invalidRequest
  | notification (data : String)
  deriving DecidableEq, Repr

structure Sent where
  socket : Nat
  frame : Frame
  deriving DecidableEq, Repr

/-- The headers and the url of an upgrade; a query token that is not one string is absent. -/
structure Request where
  path : String
  authorization : Option String
  queryToken : Option String
  vaultInstance : Option String
  deriving DecidableEq, Repr

def Request.token (r : Request) : Option String :=
  match r.authorization with
  | none => r.queryToken
  | some a =>
    if a.toList.take 7 = "Bearer ".toList then some (String.ofList (a.toList.drop 7))
    else r.queryToken

structure Upgrade where
  token : String
  vaultInstance : Option String
  deriving DecidableEq, Repr

/-- A call of `forwardSignal`, for a message of `socket`. -/
structure Forward where
  socket : Nat
  deviceId : String
  signal : Signal
  receivedAt : Int
  deriving DecidableEq, Repr

/-- Where the handler goes on. -/
inductive Await where
  | session (u : Upgrade)
  | lock (u : Upgrade) (deviceId : String)
  | authorized (f : Forward)
  | sender (f : Forward)
  | peer (f : Forward) (sender : String)
  | stillAuthorized (f : Forward) (peer : String)
  | keepAlive (w : Nat)
  deriving DecidableEq, Repr

/-- `asked` is the version of the database when the query was sent, `seen` the one that answers. -/
structure Query where
  awaits : Await
  askedAt : Int
  asked : Nat
  seen : Option Nat
  deriving DecidableEq, Repr

structure State where
  clients : String → Option Nat
  sockets : Nat → Option Socket
  made : Nat
  queries : Nat → Option Query
  asked : Nat
  budget : SignalBudget.Pairs
  databases : Nat → Database
  version : Nat
  sent : List Sent

def initial (db : Database) : State where
  clients := fun _ => none
  sockets := fun _ => none
  made := 0
  queries := fun _ => none
  asked := 0
  budget := ∅
  databases := fun _ => db
  version := 0
  sent := []

/-! ## The handlers -/

def modify (s : State) (w : Nat) (f : Socket → Socket) : State :=
  { s with sockets := Function.update s.sockets w ((s.sockets w).map f) }

def close (s : State) (w : Nat) : State := modify s w fun k => { k with ready := k.ready.shut }

def terminate (s : State) (w : Nat) : State := close s w

/-- `ws.send`, which does nothing unless the socket is open. -/
def send (s : State) (w : Nat) (frame : Frame) : State :=
  if (s.sockets w).any fun k => k.ready = .opened then { s with sent := s.sent ++ [⟨w, frame⟩] }
  else s

/-- `room` says whether the buffered amount is within the bound. -/
def notifyClient (s : State) (deviceId : String) (frame : Frame) (room : Bool) : Bool × State :=
  match s.clients deviceId with
  | none => (false, s)
  | some w =>
    if ((s.sockets w).any fun k => k.ready = .opened) && room then (true, send s w frame)
    else (false, s)

def ask (s : State) (now : Int) (awaits : Await) : State :=
  { s with
    queries := Function.update s.queries s.asked (some ⟨awaits, now, s.version, none⟩)
    asked := s.asked + 1 }

/-- The call is over: its result is sent, and it is no longer pending. -/
def settle (s : State) (w : Nat) (frame : Frame) : State :=
  modify (send s w frame) w fun k => { k with pendingSignals := k.pendingSignals - 1 }

def refuse (s : State) (f : Forward) (reason : Reason) : State :=
  settle s f.socket (.result f.signal.signalId (some reason))

def newSocket (u : Upgrade) (deviceId : String) : Socket where
  deviceId := deviceId
  token := u.token
  vaultInstance := u.vaultInstance
  ready := .opened
  isAlive := true
  pinging := true
  pendingSignals := 0

/-- `clients.set(deviceId, ws)` -/
def added (s : State) (u : Upgrade) (deviceId : String) : State :=
  { s with
    clients := Function.update s.clients deviceId (some s.made)
    sockets := Function.update s.sockets s.made (some (newSocket u deviceId))
    made := s.made + 1 }

def register (s : State) (u : Upgrade) (deviceId : String) : State :=
  match s.clients deviceId with
  | none => added s u deviceId
  | some previous => close (added s u deviceId) previous

/-- What the environment decides when an answer arrives: the time, whether the handshake of an
upgrade still succeeds, and whether the peer's buffer has room. -/
structure Moment where
  now : Int
  accepted : Bool
  room : Bool
  deriving DecidableEq, Repr

section Handlers

-- the hex digest of a header
variable (sha256 : String → String)

def presented (vaultInstance : Option String) : String :=
  match vaultInstance with
  | none => ""
  | some header => sha256 header

/-- `authorized`, once its query is answered. -/
def authorized (s : State) (w : Nat) (db : Database) (askedAt : Int) : Bool :=
  match s.sockets w with
  | none => false
  | some k =>
    active db k.token askedAt (presented sha256 k.vaultInstance) &&
      s.clients k.deviceId == some w && k.ready == .opened

/-- The check of the lock before an upgrade. -/
def locked (db : Database) (u : Upgrade) (deviceId : String) : Bool :=
  match lockOf db deviceId with
  | none => false
  | some l =>
    match u.vaultInstance with
    | none => true
    | some header => sha256 header != l.instanceHash

/-- The last part of `forwardSignal`. -/
def deliver (s : State) (f : Forward) (peer : String) (m : Moment) : State :=
  if m.now - f.receivedAt ≥ f.signal.ttlMs then refuse s f .expired
  else
    let (delivered, s) := notifyClient s peer (.signal f.signal) m.room
    if delivered then settle s f.socket (.result f.signal.signalId none)
    else refuse s f .peerOffline

/-- A handler goes on with the answer that it has awaited. -/
def resume (s : State) (q : Query) (db : Database) (m : Moment) : State :=
  match q.awaits with
  | .session u =>
    match sessionRows db u.token q.askedAt with
    | [] => s
    | row :: _ => ask s m.now (.lock u row.1.deviceId)
  | .lock u deviceId =>
    if locked sha256 db u deviceId then s
    else if m.accepted then register s u deviceId else s
  | .authorized f =>
    if authorized sha256 s f.socket db q.askedAt then ask s m.now (.sender f)
    else refuse s f .unauthorized
  | .sender f =>
    match senderRows db f.deviceId with
    | [] => refuse s f .senderMismatch
    | sender :: _ =>
      if sender.publicUid ≠ some f.signal.fromUid ∨ f.signal.fromUid = f.signal.toUid then
        refuse s f .senderMismatch
      else
        let (taken, budget) := SignalBudget.take s.budget f.signal.fromUid f.signal.toUid m.now
        let s := { s with budget := budget }
        if taken then ask s m.now (.peer f sender.userId) else refuse s f .rateLimited
  | .peer f sender =>
    match peerRows db f.signal.toUid sender with
    | [] => refuse s f .contactNotApproved
    | peer :: _ => ask s m.now (.stillAuthorized f peer)
  | .stillAuthorized f peer =>
    if authorized sha256 s f.socket db q.askedAt then deliver s f peer m
    else refuse s f .unauthorized
  | .keepAlive w =>
    match s.sockets w with
    | none => s
    | some k =>
      if !active db k.token q.askedAt (presented sha256 k.vaultInstance) then terminate s w
      else if !k.isAlive then terminate s w
      else send (modify s w fun k => { k with isAlive := false }) w .ping

end Handlers

/-- A query that fails: nothing is left of an upgrade, the keep-alive takes it for no row. -/
def abandon (s : State) : Await → State
  | .session _ => s
  | .lock _ _ => s
  | .authorized f => settle s f.socket .invalidRequest
  | .sender f => settle s f.socket .invalidRequest
  | .peer f _ => settle s f.socket .invalidRequest
  | .stillAuthorized f _ => settle s f.socket .invalidRequest
  | .keepAlive w => terminate s w

def upgrade (s : State) (r : Request) (now : Int) : State :=
  if r.path ≠ "/ws" then s
  else
    match r.token with
    | none => s
    | some token => ask s now (.session ⟨token, r.vaultInstance⟩)

/-- A message by its type; of a signal, what the schema makes of it. -/
inductive Data where
  | unreadable
  | ping
  | signal (parsed : Option Signal)
  | other
  deriving DecidableEq, Repr

def onMessage (s : State) (w : Nat) (k : Socket) (now : Int) : Data → State
  | .unreadable => send s w .invalidRequest
  | .ping => send s w .pong
  | .other => s
  | .signal parsed =>
    if k.pendingSignals ≥ 4 then close s w
    else
      match parsed with
      | none => send s w .invalidRequest
      | some signal =>
        ask (modify s w fun k => { k with pendingSignals := k.pendingSignals + 1 }) now
          (.authorized ⟨w, k.deviceId, signal, now⟩)

def onClose (s : State) (w : Nat) (k : Socket) : State :=
  { s with
    sockets := Function.update s.sockets w (some { k with ready := .closed, pinging := false })
    clients :=
      if s.clients k.deviceId = some w then Function.update s.clients k.deviceId none
      else s.clients }

/-! ## Runs -/

inductive Event where
  | upgrade (r : Request) (now : Int)
  | evaluate (q : Nat)
  | answered (q : Nat) (m : Moment)
  | fails (q : Nat)
  | message (w : Nat) (data : Data) (now : Int)
  | pong (w : Nat)
  | tick (w : Nat) (now : Int)
  /-- The peer's close frame, or the end of its connection. -/
  | closing (w : Nat)
  | closed (w : Nat)
  | error (w : Nat)
  | notify (deviceId : String) (data : String) (room : Bool)
  | database (db : Database)

/-- Every session is of the device for which its token was made. -/
def Issued (owner : String → String) (db : Database) : Prop :=
  ∀ x ∈ db.sessions, x.deviceId = owner x.token

instance (owner : String → String) (db : Database) : Decidable (Issued owner db) :=
  inferInstanceAs (Decidable (∀ x ∈ db.sessions, x.deviceId = owner x.token))

def Unclosed (s : State) (w : Nat) : Prop := (s.sockets w).any (fun k => k.ready ≠ .closed) = true

instance (s : State) (w : Nat) : Decidable (Unclosed s w) :=
  inferInstanceAs (Decidable (_ = true))

def Enabled (owner : String → String) (s : State) : Event → Prop
  | .evaluate q => (s.queries q).any (fun query => query.seen = none) = true
  | .answered q _ => (s.queries q).any (fun query => query.seen ≠ none) = true
  | .fails q => (s.queries q).isSome = true
  | .message w _ _ | .pong w | .closing w | .closed w => Unclosed s w
  | .tick w _ => (s.sockets w).any (fun k => k.pinging) = true
  | .error w => (s.sockets w).isSome = true
  | .database db => Issued owner db
  | .upgrade _ _ | .notify _ _ _ => True

instance (owner : String → String) (s : State) (e : Event) : Decidable (Enabled owner s e) := by
  cases e <;> unfold Enabled <;> infer_instance

def next (sha256 : String → String) (s : State) : Event → State
  | .upgrade r now => upgrade s r now
  | .evaluate q =>
    { s with
      queries := Function.update s.queries q
        ((s.queries q).map fun query => { query with seen := some s.version }) }
  | .answered q m =>
    match s.queries q with
    | none => s
    | some query =>
      match query.seen with
      | none => s
      | some v =>
        resume sha256 { s with queries := Function.update s.queries q none } query
          (s.databases v) m
  | .fails q =>
    match s.queries q with
    | none => s
    | some query => abandon { s with queries := Function.update s.queries q none } query.awaits
  | .message w data now =>
    match s.sockets w with
    | none => s
    | some k => onMessage s w k now data
  | .pong w => modify s w fun k => { k with isAlive := true }
  | .tick w now => ask s now (.keepAlive w)
  | .closing w => close s w
  | .closed w =>
    match s.sockets w with
    | none => s
    | some k => onClose s w k
  | .error w => close s w
  | .notify deviceId data room => (notifyClient s deviceId (.notification data) room).2
  | .database db =>
    { s with
      databases := Function.update s.databases (s.version + 1) db
      version := s.version + 1 }

def system (sha256 owner : String → String) : System State Event where
  Initial s := ∃ db, Issued owner db ∧ s = initial db
  Enabled := Enabled owner
  next := next sha256

/-! ## What is to hold -/

/-- No socket of the device was registered after this one. -/
def Latest (s : State) (deviceId : String) (w : Nat) : Prop :=
  (∃ k, s.sockets w = some k ∧ k.deviceId = deviceId) ∧
    ∀ w' k', s.sockets w' = some k' → k'.deviceId = deviceId → w' ≤ w

/-- What a check is to establish for a socket at a time. -/
structure Valid (sha256 : String → String) (db : Database) (k : Socket) (now : Int) : Prop where
  session : ∃ x ∈ db.sessions, x.token = k.token ∧ x.deviceId = k.deviceId ∧ now < x.expiresAt
  device : ∃ d ∈ db.devices, d.deviceId = k.deviceId ∧ d.revokedAt = none ∧
    ∃ u ∈ db.users, u.userId = d.userId ∧ u.revokedAt = none
  lock : ∀ l ∈ db.locks, l.deviceId = k.deviceId →
    ∃ header, k.vaultInstance = some header ∧ l.instanceHash = sha256 header

/-- The socket is the registered one of its device, and the answer that has come was given after the
question by a database in which all was valid. -/
structure Vouched (sha256 : String → String) (s : State) (w : Nat) (q : Query) (v : Nat)
    (k : Socket) : Prop where
  socket : s.sockets w = some k
  registered : s.clients k.deviceId = some w
  opened : k.ready = .opened
  asked : q.asked ≤ v
  version : v ≤ s.version
  valid : Valid sha256 (s.databases v) k q.askedAt

/-- The event is the answer to the last check of this signal's call. -/
def Forwards (sha256 : String → String) (s : State) (e : Event) (signal : Signal) : Prop :=
  ∃ i q m f peer v k, e = .answered i m ∧ s.queries i = some q ∧ q.seen = some v ∧
    q.awaits = .stillAuthorized f peer ∧ f.signal = signal ∧ Vouched sha256 s f.socket q v k

/-! ## What a check establishes -/

section Checks

variable {sha256 owner : String → String} {db : Database} {token : String} {now : Int}

theorem mem_sessionRows {row : Session × Device} :
    row ∈ sessionRows db token now ↔
      (row.1 ∈ db.sessions ∧ row.1.token = token ∧ now < row.1.expiresAt) ∧
      (row.2 ∈ db.devices ∧ row.2.deviceId = row.1.deviceId ∧ row.2.revokedAt = none) ∧
      ∃ u ∈ db.users, u.userId = row.2.userId ∧ u.revokedAt = none := by
  obtain ⟨x, d⟩ := row
  simp only [sessionRows, List.mem_flatMap, List.mem_map, List.mem_filter, decide_eq_true_eq]
  constructor
  · rintro ⟨x', hx, d', hd, u, hu, heq⟩
    cases heq
    exact ⟨hx, hd, u, hu⟩
  · rintro ⟨hx, hd, u, hu⟩
    exact ⟨x, hx, d, hd, u, hu, rfl⟩

/-- A missing header opens no lock, since no hash is empty. -/
theorem opens_header {l : Lock} {vaultInstance : Option String} (hhash : l.instanceHash ≠ "")
    (h : opens (presented sha256 vaultInstance) (some l) = true) :
    ∃ header, vaultInstance = some header ∧ l.instanceHash = sha256 header := by
  simp only [opens, beq_iff_eq] at h
  cases vaultInstance with
  | none => exact absurd h hhash
  | some header => exact ⟨header, rfl, h⟩

theorem lockRows_any {d : Device} {l : Lock} {p : Option Lock → Bool} (hl : l ∈ db.locks)
    (hd : l.deviceId = d.deviceId) (h : (lockRows db d).any p = true) : p (some l) = true := by
  have hmem : l ∈ db.locks.filter fun l => l.deviceId = d.deviceId :=
    List.mem_filter.mpr ⟨hl, decide_eq_true hd⟩
  unfold lockRows at h
  split at h
  · next hnil =>
    rw [hnil] at hmem
    cases hmem
  · next l' ls hcons =>
    rw [← hcons] at h
    obtain ⟨row, hrow, hp⟩ := List.any_eq_true.mp h
    obtain ⟨l'', hl'', rfl⟩ := List.mem_map.mp hrow
    obtain ⟨hin, hdevice⟩ := List.mem_filter.mp hl''
    rw [db.keyed l hl l'' hin (hd.trans (of_decide_eq_true hdevice).symm)]
    exact hp

theorem active_valid {k : Socket} (hissued : Issued owner db) (hk : k.deviceId = owner k.token)
    (h : active db k.token now (presented sha256 k.vaultInstance) = true) :
    Valid sha256 db k now := by
  obtain ⟨row, hrow, hlock⟩ := List.any_eq_true.mp h
  obtain ⟨⟨hx, htoken, hexpires⟩, ⟨hd, hdevice, hkept⟩, huser⟩ := mem_sessionRows.mp hrow
  have howner : row.1.deviceId = k.deviceId := by rw [hissued row.1 hx, htoken, hk]
  constructor
  · exact ⟨row.1, hx, htoken, howner, hexpires⟩
  · exact ⟨row.2, hd, hdevice.trans howner, hkept, huser⟩
  · intro l hl hof
    have hdev : l.deviceId = row.2.deviceId := by rw [hof, hdevice, howner]
    exact opens_header (db.hashed l hl) (lockRows_any hl hdev hlock)

end Checks

/-! ## What a handler leaves alone -/

section Moves

variable {sha256 owner : String → String} {ok : Signal → Prop} {s t u : State} {w : Nat}

/-- What the registry depends on. -/
def Socket.entry (k : Socket) : String × String × Bool :=
  (k.deviceId, k.token, decide (k.ready = .closed))

/-- A query of a run, by the version at which it is looked at. -/
structure Asked (owner : String → String) (version : Nat) (q : Query) : Prop where
  asked : q.asked ≤ version
  seen : ∀ v, q.seen = some v → q.asked ≤ v ∧ v ≤ version
  device : ∀ u deviceId, q.awaits = .lock u deviceId → deviceId = owner u.token

/-- No socket is added, removed or closed, every signal that is sent is allowed, and what is new
among the queries and the versions is as it should be. -/
structure Moves (owner : String → String) (ok : Signal → Prop) (s t : State) : Prop where
  clients : t.clients = s.clients
  made : t.made = s.made
  sockets : ∀ w, (t.sockets w).map Socket.entry = (s.sockets w).map Socket.entry
  sent : ∃ frames, t.sent = s.sent ++ frames ∧
    ∀ x ∈ frames, ∀ signal, x.frame = .signal signal → ok signal
  queries : ∀ i q, t.queries i = some q → s.queries i = some q ∨ Asked owner t.version q
  version : s.version ≤ t.version
  databases : ∀ v ≤ t.version, t.databases v = s.databases v ∧ v ≤ s.version ∨
    Issued owner (t.databases v)

theorem Asked.mono {q : Query} {v v' : Nat} (h : Asked owner v q) (hle : v ≤ v') :
    Asked owner v' q :=
  ⟨h.asked.trans hle, fun x hx => ⟨(h.seen x hx).1, (h.seen x hx).2.trans hle⟩, h.device⟩

/-- Only the sockets may have changed, and what was sent. -/
theorem Moves.of_sockets (hclients : t.clients = s.clients) (hmade : t.made = s.made)
    (hsockets : ∀ w, (t.sockets w).map Socket.entry = (s.sockets w).map Socket.entry)
    (hsent : ∃ frames, t.sent = s.sent ++ frames ∧
      ∀ x ∈ frames, ∀ signal, x.frame = .signal signal → ok signal)
    (hqueries : t.queries = s.queries) (hversion : t.version = s.version)
    (hdatabases : t.databases = s.databases) : Moves owner ok s t where
  clients := hclients
  made := hmade
  sockets := hsockets
  sent := hsent
  queries i q hq := by
    rw [hqueries] at hq
    exact .inl hq
  version := hversion.ge
  databases v hv := by
    rw [hversion] at hv
    rw [hdatabases]
    exact .inl ⟨rfl, hv⟩

theorem sent_nothing (h : t.sent = s.sent) : ∃ frames, t.sent = s.sent ++ frames ∧
    ∀ x ∈ frames, ∀ signal, x.frame = .signal signal → ok signal :=
  ⟨[], by rw [h, List.append_nil], fun _ hx => by cases hx⟩

theorem Moves.refl : Moves owner ok s s :=
  .of_sockets rfl rfl (fun _ => rfl) (sent_nothing rfl) rfl rfl rfl

theorem Moves.trans (h : Moves owner ok s t) (h' : Moves owner ok t u) : Moves owner ok s u := by
  obtain ⟨frames, hsent, hok⟩ := h.sent
  obtain ⟨frames', hsent', hok'⟩ := h'.sent
  constructor
  · exact h'.clients.trans h.clients
  · exact h'.made.trans h.made
  · exact fun w => (h'.sockets w).trans (h.sockets w)
  · refine ⟨frames ++ frames', ?_, ?_⟩
    · rw [hsent', hsent, List.append_assoc]
    · intro x hx
      rcases List.mem_append.mp hx with hx | hx
      · exact hok x hx
      · exact hok' x hx
  · intro i q hq
    rcases h'.queries i q hq with hq | hnew
    · exact (h.queries i q hq).imp_right fun hasked => hasked.mono h'.version
    · exact .inr hnew
  · exact h.version.trans h'.version
  · intro v hv
    rcases h'.databases v hv with ⟨heq, hle⟩ | hissued
    · rw [heq]
      exact h.databases v hle
    · exact .inr hissued

theorem moves_modify {f : Socket → Socket} (h : ∀ k, (f k).entry = k.entry) :
    Moves owner ok s (modify s w f) := by
  refine .of_sockets rfl rfl (fun w' => ?_) (sent_nothing rfl) rfl rfl rfl
  by_cases hw : w' = w
  · subst hw
    simp only [modify, Function.update_self, Option.map_map]
    congr 1
    exact funext h
  · simp only [modify, Function.update_of_ne hw]

theorem Ready.shut_closed (ready : Ready) : ready.shut = .closed ↔ ready = .closed := by
  cases ready <;> decide

theorem moves_close : Moves owner ok s (close s w) := by
  apply moves_modify
  intro k
  simp only [Socket.entry, Ready.shut_closed]

theorem moves_send {frame : Frame} (h : ∀ signal, frame = .signal signal → ok signal) :
    Moves owner ok s (send s w frame) := by
  unfold send
  split
  · refine .of_sockets rfl rfl (fun _ => rfl) ⟨[⟨w, frame⟩], rfl, ?_⟩ rfl rfl rfl
    intro x hx
    rw [List.mem_singleton] at hx
    rw [hx]
    exact h
  · exact .refl

theorem moves_ask {now : Int} {a : Await} (h : ∀ u deviceId, a = .lock u deviceId →
    deviceId = owner u.token) : Moves owner ok s (ask s now a) where
  clients := rfl
  made := rfl
  sockets _ := rfl
  sent := sent_nothing rfl
  queries i q hq := by
    by_cases hi : i = s.asked
    · right
      simp only [ask, hi, Function.update_self, Option.some.injEq] at hq
      rw [← hq]
      exact ⟨le_rfl, fun v hv => (by cases hv), h⟩
    · simp only [ask, Function.update_of_ne hi] at hq
      exact .inl hq
  version := le_rfl
  databases v hv := .inl ⟨rfl, hv⟩

/-- A handler that has its answer no longer waits for it. -/
theorem moves_drop {i : Nat} :
    Moves owner ok s { s with queries := Function.update s.queries i none } where
  clients := rfl
  made := rfl
  sockets _ := rfl
  sent := sent_nothing rfl
  queries j q hq := by
    by_cases hj : j = i
    · simp only [hj, Function.update_self] at hq
      cases hq
    · simp only [Function.update_of_ne hj] at hq
      exact .inl hq
  version := le_rfl
  databases v hv := .inl ⟨rfl, hv⟩

theorem moves_settle {frame : Frame} (h : ∀ signal, frame = .signal signal → ok signal) :
    Moves owner ok s (settle s w frame) :=
  (moves_send h).trans (moves_modify fun _ => rfl)

theorem moves_refuse {f : Forward} {reason : Reason} : Moves owner ok s (refuse s f reason) :=
  moves_settle fun _ h => by cases h

theorem moves_notify {deviceId : String} {frame : Frame} {room : Bool}
    (h : ∀ signal, frame = .signal signal → ok signal) :
    Moves owner ok s (notifyClient s deviceId frame room).2 := by
  unfold notifyClient
  split
  · exact .refl
  · split
    · exact moves_send h
    · exact .refl

theorem moves_deliver {f : Forward} {peer : String} {m : Moment} (h : ok f.signal) :
    Moves owner ok s (deliver s f peer m) := by
  have hsignal (signal : Signal) (heq : Frame.signal f.signal = .signal signal) : ok signal := by
    cases heq
    exact h
  unfold deliver
  split
  · exact moves_refuse
  · have hnotified : Moves owner ok s (notifyClient s peer (.signal f.signal) m.room).2 :=
      moves_notify hsignal
    dsimp only
    split
    · exact hnotified.trans (moves_settle fun _ heq => by cases heq)
    · exact hnotified.trans moves_refuse

theorem moves_abandon {a : Await} : Moves owner ok s (abandon s a) := by
  have hinvalid (f : Forward) : Moves owner ok s (settle s f.socket .invalidRequest) :=
    moves_settle fun _ h => by cases h
  cases a with
  | session _ => exact .refl
  | lock _ _ => exact .refl
  | authorized f => exact hinvalid f
  | sender f => exact hinvalid f
  | peer f _ => exact hinvalid f
  | stillAuthorized f _ => exact hinvalid f
  | keepAlive w => exact moves_close

theorem moves_onMessage {k : Socket} {now : Int} {data : Data} :
    Moves owner ok s (onMessage s w k now data) := by
  cases data with
  | unreadable => exact moves_send fun _ h => by cases h
  | ping => exact moves_send fun _ h => by cases h
  | other => exact .refl
  | signal parsed =>
    simp only [onMessage]
    split
    · exact moves_close
    · cases parsed with
      | none => exact moves_send fun _ h => by cases h
      | some signal =>
        have hcounted : Moves owner ok s
            (modify s w fun k => { k with pendingSignals := k.pendingSignals + 1 }) :=
          moves_modify fun _ => rfl
        exact hcounted.trans (moves_ask fun _ _ h => by cases h)

/-- Past the lock, an answer either adds a socket or leaves the registry alone; a signal is sent
only if the last check has passed. -/
theorem moves_resume {q : Query} {db : Database} {m : Moment}
    (hissued : Issued owner db)
    (hnew : ∀ u deviceId, q.awaits ≠ .lock u deviceId)
    (hok : ∀ f peer, q.awaits = .stillAuthorized f peer →
      authorized sha256 s f.socket db q.askedAt = true → ok f.signal) :
    Moves owner ok s (resume sha256 s q db m) := by
  have hbudget (budget : SignalBudget.Pairs) : Moves owner ok s { s with budget := budget } :=
    .of_sockets rfl rfl (fun _ => rfl) (sent_nothing rfl) rfl rfl rfl
  have hask {t : State} {a : Await} (ha : ∀ u deviceId, a ≠ .lock u deviceId) :
      Moves owner ok t (ask t m.now a) := moves_ask fun u deviceId h => absurd h (ha u deviceId)
  unfold resume
  cases hq : q.awaits with
  | session u =>
    dsimp only
    split
    · exact .refl
    · next row rows hrows =>
      refine moves_ask fun u' deviceId hlock => ?_
      cases hlock
      have hrow : row ∈ sessionRows db u.token q.askedAt := hrows ▸ List.mem_cons_self
      obtain ⟨⟨hx, htoken, -⟩, -⟩ := mem_sessionRows.mp hrow
      rw [hissued row.1 hx, htoken]
  | lock u deviceId => exact absurd hq (hnew u deviceId)
  | authorized f =>
    dsimp only
    split
    · exact hask fun _ _ h => by cases h
    · exact moves_refuse
  | sender f =>
    dsimp only
    split
    · exact moves_refuse
    · split
      · exact moves_refuse
      · split
        · exact (hbudget _).trans (hask fun _ _ h => by cases h)
        · exact (hbudget _).trans moves_refuse
  | peer f sender =>
    dsimp only
    split
    · exact moves_refuse
    · exact hask fun _ _ h => by cases h
  | stillAuthorized f peer =>
    dsimp only
    split
    · next hauthorized => exact moves_deliver (hok f peer hq hauthorized)
    · exact moves_refuse
  | keepAlive w =>
    dsimp only
    split
    · exact .refl
    · split
      · exact moves_close
      · split
        · exact moves_close
        · have hmarked : Moves owner ok s (modify s w fun k => { k with isAlive := false }) :=
            moves_modify fun _ => rfl
          exact hmarked.trans (moves_send fun _ h => by cases h)

end Moves

/-! ## The registry -/

structure Invariant (owner : String → String) (s : State) : Prop where
  fresh : ∀ w k, s.sockets w = some k → w < s.made
  owned : ∀ w k, s.sockets w = some k → k.deviceId = owner k.token
  registered : ∀ deviceId w, s.clients deviceId = some w ↔ Latest s deviceId w ∧ Unclosed s w
  pending : ∀ i q, s.queries i = some q → Asked owner s.version q
  issued : ∀ v ≤ s.version, Issued owner (s.databases v)

section Registry

variable {sha256 owner : String → String} {ok : Signal → Prop} {s t : State} {w : Nat}
  {deviceId : String} {u : Upgrade} {k : Socket} {e : Event}

theorem find_of_entry (h : (t.sockets w).map Socket.entry = (s.sockets w).map Socket.entry)
    (hk : t.sockets w = some k) : ∃ k', s.sockets w = some k' ∧ k'.entry = k.entry := by
  rw [hk, Option.map_some] at h
  exact Option.map_eq_some_iff.mp h.symm

theorem entry_eq {k' : Socket} (h : k'.entry = k.entry) : k'.deviceId = k.deviceId ∧
    k'.token = k.token ∧ (k'.ready = .closed ↔ k.ready = .closed) := by
  simpa only [Socket.entry, Prod.mk.injEq, decide_eq_decide] using h

theorem unclosed_iff : Unclosed s w ↔ ∃ k, s.sockets w = some k ∧ k.ready ≠ .closed := by
  simp only [Unclosed, Option.any_eq_true, decide_eq_true_eq]

theorem latest_of_entries
    (h : ∀ w, (t.sockets w).map Socket.entry = (s.sockets w).map Socket.entry)
    (hl : Latest s deviceId w) : Latest t deviceId w := by
  obtain ⟨⟨k, hk, hd⟩, hmax⟩ := hl
  obtain ⟨k', hk', hentry⟩ := find_of_entry (h w).symm hk
  refine ⟨⟨k', hk', (entry_eq hentry).1.trans hd⟩, ?_⟩
  intro w' x hx hdx
  obtain ⟨x', hx', hentry'⟩ := find_of_entry (h w') hx
  exact hmax w' x' hx' ((entry_eq hentry').1.trans hdx)

theorem unclosed_of_entries
    (h : ∀ w, (t.sockets w).map Socket.entry = (s.sockets w).map Socket.entry)
    (hopen : Unclosed s w) : Unclosed t w := by
  obtain ⟨k, hk, hready⟩ := unclosed_iff.mp hopen
  obtain ⟨k', hk', hentry⟩ := find_of_entry (h w).symm hk
  exact unclosed_iff.mpr ⟨k', hk', fun hclosed => hready ((entry_eq hentry).2.2.mp hclosed)⟩

theorem invariant_moves (hm : Moves owner ok s t) (h : Invariant owner s) : Invariant owner t := by
  have hback (w : Nat) : (s.sockets w).map Socket.entry = (t.sockets w).map Socket.entry :=
    (hm.sockets w).symm
  constructor
  · intro w k hk
    obtain ⟨k', hk', -⟩ := find_of_entry (hm.sockets w) hk
    rw [hm.made]
    exact h.fresh w k' hk'
  · intro w k hk
    obtain ⟨k', hk', hentry⟩ := find_of_entry (hm.sockets w) hk
    obtain ⟨hd, htoken, -⟩ := entry_eq hentry
    rw [← hd, ← htoken]
    exact h.owned w k' hk'
  · intro deviceId w
    rw [hm.clients, h.registered]
    constructor
    · exact fun ⟨hl, hopen⟩ =>
        ⟨latest_of_entries hm.sockets hl, unclosed_of_entries hm.sockets hopen⟩
    · exact fun ⟨hl, hopen⟩ => ⟨latest_of_entries hback hl, unclosed_of_entries hback hopen⟩
  · intro i q hq
    rcases hm.queries i q hq with hold | hnew
    · exact (h.pending i q hold).mono hm.version
    · exact hnew
  · intro v hv
    rcases hm.databases v hv with ⟨heq, hle⟩ | hissued
    · rw [heq]
      exact h.issued v hle
    · exact hissued

theorem added_new :
    (added s u deviceId).sockets s.made = some (newSocket u deviceId) := Function.update_self ..

theorem added_old (hw : w ≠ s.made) : (added s u deviceId).sockets w = s.sockets w :=
  Function.update_of_ne hw ..

theorem added_cases (h : (added s u deviceId).sockets w = some k) :
    w = s.made ∧ k = newSocket u deviceId ∨ s.sockets w = some k := by
  by_cases hw : w = s.made
  · left
    rw [hw, added_new, Option.some.injEq] at h
    exact ⟨hw, h.symm⟩
  · right
    rwa [added_old hw] at h

theorem added_kept (h : Invariant owner s) (hk : s.sockets w = some k) :
    (added s u deviceId).sockets w = some k := by
  rw [added_old (h.fresh w k hk).ne]
  exact hk

theorem le_made (h : Invariant owner s) (hk : (added s u deviceId).sockets w = some k) :
    w ≤ s.made := by
  rcases added_cases hk with ⟨hw, -⟩ | hold
  · exact hw.le
  · exact (h.fresh w k hold).le

/-- The new socket is the latest one of its device. -/
theorem registered_added_self (h : Invariant owner s) :
    (added s u deviceId).clients deviceId = some w ↔
      Latest (added s u deviceId) deviceId w ∧ Unclosed (added s u deviceId) w := by
  have hentry : (added s u deviceId).clients deviceId = some s.made := Function.update_self ..
  rw [hentry, Option.some.injEq]
  constructor
  · rintro rfl
    refine ⟨⟨⟨_, added_new, rfl⟩, fun w' k' hk' _ => le_made h hk'⟩, ?_⟩
    exact unclosed_iff.mpr ⟨_, added_new, fun hclosed => by cases hclosed⟩
  · rintro ⟨⟨⟨k, hk, -⟩, hmax⟩, -⟩
    exact Nat.le_antisymm (hmax s.made _ added_new rfl) (le_made h hk)

/-- No other device is concerned. -/
theorem registered_added_other (h : Invariant owner s) {other : String} (hne : other ≠ deviceId) :
    (added s u deviceId).clients other = some w ↔
      Latest (added s u deviceId) other w ∧ Unclosed (added s u deviceId) w := by
  have hentry : (added s u deviceId).clients other = s.clients other := Function.update_of_ne hne ..
  have hother {w : Nat} {k : Socket} (hk : (added s u deviceId).sockets w = some k)
      (hd : k.deviceId = other) : s.sockets w = some k := by
    rcases added_cases hk with ⟨-, rfl⟩ | hold
    · exact absurd hd.symm hne
    · exact hold
  rw [hentry, h.registered]
  constructor
  · rintro ⟨⟨⟨k, hk, hd⟩, hmax⟩, hopen⟩
    refine ⟨⟨⟨k, added_kept h hk, hd⟩, fun w' k' hk' hd' => hmax w' k' (hother hk' hd') hd'⟩, ?_⟩
    obtain ⟨x, hx, hready⟩ := unclosed_iff.mp hopen
    exact unclosed_iff.mpr ⟨x, added_kept h hx, hready⟩
  · rintro ⟨⟨⟨k, hk, hd⟩, hmax⟩, hopen⟩
    have hold := hother hk hd
    refine ⟨⟨⟨k, hold, hd⟩, fun w' k' hk' hd' => hmax w' k' (added_kept h hk') hd'⟩, ?_⟩
    obtain ⟨x, hx, hready⟩ := unclosed_iff.mp hopen
    rw [hk, Option.some.injEq] at hx
    exact unclosed_iff.mpr ⟨k, hold, hx ▸ hready⟩

theorem invariant_added (h : Invariant owner s) (hd : deviceId = owner u.token) :
    Invariant owner (added s u deviceId) := by
  constructor
  · intro w k hk
    exact Nat.lt_succ_of_le (le_made h hk)
  · intro w k hk
    rcases added_cases hk with ⟨-, rfl⟩ | hold
    · exact hd
    · exact h.owned w k hold
  · intro other w
    by_cases hother : other = deviceId
    · rw [hother]
      exact registered_added_self h
    · exact registered_added_other h hother
  · exact h.pending
  · exact h.issued

/-- A close event takes its own socket out, and no other. -/
theorem onClose_clients (h : Invariant owner s) (hk : s.sockets w = some k) {w' : Nat} :
    (onClose s w k).clients deviceId = some w' ↔ s.clients deviceId = some w' ∧ w' ≠ w := by
  have hown (hw : s.clients deviceId = some w) : k.deviceId = deviceId := by
    obtain ⟨⟨⟨x, hx, hd⟩, -⟩, -⟩ := (h.registered deviceId w).mp hw
    rw [hk, Option.some.injEq] at hx
    rw [hx]
    exact hd
  by_cases hregistered : s.clients k.deviceId = some w
  · simp only [onClose, hregistered, if_true]
    by_cases hd : deviceId = k.deviceId
    · rw [hd, Function.update_self, hregistered, Option.some.injEq]
      constructor
      · intro hnone
        cases hnone
      · rintro ⟨rfl, hne⟩
        exact absurd rfl hne
    · rw [Function.update_of_ne hd]
      refine ⟨fun hw' => ⟨hw', ?_⟩, And.left⟩
      rintro rfl
      exact hd (hown hw').symm
  · simp only [onClose, hregistered, if_false]
    refine ⟨fun hw' => ⟨hw', ?_⟩, And.left⟩
    rintro rfl
    rw [← hown hw'] at hw'
    exact hregistered hw'

theorem invariant_onClose (h : Invariant owner s) (hk : s.sockets w = some k) :
    Invariant owner (onClose s w k) := by
  have hself : (onClose s w k).sockets w =
      some { k with ready := .closed, pinging := false } := Function.update_self ..
  have hold {w' : Nat} (hw : w' ≠ w) : (onClose s w k).sockets w' = s.sockets w' :=
    Function.update_of_ne hw ..
  have hback {w' : Nat} {x : Socket} (hx : (onClose s w k).sockets w' = some x) :
      ∃ y, s.sockets w' = some y ∧ y.deviceId = x.deviceId ∧ y.token = x.token := by
    by_cases hw : w' = w
    · rw [hw, hself, Option.some.injEq] at hx
      rw [hw, ← hx]
      exact ⟨k, hk, rfl, rfl⟩
    · rw [hold hw] at hx
      exact ⟨x, hx, rfl, rfl⟩
  have hforth {w' : Nat} {y : Socket} (hy : s.sockets w' = some y) :
      ∃ x, (onClose s w k).sockets w' = some x ∧ x.deviceId = y.deviceId := by
    by_cases hw : w' = w
    · rw [hw, hk, Option.some.injEq] at hy
      rw [hw, ← hy]
      exact ⟨_, hself, rfl⟩
    · exact ⟨y, (hold hw).trans hy, rfl⟩
  constructor
  · intro w' x hx
    obtain ⟨y, hy, -⟩ := hback hx
    exact h.fresh w' y hy
  · intro w' x hx
    obtain ⟨y, hy, hd, htoken⟩ := hback hx
    rw [← hd, ← htoken]
    exact h.owned w' y hy
  · intro d w'
    rw [onClose_clients h hk, h.registered]
    constructor
    · rintro ⟨⟨⟨⟨y, hy, hd⟩, hmax⟩, hopen⟩, hne⟩
      refine ⟨⟨⟨y, (hold hne).trans hy, hd⟩, fun w'' x hx hdx => ?_⟩, ?_⟩
      · obtain ⟨z, hz, hdz, -⟩ := hback hx
        exact hmax w'' z hz (hdz.trans hdx)
      · obtain ⟨z, hz, hready⟩ := unclosed_iff.mp hopen
        exact unclosed_iff.mpr ⟨z, (hold hne).trans hz, hready⟩
    · rintro ⟨⟨⟨x, hx, hd⟩, hmax⟩, hopen⟩
      obtain ⟨z, hz, hready⟩ := unclosed_iff.mp hopen
      have hne : w' ≠ w := by
        rintro rfl
        rw [hself, Option.some.injEq] at hz
        rw [← hz] at hready
        exact hready rfl
      rw [hold hne] at hx hz
      refine ⟨⟨⟨⟨x, hx, hd⟩, fun w'' y hy hdy => ?_⟩, ?_⟩, hne⟩
      · obtain ⟨x', hx', hdx'⟩ := hforth hy
        exact hmax w'' x' hx' (hdx'.trans hdy)
      · exact unclosed_iff.mpr ⟨z, hz, hready⟩
  · exact h.pending
  · exact h.issued

/-! ## One step -/

theorem invariant_initial {db : Database} (hdb : Issued owner db) :
    Invariant owner (initial db) where
  fresh w k hk := by cases hk
  owned w k hk := by cases hk
  registered deviceId w := by
    constructor
    · intro h
      cases h
    · rintro ⟨⟨⟨k, hk, -⟩, -⟩, -⟩
      cases hk
  pending i q hq := by cases hq
  issued v _ := hdb

theorem register_moves : Moves owner ok (added s u deviceId) (register s u deviceId) := by
  unfold register
  cases s.clients deviceId with
  | none => exact .refl
  | some previous => exact moves_close

theorem vouched_of_authorized {q : Query} {v : Nat} (h : Invariant owner s)
    (hq : Asked owner s.version q) (hv : q.seen = some v) (hauthorized :
      authorized sha256 s w (s.databases v) q.askedAt = true) :
    ∃ k, Vouched sha256 s w q v k := by
  unfold authorized at hauthorized
  cases hk : s.sockets w with
  | none =>
    rw [hk] at hauthorized
    cases hauthorized
  | some k =>
    simp only [hk, Bool.and_eq_true, beq_iff_eq] at hauthorized
    obtain ⟨⟨hactive, hregistered⟩, hopened⟩ := hauthorized
    obtain ⟨hasked, hversion⟩ := hq.seen v hv
    exact ⟨k, hk, hregistered, hopened, hasked, hversion,
      active_valid (h.issued v hversion) (h.owned w k hk) hactive⟩

theorem step_answered {i : Nat} {m : Moment} (h : Invariant owner s) :
    Moves owner (Forwards sha256 s (.answered i m)) s (next sha256 s (.answered i m)) ∨
    ∃ t u, Moves owner (fun _ => False) s t ∧ Moves owner (fun _ => False)
      (added t u (owner u.token)) (next sha256 s (.answered i m)) := by
  cases hq : s.queries i with
  | none =>
    left
    simp only [next, hq]
    exact .refl
  | some q =>
    cases hv : q.seen with
    | none =>
      left
      simp only [next, hq, hv]
      exact .refl
    | some v =>
      have hasked := h.pending i q hq
      have hissued := h.issued v (hasked.seen v hv).2
      simp only [next, hq, hv]
      by_cases hlock : ∃ u deviceId, q.awaits = .lock u deviceId
      · obtain ⟨u, deviceId, hlock⟩ := hlock
        unfold resume
        simp only [hlock]
        split
        · exact .inl moves_drop
        · split
          · right
            rw [hasked.device u deviceId hlock]
            exact ⟨_, u, moves_drop, register_moves⟩
          · exact .inl moves_drop
      · left
        refine moves_drop.trans (moves_resume hissued ?_ ?_)
        · intro u deviceId hu
          exact hlock ⟨u, deviceId, hu⟩
        · intro f peer hf hauthorized
          obtain ⟨k, hvouched⟩ := vouched_of_authorized h hasked hv hauthorized
          exact ⟨i, q, m, f, peer, v, k, rfl, hq, hv, hf, rfl, hvouched⟩

/-- A step leaves the registry alone, adds a socket or takes a closed one out. -/
theorem step_cases (sha256 : String → String) (h : Invariant owner s) (he : Enabled owner s e) :
    Moves owner (Forwards sha256 s e) s (next sha256 s e) ∨
    (∃ t u, Moves owner (fun _ => False) s t ∧
      Moves owner (fun _ => False) (added t u (owner u.token)) (next sha256 s e)) ∨
    ∃ w k, e = .closed w ∧ s.sockets w = some k ∧ next sha256 s e = onClose s w k := by
  have hask {now : Int} {a : Await} (ha : ∀ u deviceId, a ≠ .lock u deviceId) :
      Moves owner (Forwards sha256 s e) s (ask s now a) :=
    moves_ask fun u deviceId hl => absurd hl (ha u deviceId)
  cases e with
  | upgrade r now =>
    left
    simp only [next, upgrade]
    split
    · exact .refl
    · split
      · exact .refl
      · exact hask fun _ _ hl => by cases hl
  | evaluate i =>
    left
    refine ⟨rfl, rfl, fun _ => rfl, sent_nothing rfl, ?_, le_rfl, fun v hv => .inl ⟨rfl, hv⟩⟩
    intro j q hq
    by_cases hj : j = i
    · right
      simp only [next, hj, Function.update_self] at hq
      obtain ⟨x, hx, rfl⟩ := Option.map_eq_some_iff.mp hq
      have hold := h.pending i x hx
      refine ⟨hold.asked, fun v hv => ?_, hold.device⟩
      rw [Option.some.injEq] at hv
      rw [← hv]
      exact ⟨hold.asked, le_rfl⟩
    · simp only [next, Function.update_of_ne hj] at hq
      exact .inl hq
  | answered i m => exact (step_answered h).imp_right .inl
  | fails i =>
    left
    cases hq : s.queries i with
    | none =>
      simp only [next, hq]
      exact .refl
    | some q =>
      simp only [next, hq]
      exact moves_drop.trans moves_abandon
  | message w data now =>
    left
    cases hk : s.sockets w with
    | none =>
      simp only [next, hk]
      exact .refl
    | some k =>
      simp only [next, hk]
      exact moves_onMessage
  | pong w => exact .inl (moves_modify fun _ => rfl)
  | tick w now => exact .inl (hask fun _ _ hl => by cases hl)
  | closing w => exact .inl moves_close
  | closed w =>
    obtain ⟨k, hk, -⟩ := unclosed_iff.mp he
    refine .inr (.inr ⟨w, k, rfl, hk, ?_⟩)
    simp only [next, hk]
  | error w => exact .inl moves_close
  | notify deviceId data room => exact .inl (moves_notify fun _ heq => by cases heq)
  | database db =>
    left
    refine ⟨rfl, rfl, fun _ => rfl, sent_nothing rfl, fun i q hq => .inl hq, Nat.le_succ _, ?_⟩
    intro v hv
    by_cases hnew : v = s.version + 1
    · right
      simp only [next, hnew, Function.update_self]
      exact he
    · left
      refine ⟨Function.update_of_ne hnew .., ?_⟩
      change v ≤ s.version + 1 at hv
      omega

theorem invariant_step (h : Invariant owner s) (he : Enabled owner s e) :
    Invariant owner (next sha256 s e) := by
  obtain hmoves | ⟨t, u, hmoves, hadded⟩ | ⟨w, k, -, hk, hnext⟩ := step_cases sha256 h he
  · exact invariant_moves hmoves h
  · exact invariant_moves hadded (invariant_added (invariant_moves hmoves h) rfl)
  · rw [hnext]
    exact invariant_onClose h hk

theorem invariant_reachable (h : Reachable (system sha256 owner) s) : Invariant owner s := by
  refine reachable_invariant ?_ (fun s e hs he => invariant_step hs he) h
  rintro s ⟨db, hdb, rfl⟩
  exact invariant_initial hdb

/-- An entry is replaced by a newer socket, or taken out by its own close event. -/
theorem step_clients (h : Invariant owner s) (he : Enabled owner s e)
    (hw : s.clients deviceId = some w) (hne : e ≠ .closed w) :
    (next sha256 s e).clients deviceId = some w ∨
      s.made < (next sha256 s e).made ∧ (next sha256 s e).clients deviceId = some s.made := by
  obtain hmoves | ⟨t, u, hmoves, hadded⟩ | ⟨w', k, rfl, hk, hnext⟩ := step_cases sha256 h he
  · left
    rw [hmoves.clients]
    exact hw
  · rw [hadded.clients, hadded.made, ← hmoves.made]
    by_cases hd : deviceId = owner u.token
    · right
      rw [hd]
      exact ⟨Nat.lt_succ_self t.made, Function.update_self ..⟩
    · left
      rw [← hw, ← hmoves.clients]
      exact Function.update_of_ne hd ..
  · left
    rw [hnext]
    refine (onClose_clients h hk).mpr ⟨hw, ?_⟩
    rintro rfl
    exact hne rfl

theorem step_sent (h : Invariant owner s) (he : Enabled owner s e) :
    ∃ frames, (next sha256 s e).sent = s.sent ++ frames ∧
      ∀ x ∈ frames, ∀ signal, x.frame = .signal signal → Forwards sha256 s e signal := by
  obtain hmoves | ⟨t, u, hmoves, hadded⟩ | ⟨w, k, -, hk, hnext⟩ := step_cases sha256 h he
  · exact hmoves.sent
  · obtain ⟨frames, hsent, hnone⟩ := hmoves.sent
    obtain ⟨frames', hsent', hnone'⟩ := hadded.sent
    refine ⟨frames ++ frames', ?_, fun x hx signal hframe => ?_⟩
    · rw [hsent', ← List.append_assoc, ← hsent]
      rfl
    · rcases List.mem_append.mp hx with hx | hx
      · exact (hnone x hx signal hframe).elim
      · exact (hnone' x hx signal hframe).elim
  · rw [hnext]
    exact sent_nothing rfl

/-- The registry holds the latest socket of a device until that very socket closes, no late event of
another one changes it, and a signal is sent only on the word of the last check. -/
theorem registry_sound (h : Reachable (system sha256 owner) s) :
    (∀ deviceId w, s.clients deviceId = some w ↔ Latest s deviceId w ∧ Unclosed s w) ∧
    ∀ e, Enabled owner s e →
      (∀ deviceId w, s.clients deviceId = some w → e ≠ .closed w →
        (next sha256 s e).clients deviceId = some w ∨
          s.made < (next sha256 s e).made ∧ (next sha256 s e).clients deviceId = some s.made) ∧
      (∀ deviceId w w', s.clients deviceId = some w → w' ≠ w → e = .closed w' ∨ e = .error w' →
        (next sha256 s e).clients deviceId = some w) ∧
      ∃ frames, (next sha256 s e).sent = s.sent ++ frames ∧
        ∀ x ∈ frames, ∀ signal, x.frame = .signal signal → Forwards sha256 s e signal := by
  have hinv := invariant_reachable h
  refine ⟨hinv.registered, fun e he => ⟨?_, ?_, step_sent hinv he⟩⟩
  · intro deviceId w hw hne
    exact step_clients hinv he hw hne
  · rintro deviceId w w' hw hne (rfl | rfl)
    · obtain ⟨k, hk, -⟩ := unclosed_iff.mp he
      have hnext : next sha256 s (.closed w') = onClose s w' k := by simp only [next, hk]
      rw [hnext]
      exact (onClose_clients hinv hk).mpr ⟨hw, Ne.symm hne⟩
    · exact hw

end Registry

/-! ## A run -/

section Run

/-- What the relay's hash makes of the header `vault`. -/
def digest (header : String) : String :=
  if header = "vault" then "e6f0a1fbb43c89196dcfcbef85908f19ab4c5f7cc4f4c452284697757683d7ef"
  else ""

def tokenOwner (token : String) : String := if token = "b1" then "B" else "A"

/-- Two devices whose users may write to each other; the first one's vault is locked. -/
def home : Database where
  sessions := [⟨"a1", "A", 1000⟩, ⟨"b1", "B", 1000⟩]
  devices := [⟨"A", "u", none⟩, ⟨"B", "v", none⟩]
  users := [⟨"u", some [65], none⟩, ⟨"v", some [66], none⟩]
  locks := [⟨"A", digest "vault"⟩]
  permissions := [⟨"u", "v", none⟩]
  keyed := by decide
  hashed := by decide

def offer : Signal := ⟨"s", [65], [66], 30000, "offer"⟩

def later : Moment := ⟨5, true, true⟩

def asking (i : Nat) : List Event := [.evaluate i, .answered i later]

def connecting (i : Nat) (r : Request) : List Event :=
  .upgrade r 0 :: asking i ++ asking (i + 1)

/-- The first device connects, then the second and once more the first; its old socket closes while
a signal of the new one is on its way. -/
def reconnected : List Event :=
  connecting 0 ⟨"/ws", none, some "a1", some "vault"⟩ ++
  connecting 2 ⟨"/ws", none, some "b1", none⟩ ++
  connecting 4 ⟨"/ws", none, some "a1", some "vault"⟩ ++
  [.message 2 (.signal (some offer)) 1] ++ asking 6 ++ asking 7 ++ [.closed 0] ++ asking 8 ++
  [.evaluate 9]

theorem reconnected_relays : ∃ s, Reachable (system digest tokenOwner) s ∧
    Latest s "A" 2 ∧ (next digest s (.answered 9 later)).clients "A" = some 2 ∧
    ⟨1, .signal offer⟩ ∈ (next digest s (.answered 9 later)).sent ∧
    Forwards digest s (.answered 9 later) offer := by
  have hvalid : (system digest tokenOwner).Valid (initial home) reconnected := by
    simp only [reconnected, connecting, asking, List.cons_append, List.nil_append, System.Valid,
      system]
    decide
  have hhome : Issued tokenOwner home := by decide
  have hreach : Reachable (system digest tokenOwner)
      ((system digest tokenOwner).replay (initial home) reconnected) :=
    valid_trace_reachable (reachable_initial ⟨home, hhome, rfl⟩) hvalid
  obtain ⟨hregistered, hsteps⟩ := registry_sound hreach
  have hentry : ((system digest tokenOwner).replay (initial home) reconnected).clients "A" =
      some 2 := by decide
  have hanswered : Enabled tokenOwner
      ((system digest tokenOwner).replay (initial home) reconnected) (.answered 9 later) := by
    decide
  obtain ⟨-, -, frames, hsent, hforwards⟩ := hsteps _ hanswered
  have hnothing : ((system digest tokenOwner).replay (initial home) reconnected).sent = [] := by
    decide
  have hrelayed : ⟨1, .signal offer⟩ ∈ (next digest
      ((system digest tokenOwner).replay (initial home) reconnected)
      (.answered 9 later)).sent := by
    decide
  refine ⟨_, hreach, ((hregistered "A" 2).mp hentry).1, by decide, hrelayed, ?_⟩
  rw [hnothing, List.nil_append] at hsent
  rw [hsent] at hrelayed
  exact hforwards _ hrelayed offer rfl

end Run

end SocketRegistry
