import CryptoPigeon.HttpHead
import CryptoPigeon.TransitionSystem
import Mathlib.Tactic.Common

/-! # The phone's loopback server

`LocalBridge.serve`, from the bytes of a connection to what it answers. A secret in the fragment
of the entry page opens the one session there is; locking the vault ends the session and makes the
next secret. The engine's work is an input of its call. `log` is history: what was answered and
when, newest first. -/
namespace LocalBridge

open HttpHead TransitionSystem

structure Uri where
  absolute : Bool
  path : Option Text
  query : Option Text
  deriving DecidableEq, Repr

/-- `java.net.URI`, `URLDecoder` and `Long.parseLong`, none where they throw, and the `secret` of
a body, or the code for its error if it is not JSON. -/
structure Runtime where
  uri : Text → Option Uri
  decode : Text → Option Text
  parseLong : Text → Option Int
  secret : Bytes → Except String Text

/-- A request below `/api/`. -/
structure Request where
  method : Text
  path : Text
  query : Fields
  headers : Fields
  body : Bytes
  deriving DecidableEq, Repr

inductive Received where
  | closed
  | refused (status : Nat) (code : String)
  | asset (path : Text)
  | api (r : Request)
  deriving DecidableEq, Repr

def header (name : String) (fs : Fields) : Option Text := fs.lookup name.toList

/-- `item.split(separator, 2)`. -/
def cut (separator : Char) (item : Text) : Text × Option Text :=
  let front := item.takeWhile (· ≠ separator)
  (front, if separator ∈ item then some (item.drop (front.length + 1)) else none)

/-- The later of two values of a key stands; it is put first. -/
def queryOf (rt : Runtime) (raw : Option Text) : Option Fields :=
  (raw.elim [] (split '&')).foldlM
    (fun found item => do
      let key ← rt.decode (cut '=' item).1
      let value ← (cut '=' item).2.elim (some []) rt.decode
      return (key, value) :: found) []

def isWordChar (c : Char) : Bool := c.isAlphanum || c == '_' || c == '.' || c == '-'

/-- `/assets/[A-Za-z0-9_.-]+\.(js|css|png|svg|woff2?)`. -/
def isAsset (path : Text) : Bool :=
  let name := path.drop "/assets/".length
  "/assets/".toList.isPrefixOf path && name.all isWordChar &&
    ([".js", ".css", ".png", ".svg", ".woff", ".woff2"].any fun ending =>
      ending.toList.isSuffixOf name && ending.length < name.length)

/-- The head of a request, and what follows it. -/
def readHead (bytes : Bytes) : Option (Text × Text × Fields × Bytes) :=
  (head 8192 32768 bytes).bind fun (first, fs, rest) =>
    match split ' ' first with
    | [method, target, _] => some (method, target, fs, rest)
    | _ => none

def maxBody : Nat := 36 * 1024 * 1024

/-- What the path leads to, once the request has been read. -/
def route (rt : Runtime) (method target : Text) (fs : Fields) (body : Bytes) : Received :=
  match rt.uri target with
  | some ⟨false, some path, query⟩ =>
    if !"/api/".toList.isPrefixOf path then
      if method = "GET".toList ∧ (path = "/".toList ∨ isAsset path) then .asset path
      else .refused 404 "NOT_FOUND"
    else (queryOf rt query).elim .closed fun q => .api ⟨method, path, q, fs, body⟩
  | _ => .closed

def hostOf (port : Text) : Text := "127.0.0.1:".toList ++ port

def originOf (port : Text) : Text := "http://127.0.0.1:".toList ++ port

/-- `serve` up to its session. -/
def receive (rt : Runtime) (port : Text) (bytes : Bytes) : Received :=
  match readHead bytes with
  | none => .closed
  | some (method, target, fs, rest) =>
    if header "host" fs ≠ some (hostOf port) ∨ (header "origin" fs).any (· ≠ originOf port) then
      .refused 403 "invalid_origin_header"
    else if (header "transfer-encoding" fs).isSome then .refused 400 "INVALID_REQUEST"
    else
      match (header "content-length" fs).elim (some 0) parseInt with
      | none => .closed
      | some length =>
        if length < 0 ∨ (maxBody : Int) < length then .refused 413 "BODY_TOO_LARGE"
        else (take length.toNat rest).elim .closed fun body => route rt method target fs body.1

/-! ## The session -/

/-- The secret of the entry page or the session it has opened. -/
structure Bridge where
  bootstrap : Option Text
  cookie : Option Text
  csrf : Option Text
  expires : Int
  deriving DecidableEq, Repr

inductive Work where
  | exportFile (shard7 : Bool)
  | attachment (id : Text)
  | handle (method path : Text)
  deriving DecidableEq, Repr

/-- Whether the engine returned, or the status and the code of what it threw. -/
inductive Outcome where
  | returned
  | thrown (status : Nat) (code : String)
  deriving DecidableEq, Repr

inductive Answer where
  | closed
  | error (status : Nat) (code : String)
  | asset (path : Text)
  | bootstrapped (cookie csrf : Text)
  | session (csrf : Option Text)
  | events (after : Int)
  | engine (work : Work) (outcome : Outcome)
  | locked (secret : Text)
  deriving DecidableEq, Repr

/-- What a request is given only in a session. -/
def Answer.served : Answer → Bool
  | .session _ | .events _ | .engine .. | .locked _ => true
  | .closed | .error .. | .asset _ | .bootstrapped .. => false

/-- What anybody may be given. -/
def Answer.Barred : Answer → Prop
  | .closed | .error .. | .asset _ => True
  | .bootstrapped .. | .session _ | .events _ | .engine .. | .locked _ => False

/-- Texts drawn for the request, of which it may use two. -/
structure Fresh where
  first : Text
  second : Text
  deriving DecidableEq, Repr

/-- `equal`, which is false of two missing texts. -/
def equal (a b : Option Text) : Bool := a.isSome && a == b

/-- The last cookie of that name. -/
def cookieOf (r : Request) : Option Text :=
  (split ';' ((header "cookie" r.headers).getD [])).foldl
    (fun found item =>
      match cut '=' (strip item) with
      | (name, some value) => if name = "crypto_pigeon_session".toList then some value else found
      | _ => found) none

def Bridge.admits (now : Int) (r : Request) (b : Bridge) : Bool :=
  decide (now < b.expires) && equal b.cookie (cookieOf r)

def Request.isGet (r : Request) : Bool := r.method = "GET".toList

def Request.isPost (r : Request) : Bool := r.method = "POST".toList

/-- `/api/attachments/[a-f0-9]{32}/decrypt`. -/
def attachmentId (path : Text) : Option Text :=
  let id := (path.drop "/api/attachments/".length).take 32
  if id.length = 32 ∧ (id.all fun c => c.isDigit || ('a' ≤ c && c ≤ 'f')) ∧
      path = "/api/attachments/".toList ++ id ++ "/decrypt".toList then some id
  else none

/-- `/api/messages/[a-f0-9-]{36}`. -/
def isMessages (path : Text) : Bool :=
  let id := path.drop "/api/messages/".length
  "/api/messages/".toList.isPrefixOf path && id.length == 36 &&
    id.all fun c => c.isDigit || ('a' ≤ c && c ≤ 'f') || c == '-'

def readable : List Text :=
  ["/api/vault/storage", "/api/profile", "/api/relay/config", "/api/transport/status",
    "/api/transport/privacy", "/api/vault/status", "/api/vault/horcrux-status",
    "/api/access/state", "/api/contacts", "/api/contacts/invite", "/api/power/status",
    "/api/conversations/requests"].map String.toList

/-- What the engine is asked, unless it is a read of anything else. -/
def workOf (r : Request) : Option Work :=
  if r.isGet then
    if r.path = "/api/vault/files/shard7".toList then some (.exportFile true)
    else if r.path = "/api/vault/files/storage".toList then some (.exportFile false)
    else
      match attachmentId r.path with
      | some id =>
        if (header "download" r.query).isSome ∨ (header "play" r.query).isSome then
          some (.attachment id)
        else some (.handle r.method r.path)
      | none =>
        if readable.contains r.path ∨ isMessages r.path then some (.handle r.method r.path) else none
  else some (.handle r.method r.path)

def isBootstrap (r : Request) : Bool := r.path = "/api/bootstrap".toList && r.isPost

def isSession (r : Request) : Bool := r.path = "/api/session".toList

def isLock (r : Request) : Bool := r.path = "/api/vault/lock".toList

def isEvents (r : Request) : Bool := r.path = "/api/events".toList && r.isGet

/-- The secret in the body, if there is one. -/
def secretOf (rt : Runtime) (r : Request) : Except String (Option Text) :=
  if r.body = [] then .ok none else (rt.secret r.body).map some

def isJson (r : Request) : Bool :=
  "application/json".toList.isPrefixOf ((header "content-type" r.headers).getD [])

/-- `POST /api/bootstrap`. -/
def bootstrap (now : Int) (fresh : Fresh) (secret : Option Text) (b : Bridge) : Answer × Bridge :=
  if equal secret b.bootstrap then
    (.bootstrapped fresh.first fresh.second,
      ⟨none, some fresh.first, some fresh.second, now + 86400000⟩)
  else (.error 401 "invalid_bootstrap_secret", b)

/-- A new secret takes the place of the session once the vault has been locked. -/
def worked (fresh : Fresh) (r : Request) (work : Work) (outcome : Outcome) (b : Bridge) :
    Answer × Bridge :=
  if isLock r ∧ outcome = .returned then
    (.locked fresh.first, ⟨some fresh.first, none, none, b.expires⟩)
  else (.engine work outcome, b)

/-- Why a request is not let through. -/
def refusal (now : Int) (r : Request) (b : Bridge) : Option (Nat × String) :=
  if !b.admits now r then some (401, "unauthorized_local_session")
  else if !r.isGet && !r.isPost then some (405, "METHOD_NOT_ALLOWED")
  else if r.isPost && !equal b.csrf (header "x-csrf-token" r.headers) then
    some (403, "invalid_csrf_token")
  else if r.isPost && r.body ≠ [] && !isJson r then some (415, "JSON_REQUIRED")
  else none

def api (rt : Runtime) (now : Int) (fresh : Fresh) (outcome : Outcome) (r : Request)
    (b : Bridge) : Answer × Bridge :=
  match secretOf rt r with
  | .error code => (.error 400 code, b)
  | .ok secret =>
    if isBootstrap r then bootstrap now fresh secret b
    else
      match refusal now r b, workOf r with
      | some (status, code), _ => (.error status code, b)
      | none, work =>
        if isSession r then (.session b.csrf, b)
        else work.elim (.error 405 "METHOD_NOT_ALLOWED", b) fun w => worked fresh r w outcome b

/-- `GET /api/events`, up to its wait. -/
def events (rt : Runtime) (now : Int) (r : Request) (b : Bridge) : Answer :=
  if !b.admits now r then .error 401 "unauthorized_local_session"
  else (rt.parseLong ((header "after" r.query).getD "0".toList)).elim .closed
    fun after => .events (max 0 after)

def serve (rt : Runtime) (port : Text) (now : Int) (fresh : Fresh) (outcome : Outcome)
    (bytes : Bytes) (b : Bridge) : Answer × Bridge :=
  match receive rt port bytes with
  | .closed => (.closed, b)
  | .refused status code => (.error status code, b)
  | .asset path => (.asset path, b)
  | .api r => if isEvents r then (events rt now r b, b) else api rt now fresh outcome r b

/-! ## Runs -/

structure Session where
  cookie : Text
  csrf : Text
  openedAt : Int
  deriving DecidableEq, Repr

/-- What the bridge is for: a secret waits for its session, or the session it opened goes on. -/
inductive Phase where
  | waiting (secret : Text)
  | opened (session : Session)
  deriving DecidableEq, Repr

structure Entry where
  time : Int
  answer : Answer
  deriving DecidableEq, Repr

def Phase.after (p : Phase) (e : Entry) : Phase :=
  match e.answer with
  | .bootstrapped cookie csrf => .opened ⟨cookie, csrf, e.time⟩
  | .locked secret => .waiting secret
  | _ => p

/-- The phase after what has been answered. -/
def phase (entry : Text) (log : List Entry) : Phase :=
  log.foldr (fun e p => p.after e) (.waiting entry)

structure State where
  now : Int
  bridge : Bridge
  entry : Text
  log : List Entry
  deriving DecidableEq, Repr

/-- A connection that is served at a time. -/
structure Event where
  time : Int
  bytes : Bytes
  fresh : Fresh
  outcome : Outcome
  deriving DecidableEq, Repr

def next (rt : Runtime) (port : Text) (s : State) (e : Event) : State :=
  let r := serve rt port e.time e.fresh e.outcome e.bytes s.bridge
  ⟨e.time, r.2, s.entry, ⟨e.time, r.1⟩ :: s.log⟩

def Initial (s : State) : Prop := s.bridge = ⟨some s.entry, none, none, 0⟩ ∧ s.log = []

def system (rt : Runtime) (port : Text) : System State Event :=
  ⟨Initial, fun s e => s.now ≤ e.time, next rt port⟩

/-- The fields of the bridge in a phase. -/
def Bridge.Agrees (b : Bridge) : Phase → Prop
  | .waiting secret => b.bootstrap = some secret ∧ b.cookie = none
  | .opened session => b.bootstrap = none ∧ b.cookie = some session.cookie ∧
      b.csrf = some session.csrf ∧ b.expires = session.openedAt + 86400000

def Invariant (s : State) : Prop := s.bridge.Agrees (phase s.entry s.log)

/-- The request shows the cookie of the session and, to change something, its CSRF token. -/
structure Session.Shown (session : Session) (now : Int) (r : Request) : Prop where
  cookie : cookieOf r = some session.cookie
  young : now < session.openedAt + 86400000
  csrf : r.isPost = true → header "x-csrf-token" r.headers = some session.csrf

/-- Requests that are answered in a session. -/
def Allowed (rt : Runtime) (r : Request) : Prop :=
  if isEvents r then (rt.parseLong ((header "after" r.query).getD "0".toList)).isSome = true
  else (secretOf rt r).isOk ∧ isBootstrap r = false ∧ (r.isGet ∨ r.isPost) ∧
    (r.isPost → r.body = [] ∨ isJson r) ∧ (isSession r ∨ (workOf r).isSome)

theorem equal_isSome {a x : Option Text} (h : equal a x = true) : x.isSome = true := by
  rw [equal, Bool.and_eq_true, beq_iff_eq] at h
  rw [← h.2]
  exact h.1

section Serve

variable (rt : Runtime) (port : Text) (now : Int) (fresh : Fresh) (outcome : Outcome)
  (bytes : Bytes) (r : Request) (b : Bridge)

/-- What a call can do to the session. -/
theorem api_cases :
    let a := api rt now fresh outcome r b
    (a.2 = b ∧ ∀ p : Phase, p.after ⟨now, a.1⟩ = p) ∨
    (b.bootstrap.isSome ∧ a = (.bootstrapped fresh.first fresh.second,
      ⟨none, some fresh.first, some fresh.second, now + 86400000⟩)) ∨
    (a = (.locked fresh.first, ⟨some fresh.first, none, none, b.expires⟩)) := by
  unfold api
  cases secretOf rt r with
  | error code => exact .inl ⟨rfl, fun _ => rfl⟩
  | ok secret =>
    by_cases hbootstrap : isBootstrap r
    · by_cases hequal : equal secret b.bootstrap
      · simp [hbootstrap, bootstrap, hequal, equal_isSome hequal]
      · simp [hbootstrap, bootstrap, hequal, Phase.after]
    · cases refusal now r b with
      | some e => simp [hbootstrap, Phase.after]
      | none =>
        by_cases hsession : isSession r
        · simp [hbootstrap, hsession, Phase.after]
        · cases workOf r with
          | none => simp [hbootstrap, hsession, Phase.after]
          | some w =>
            by_cases hlock : isLock r ∧ outcome = .returned
            · simp [hbootstrap, hsession, worked, hlock]
            · simp [hbootstrap, hsession, worked, hlock, Phase.after]

theorem api_served : (api rt now fresh outcome r b).1.served = true ↔
    (secretOf rt r).isOk = true ∧ isBootstrap r = false ∧ refusal now r b = none ∧
      (isSession r ∨ (workOf r).isSome) := by
  unfold api
  cases secretOf rt r with
  | error code => simp [Answer.served, Except.isOk, Except.toBool]
  | ok secret =>
    by_cases hbootstrap : isBootstrap r
    · by_cases hequal : equal secret b.bootstrap <;>
        simp [hbootstrap, bootstrap, hequal, Answer.served]
    · cases refusal now r b with
      | some e => simp [hbootstrap, Answer.served]
      | none =>
        by_cases hsession : isSession r
        · simp [hbootstrap, hsession, Answer.served, Except.isOk, Except.toBool]
        · cases workOf r with
          | none => simp [hbootstrap, hsession, Answer.served]
          | some w =>
            have hserved : (worked fresh r w outcome b).1.served = true := by
              unfold worked
              split <;> rfl
            simp [hbootstrap, hsession, hserved, Except.isOk, Except.toBool]

theorem events_served : (events rt now r b).served = true ↔
    b.admits now r = true ∧
      (rt.parseLong ((header "after" r.query).getD "0".toList)).isSome := by
  unfold events
  by_cases hadmits : b.admits now r
  · cases rt.parseLong ((header "after" r.query).getD "0".toList) <;>
      simp [hadmits, Answer.served]
  · simp [hadmits, Answer.served]

theorem serve_cases :
    let a := serve rt port now fresh outcome bytes b
    (a.2 = b ∧ ∀ p : Phase, p.after ⟨now, a.1⟩ = p) ∨
    (b.bootstrap.isSome ∧ a = (.bootstrapped fresh.first fresh.second,
      ⟨none, some fresh.first, some fresh.second, now + 86400000⟩)) ∨
    (a = (.locked fresh.first, ⟨some fresh.first, none, none, b.expires⟩)) := by
  unfold serve
  cases receive rt port bytes with
  | closed => exact .inl ⟨rfl, fun _ => rfl⟩
  | refused status code => exact .inl ⟨rfl, fun _ => rfl⟩
  | asset path => exact .inl ⟨rfl, fun _ => rfl⟩
  | api r =>
    by_cases hevents : isEvents r
    · simp only [hevents, if_true]
      refine .inl ⟨trivial, fun _ => ?_⟩
      unfold events
      cases rt.parseLong ((header "after" r.query).getD "0".toList) <;>
        by_cases hadmits : b.admits now r <;> simp [hadmits, Phase.after]
    · simp only [hevents]
      exact api_cases rt now fresh outcome r b

theorem serve_served : (serve rt port now fresh outcome bytes b).1.served = true ↔
    ∃ r, receive rt port bytes = .api r ∧
      if isEvents r then (events rt now r b).served = true
      else (api rt now fresh outcome r b).1.served = true := by
  unfold serve
  cases receive rt port bytes with
  | closed => simp [Answer.served]
  | refused status code => simp [Answer.served]
  | asset path => simp [Answer.served]
  | api r => by_cases hevents : isEvents r <;> simp [hevents]

end Serve

section Gate

variable {rt : Runtime} {port : Text} {now : Int} {fresh : Fresh} {outcome : Outcome}
  {bytes : Bytes} {b : Bridge} {r : Request} {s : State} {session : Session} {secret : Text}

theorem equal_some {a : Text} {x : Option Text} : equal (some a) x = true ↔ x = some a := by
  rw [equal, Option.isSome_some, Bool.true_and, beq_iff_eq]
  exact eq_comm

theorem admits_opened (h : b.Agrees (.opened session)) : b.admits now r = true ↔
    cookieOf r = some session.cookie ∧ now < session.openedAt + 86400000 := by
  obtain ⟨-, hcookie, -, hexpires⟩ := h
  rw [Bridge.admits, Bool.and_eq_true, decide_eq_true_eq, hcookie, hexpires, equal_some]
  exact and_comm

theorem admits_waiting (h : b.Agrees (.waiting secret)) : b.admits now r = false := by
  simp [Bridge.admits, equal, h.2]

theorem refusal_none : refusal now r b = none ↔ b.admits now r = true ∧ (r.isGet ∨ r.isPost) ∧
    (r.isPost → equal b.csrf (header "x-csrf-token" r.headers) = true) ∧
    (r.isPost → r.body = [] ∨ isJson r) := by
  unfold refusal
  cases b.admits now r with
  | false => simp
  | true =>
    cases r.isPost with
    | false => cases r.isGet <;> simp
    | true =>
      cases equal b.csrf (header "x-csrf-token" r.headers) with
      | false => simp
      | true => by_cases hbody : r.body = [] <;> cases isJson r <;> simp [hbody]

theorem refusal_opened (h : b.Agrees (.opened session)) : refusal now r b = none ↔
    session.Shown now r ∧ (r.isGet ∨ r.isPost) ∧ (r.isPost → r.body = [] ∨ isJson r) := by
  have hcsrf : equal b.csrf (header "x-csrf-token" r.headers) = true ↔
      header "x-csrf-token" r.headers = some session.csrf := h.2.2.1 ▸ equal_some
  rw [refusal_none, admits_opened h, hcsrf]
  constructor
  · rintro ⟨⟨hcookie, hyoung⟩, hmethod, hpost, hjson⟩
    exact ⟨⟨hcookie, hyoung, hpost⟩, hmethod, hjson⟩
  · rintro ⟨⟨hcookie, hyoung, hpost⟩, hmethod, hjson⟩
    exact ⟨⟨hcookie, hyoung⟩, hmethod, hpost, hjson⟩

theorem refusal_waiting (h : b.Agrees (.waiting secret)) : refusal now r b ≠ none := by
  simp [refusal, admits_waiting h]

/-- The answers keep up with the fields. -/
theorem serve_agrees {p : Phase} (h : b.Agrees p) :
    (serve rt port now fresh outcome bytes b).2.Agrees
      (p.after ⟨now, (serve rt port now fresh outcome bytes b).1⟩) := by
  rcases serve_cases rt port now fresh outcome bytes b with
    ⟨hsame, hafter⟩ | ⟨-, hopened⟩ | hlocked
  · rw [hsame, hafter]
    exact h
  · rw [hopened]
    exact ⟨rfl, rfl, rfl, rfl⟩
  · rw [hlocked]
    exact ⟨rfl, rfl⟩

theorem initial_invariant (h : Initial s) : Invariant s := by
  obtain ⟨hbridge, hlog⟩ := h
  rw [Invariant, hbridge, hlog]
  exact ⟨rfl, rfl⟩

theorem step_preserves_invariant (s : State) (e : Event) (h : Invariant s) :
    Invariant (next rt port s e) := serve_agrees h

theorem reachable_satisfies_invariant (h : Reachable (system rt port) s) : Invariant s :=
  reachable_invariant (fun _ => initial_invariant)
    (fun s e hs _ => step_preserves_invariant s e hs) h

/-- A poll is a read. -/
theorem isEvents_isPost (h : isEvents r = true) : r.isPost = false := by
  simp only [isEvents, Request.isGet, Bool.and_eq_true, decide_eq_true_eq] at h
  rw [Request.isPost, h.2]
  rfl

/-- A request is served in the session that is open. -/
theorem admitted_iff {p : Phase} (h : b.Agrees p) :
    (if isEvents r then (events rt now r b).served = true
      else (api rt now fresh outcome r b).1.served = true) ↔
      ∃ session, p = .opened session ∧ Allowed rt r ∧ session.Shown now r := by
  unfold Allowed
  cases p with
  | waiting secret =>
    have hadmits : b.admits now r = false := admits_waiting h
    have hrefusal : refusal now r b ≠ none := refusal_waiting h
    split
    · simp [events_served, hadmits]
    · simp [api_served, hrefusal]
  | opened session =>
    by_cases hevents : isEvents r
    · have hcsrf : r.isPost = true → header "x-csrf-token" r.headers = some session.csrf := by
        simp [isEvents_isPost hevents]
      simp only [hevents, if_true, events_served, admits_opened h, Phase.opened.injEq,
        exists_eq_left']
      constructor
      · rintro ⟨⟨hcookie, hyoung⟩, hlong⟩
        exact ⟨hlong, hcookie, hyoung, hcsrf⟩
      · rintro ⟨hlong, hcookie, hyoung, -⟩
        exact ⟨⟨hcookie, hyoung⟩, hlong⟩
    · rw [if_neg hevents, if_neg hevents, api_served, refusal_opened h]
      simp only [Phase.opened.injEq, exists_eq_left']
      constructor
      · rintro ⟨hok, hboot, ⟨hshown, hmethod, hjson⟩, hpath⟩
        exact ⟨⟨hok, hboot, hmethod, hjson, hpath⟩, hshown⟩
      · rintro ⟨⟨hok, hboot, hmethod, hjson, hpath⟩, hshown⟩
        exact ⟨hok, hboot, ⟨hshown, hmethod, hjson⟩, hpath⟩

/-- Whatever the bytes of a connection, what belongs to a session is given for a request that may
be made in one and shows the session which the answers so far have left open. -/
theorem served_iff_session_shown (h : Reachable (system rt port) s) :
    (serve rt port now fresh outcome bytes s.bridge).1.served = true ↔
      ∃ r session, receive rt port bytes = .api r ∧ phase s.entry s.log = .opened session ∧
        Allowed rt r ∧ session.Shown now r := by
  have hagrees : s.bridge.Agrees (phase s.entry s.log) := reachable_satisfies_invariant h
  simp only [serve_served, admitted_iff hagrees, exists_and_left]

theorem barred_of {answer : Answer} (hserved : answer.served = false)
    (hafter : (Phase.waiting []).after ⟨now, answer⟩ = .waiting []) : answer.Barred := by
  cases answer <;> simp_all [Answer.served, Answer.Barred, Phase.after]

theorem after_barred {p : Phase} {e : Entry} (h : e.answer.Barred) : p.after e = p := by
  obtain ⟨time, answer⟩ := e
  cases answer <;> simp_all [Answer.Barred, Phase.after]

/-- Nothing is given in a session that has run out, and no secret opens another. -/
theorem barred_expired (h : b.Agrees (.opened session))
    (hexpired : session.openedAt + 86400000 ≤ now) :
    (serve rt port now fresh outcome bytes b).1.Barred ∧
      (serve rt port now fresh outcome bytes b).2 = b := by
  have hunserved : (serve rt port now fresh outcome bytes b).1.served = false := by
    rw [Bool.eq_false_iff, Ne, serve_served]
    rintro ⟨r, -, hserved⟩
    obtain ⟨_, hsession, -, hshown⟩ := (admitted_iff h).mp hserved
    rw [← Phase.opened.inj hsession] at hshown
    have hyoung := hshown.young
    omega
  rcases serve_cases rt port now fresh outcome bytes b with
    ⟨hsame, hafter⟩ | ⟨hbootstrap, -⟩ | hlocked
  · exact ⟨barred_of hunserved (hafter (.waiting [])), hsame⟩
  · simp [h.1] at hbootstrap
  · simp [hlocked, Answer.served] at hunserved

/-- A bridge whose session has run out answers nobody any more, and nothing opens another one. -/
theorem expired_for_good (h : Reachable (system rt port) s)
    (hsession : phase s.entry s.log = .opened session)
    (hexpired : session.openedAt + 86400000 ≤ s.now) {es : List Event}
    (hvalid : (system rt port).Valid s es) :
    ∃ later, ((system rt port).replay s es).log = later ++ s.log ∧
      (∀ e ∈ later, e.answer.Barred) ∧ ((system rt port).replay s es).bridge = s.bridge := by
  induction es generalizing s with
  | nil => exact ⟨[], rfl, by simp, rfl⟩
  | cons e es ih =>
    obtain ⟨hclock, hrest⟩ := hvalid
    have hopen : s.bridge.Agrees (.opened session) :=
      hsession ▸ reachable_satisfies_invariant h
    have hexpired' : session.openedAt + 86400000 ≤ e.time := Int.le_trans hexpired hclock
    have hstep : (serve rt port e.time e.fresh e.outcome e.bytes s.bridge).1.Barred ∧
        (serve rt port e.time e.fresh e.outcome e.bytes s.bridge).2 = s.bridge :=
      barred_expired hopen hexpired'
    have hphase : phase s.entry (next rt port s e).log = .opened session :=
      (after_barred hstep.1).trans hsession
    obtain ⟨later, hlog, hlater, hbridge⟩ :=
      ih (reachable_step h hclock) hphase hexpired' hrest
    refine ⟨later ++ [⟨e.time, (serve rt port e.time e.fresh e.outcome e.bytes s.bridge).1⟩], ?_,
      ?_, hbridge.trans hstep.2⟩
    · exact hlog.trans (by simp [system, next])
    · intro entry hentry
      rcases List.mem_append.mp hentry with hentry | hentry
      · exact hlater entry hentry
      · rw [List.mem_singleton.mp hentry]
        exact hstep.1

end Gate

/-! ## Requests that are written as they should be -/

section Write

variable {rt : Runtime} {port : Text}

/-- The fields of a request for this server, with a body of this length. -/
structure Addressed (port : Text) (fs : List Field) (length : Nat) : Prop where
  short : (fs.map fun f => f.text.length).sum ≤ 8192
  distinct : (fs.map fun f => lower f.name).Nodup
  host : header "host" (fs.map Field.read) = some (hostOf port)
  origin : header "origin" (fs.map Field.read) = none
  plain : header "transfer-encoding" (fs.map Field.read) = none
  length : (header "content-length" (fs.map Field.read)).elim (some 0) parseInt =
    some (length : Int)

theorem readHead_write {method target : Text} {fs : List Field} {rest : Bytes}
    (hmethod : ∀ c ∈ method, graphic c = true) (htarget : ∀ c ∈ target, graphic c = true)
    (hwords : method.length + target.length ≤ 8000)
    (hshort : (fs.map fun f => f.text.length).sum ≤ 8192)
    (hdistinct : (fs.map fun f => lower f.name).Nodup) :
    readHead (writeHead [method, target, "HTTP/1.1".toList] fs ++ rest) =
      some (method, target, fs.map Field.read, rest) := by
  have hgraphic : ∀ w ∈ [method, target, "HTTP/1.1".toList], ∀ c ∈ w, graphic c = true := by
    intro w hw
    simp only [List.mem_cons, List.not_mem_nil, or_false] at hw
    rcases hw with rfl | rfl | rfl
    · exact hmethod
    · exact htarget
    · exact List.all_eq_true.mp rfl
  have hfirst : ([' '].intercalate [method, target, "HTTP/1.1".toList]).length ≤ 8192 := by
    simp [List.intercalate_cons_cons]
    omega
  have hsplit : split ' ' ([' '].intercalate [method, target, "HTTP/1.1".toList]) =
      [method, target, "HTTP/1.1".toList] := split_words hgraphic (by simp) (by simp)
  rw [readHead, head_write hgraphic hfirst (text_short hshort) (by omega) hdistinct,
    Option.bind_some]
  simp only [hsplit]

/-- Such a request is received with its body and nothing after it. -/
theorem receive_write {method target : Text} {fs : List Field} {body more : Bytes}
    (hmethod : ∀ c ∈ method, graphic c = true) (htarget : ∀ c ∈ target, graphic c = true)
    (hwords : method.length + target.length ≤ 8000) (h : Addressed port fs body.length)
    (hbody : body.length ≤ maxBody) :
    receive rt port (writeHead [method, target, "HTTP/1.1".toList] fs ++ (body ++ more)) =
      route rt method target (fs.map Field.read) body := by
  have hsize : ¬((body.length : Int) < 0 ∨ (maxBody : Int) < body.length) := by omega
  rw [receive, readHead_write hmethod htarget hwords h.short h.distinct]
  dsimp only
  rw [h.host, h.origin, h.plain, h.length, if_neg (by simp), if_neg (by simp)]
  dsimp only
  rw [if_neg hsize]
  simp [take]

end Write

section Run

def port : Text := "8080".toList

def secret : Text := "5ec2e7".toList

def runtime : Runtime := ⟨fun t => some ⟨false, some t, none⟩, some, fun _ => some 0,
  fun _ => .ok secret⟩

def openingFields : List Field :=
  [.fixed "Host" "127.0.0.1:8080" rfl, .fixed "Content-Length" "2" rfl]

def opening : Bytes :=
  writeHead ["POST".toList, "/api/bootstrap".toList, "HTTP/1.1".toList] openingFields ++
    ([123, 125] ++ [])

def readingFields : List Field :=
  [.fixed "Host" "127.0.0.1:8080" rfl,
    .fixed "Cookie" "theme=dark;crypto_pigeon_session=c00c1e" rfl]

def reading : Bytes :=
  writeHead ["GET".toList, "/api/contacts".toList, "HTTP/1.1".toList] readingFields ++ ([] ++ [])

theorem opening_received : receive runtime port opening =
    .api ⟨"POST".toList, "/api/bootstrap".toList, [], openingFields.map Field.read,
      [123, 125]⟩ := by
  have haddressed : Addressed port openingFields 2 :=
    ⟨by decide, by decide, rfl, rfl, rfl, rfl⟩
  exact receive_write (List.all_eq_true.mp rfl) (List.all_eq_true.mp rfl) (by decide) haddressed
    (by decide)

theorem reading_received : receive runtime port reading =
    .api ⟨"GET".toList, "/api/contacts".toList, [], readingFields.map Field.read, []⟩ := by
  have haddressed : Addressed port readingFields 0 :=
    ⟨by decide, by decide, rfl, rfl, rfl, rfl⟩
  exact receive_write (List.all_eq_true.mp rfl) (List.all_eq_true.mp rfl) (by decide) haddressed
    (by decide)

def started : State := ⟨0, ⟨some secret, none, none, 0⟩, secret, []⟩

def cookie : Text := "c00c1e".toList

def csrf : Text := "c52f".toList

def openings : List Event := [⟨1000, opening, ⟨cookie, csrf⟩, .returned⟩]

def openedState : State := (system runtime port).replay started openings

theorem openedState_eq : openedState =
    ⟨1000, ⟨none, some cookie, some csrf, 86401000⟩, secret,
      [⟨1000, .bootstrapped cookie csrf⟩]⟩ := by
  simp only [openedState, openings, System.replay, system, next, serve, started, opening_received]
  rfl

theorem openedState_reachable : Reachable (system runtime port) openedState := by
  have hclock : started.now ≤ 1000 := by decide
  exact valid_trace_reachable (reachable_initial ⟨rfl, rfl⟩) ⟨hclock, trivial⟩

def contacts : Request :=
  ⟨"GET".toList, "/api/contacts".toList, [], readingFields.map Field.read, []⟩

theorem contacts_allowed : Allowed runtime contacts := by
  have hpoll : ¬isEvents contacts = true := by decide
  rw [Allowed, if_neg hpoll]
  exact ⟨rfl, rfl, .inl rfl, fun _ => .inl rfl, .inr rfl⟩

theorem contacts_shown : (⟨cookie, csrf, 1000⟩ : Session).Shown 2000 contacts :=
  ⟨rfl, by decide, fun hpost => absurd hpost (by decide)⟩

theorem reading_served :
    (serve runtime port 2000 ⟨[], []⟩ .returned reading openedState.bridge).1.served = true := by
  have hphase : phase openedState.entry openedState.log = .opened ⟨cookie, csrf, 1000⟩ := by
    rw [openedState_eq]
    rfl
  exact (served_iff_session_shown openedState_reachable).mpr
    ⟨contacts, _, reading_received, hphase, contacts_allowed, contacts_shown⟩

/-- A connection that closes at once, a day later. -/
def dayLater : State := next runtime port openedState ⟨86401000, [], ⟨[], []⟩, .returned⟩

def lateReading : List Event := [⟨86401001, reading, ⟨[], []⟩, .returned⟩]

theorem late_reading_barred : ∃ later,
    ((system runtime port).replay dayLater lateReading).log = later ++ dayLater.log ∧
      (∀ e ∈ later, e.answer.Barred) ∧
      ((system runtime port).replay dayLater lateReading).bridge = dayLater.bridge := by
  have hday : openedState.now ≤ 86401000 := by
    rw [openedState_eq]
    decide
  have hphase : phase dayLater.entry dayLater.log = .opened ⟨cookie, csrf, 1000⟩ := by
    rw [dayLater, openedState_eq]
    rfl
  have hreachable : Reachable (system runtime port) dayLater :=
    reachable_step openedState_reachable hday
  have hlate : dayLater.now ≤ 86401001 := Int.le_of_lt (Int.lt_succ 86401000)
  exact expired_for_good hreachable hphase (Int.le_refl 86401000) ⟨hlate, trivial⟩

end Run

end LocalBridge
