import Mathlib.Data.List.Basic

/-! # The gate of the local API

Two `preHandler` hooks stand before every handler: one takes the serial request lock, the
other checks host, origin, session, CSRF token and the two locks. Both decide from the
raw `request.url` whether a request is for the API. The router has matched the
percent-decoded path by then; `decode` is what it makes of the target before the query. -/
namespace LocalApiGate

inductive Method where
  | get
  | head
  | post
  | put
  | delete
  | patch
  | options
  deriving DecidableEq, Repr

/-- `url` is the raw request target, `cookie` the header or the empty string. -/
structure Request where
  method : Method
  url : String
  host : String
  origin : Option String
  cookie : String
  csrf : Option String
  deriving DecidableEq, Repr

structure SessionState where
  cookieToken : String
  csrfToken : String
  expiresAt : Nat
  deriving DecidableEq, Repr

structure Daemon where
  currentPort : Nat
  activeSession : Option SessionState
  now : Nat
  vaultLocked : Bool
  quickLocked : Bool
  deriving DecidableEq, Repr

structure Route where
  method : Method
  path : String
  deriving DecidableEq, Repr

/-- The handlers registered under `/api/`, those with parameters last. -/
def routes : List Route :=
  [⟨.post, "/api/bootstrap"⟩, ⟨.get, "/api/session"⟩, ⟨.get, "/api/relay/config"⟩,
    ⟨.post, "/api/relay/config"⟩, ⟨.get, "/api/vault/status"⟩, ⟨.post, "/api/vault/create"⟩,
    ⟨.get, "/api/transport/status"⟩, ⟨.get, "/api/transport/privacy"⟩,
    ⟨.post, "/api/transport/config"⟩, ⟨.post, "/api/duress/config"⟩, ⟨.post, "/api/vault/open"⟩,
    ⟨.post, "/api/vault/lock"⟩, ⟨.post, "/api/vault/sync-backup"⟩, ⟨.get, "/api/vault/storage"⟩,
    ⟨.post, "/api/vault/storage"⟩, ⟨.post, "/api/vault/storage/import"⟩,
    ⟨.get, "/api/vault/files/shard7"⟩, ⟨.get, "/api/vault/files/storage"⟩,
    ⟨.post, "/api/vault/shard7/saved"⟩, ⟨.get, "/api/events"⟩,
    ⟨.get, "/api/vault/horcrux-status"⟩, ⟨.post, "/api/vault/restore"⟩,
    ⟨.post, "/api/vault/change-password"⟩, ⟨.post, "/api/access/apply"⟩,
    ⟨.get, "/api/access/state"⟩, ⟨.post, "/api/access/activate"⟩, ⟨.get, "/api/profile"⟩,
    ⟨.post, "/api/profile"⟩, ⟨.post, "/api/control"⟩, ⟨.post, "/api/session/pin"⟩,
    ⟨.post, "/api/session/lock"⟩, ⟨.post, "/api/session/unlock"⟩, ⟨.get, "/api/contacts"⟩,
    ⟨.post, "/api/contacts/add"⟩, ⟨.get, "/api/contacts/invite"⟩,
    ⟨.post, "/api/contacts/import"⟩, ⟨.post, "/api/conversations/requests"⟩,
    ⟨.get, "/api/conversations/requests"⟩, ⟨.post, "/api/send"⟩,
    ⟨.post, "/api/fetch-messages"⟩, ⟨.post, "/api/attachments/encrypt"⟩,
    ⟨.post, "/api/contacts/:contactId/verify"⟩,
    ⟨.post, "/api/conversations/requests/:requestId/:decision"⟩,
    ⟨.post, "/api/conversations/:conversationId/timer"⟩,
    ⟨.get, "/api/messages/:conversationId"⟩, ⟨.get, "/api/attachments/:attachmentId/decrypt"⟩]

/-- `request.url.startsWith('/api/')`. -/
def isApi (url : String) : Bool := "/api/".toList.isPrefixOf url.toList

/-- `url.split('?')[0]`. -/
def pathOf (url : String) : List Char := url.toList.takeWhile (fun c => c != '?')

def matchesSegment (pattern actual : List Char) : Bool :=
  match pattern with
  | ':' :: _ => !actual.isEmpty
  | _ => pattern == actual

def matchesSegments : List (List Char) → List (List Char) → Bool
  | [], [] => true
  | p :: ps, a :: as => matchesSegment p a && matchesSegments ps as
  | _, _ => false

def Route.matchesPath (q : Route) (path : List Char) : Bool :=
  matchesSegments (q.path.toList.splitOn '/') (path.splitOn '/')

/-- `HEAD` is answered by the handlers for `GET`. -/
def Route.accepts (q : Route) (m : Method) : Bool := q.method == m || q.method == .get && m == .head

/-- The handler the router picks: the decoded path without the query decides. -/
def dispatch (decode : List Char → Option (List Char)) (m : Method) (url : String) : Option Route :=
  match decode (pathOf url) with
  | none => none
  | some path => routes.find? (fun q => q.accepts m && q.matchesPath path)

/-- Trimmed as JavaScript does. -/
def trim (l : List Char) : List Char :=
  let blank (c : Char) : Bool := c.isWhitespace || c == '\x0b' || c == '\x0c' || c == '\u00a0'
  ((l.dropWhile blank).reverse.dropWhile blank).reverse

/-- The value of the cookie `crypto_pigeon_session`. -/
def sessionCookie (header : String) : Option (List Char) :=
  let parts := (header.toList.splitOn ';').map (fun c => (trim c).splitOn '=')
  (parts.find? (fun p => p.head? == some "crypto_pigeon_session".toList)).bind (fun p => p[1]?)

def Method.writes : Method → Bool
  | .post | .put | .delete => true
  | _ => false

def allowedHost (d : Daemon) : String := "127.0.0.1:" ++ toString d.currentPort

def allowedOrigin (d : Daemon) : String := "http://127.0.0.1:" ++ toString d.currentPort

/-- Exempt by their whole url. -/
def openUrls : List String := ["/api/bootstrap", "/api/session", "/api/vault/status"]

/-- Usable while the vault is locked. -/
def openingPaths : List String :=
  ["/api/relay/config", "/api/vault/create", "/api/vault/open", "/api/vault/restore",
    "/api/vault/horcrux-status", "/api/vault/storage", "/api/vault/storage/import"]

/-- Usable while the session is locked by its PIN. -/
def unlockPaths : List String :=
  ["/api/bootstrap", "/api/session", "/api/vault/status", "/api/session/unlock", "/api/vault/lock"]

inductive Denial where
  | invalidHostHeader
  | invalidOriginHeader
  | unauthorizedLocalSession
  | invalidCsrfToken
  | vaultLocked
  | sessionPinRequired
  deriving DecidableEq, Repr

/-- The cookie is that of the active session, which has not expired. -/
def validSession (d : Daemon) (r : Request) : Option SessionState :=
  match sessionCookie r.cookie, d.activeSession with
  | some token, some s =>
    if token.isEmpty || s.expiresAt ≤ d.now || token != s.cookieToken.toList then none else some s
  | _, _ => none

/-- The origin header is absent, empty or the daemon's own. -/
def originAllowed (d : Daemon) : Option String → Bool
  | none => true
  | some origin => origin == "" || origin == allowedOrigin d

/-- The CSRF header of a writing request; an empty one counts as missing. -/
def csrfValid (s : SessionState) (r : Request) : Bool :=
  !r.method.writes || r.csrf != some "" && r.csrf == some s.csrfToken

def verifyLocalSession (d : Daemon) (r : Request) : Except Denial Unit :=
  if r.host != allowedHost d then .error .invalidHostHeader
  else if !originAllowed d r.origin then .error .invalidOriginHeader
  else if !isApi r.url then .ok ()
  else if openUrls.contains r.url then .ok ()
  else
    match validSession d r with
    | none => .error .unauthorizedLocalSession
    | some s =>
      if !csrfValid s r then .error .invalidCsrfToken
      else if openingPaths.any (fun p => p.toList == pathOf r.url) then .ok ()
      else if d.vaultLocked then .error .vaultLocked
      else .ok ()

/-- The second hook: after it returns, the handler runs. -/
def checked (d : Daemon) (r : Request) : Except Denial Unit :=
  match verifyLocalSession d r with
  | .error e => .error e
  | .ok () =>
    if d.quickLocked && isApi r.url && !unlockPaths.any (fun p => p.toList == pathOf r.url) then
      .error .sessionPinRequired
    else .ok ()

def handlerRuns (d : Daemon) (r : Request) : Bool := (checked d r).isOk

/-- The first hook: the request is put behind the one before it and waits for that. -/
def holdsRequestLock (r : Request) : Bool := isApi r.url && pathOf r.url != "/api/events".toList

/-- Every handler but the three open ones. -/
def Route.gated (q : Route) : Bool := !openUrls.contains q.path

/-- What a gated handler may rely on. -/
structure Admitted (d : Daemon) (r : Request) (q : Route) : Prop where
  session : ∃ s, d.activeSession = some s ∧ d.now < s.expiresAt ∧
    sessionCookie r.cookie = some s.cookieToken.toList ∧
    (r.method.writes = true → r.csrf = some s.csrfToken)
  unlocked : q.path ∉ openingPaths → d.vaultLocked = false
  quickUnlocked : q.path ∉ unlockPaths → d.quickLocked = false
  serial : q.path ≠ "/api/events" → holdsRequestLock r = true

/-- Whatever the daemon's state and the headers, the handler runs for admitted requests only. -/
def Gated (m : Method) (url : String) (q : Route) : Prop :=
  ∀ d r, r.method = m → r.url = url → handlerRuns d r = true → Admitted d r q

/-- A path the router takes as it is. -/
def isPlain (path : List Char) : Bool :=
  path.head? == some '/' && path.all (fun c => c != '%' && c != '#' && c != ';')

/-- The paths the hooks compare with. -/
def namedPaths : List String := openUrls ++ openingPaths ++ unlockPaths ++ ["/api/events"]

section Gate

variable {decode : List Char → Option (List Char)} {d : Daemon} {r : Request} {q : Route}
  {m : Method} {url p : String}

/-- No pattern but the path itself matches a named path. -/
theorem named_exact : ∀ p ∈ namedPaths, isPlain p.toList = true ∧
    ∀ q ∈ routes, q.matchesPath p.toList = true → q.path = p := by
  decide +kernel

/-- A request for a named path is dispatched to its handler. -/
theorem dispatch_named (hplain : ∀ path, isPlain path = true → decode path = some path)
    (hp : p ∈ namedPaths) (hpath : pathOf url = p.toList) (h : dispatch decode m url = some q) :
    q.path = p := by
  obtain ⟨hplainpath, hexact⟩ := named_exact p hp
  unfold dispatch at h
  rw [hpath, hplain _ hplainpath] at h
  have hmatch := List.find?_some h
  simp only [Bool.and_eq_true] at hmatch
  exact hexact q (List.mem_of_find?_eq_some h) hmatch.2

theorem namedPath_of_any {l : List String} (h : l.any (fun p => p.toList == pathOf url) = true) :
    ∃ p ∈ l, pathOf url = p.toList := by
  obtain ⟨p, hp, hpath⟩ := List.any_eq_true.mp h
  exact ⟨p, hp, (by simpa using hpath : p.toList = pathOf url).symm⟩

/-- The open urls have no query, so they are paths. -/
theorem pathOf_openUrl : ∀ p ∈ openUrls, pathOf p = p.toList := by decide +kernel

theorem validSession_session {s : SessionState} (h : validSession d r = some s) :
    d.activeSession = some s ∧ d.now < s.expiresAt ∧
      sessionCookie r.cookie = some s.cookieToken.toList := by
  unfold validSession at h
  split at h
  · next token session hcookie hsession =>
    split at h
    · cases h
    · next hvalid =>
      obtain rfl := Option.some.inj h
      simp only [Bool.or_eq_true, decide_eq_true_eq, bne_iff_ne, ne_eq, not_or, Nat.not_le,
        not_not] at hvalid
      exact ⟨hsession, hvalid.1.2, by rw [hcookie, hvalid.2]⟩
  · cases h

theorem csrfValid_token {s : SessionState} (h : csrfValid s r = true)
    (hwrites : r.method.writes = true) : r.csrf = some s.csrfToken := by
  unfold csrfValid at h
  rw [hwrites] at h
  simp only [Bool.not_true, Bool.false_or, Bool.and_eq_true, beq_iff_eq] at h
  exact h.2

/-- What `verifyLocalSession` has checked of an API request that is not for an open url. -/
theorem verified_session (hapi : isApi r.url = true) (hopen : openUrls.contains r.url = false)
    (h : verifyLocalSession d r = .ok ()) :
    ∃ s, validSession d r = some s ∧ csrfValid s r = true ∧
      (openingPaths.any (fun p => p.toList == pathOf r.url) = true ∨ d.vaultLocked = false) := by
  unfold verifyLocalSession at h
  rw [hapi, hopen] at h
  split at h
  · cases h
  split at h
  · cases h
  rw [if_neg (by simp), if_neg (by simp)] at h
  split at h
  · cases h
  · next s hs =>
    split at h
    · cases h
    · next hcsrf =>
      refine ⟨s, hs, by simpa using hcsrf, ?_⟩
      split at h
      · next hany => exact .inl hany
      · split at h
        · cases h
        · next hlocked => exact .inr (by simpa using hlocked)

/-- The handler runs if neither hook answers the request. -/
theorem handlerRuns_checked (hapi : isApi r.url = true) (h : handlerRuns d r = true) :
    verifyLocalSession d r = .ok () ∧
      (unlockPaths.any (fun p => p.toList == pathOf r.url) = true ∨ d.quickLocked = false) := by
  unfold handlerRuns checked at h
  cases hverify : verifyLocalSession d r with
  | error e => rw [hverify] at h; cases h
  | ok u =>
    refine ⟨rfl, ?_⟩
    rw [hverify, hapi] at h
    by_contra hquick
    simp only [not_or, Bool.not_eq_true, Bool.not_eq_false] at hquick
    rw [hquick.1, hquick.2] at h
    cases h

/-- An API request that reaches a gated handler has been admitted to it. -/
theorem gated_of_api (hplain : ∀ path, isPlain path = true → decode path = some path)
    (hroute : dispatch decode m url = some q) (hgated : q.gated = true)
    (hapi : isApi url = true) : Gated m url q := by
  rintro d r rfl rfl hruns
  have hopen : openUrls.contains r.url = false := by
    by_contra hcontains
    have hmem : r.url ∈ openUrls := by simpa using hcontains
    have hpath := dispatch_named hplain (List.mem_append_left _ (List.mem_append_left _
      (List.mem_append_left _ hmem))) (pathOf_openUrl _ hmem) hroute
    unfold Route.gated at hgated
    rw [hpath] at hgated
    simp [hmem] at hgated
  obtain ⟨hverified, hquick⟩ := handlerRuns_checked hapi hruns
  obtain ⟨s, hsession, hcsrf, hlocked⟩ := verified_session hapi hopen hverified
  obtain ⟨hactive, hexpires, hcookie⟩ := validSession_session hsession
  refine ⟨⟨s, hactive, hexpires, hcookie, csrfValid_token hcsrf⟩, fun hclosed => ?_,
    fun hclosed => ?_, fun hevents => ?_⟩
  · refine hlocked.resolve_left fun hany => hclosed ?_
    obtain ⟨p, hp, hpath⟩ := namedPath_of_any hany
    rw [dispatch_named hplain (by simp [namedPaths, hp]) hpath hroute]
    exact hp
  · refine hquick.resolve_left fun hany => hclosed ?_
    obtain ⟨p, hp, hpath⟩ := namedPath_of_any hany
    rw [dispatch_named hplain (by simp [namedPaths, hp]) hpath hroute]
    exact hp
  · unfold holdsRequestLock
    rw [hapi, Bool.true_and, bne_iff_ne]
    intro hpath
    exact hevents (dispatch_named hplain (by simp [namedPaths]) hpath hroute)

/-- A request from nowhere in particular: no cookie, no token. -/
def bare (m : Method) (url : String) (d : Daemon) : Request :=
  ⟨m, url, allowedHost d, none, "", none⟩

/-- Nobody has a session yet. -/
def unpaired : Daemon := ⟨3100, none, 0, true, false⟩

theorem bare_runs (hapi : isApi url = false) : handlerRuns unpaired (bare m url unpaired) = true := by
  have hverified : verifyLocalSession unpaired (bare m url unpaired) = .ok () := by
    unfold verifyLocalSession bare
    rw [hapi]
    simp [originAllowed]
  unfold handlerRuns checked
  rw [hverified]
  rfl

/-- The gate of a dispatched target is complete exactly if its raw text starts with
`/api/`. -/
theorem gated_iff_raw_api (hplain : ∀ path, isPlain path = true → decode path = some path)
    (hroute : dispatch decode m url = some q) (hgated : q.gated = true) :
    Gated m url q ↔ isApi url = true := by
  refine ⟨fun hcomplete => ?_, gated_of_api hplain hroute hgated⟩
  by_contra hapi
  obtain ⟨s, hactive, -⟩ := (hcomplete unpaired (bare m url unpaired) rfl rfl
    (bare_runs (by simpa using hapi))).session
  cases hactive

end Gate

section Examples

def hexValue (c : Char) : Option Nat :=
  if '0' ≤ c ∧ c ≤ '9' then some (c.toNat - '0'.toNat)
  else if 'a' ≤ c ∧ c ≤ 'f' then some (c.toNat - 'a'.toNat + 10)
  else if 'A' ≤ c ∧ c ≤ 'F' then some (c.toNat - 'A'.toNat + 10)
  else none

/-- Decoding of the escapes of ASCII characters. -/
def percentDecode : List Char → Option (List Char)
  | [] => some []
  | '%' :: x :: y :: rest =>
    match hexValue x, hexValue y, percentDecode rest with
    | some a, some b, some decoded => some (Char.ofNat (16 * a + b) :: decoded)
    | _, _, _ => none
  | c :: rest => if c = '%' then none else (percentDecode rest).map (c :: ·)

theorem percentDecode_unescaped (l : List Char) (h : '%' ∉ l) : percentDecode l = some l := by
  induction l with
  | nil => rfl
  | cons c rest ih =>
    have hc : c ≠ '%' := fun heq => h (heq ▸ List.mem_cons_self)
    have hrest := ih fun hmem => h (List.mem_cons_of_mem c hmem)
    simp [percentDecode, hc, hrest]

theorem percentDecode_plain (path : List Char) (h : isPlain path = true) :
    percentDecode path = some path := by
  unfold isPlain at h
  simp only [Bool.and_eq_true, List.all_eq_true] at h
  refine percentDecode_unescaped path fun hmem => ?_
  simpa using h.2 '%' hmem

/-- Every target dispatched to a gated handler is gated. -/
def GateComplete (decode : List Char → Option (List Char)) : Prop :=
  ∀ m url q, dispatch decode m url = some q → q.gated = true → Gated m url q

/-- One escaped letter in the target, and the handler runs for anyone. -/
theorem escaped_api_not_gated : ¬ GateComplete percentDecode := by
  intro hcomplete
  have hgated := hcomplete .get "/%61pi/profile" ⟨.get, "/api/profile"⟩ (by decide +kernel)
    (by decide +kernel)
  obtain ⟨s, hactive, -⟩ := (hgated unpaired (bare .get "/%61pi/profile" unpaired) rfl rfl
    (bare_runs (by decide +kernel))).session
  cases hactive

theorem profile_gated : Gated .get "/api/profile?x=1" ⟨.get, "/api/profile"⟩ :=
  (gated_iff_raw_api percentDecode_plain (by decide +kernel) (by decide +kernel)).mpr
    (by decide +kernel)

end Examples

end LocalApiGate
