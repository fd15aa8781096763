import CryptoPigeon.Activation

/-! # Self-registration of a client

`selfActivate` replays the claim it has saved for a user name and applies only when it has
none. A request of the client is served as a whole, by the statements of `Activation`; other
applicants act in between. `own` is the bundle of this client, `mine` (history) the requests
that were handed out to it, answered or not. -/
namespace SelfActivation

open TransitionSystem
open LoginChallenges (uuid)
open Activation

inductive Kind where
  | desktop
  | android
  deriving DecidableEq, Repr

/-- What `trim` removes. -/
def isSpace (c : Char) : Bool :=
  [0x09, 0x0A, 0x0B, 0x0C, 0x0D, 0x20, 0xA0, 0x1680, 0x2028, 0x2029, 0x202F, 0x205F, 0x3000,
    0xFEFF].contains c.toNat || (0x2000 ≤ c.toNat && c.toNat ≤ 0x200A)

/-- `toLowerCase` of one character; besides the letters only KELVIN SIGN becomes ASCII. -/
def lower (c : Char) : Char := if c.toNat = 0x212A then 'k' else c.toLower

def isNameChar (c : Char) : Bool :=
  ('a' ≤ c && c ≤ 'z') || ('0' ≤ c && c ≤ '9') || c = '_'

/-- `usernameSchema`. -/
def usernameSchema (text : String) : Option String :=
  let trimmed := ((text.toList.dropWhile isSpace).reverse.dropWhile isSpace).reverse.map lower
  if 3 ≤ trimmed.length ∧ trimmed.length ≤ 32 ∧ trimmed.all isNameChar then
    some (String.ofList trimmed)
  else none

/-- The bundle of `ensureIdentity`: its key ids differ and fit the columns. -/
structure Bundle where
  payload : Payload
  canonical : uuid payload.deviceId = payload.deviceId
  prekeys : ((prekeyRows payload).map fun k => (k.table, k.key.id)).Nodup
  integers : payload.registrationId < 2 ^ 31 ∧ payload.signalDeviceId < 2 ^ 31 ∧
    ∀ k ∈ prekeyRows payload, k.key.id < 2 ^ 31

/-- The row of `access_claim`. -/
structure Claim where
  requestId : String
  username : String
  token : String
  deriving DecidableEq, Repr

/-- The row of `activation_state`. -/
structure ActivationState where
  requestId : String
  username : String
  activated : Bool
  deriving DecidableEq, Repr

/-- `signal_account.user_id`, `relay_auth`, `account_public` and the two rows above. -/
structure Client where
  userId : Option String
  accessToken : Option String
  publicUid : Option String
  claim : Option Claim
  activation : Option ActivationState
  deriving DecidableEq, Repr

structure World where
  relay : Relay
  client : Client
  clock : Nat
  mine : List String
  used : List String

/-- What the relay draws for a request. -/
structure Draw where
  requestId : String
  code : String
  userId : String
  publicUid : String
  sessionToken : String
  deriving DecidableEq, Repr

/-- Where a call is lost or the app ends: with the apply request, its answer, between the two
writes, with the activate request, with its answer; or it gets through. -/
inductive Cut where
  | applyRequest
  | applyAnswer
  | betweenWrites
  | activateRequest
  | activateAnswer
  | through
  deriving DecidableEq, Repr

/-- No other request is under way at the relay. -/
def bare (r : Relay) (used : List String) : Activation.State := ⟨r, [], [], used, [], []⟩

def day : Nat := 24 * 60 * 60 * 1000

/-- The rest of an activation; `publicUid` is the one that its loop finds. -/
def serve (hmac : String → String) (t : Txn) (d : Draw) (now : Nat) (s : Activation.State) :
    Activation.State :=
  match t.stage with
  | .completed =>
    let looked := existing hmac t s
    match looked.returning with
    | [] => looked
    | g :: _ => grant g d.sessionToken (now + day) looked
  | .wrong => invalid t s
  | .trying userId _ =>
    if Insertable s t.payload t.row.username userId then
      commit { t with stage := .inserting userId d.publicUid } d.sessionToken (now + day) s
    else refuse t s
  | _ => s

def activate (hmac : String → String) (p : Payload) (d : Draw) (now : Nat) (r : Relay) :
    Activation.State :=
  let began := Activation.begin hmac p d.userId now (bare r [])
  match began.txns with
  | [] => began
  | t :: _ => serve hmac t d now began

def setActivation (requestId username : String) (c : Client) : Client :=
  { c with activation := some ⟨requestId, username, false⟩ }

def setClaim (requestId username token : String) (c : Client) : Client :=
  { c with claim := some ⟨requestId, username, token⟩ }

/-- The two statements after an answered application: `text` is what the user gave, `name` what
the relay answered. -/
def saves (kind : Kind) (text name : String) (d : Draw) : List (Client → Client) :=
  match kind with
  | .desktop => [setActivation d.requestId name, setClaim d.requestId name d.code]
  | .android => [setClaim d.requestId text d.code, setActivation d.requestId text]

/-- The transaction of `completeRegistration`; on Android the name is left as it is. -/
def completeRegistration (kind : Kind) (a : Success) (c : Client) : Client :=
  { userId := some a.userId
    accessToken := some a.sessionToken
    publicUid := some a.publicUid
    claim := none
    activation := c.activation.map fun s =>
      match kind with
      | .desktop => { s with username := a.username, activated := true }
      | .android => { s with activated := true } }

def activateIdentity (kind : Kind) (hmac : String → String) (own : Bundle) (requestId code : String)
    (cut : Cut) (d : Draw) (w : World) : World :=
  if cut = .activateRequest then w
  else
    let served :=
      activate hmac { own.payload with requestId, activationCode := code } d w.clock w.relay
    let w' := { w with relay := served.relay }
    match served.successes with
    | [] => w'
    | a :: _ =>
      if cut = .activateAnswer then w'
      else if a.deviceId ≠ own.payload.deviceId then w'
      else { w' with client := completeRegistration kind a w.client }

/-- `POST /api/access/apply` of the relay. -/
def applyAccess (hmac : String → String) (name : String) (d : Draw) (w : World) : World :=
  let applied :=
    Activation.apply d.requestId name (hmac d.code) w.clock (w.clock + 10 * 60 * 1000)
      (bare w.relay w.used)
  { w with relay := applied.relay, used := applied.used }

def selfActivate (kind : Kind) (hmac : String → String) (own : Bundle) (text : String) (cut : Cut)
    (d : Draw) (w : World) : World :=
  if w.client.userId.isSome then w
  else
    match w.client.claim.filter (·.username = text) with
    | some k => activateIdentity kind hmac own k.requestId k.token cut d w
    | none =>
      if cut = .applyRequest then w
      else
        match usernameSchema text with
        | none => w
        | some name =>
          let applied := applyAccess hmac name d w
          if d.requestId ∉ applied.used then w
          else
            let asked := { applied with mine := d.requestId :: w.mine }
            let writes := saves kind text name d
            match cut with
            | .applyAnswer => asked
            | .betweenWrites =>
              { asked with client := (writes.take 1).foldl (fun c f => f c) w.client }
            | _ =>
              activateIdentity kind hmac own d.requestId d.code cut d
                { asked with client := writes.foldl (fun c f => f c) w.client }

inductive Event where
  | call (text : String) (cut : Cut) (d : Draw)
  | tick (clock : Nat)
  | otherApply (name : String) (d : Draw)
  | otherActivate (p : Payload) (d : Draw)

/-- The user id is drawn anew, and a public UID that is found is not taken. -/
structure Unused (w : World) (d : Draw) : Prop where
  userId : ∀ u ∈ w.relay.users, u.userId ≠ d.userId
  publicUid : ∀ u ∈ w.relay.users, u.publicUid ≠ d.publicUid

structure Fresh (w : World) (d : Draw) : Prop extends Unused w d where
  requestId : d.requestId ∉ w.used ∧ uuid d.requestId = d.requestId

/-- Others do not know the requests of this client, and have other devices. -/
def Enabled (own : Bundle) (w : World) : Event → Prop
  | .call _ _ d => Fresh w d
  | .tick clock => w.clock ≤ clock
  | .otherApply name d => Fresh w d ∧ usernameSchema name = some name
  | .otherActivate p d =>
    Fresh w d ∧ uuid p.requestId ∉ w.mine ∧ uuid p.deviceId ≠ own.payload.deviceId

def next (kind : Kind) (hmac : String → String) (own : Bundle) (w : World) : Event → World
  | .call text cut d => selfActivate kind hmac own text cut d w
  | .tick clock => { w with clock }
  | .otherApply name d => applyAccess hmac name d w
  | .otherActivate p d => { w with relay := (activate hmac p d w.clock w.relay).relay }

/-- A new client and an empty relay. -/
structure Initial (w : World) : Prop where
  relay : w.relay = ⟨[], [], [], [], []⟩
  client : w.client = ⟨none, none, none, none, none⟩
  history : w.mine = [] ∧ w.used = []

def system (kind : Kind) (hmac : String → String) (own : Bundle) : System World Event :=
  ⟨Initial, Enabled own, next kind hmac own⟩

def Registered (own : Bundle) (r : Relay) : Prop :=
  ∃ d ∈ r.devices, d.deviceId = own.payload.deviceId

def Live (clock : Nat) (row : AccessRequest) : Prop :=
  row.status = .approved ∧ ∀ t ∈ row.expiresAt, clock ≤ t

/-- The name is valid, no other account owns it and no other applicant has a live claim on it. -/
def Free (own : Bundle) (w : World) (text : String) : Prop :=
  ∃ name, usernameSchema text = some name ∧
    (∀ u ∈ w.relay.users, u.username = name →
      ∃ d ∈ w.relay.devices, d.userId = u.userId ∧ d.deviceId = own.payload.deviceId) ∧
    ∀ row ∈ w.relay.requests, row.username = name → Live w.clock row → row.requestId ∈ w.mine

/-- The account is activated, and the rows of the client say what the relay answered. -/
def Activated (own : Bundle) (w : World) (accept : User → Prop) : Prop :=
  ∃ u ∈ w.relay.users, accept u ∧
    (∃ d ∈ w.relay.devices, d.userId = u.userId ∧ d.deviceId = own.payload.deviceId) ∧
    w.client.userId = some u.userId ∧ w.client.publicUid = some u.publicUid ∧
    ∃ a, w.client.activation = some a ∧ a.activated = true ∧ a.username = u.username

/-- What a call that gets through ends with; before the registration the account is to have the
name asked for. -/
def Ends (kind : Kind) (hmac : String → String) (own : Bundle) (text : String) (d : Draw)
    (w : World) : Prop :=
  Activated own (selfActivate kind hmac own text .through d w)
    fun u => w.client.userId = none → usernameSchema text = some u.username

/-- The client's own claims do not stand in the way: the saved one is still good at the relay,
or there is none and neither a live one nor an account is left behind there. On Android the name in
`activation_state` is the account's as well. -/
def Unobstructed (kind : Kind) (own : Bundle) (text : String) (w : World) : Prop :=
  match w.client.userId with
  | some id => ∃ u ∈ w.relay.users, u.userId = id ∧
      ∃ a, w.client.activation = some a ∧ a.username = u.username
  | none =>
    match w.client.claim.filter (·.username = text) with
    | some k => ∃ row ∈ w.relay.requests, row.requestId = k.requestId ∧
        (row.status = .activated ∨ (Live w.clock row ∧ ¬Registered own w.relay)) ∧
        (kind = .android → ∃ a, w.client.activation = some a ∧ a.username = row.username)
    | none => ¬Registered own w.relay ∧
        (∀ row ∈ w.relay.requests, usernameSchema text = some row.username → Live w.clock row →
          row.requestId ∉ w.mine) ∧
        (kind = .android → usernameSchema text = some text)

section Relay

variable {hmac : String → String} {p : Payload} {d : Draw} {now : Nat} {r : Relay}
  {row : AccessRequest} {own : Bundle} {kind : Kind} {w : World}

/-- The account that an activation of this row writes. -/
def created (row : AccessRequest) (p : Payload) (d : Draw) (now : Nat) (r : Relay) : Relay :=
  { replaceRow { row with status := .activated, attemptCount := row.attemptCount + 1 } r with
    users := ⟨d.userId, row.username, d.publicUid, row.requestId⟩ :: r.users
    devices := ⟨uuid p.deviceId, d.userId, p.identityKey, p.authKey, p.registrationId,
      p.signalDeviceId, false, row.requestId⟩ :: r.devices
    prekeys := prekeyRows p ++ r.prekeys
    sessions := ⟨d.sessionToken, uuid p.deviceId, now + day⟩ :: r.sessions }

/-- An activation that is not answered with an account; a wrong code is counted. -/
def Refused (hmac : String → String) (p : Payload) (r r' : Relay) : Prop :=
  r' = r ∨ ∃ row ∈ r.requests, row.requestId = uuid p.requestId ∧ row.status = .approved ∧
    ¬matchesCode hmac row p ∧ r' = replaceRow { row with attemptCount := row.attemptCount + 1 } r

/-- The account that is answered again. -/
structure Again (hmac : String → String) (p : Payload) (d : Draw) (now : Nat) (r : Relay)
    (row : AccessRequest) (u : User) (v : Device) (s : Activation.State) : Prop where
  held : row ∈ r.requests ∧ row.requestId = uuid p.requestId ∧ row.status = .activated
  account : u ∈ r.users ∧ u.username = row.username ∧ v ∈ r.devices ∧ v.userId = u.userId ∧
    v.deviceId = uuid p.deviceId
  relay : s.relay = { r with sessions := ⟨d.sessionToken, v.deviceId, now + day⟩ :: r.sessions }
  answer : s.successes = [⟨p, d.sessionToken, now + day, u.userId, v.deviceId, u.username, u.publicUid⟩]

/-- The account that is registered. -/
structure Created (hmac : String → String) (p : Payload) (d : Draw) (now : Nat) (r : Relay)
    (row : AccessRequest) (s : Activation.State) : Prop where
  held : row ∈ r.requests ∧ row.requestId = uuid p.requestId
  live : Live now row
  code : matchesCode hmac row p
  insertable : Insertable (bare r []) p row.username d.userId
  relay : s.relay = created row p d now r
  answer : s.successes =
    [⟨p, d.sessionToken, now + day, d.userId, p.deviceId, row.username, d.publicUid⟩]

theorem existing_cases (hmac : String → String) (t : Txn) (s : Activation.State) (hempty : s.returning = []) :
    existing hmac t s = close t s ∨ ∃ u ∈ s.relay.users, ∃ v ∈ s.relay.devices,
      u.username = t.row.username ∧ v.userId = u.userId ∧ v.deviceId = uuid t.payload.deviceId ∧
      existing hmac t s = { close t s with returning := [(t.payload, u, v)] } := by
  unfold existing
  split
  · exact .inl rfl
  · next u hu =>
    split
    · exact .inl rfl
    · next v hv =>
      split
      · have hname : u.username = t.row.username := by simpa using List.find?_some hu
        have hfound := List.find?_some hv
        simp only [Bool.and_eq_true, decide_eq_true_eq] at hfound
        exact .inr ⟨u, List.mem_of_find?_eq_some hu, v, List.mem_of_find?_eq_some hv, hname,
          hfound.1.1, hfound.1.2, by rw [hempty]⟩
      · exact .inl rfl

/-- Which transaction is entered. -/
theorem begin_cases (hmac : String → String) (p : Payload) (d : Draw) (now : Nat) (r : Relay) :
    Activation.begin hmac p d.userId now (bare r []) = bare r [] ∨
      ∃ row ∈ r.requests, row.requestId = uuid p.requestId ∧ ∃ stage,
        Activation.begin hmac p d.userId now (bare r []) =
          { bare r [] with txns := [⟨p, row, stage, []⟩] } ∧
        ((stage = .completed ∧ row.status = .activated) ∨
          (Live now row ∧ ((stage = .wrong ∧ ¬matchesCode hmac row p) ∨
            (stage = .trying d.userId 0 ∧ matchesCode hmac row p)))) := by
  unfold Activation.begin
  dsimp only [bare]
  cases hrow : r.requests.find? (·.requestId = uuid p.requestId) with
  | none => exact .inl rfl
  | some row =>
    have hmem := List.mem_of_find?_eq_some hrow
    have hid : row.requestId = uuid p.requestId := by simpa using List.find?_some hrow
    dsimp only
    split
    · next hdone => exact .inr ⟨row, hmem, hid, _, rfl, .inl ⟨rfl, hdone⟩⟩
    · split
      · exact .inl rfl
      · next happroved =>
        split
        · exact .inl rfl
        · next hintime =>
          have hlive : Live now row := by
            refine ⟨not_not.mp happroved, fun e he => ?_⟩
            rw [Option.mem_def.mp he] at hintime
            simpa using hintime
          split
          · exact .inl rfl
          · split
            · next hmatch => exact .inr ⟨row, hmem, hid, _, rfl, .inr ⟨hlive, .inr ⟨rfl, hmatch⟩⟩⟩
            · next hwrong => exact .inr ⟨row, hmem, hid, _, rfl, .inr ⟨hlive, .inl ⟨rfl, hwrong⟩⟩⟩

/-- What can come of an activation. -/
theorem activate_cases (hmac : String → String) (p : Payload) (d : Draw) (now : Nat) (r : Relay) :
    ((activate hmac p d now r).successes = [] ∧ Refused hmac p r (activate hmac p d now r).relay) ∨
      (∃ row u v, Again hmac p d now r row u v (activate hmac p d now r)) ∨
      ∃ row, Created hmac p d now r row (activate hmac p d now r) := by
  unfold activate
  rcases begin_cases hmac p d now r with
    hnone | ⟨row, hmem, hid, stage, hbegin, hstage⟩
  · rw [hnone]
    exact .inl ⟨rfl, .inl rfl⟩
  · rw [hbegin]
    dsimp only [serve]
    rcases hstage with ⟨rfl, hdone⟩ | ⟨hlive, ⟨rfl, hwrong⟩ | ⟨rfl, hmatch⟩⟩
    · dsimp only
      rcases existing_cases hmac ⟨p, row, .completed, []⟩
          { bare r [] with txns := [⟨p, row, .completed, []⟩] } rfl with
        hclosed | ⟨u, hu, v, hv, hname, hown, hdevice, hfound⟩
      · rw [hclosed]
        exact .inl ⟨rfl, .inl rfl⟩
      · rw [hfound]
        exact .inr (.inl ⟨row, u, v, ⟨hmem, hid, hdone⟩, ⟨hu, hname, hv, hown, hdevice⟩, rfl, rfl⟩)
    · exact .inl ⟨rfl, .inr ⟨row, hmem, hid, hlive.1, hwrong, rfl⟩⟩
    · dsimp only
      split
      · next hinsert =>
        exact .inr (.inr ⟨row, ⟨hmem, hid⟩, hlive, hmatch, { hinsert with }, rfl, rfl⟩)
      · exact .inl ⟨rfl, .inl rfl⟩

theorem find_unique {α : Type} {l : List α} {x : α} {q : α → Bool} (hx : x ∈ l) (hq : q x = true)
    (hunique : ∀ y ∈ l, q y = true → y = x) : l.find? q = some x := by
  cases hfound : l.find? q with
  | none => exact absurd hq (by simpa using List.find?_eq_none.mp hfound x hx)
  | some y => rw [hunique y (List.mem_of_find?_eq_some hfound) (List.find?_some hfound)]

theorem begin_enters (hmac : String → String) (d : Draw) (now : Nat) {used : List String} (hrows : Rows r.requests used) (hrow : row ∈ r.requests)
    (hid : row.requestId = uuid p.requestId) :
    (row.status = .activated → Activation.begin hmac p d.userId now (bare r []) =
        { bare r [] with txns := [⟨p, row, .completed, []⟩] }) ∧
      (Live now row → row.expiresAt.isSome → row.attemptCount < 5 → matchesCode hmac row p →
        Activation.begin hmac p d.userId now (bare r []) =
          { bare r [] with txns := [⟨p, row, .trying d.userId 0, []⟩] }) := by
  have hfind : r.requests.find? (·.requestId = uuid p.requestId) = some row := by
    refine find_unique hrow (decide_eq_true hid) fun y hy hyid => ?_
    exact hrows.ids y hy row hrow ((of_decide_eq_true hyid).trans hid.symm)
  unfold Activation.begin
  dsimp only [bare]
  rw [hfind]
  refine ⟨fun hdone => ?_, fun hlive hsome hlt hmatch => ?_⟩
  · dsimp only
    rw [if_pos hdone]
  · obtain ⟨e, he⟩ := Option.isSome_iff_exists.mp hsome
    have hnot : ¬row.expiresAt.all (· < now) := by
      rw [he]
      simpa using hlive.2 e he
    have hopen : row.status ≠ .activated := by
      rw [hlive.1]
      exact Status.noConfusion
    dsimp only
    rw [if_neg hopen, if_neg (not_not.mpr hlive.1), if_neg hnot, if_neg (Nat.not_le.mpr hlt),
      if_pos hmatch]

theorem activate_created {used : List String} (hrows : Rows r.requests used) (hrow : row ∈ r.requests)
    (hid : row.requestId = uuid p.requestId) (hlive : Live now row) (hsome : row.expiresAt.isSome)
    (hlt : row.attemptCount < 5) (hmatch : matchesCode hmac row p)
    (hinsert : Insertable (bare r []) p row.username d.userId) :
    Created hmac p d now r row (activate hmac p d now r) := by
  have hbegin := (begin_enters hmac d now hrows hrow hid).2 hlive hsome hlt hmatch
  have hactivate : activate hmac p d now r =
      commit ⟨p, row, .inserting d.userId d.publicUid, []⟩ d.sessionToken (now + day)
        { bare r [] with txns := [⟨p, row, .trying d.userId 0, []⟩] } := by
    unfold activate
    rw [hbegin]
    exact if_pos { hinsert with }
  rw [hactivate]
  exact ⟨⟨hrow, hid⟩, hlive, hmatch, hinsert, rfl, rfl⟩

theorem activate_again {used : List String} {u : User} {v : Device} (hrows : Rows r.requests used)
    (hnames : (r.users.map User.username).Nodup) (hdevices : (r.devices.map Device.deviceId).Nodup)
    (hrow : row ∈ r.requests) (hid : row.requestId = uuid p.requestId)
    (hdone : row.status = .activated) (hmatch : matchesCode hmac row p) (hu : u ∈ r.users)
    (hname : u.username = row.username) (hv : v ∈ r.devices) (hown : v.userId = u.userId)
    (hdevice : v.deviceId = uuid p.deviceId) (hrevoked : v.revoked = false)
    (hkeys : v.identityKey = p.identityKey ∧ v.authKey = p.authKey) :
    Again hmac p d now r row u v (activate hmac p d now r) := by
  have hbegin := (begin_enters hmac d now hrows hrow hid).1 hdone
  have huser : r.users.find? (·.username = row.username) = some u := by
    refine find_unique hu (decide_eq_true hname) fun y hy hyname => ?_
    exact List.inj_on_of_nodup_map hnames hy hu ((of_decide_eq_true hyname).trans hname.symm)
  have hfound : r.devices.find? (fun x => x.userId = u.userId && x.deviceId = uuid p.deviceId &&
      !x.revoked) = some v := by
    refine find_unique hv (by simp [hown, hdevice, hrevoked]) fun y hy hyq => ?_
    simp only [Bool.and_eq_true, decide_eq_true_eq] at hyq
    exact List.inj_on_of_nodup_map hdevices hy hv (hyq.1.2.trans hdevice.symm)
  have hexisting : existing hmac ⟨p, row, .completed, []⟩
      { bare r [] with txns := [⟨p, row, .completed, []⟩] } =
        { bare r [] with txns := [], returning := [(p, u, v)] } := by
    unfold existing
    dsimp only [bare]
    rw [huser]
    dsimp only
    rw [hfound]
    dsimp only
    rw [if_pos (by simp [hmatch, hkeys])]
    simp [close]
  have hactivate : activate hmac p d now r = grant (p, u, v) d.sessionToken (now + day)
      { bare r [] with txns := [], returning := [(p, u, v)] } := by
    unfold activate
    rw [hbegin]
    dsimp only [serve]
    rw [hexisting]
  rw [hactivate]
  exact ⟨⟨hrow, hid, hdone⟩, ⟨hu, hname, hv, hown, hdevice⟩, rfl, rfl⟩

/-- A row that an application may replace. -/
def Replaceable (clock : Nat) (row : AccessRequest) : Prop :=
  (row.status = .pending ∨ row.status = .approved) ∧ ∃ e ∈ row.expiresAt, e < clock

/-- What becomes of an application: the name is taken, or its row is the new one. -/
theorem apply_cases (requestId name codeHash : String) (now expiresAt : Nat) (s : Activation.State) :
    let fresh : AccessRequest := ⟨requestId, name, .approved, some codeHash, 0, some expiresAt⟩
    let applied := Activation.apply requestId name codeHash now expiresAt s
    (applied = s ∧ ((∃ u ∈ s.relay.users, u.username = name) ∨
        ∃ row ∈ s.relay.requests, row.username = name ∧ ¬Replaceable now row)) ∨
      ((∀ u ∈ s.relay.users, u.username ≠ name) ∧
        (∀ old, s.relay.requests.find? (·.username = name) = some old → Replaceable now old) ∧
        ∃ requests,
          applied = { s with
            relay := { s.relay with requests }
            used := requestId :: s.used } ∧
          fresh ∈ requests ∧
          (∀ x ∈ requests, x = fresh ∨ (x ∈ s.relay.requests ∧ x.username ≠ name)) ∧
          ∀ x ∈ s.relay.requests, x.username ≠ name → x ∈ requests) := by
  unfold Activation.apply
  dsimp only
  split
  · next huser =>
    obtain ⟨u, hu, hname⟩ := List.any_eq_true.mp huser
    exact .inl ⟨rfl, .inl ⟨u, hu, of_decide_eq_true hname⟩⟩
  · next huser =>
    have hnone : ∀ u ∈ s.relay.users, u.username ≠ name := by simpa using huser
    split
    · next hfind =>
      have hother : ∀ x ∈ s.relay.requests, x.username ≠ name := by simpa using hfind
      refine .inr ⟨hnone, fun old hold => absurd (hfind.symm.trans hold) (Option.some_ne_none old).symm,
        _, rfl, List.mem_cons_self, fun x hx => ?_, fun x hx _ => List.mem_cons_of_mem _ hx⟩
      exact (List.mem_cons.mp hx).imp_right fun h => ⟨h, hother x h⟩
    · next row hfind =>
      have hmem := List.mem_of_find?_eq_some hfind
      have hname : row.username = name := by simpa using List.find?_some hfind
      split
      · next hold =>
        simp only [Bool.and_eq_true, Bool.or_eq_true, decide_eq_true_eq, Option.any_eq_true] at hold
        refine .inr ⟨hnone, fun old hsome => ?_, _, rfl, List.mem_map.mpr ⟨row, hmem, if_pos hname⟩,
          fun x hx => ?_, fun x hx hne => List.mem_map.mpr ⟨x, hx, if_neg hne⟩⟩
        · rw [← Option.some.inj (hfind.symm.trans hsome)]
          exact hold
        · obtain ⟨y, hy, rfl⟩ := List.mem_map.mp hx
          split
          · exact .inl rfl
          · next hne => exact .inr ⟨hy, hne⟩
      · next hold =>
        simp only [Bool.and_eq_true, Bool.or_eq_true, decide_eq_true_eq, Option.any_eq_true] at hold
        exact .inl ⟨rfl, .inr ⟨row, hmem, hname, hold⟩⟩

end Relay

/-- What the relay and the client know of each other. -/
structure Invariant (kind : Kind) (hmac : String → String) (own : Bundle) (w : World) : Prop where
  rows : Rows w.relay.requests w.used
  canonical : ∀ id ∈ w.used, uuid id = id
  mine : ∀ id ∈ w.mine, id ∈ w.used
  pending : ∀ row ∈ w.relay.requests, row.status = .activated ∨ (row.status = .approved ∧
    row.expiresAt.isSome ∧ (row.requestId ∈ w.mine → row.attemptCount < 5))
  accounts : Accounts hmac (bare w.relay w.used)
  devices : (w.relay.devices.map Device.deviceId).Nodup
  done : ∀ row ∈ w.relay.requests, row.status = .activated →
    ∃ u ∈ w.relay.users, u.username = row.username ∧ (row.requestId ∈ w.mine →
      ∃ v ∈ w.relay.devices, v.userId = u.userId ∧ v.deviceId = own.payload.deviceId)
  device : ∀ v ∈ w.relay.devices, v.deviceId = own.payload.deviceId → v.revoked = false ∧
    v.identityKey = own.payload.identityKey ∧ v.authKey = own.payload.authKey
  claim : ∀ k, w.client.claim = some k → k.requestId ∈ w.mine ∧
    (∀ row ∈ w.relay.requests, row.requestId = k.requestId →
      row.codeHash = some (hmac k.token) ∧ usernameSchema k.username = some row.username) ∧
    (kind = .desktop → w.client.activation.isSome)
  account : ∀ id, w.client.userId = some id → ∃ u ∈ w.relay.users, u.userId = id ∧
    w.client.publicUid = some u.publicUid ∧
    (∃ v ∈ w.relay.devices, v.userId = id ∧ v.deviceId = own.payload.deviceId) ∧
    ∀ a, w.client.activation = some a → a.activated = true

section Steps

variable {hmac : String → String} {p : Payload} {d : Draw} {now : Nat} {r : Relay}
  {row : AccessRequest} {own : Bundle} {kind : Kind} {w : World}

theorem invariant_sessions (sessions : List Session) (hi : Invariant kind hmac own w) :
    Invariant kind hmac own { w with relay := { w.relay with sessions } } :=
  { hi with accounts := { hi.accounts with } }

/-- A wrong code for the request of another applicant. -/
theorem invariant_counted (hi : Invariant kind hmac own w) (hrow : row ∈ w.relay.requests)
    (hstatus : row.status = .approved) (hother : row.requestId ∉ w.mine) :
    Invariant kind hmac own { w with
      relay := replaceRow { row with attemptCount := row.attemptCount + 1 } w.relay } := by
  have hrows : Rows (bare w.relay w.used).relay.requests (bare w.relay w.used).used := hi.rows
  have hopen : row.status ≠ .activated := by
    rw [hstatus]
    exact Status.noConfusion
  let counted := { row with attemptCount := row.attemptCount + 1 }
  have hmem : ∀ x ∈ (replaceRow counted w.relay).requests,
      x = counted ∨ (x ∈ w.relay.requests ∧ x.requestId ≠ row.requestId) :=
    fun x hx => mem_replace (s := bare w.relay w.used) hx
  have hsome : row.expiresAt.isSome := by
    rcases hi.pending row hrow with hdone | ⟨-, hsome, -⟩
    · exact absurd hdone hopen
    · exact hsome
  refine { hi with
    rows := Rows.replace counted hrows hrow rfl rfl
    pending := fun x hx => ?_
    accounts := { hi.accounts.requests _ (activated_replace counted hrows hrow hopen rfl) with }
    done := fun x hx hdone => ?_
    claim := fun k hk => ?_ }
  · rcases hmem x hx with rfl | ⟨hx, -⟩
    · exact .inr ⟨hstatus, hsome, fun h => absurd h hother⟩
    · exact hi.pending x hx
  · rcases hmem x hx with rfl | ⟨hx, -⟩
    · exact absurd hdone hopen
    · exact hi.done x hx hdone
  · obtain ⟨hmine, hknown, hstate⟩ := hi.claim k hk
    refine ⟨hmine, fun x hx hid => ?_, hstate⟩
    rcases hmem x hx with rfl | ⟨hx, -⟩
    · exact hknown row hrow hid
    · exact hknown x hx hid

/-- An account is registered, for this client or for another one. -/
theorem invariant_created (hi : Invariant kind hmac own w) {s : Activation.State}
    (hc : Created hmac p d now w.relay row s) (huid : ∀ u ∈ w.relay.users, u.publicUid ≠ d.publicUid)
    (hwhose : if row.requestId ∈ w.mine then uuid p.deviceId = own.payload.deviceId ∧
        p.identityKey = own.payload.identityKey ∧ p.authKey = own.payload.authKey
      else uuid p.deviceId ≠ own.payload.deviceId) :
    Invariant kind hmac own { w with relay := created row p d now w.relay } := by
  have hrows : Rows (bare w.relay w.used).relay.requests (bare w.relay w.used).used := hi.rows
  obtain ⟨hrow, hid⟩ := hc.held
  have hopen : row.status ≠ .activated := by
    rw [hc.live.1]
    exact Status.noConfusion
  let activated := { row with status := Status.activated, attemptCount := row.attemptCount + 1 }
  have hkept := activated_replace activated hrows hrow hopen rfl
  have hmem : ∀ x ∈ (created row p d now w.relay).requests,
      x = activated ∨ (x ∈ w.relay.requests ∧ x.requestId ≠ row.requestId) :=
    fun x hx => mem_replace (s := bare w.relay w.used) hx
  have haccounts : Accounts hmac { bare (created row p d now w.relay) w.used with
      successes := [⟨p, d.sessionToken, now + day, d.userId, p.deviceId, row.username, d.publicUid⟩] } :=
    accounts_commit activated hi.accounts hkept (row_replace (s := bare w.relay w.used) hrow rfl) rfl
      hid (of_decide_eq_true hc.code) { hc.insertable with } huid ⟨rfl, rfl, rfl, rfl, rfl⟩
      ⟨rfl, rfl, rfl, rfl⟩
  refine
    { rows := Rows.replace activated hrows hrow rfl rfl
      canonical := hi.canonical
      mine := hi.mine
      pending := fun x hx => ?_
      accounts := { haccounts with successes := fun a ha => by cases ha }
      devices := List.nodup_cons.mpr ⟨fun hin => ?_, hi.devices⟩
      done := fun x hx hdone => ?_
      device := fun v hv heq => ?_
      claim := fun k hk => ?_
      account := fun id hid => ?_ }
  · rcases hmem x hx with rfl | ⟨hx, -⟩
    · exact .inl rfl
    · exact hi.pending x hx
  · obtain ⟨v, hv, heq⟩ := List.mem_map.mp hin
    exact hc.insertable.devices v hv heq
  · rcases hmem x hx with rfl | ⟨hx, -⟩
    · refine ⟨_, List.mem_cons_self, rfl, fun hmine => ⟨_, List.mem_cons_self, rfl, ?_⟩⟩
      rw [if_pos hmine] at hwhose
      exact hwhose.1
    · obtain ⟨u, hu, hname, hdevice⟩ := hi.done x hx hdone
      refine ⟨u, List.mem_cons_of_mem _ hu, hname, fun hmine => ?_⟩
      obtain ⟨v, hv, hown, hvd⟩ := hdevice hmine
      exact ⟨v, List.mem_cons_of_mem _ hv, hown, hvd⟩
  · rcases List.mem_cons.mp hv with rfl | hv
    · split at hwhose
      · exact ⟨rfl, hwhose.2⟩
      · exact absurd heq hwhose
    · exact hi.device v hv heq
  · obtain ⟨hmine, hknown, hstate⟩ := hi.claim k hk
    refine ⟨hmine, fun x hx hxid => ?_, hstate⟩
    rcases hmem x hx with rfl | ⟨hx, -⟩
    · exact hknown row hrow hxid
    · exact hknown x hx hxid
  · obtain ⟨u, hu, huserId, hpublic, ⟨v, hv, hown, hvd⟩, hstate⟩ := hi.account id hid
    exact ⟨u, List.mem_cons_of_mem _ hu, huserId, hpublic, ⟨v, List.mem_cons_of_mem _ hv, hown, hvd⟩,
      hstate⟩

/-- A row that is neither activated nor replaceable is a live claim. -/
theorem live_of_not_replaceable (hi : Invariant kind hmac own w) (hrow : row ∈ w.relay.requests)
    (hstatus : row.status ≠ .activated) (hnot : ¬Replaceable w.clock row) : Live w.clock row := by
  rcases hi.pending row hrow with hdone | ⟨happroved, -, -⟩
  · exact absurd hdone hstatus
  · exact ⟨happroved, fun e he => Nat.not_lt.mp fun hlt => hnot ⟨.inr happroved, e, he, hlt⟩⟩

theorem not_live_of_replaceable (h : Replaceable w.clock row) : ¬Live w.clock row := by
  obtain ⟨-, e, he, hlt⟩ := h
  exact fun hlive => Nat.not_lt.mpr (hlive.2 e he) hlt

/-- The row of a new request. -/
def newRow (hmac : String → String) (name : String) (d : Draw) (clock : Nat) : AccessRequest :=
  ⟨d.requestId, name, .approved, some (hmac d.code), 0, some (clock + 10 * 60 * 1000)⟩

/-- The new request comes in, whoever asked for it. -/
theorem invariant_applied {requests : List AccessRequest} {name : String} {extra : List String}
    (hi : Invariant kind hmac own w) (hf : Fresh w d)
    (hnone : ∀ u ∈ w.relay.users, u.username ≠ name)
    (hmem : ∀ x ∈ requests, x = newRow hmac name d w.clock ∨ (x ∈ w.relay.requests ∧ x.username ≠ name))
    (hkept : ∀ x ∈ w.relay.requests, x.username ≠ name → x ∈ requests)
    (hextra : ∀ id ∈ extra, id = d.requestId) :
    Invariant kind hmac own { w with
      relay := { w.relay with requests }
      used := d.requestId :: w.used
      mine := extra ++ w.mine } := by
  have hne : ∀ x ∈ w.relay.requests, x.requestId ≠ d.requestId :=
    fun x hx heq => hf.requestId.1 (heq ▸ hi.rows.used x hx)
  have hactivated : ∀ x ∈ w.relay.requests, x.status = .activated → x ∈ requests := by
    intro x hx hdone
    obtain ⟨u, hu, hname, -⟩ := hi.done x hx hdone
    exact hkept x hx fun heq => hnone u hu (hname.trans heq)
  have hmine : ∀ x ∈ w.relay.requests, x.requestId ∈ extra ++ w.mine → x.requestId ∈ w.mine := by
    intro x hx hin
    rcases List.mem_append.mp hin with hin | hin
    · exact absurd (hextra _ hin) (hne x hx)
    · exact hin
  refine
    { rows := ⟨fun x hx y hy heq => ?_, fun x hx y hy heq => ?_, fun x hx => ?_⟩
      canonical := fun id hid => ?_
      mine := fun id hid => ?_
      pending := fun x hx => ?_
      accounts := { hi.accounts.requests requests hactivated with }
      devices := hi.devices
      done := fun x hx hdone => ?_
      device := hi.device
      claim := fun k hk => ?_
      account := hi.account }
  · rcases hmem x hx with rfl | ⟨hx', -⟩ <;> rcases hmem y hy with rfl | ⟨hy', -⟩
    · rfl
    · exact absurd heq.symm (hne y hy')
    · exact absurd heq (hne x hx')
    · exact hi.rows.ids x hx' y hy' heq
  · rcases hmem x hx with rfl | ⟨hx', hxne⟩ <;> rcases hmem y hy with rfl | ⟨hy', hyne⟩
    · rfl
    · exact absurd heq.symm hyne
    · exact absurd heq hxne
    · exact hi.rows.names x hx' y hy' heq
  · rcases hmem x hx with rfl | ⟨hx, -⟩
    · exact List.mem_cons_self
    · exact List.mem_cons_of_mem _ (hi.rows.used x hx)
  · rcases List.mem_cons.mp hid with rfl | hid
    · exact hf.requestId.2
    · exact hi.canonical id hid
  · rcases List.mem_append.mp hid with hid | hid
    · rw [hextra id hid]
      exact List.mem_cons_self
    · exact List.mem_cons_of_mem _ (hi.mine id hid)
  · rcases hmem x hx with rfl | ⟨hx, -⟩
    · exact .inr ⟨rfl, rfl, fun _ => Nat.zero_lt_succ 4⟩
    · exact (hi.pending x hx).imp_right fun h => ⟨h.1, h.2.1, fun hin => h.2.2 (hmine x hx hin)⟩
  · rcases hmem x hx with rfl | ⟨hx, -⟩
    · cases hdone
    · obtain ⟨u, hu, hname, hdevice⟩ := hi.done x hx hdone
      exact ⟨u, hu, hname, fun hin => hdevice (hmine x hx hin)⟩
  · obtain ⟨hkm, hknown, hstate⟩ := hi.claim k hk
    refine ⟨List.mem_append_right _ hkm, fun x hx hid => ?_, hstate⟩
    rcases hmem x hx with rfl | ⟨hx, -⟩
    · exact absurd (hi.mine _ hkm) (hid ▸ hf.requestId.1)
    · exact hknown x hx hid

/-- Whether the application is granted, and what it changes. -/
theorem applyAccess_cases (hmac : String → String) (name : String) (hi : Invariant kind hmac own w) (hf : Fresh w d) :
    (applyAccess hmac name d w = w ∧ ((∃ u ∈ w.relay.users, u.username = name) ∨
        ∃ row ∈ w.relay.requests, row.username = name ∧ Live w.clock row)) ∨
      ((∀ row ∈ w.relay.requests, row.username = name → ¬Live w.clock row) ∧
        ∃ requests, applyAccess hmac name d w =
            { w with relay := { w.relay with requests }, used := d.requestId :: w.used } ∧
          newRow hmac name d w.clock ∈ requests ∧
          (∀ u ∈ w.relay.users, u.username ≠ name) ∧
          ∀ extra : List String, (∀ id ∈ extra, id = d.requestId) →
            Invariant kind hmac own { w with
              relay := { w.relay with requests }
              used := d.requestId :: w.used
              mine := extra ++ w.mine }) := by
  rcases apply_cases d.requestId name (hmac d.code) w.clock (w.clock + 10 * 60 * 1000)
      (bare w.relay w.used) with ⟨happlied, htaken⟩ | ⟨hnone, hold, requests, happlied, hnew, hmem, hkept⟩
  · refine .inl ⟨?_, ?_⟩
    · unfold applyAccess
      rw [happlied]
      rfl
    · rcases htaken with huser | ⟨row, hrow, hname, hnot⟩
      · exact .inl huser
      · by_cases hdone : row.status = .activated
        · obtain ⟨u, hu, huname, -⟩ := hi.done row hrow hdone
          exact .inl ⟨u, hu, huname.trans hname⟩
        · exact .inr ⟨row, hrow, hname, live_of_not_replaceable hi hrow hdone hnot⟩
  · refine .inr ⟨fun row hrow hname => ?_, requests, ?_, hnew, hnone, fun extra hextra =>
      invariant_applied hi hf hnone hmem hkept hextra⟩
    · refine not_live_of_replaceable (hold row (find_unique hrow (decide_eq_true hname) fun y hy hyn => ?_))
      exact hi.rows.names y hy row hrow ((of_decide_eq_true hyn).trans hname.symm)
    · unfold applyAccess
      rw [happlied]
      rfl

end Steps

section Calls

variable {hmac : String → String} {d : Draw} {own : Bundle} {kind : Kind} {w : World}
  {requestId code text name : String} {cut : Cut}

/-- The payload of `activateIdentity`. -/
abbrev request (own : Bundle) (requestId code : String) : Payload :=
  { own.payload with requestId, activationCode := code }

/-- The client holds this request and its code. -/
structure Holds (hmac : String → String) (w : World) (requestId code : String) : Prop where
  mine : requestId ∈ w.mine
  code : ∀ row ∈ w.relay.requests, row.requestId = requestId → row.codeHash = some (hmac code)

theorem Holds.matches (own : Bundle) (h : Holds hmac w requestId code) {row : AccessRequest}
    (hrow : row ∈ w.relay.requests) (hid : row.requestId = requestId) :
    matchesCode hmac row (request own requestId code) :=
  decide_eq_true (h.code row hrow hid)

theorem Holds.canonical (own : Bundle) (h : Holds hmac w requestId code) (hi : Invariant kind hmac own w) :
    uuid (request own requestId code).requestId = requestId :=
  hi.canonical requestId (hi.mine requestId h.mine)

/-- The client takes over an account that has its device. -/
theorem invariant_registered {a : Success} {c : Client} {u : User} {v : Device}
    (hi : Invariant kind hmac own w) (hu : u ∈ w.relay.users) (hv : v ∈ w.relay.devices)
    (hown : v.userId = u.userId) (hdevice : v.deviceId = own.payload.deviceId)
    (ha : a.userId = u.userId ∧ a.publicUid = u.publicUid) :
    Invariant kind hmac own { w with client := completeRegistration kind a c } := by
  refine { hi with claim := fun k hk => (by cases hk), account := fun id hid => ?_ }
  obtain rfl : a.userId = id := Option.some.inj hid
  refine ⟨u, hu, ha.1.symm, congrArg some ha.2, ⟨v, hv, hown.trans ha.1.symm, hdevice⟩, fun x hx => ?_⟩
  obtain ⟨y, -, rfl⟩ := Option.map_eq_some_iff.mp hx
  cases kind <;> rfl

/-- The relay after the activation of a held request. -/
theorem invariant_activate (hi : Invariant kind hmac own w) (hd : Unused w d)
    (hh : Holds hmac w requestId code) :
    Invariant kind hmac own { w with
      relay := (activate hmac (request own requestId code) d w.clock w.relay).relay } := by
  have hid := hh.canonical own hi
  rcases activate_cases hmac (request own requestId code) d w.clock w.relay with
    ⟨-, hsame | ⟨row, hrow, hrid, -, hwrong, -⟩⟩ | ⟨row, u, v, hagain⟩ | ⟨row, hcreated⟩
  · rw [hsame]
    exact hi
  · exact absurd (hh.matches own hrow (hrid.trans hid)) hwrong
  · rw [hagain.relay]
    exact invariant_sessions _ hi
  · rw [hcreated.relay]
    refine invariant_created hi hcreated hd.publicUid ?_
    rw [if_pos (by rw [hcreated.held.2, hid]; exact hh.mine)]
    exact ⟨own.canonical, rfl, rfl⟩

theorem invariant_identity (hi : Invariant kind hmac own w) (hd : Unused w d)
    (hh : Holds hmac w requestId code) :
    Invariant kind hmac own (activateIdentity kind hmac own requestId code cut d w) := by
  have hserved := invariant_activate hi hd hh
  unfold activateIdentity
  split
  · exact hi
  · dsimp only
    split
    · exact hserved
    · next a rest hanswer =>
      split
      · exact hserved
      · split
        · exact hserved
        · rcases activate_cases hmac (request own requestId code) d w.clock w.relay with
            ⟨hnone, -⟩ | ⟨row, u, v, hagain⟩ | ⟨row, hcreated⟩
          · rw [hnone] at hanswer
            cases hanswer
          · rw [hagain.answer] at hanswer
            obtain ⟨rfl, -⟩ := List.cons.inj hanswer
            obtain ⟨hu, -, hv, hown, hdevice⟩ := hagain.account
            refine invariant_registered hserved (u := u) (v := v) ?_ ?_ hown
              (hdevice.trans own.canonical) ⟨rfl, rfl⟩
            · dsimp only
              rw [hagain.relay]
              exact hu
            · dsimp only
              rw [hagain.relay]
              exact hv
          · rw [hcreated.answer] at hanswer
            obtain ⟨rfl, -⟩ := List.cons.inj hanswer
            refine invariant_registered hserved (u := ⟨d.userId, row.username, d.publicUid, row.requestId⟩)
              (v := ⟨uuid own.payload.deviceId, d.userId, own.payload.identityKey, own.payload.authKey,
                own.payload.registrationId, own.payload.signalDeviceId, false, row.requestId⟩)
              ?_ ?_ rfl own.canonical ⟨rfl, rfl⟩
            · dsimp only
              rw [hcreated.relay]
              exact List.mem_cons_self
            · dsimp only
              rw [hcreated.relay]
              exact List.mem_cons_self

theorem identity_answered {a : Success}
    (ha : (activate hmac (request own requestId code) d w.clock w.relay).successes = [a])
    (hdevice : a.deviceId = own.payload.deviceId) :
    activateIdentity kind hmac own requestId code .through d w =
      { w with
        relay := (activate hmac (request own requestId code) d w.clock w.relay).relay
        client := completeRegistration kind a w.client } := by
  unfold activateIdentity
  rw [if_neg (by decide)]
  dsimp only
  rw [ha]
  dsimp only
  rw [if_neg (by decide), if_neg (not_not.mpr hdevice)]

/-- What the rows of the client say after an answer. -/
theorem activated_registered {a : Success} {r : Relay} {u : User} {v : Device} {accept : User → Prop}
    (hstate : kind = .desktop → w.client.activation.isSome) (hids : (r.users.map User.userId).Nodup)
    (hu : u ∈ r.users) (hv : v ∈ r.devices) (hown : v.userId = u.userId)
    (hdevice : v.deviceId = own.payload.deviceId)
    (ha : a.userId = u.userId ∧ a.publicUid = u.publicUid ∧ a.username = u.username)
    (haccept : accept u) :
    Activated own { w with relay := r, client := completeRegistration kind a w.client } accept ↔
      (kind = .android → ∃ x, w.client.activation = some x ∧ x.username = u.username) := by
  obtain ⟨huserId, hpublic, hname⟩ := ha
  constructor
  · rintro ⟨u', hu', -, -, hid, -, x, hx, -, hxname⟩ rfl
    have hsame : u' = u := List.inj_on_of_nodup_map hids hu' hu
      ((Option.some.inj hid).symm.trans huserId)
    obtain ⟨y, hy, rfl⟩ := Option.map_eq_some_iff.mp hx
    exact ⟨y, hy, hxname.trans (congrArg User.username hsame)⟩
  · intro hkept
    refine ⟨u, hu, haccept, ⟨v, hv, hown, hdevice⟩, congrArg some huserId, congrArg some hpublic, ?_⟩
    cases kind with
    | desktop =>
      obtain ⟨y, hy⟩ := Option.isSome_iff_exists.mp (hstate rfl)
      exact ⟨_, Option.map_eq_some_iff.mpr ⟨y, hy, rfl⟩, rfl, hname⟩
    | android =>
      obtain ⟨y, hy, hyname⟩ := hkept rfl
      exact ⟨_, Option.map_eq_some_iff.mpr ⟨y, hy, rfl⟩, rfl, hyname⟩

/-- The activation gets through with an account exactly when its row is still good; on Android the
name in `activation_state` stays as it is. -/
theorem identity_activated_iff {accept : User → Prop} (hi : Invariant kind hmac own w)
    (hd : Unused w d) (hh : Holds hmac w requestId code) (hnew : w.client.userId = none)
    (hstate : kind = .desktop → w.client.activation.isSome)
    (haccept : ∀ row ∈ w.relay.requests, row.requestId = requestId →
      ∀ u : User, u.username = row.username → accept u) :
    Activated own (activateIdentity kind hmac own requestId code .through d w) accept ↔
      ∃ row ∈ w.relay.requests, row.requestId = requestId ∧
        (row.status = .activated ∨ (Live w.clock row ∧ ¬Registered own w.relay)) ∧
        (kind = .android → ∃ a, w.client.activation = some a ∧ a.username = row.username) := by
  have hid := hh.canonical own hi
  have hserved := invariant_activate hi hd hh
  have again : ∀ row u v, Again hmac (request own requestId code) d w.clock w.relay row u v
      (activate hmac (request own requestId code) d w.clock w.relay) →
      (Activated own (activateIdentity kind hmac own requestId code .through d w) accept ↔
        (kind = .android → ∃ x, w.client.activation = some x ∧ x.username = row.username)) := by
    intro row u v h
    obtain ⟨hu, hname, hv, hown, hdevice⟩ := h.account
    rw [identity_answered h.answer (hdevice.trans own.canonical), ← hname]
    refine activated_registered hstate hserved.accounts.userIds ?_ ?_ hown (hdevice.trans own.canonical)
      ⟨rfl, rfl, rfl⟩ (haccept row h.held.1 (h.held.2.1.trans hid) u hname)
    · rw [h.relay]
      exact hu
    · rw [h.relay]
      exact hv
  have created : ∀ row, Created hmac (request own requestId code) d w.clock w.relay row
      (activate hmac (request own requestId code) d w.clock w.relay) →
      (Activated own (activateIdentity kind hmac own requestId code .through d w) accept ↔
        (kind = .android → ∃ x, w.client.activation = some x ∧ x.username = row.username)) := by
    intro row h
    rw [identity_answered h.answer rfl]
    refine activated_registered (u := ⟨d.userId, row.username, d.publicUid, row.requestId⟩)
      (v := ⟨uuid own.payload.deviceId, d.userId, own.payload.identityKey, own.payload.authKey,
        own.payload.registrationId, own.payload.signalDeviceId, false, row.requestId⟩)
      hstate hserved.accounts.userIds ?_ ?_ rfl own.canonical ⟨rfl, rfl, rfl⟩
      (haccept row h.held.1 (h.held.2.trans hid) _ rfl)
    · rw [h.relay]
      exact List.mem_cons_self
    · rw [h.relay]
      exact List.mem_cons_self
  constructor
  · intro hactivated
    rcases activate_cases hmac (request own requestId code) d w.clock w.relay with
      ⟨hnone, -⟩ | ⟨row, u, v, h⟩ | ⟨row, h⟩
    · obtain ⟨u, -, -, -, huser, -⟩ := hactivated
      unfold activateIdentity at huser
      rw [if_neg (by decide)] at huser
      dsimp only at huser
      rw [hnone] at huser
      rw [hnew] at huser
      cases huser
    · exact ⟨row, h.held.1, h.held.2.1.trans hid, .inl h.held.2.2, (again row u v h).mp hactivated⟩
    · refine ⟨row, h.held.1, h.held.2.trans hid, .inr ⟨h.live, ?_⟩, (created row h).mp hactivated⟩
      rintro ⟨v, hv, hvd⟩
      exact h.insertable.devices v hv (hvd.trans own.canonical.symm)
  · rintro ⟨row, hrow, hrid, hgood, hkept⟩
    have hpid := hrid.trans hid.symm
    have hmatch := hh.matches own hrow hrid
    have hmine : row.requestId ∈ w.mine := by
      rw [hrid]
      exact hh.mine
    rcases hgood with hdone | ⟨hlive, hnot⟩
    · obtain ⟨u, hu, hname, hdevice⟩ := hi.done row hrow hdone
      obtain ⟨v, hv, hown, hvd⟩ := hdevice hmine
      obtain ⟨hrevoked, hkeys⟩ := hi.device v hv hvd
      exact (again row u v (activate_again hi.rows hi.accounts.usernames hi.devices hrow hpid hdone
        hmatch hu hname hv hown (hvd.trans own.canonical.symm) hrevoked hkeys)).mpr hkept
    · have hopen : row.status ≠ .activated := by
        rw [hlive.1]
        exact Status.noConfusion
      rcases hi.pending row hrow with hdone | ⟨-, hsome, hlt⟩
      · exact absurd hdone hopen
      · refine (created row (activate_created hi.rows hrow hpid hlive hsome (hlt hmine) hmatch
          ⟨fun u hu => ⟨hd.userId u hu, fun hname => ?_⟩, fun v hv hvd => ?_, own.prekeys,
            own.integers⟩)).mpr hkept
        · obtain ⟨x, hx, hdone, -, hxname⟩ := hi.accounts.users u hu
          rw [hi.rows.names x hx row hrow (hxname.trans hname)] at hdone
          exact hopen hdone
        · exact hnot ⟨v, hv, hvd.trans own.canonical⟩

end Calls

section Names

theorem nameChar_plain {c : Char} (h : isNameChar c = true) : isSpace c = false ∧ lower c = c := by
  have all : ∀ n < 128, isNameChar (Char.ofNat n) = true →
      isSpace (Char.ofNat n) = false ∧ lower (Char.ofNat n) = Char.ofNat n := by decide +kernel
  have hlt : c.toNat < 128 := by
    simp only [isNameChar, Bool.or_eq_true, Bool.and_eq_true, decide_eq_true_eq] at h
    rcases h with (⟨-, hle⟩ | ⟨-, hle⟩) | rfl
    · exact Nat.lt_of_le_of_lt hle (by decide)
    · exact Nat.lt_of_le_of_lt hle (by decide)
    · decide
  have := all c.toNat hlt
  rw [Char.ofNat_toNat] at this
  exact this h

theorem dropWhile_plain {l : List Char} (h : ∀ c ∈ l, isSpace c = false) : l.dropWhile isSpace = l := by
  cases l with
  | nil => rfl
  | cons c l => rw [List.dropWhile_cons_of_neg (by rw [h c List.mem_cons_self]; exact Bool.false_ne_true)]

/-- A valid name is its own spelling. -/
theorem usernameSchema_stable {text name : String} (h : usernameSchema text = some name) :
    usernameSchema name = some name := by
  unfold usernameSchema at h
  dsimp only at h
  split at h
  · next hvalid =>
    obtain rfl := Option.some.inj h
    obtain ⟨hmin, hmax, hall⟩ := hvalid
    generalize ((text.toList.dropWhile isSpace).reverse.dropWhile isSpace).reverse.map lower = l at *
    have hchar := List.all_eq_true.mp hall
    have hplain : ∀ c ∈ l, isSpace c = false := fun c hc => (nameChar_plain (hchar c hc)).1
    have hsame : l.map lower = l :=
      (List.map_congr_left fun c hc => (nameChar_plain (hchar c hc)).2).trans l.map_id
    unfold usernameSchema
    rw [String.toList_ofList, dropWhile_plain hplain,
      dropWhile_plain fun c hc => hplain c (List.mem_reverse.mp hc), List.reverse_reverse]
    dsimp only
    rw [hsame, if_pos ⟨hmin, hmax, hall⟩]
  · cases h

end Names

section Runs

variable {hmac : String → String} {d : Draw} {own : Bundle} {kind : Kind} {w : World}
  {text name : String} {cut : Cut}

/-- Only rows of an unregistered client change. -/
theorem invariant_client {c : Client} (hi : Invariant kind hmac own w) (hnew : c.userId = none)
    (hclaim : ∀ k, c.claim = some k → k.requestId ∈ w.mine ∧
      (∀ row ∈ w.relay.requests, row.requestId = k.requestId →
        row.codeHash = some (hmac k.token) ∧ usernameSchema k.username = some row.username) ∧
      (kind = .desktop → c.activation.isSome)) :
    Invariant kind hmac own { w with client := c } :=
  { hi with
    claim := hclaim
    account := fun id hid => absurd (hnew.symm.trans hid) (Option.some_ne_none id).symm }

/-- An application that was granted, with the request in the client's name. -/
structure Granted (kind : Kind) (hmac : String → String) (own : Bundle) (name : String) (d : Draw)
    (w w' : World) : Prop where
  kept : w'.client = w.client ∧ w'.clock = w.clock
  mine : d.requestId ∈ w'.mine
  row : newRow hmac name d w.clock ∈ w'.relay.requests
  invariant : Invariant kind hmac own w'

theorem Granted.holds {w' : World} (h : Granted kind hmac own name d w w') :
    Holds hmac w' d.requestId d.code := by
  refine ⟨h.mine, fun row hrow hid => ?_⟩
  rw [h.invariant.rows.ids row hrow _ h.row hid]
  rfl

/-- The claim that is saved is the new one. -/
theorem Granted.saved {w' : World} (h : Granted kind hmac own name d w w')
    (hname : usernameSchema text = some name) {k : Claim}
    (hk : k.requestId = d.requestId ∧ k.token = d.code ∧ (k.username = text ∨ k.username = name)) :
    k.requestId ∈ w'.mine ∧ ∀ row ∈ w'.relay.requests, row.requestId = k.requestId →
      row.codeHash = some (hmac k.token) ∧ usernameSchema k.username = some row.username := by
  obtain ⟨hid, htoken, husername⟩ := hk
  rw [hid, htoken]
  refine ⟨h.mine, fun row hrow hrid => ?_⟩
  obtain rfl := h.invariant.rows.ids row hrow _ h.row hrid
  refine ⟨rfl, ?_⟩
  rcases husername with heq | heq
  · rw [heq]
    exact hname
  · rw [heq]
    exact usernameSchema_stable hname

/-- Both writes, or the first alone, keep what is known. -/
theorem Granted.write {w' : World} (h : Granted kind hmac own name d w w')
    (hname : usernameSchema text = some name) (hnew : w.client.userId = none) :
    Invariant kind hmac own { w' with
        client := ((saves kind text name d).take 1).foldl (fun c f => f c) w.client } ∧
      Invariant kind hmac own { w' with
        client := (saves kind text name d).foldl (fun c f => f c) w.client } := by
  have hold : ∀ k, w.client.claim = some k → k.requestId ∈ w'.mine ∧
      ∀ row ∈ w'.relay.requests, row.requestId = k.requestId →
        row.codeHash = some (hmac k.token) ∧ usernameSchema k.username = some row.username := by
    intro k hk
    rw [← h.kept.1] at hk
    obtain ⟨hmine, hknown, -⟩ := h.invariant.claim k hk
    exact ⟨hmine, hknown⟩
  cases kind with
  | desktop =>
    refine ⟨invariant_client h.invariant hnew fun k hk => ?_, invariant_client h.invariant hnew fun k hk => ?_⟩
    · exact ⟨(hold k hk).1, (hold k hk).2, fun _ => rfl⟩
    · obtain rfl := Option.some.inj hk
      have hsaved := h.saved hname (k := ⟨d.requestId, name, d.code⟩) ⟨rfl, rfl, .inr rfl⟩
      exact ⟨hsaved.1, hsaved.2, fun _ => rfl⟩
  | android =>
    refine ⟨invariant_client h.invariant hnew fun k hk => ?_, invariant_client h.invariant hnew fun k hk => ?_⟩
    all_goals
      obtain rfl := Option.some.inj hk
      have hsaved := h.saved hname (k := ⟨d.requestId, text, d.code⟩) ⟨rfl, rfl, .inl rfl⟩
      exact ⟨hsaved.1, hsaved.2, fun h => by cases h⟩

/-- A call without a saved claim: the name is refused, or the request is the client's. -/
theorem selfActivate_applies (hi : Invariant kind hmac own w) (hd : Fresh w d)
    (hnew : w.client.userId = none) (hclaim : w.client.claim.filter (·.username = text) = none)
    (hname : usernameSchema text = some name) :
    ((∀ cut, selfActivate kind hmac own text cut d w = w) ∧
        ((∃ u ∈ w.relay.users, u.username = name) ∨
          ∃ row ∈ w.relay.requests, row.username = name ∧ Live w.clock row)) ∨
      ((∀ row ∈ w.relay.requests, row.username = name → ¬Live w.clock row) ∧
        ∃ w', Granted kind hmac own name d w w' ∧ w'.relay.devices = w.relay.devices ∧
          w'.relay.users = w.relay.users ∧
          ∀ cut, cut ≠ .applyRequest → selfActivate kind hmac own text cut d w =
            match cut with
            | .applyAnswer => w'
            | .betweenWrites =>
              { w' with client := ((saves kind text name d).take 1).foldl (fun c f => f c) w.client }
            | _ => activateIdentity kind hmac own d.requestId d.code cut d
              { w' with client := (saves kind text name d).foldl (fun c f => f c) w.client }) := by
  have hopen : ¬w.client.userId.isSome := by simp [hnew]
  rcases applyAccess_cases hmac name hi hd with
    ⟨happlied, htaken⟩ | ⟨hfree, requests, happlied, hrow, -, hinv⟩
  · refine .inl ⟨fun cut => ?_, htaken⟩
    unfold selfActivate
    rw [if_neg hopen, hclaim]
    dsimp only
    rw [hname]
    split
    · rfl
    · dsimp only
      rw [happlied, if_pos hd.requestId.1]
  · refine .inr ⟨hfree, { applyAccess hmac name d w with mine := d.requestId :: w.mine },
      ⟨⟨by rw [happlied], by rw [happlied]⟩, List.mem_cons_self, by rw [happlied]; exact hrow, ?_⟩,
      by rw [happlied], by rw [happlied], fun cut hcut => ?_⟩
    · rw [happlied]
      exact hinv [d.requestId] fun id hid => List.mem_singleton.mp hid
    · unfold selfActivate
      rw [if_neg hopen, hclaim]
      dsimp only
      rw [hname, if_neg hcut]
      dsimp only
      have hin : ¬d.requestId ∉ (applyAccess hmac name d w).used := by
        rw [happlied]
        exact not_not.mpr List.mem_cons_self
      rw [if_neg hin]

theorem invariant_call (hi : Invariant kind hmac own w) (hd : Fresh w d) :
    Invariant kind hmac own (selfActivate kind hmac own text cut d w) := by
  by_cases hsome : w.client.userId.isSome
  · unfold selfActivate
    rw [if_pos hsome]
    exact hi
  · have hnew : w.client.userId = none := by simpa using hsome
    cases hclaim : w.client.claim.filter (·.username = text) with
    | some k =>
      obtain ⟨hk, -⟩ := Option.filter_eq_some_iff.mp hclaim
      obtain ⟨hmine, hknown, -⟩ := hi.claim k hk
      unfold selfActivate
      rw [if_neg hsome, hclaim]
      exact invariant_identity hi hd.toUnused ⟨hmine, fun row hrow hid => (hknown row hrow hid).1⟩
    | none =>
      cases hname : usernameSchema text with
      | none =>
        unfold selfActivate
        rw [if_neg hsome, hclaim]
        dsimp only
        rw [hname]
        split <;> exact hi
      | some name =>
        by_cases hlost : cut = .applyRequest
        · unfold selfActivate
          rw [if_neg hsome, hclaim, hlost]
          exact hi
        · rcases selfActivate_applies hi hd hnew hclaim hname with ⟨hsame, -⟩ | ⟨-, w', hg, hdev, huser, hcall⟩
          · rw [hsame]
            exact hi
          · obtain ⟨hfirst, hboth⟩ := hg.write hname hnew
            have hdraw : Unused { w' with
                client := (saves kind text name d).foldl (fun c f => f c) w.client } d :=
              ⟨huser ▸ hd.userId, huser ▸ hd.publicUid⟩
            rw [hcall cut hlost]
            cases cut with
            | applyRequest => exact absurd rfl hlost
            | applyAnswer => exact hg.invariant
            | betweenWrites => exact hfirst
            | activateRequest => exact invariant_identity hboth hdraw ⟨hg.holds.mine, hg.holds.code⟩
            | activateAnswer => exact invariant_identity hboth hdraw ⟨hg.holds.mine, hg.holds.code⟩
            | through => exact invariant_identity hboth hdraw ⟨hg.holds.mine, hg.holds.code⟩

end Runs

theorem next_invariant {kind : Kind} {hmac : String → String} {own : Bundle} {w : World} {e : Event}
    (hi : Invariant kind hmac own w) (he : Enabled own w e) :
    Invariant kind hmac own (next kind hmac own w e) := by
  cases e with
  | call text cut d => exact invariant_call hi he
  | tick clock => exact { hi with }
  | otherApply name d =>
    rcases applyAccess_cases hmac name hi he.1 with
      ⟨hsame, -⟩ | ⟨-, requests, happlied, -, -, hinv⟩
    · dsimp only [next]
      rw [hsame]
      exact hi
    · dsimp only [next]
      rw [happlied]
      exact hinv [] fun id hid => by cases hid
  | otherActivate p d =>
    obtain ⟨hd, hother, hdevice⟩ := he
    dsimp only [next]
    rcases activate_cases hmac p d w.clock w.relay with
      ⟨-, hsame | ⟨row, hrow, hrid, hstatus, -, hcounted⟩⟩ | ⟨row, u, v, hagain⟩ | ⟨row, hcreated⟩
    · rw [hsame]
      exact hi
    · rw [hcounted]
      exact invariant_counted hi hrow hstatus (hrid ▸ hother)
    · rw [hagain.relay]
      exact invariant_sessions _ hi
    · rw [hcreated.relay]
      refine invariant_created hi hcreated hd.publicUid ?_
      rw [if_neg (hcreated.held.2 ▸ hother)]
      exact hdevice

theorem initial_invariant {kind : Kind} {hmac : String → String} {own : Bundle} {w : World}
    (h : Initial w) : Invariant kind hmac own w := by
  obtain ⟨hrelay, hclient, hmine, hused⟩ := h
  refine ⟨⟨?_, ?_, ?_⟩, ?_, ?_, ?_, ⟨?_, ?_, ?_, ?_, ?_, ?_, ?_, ?_⟩, ?_, ?_, ?_, ?_, ?_⟩ <;>
    simp [hrelay, hclient, hmine, hused, bare]

/-- In every history: a call that gets through, for a name that is free to this client, ends with
the account activated exactly when the client's own claims do not obstruct it. -/
theorem selfActivate_ends_iff (kind : Kind) (hmac : String → String) (own : Bundle) {w : World}
    (h : Reachable (system kind hmac own) w) {text : String} (hfree : Free own w text) {d : Draw}
    (hd : Fresh w d) : Ends kind hmac own text d w ↔ Unobstructed kind own text w := by
  have hi : Invariant kind hmac own w :=
    reachable_invariant (fun _ => initial_invariant) (fun _ _ => next_invariant) h
  obtain ⟨name, hname, howned, hlive⟩ := hfree
  unfold Ends Unobstructed
  cases huser : w.client.userId with
  | some id =>
    have hsame : selfActivate kind hmac own text .through d w = w := if_pos (by rw [huser]; rfl)
    rw [hsame]
    dsimp only
    constructor
    · rintro ⟨u, hu, -, -, hid, -, a, ha, -, haname⟩
      exact ⟨u, hu, Option.some.inj (hid.symm.trans huser), a, ha, haname⟩
    · rintro ⟨u, hu, hid, a, ha, haname⟩
      obtain ⟨u', hu', hid', hpublic, ⟨v, hv, hown, hvd⟩, hstate⟩ := hi.account id huser
      obtain rfl := List.inj_on_of_nodup_map hi.accounts.userIds hu hu' (hid.trans hid'.symm)
      refine ⟨u, hu, fun hnone => (by cases hnone), ⟨v, hv, hown.trans hid.symm, hvd⟩, ?_, hpublic, a,
        ha, hstate a ha, haname⟩
      rw [huser, hid]
  | none =>
    cases hclaim : w.client.claim.filter (·.username = text) with
    | some k =>
      obtain ⟨hk, hktext⟩ := Option.filter_eq_some_iff.mp hclaim
      obtain ⟨hmine, hknown, hstate⟩ := hi.claim k hk
      have hcall : selfActivate kind hmac own text .through d w =
          activateIdentity kind hmac own k.requestId k.token .through d w := by
        unfold selfActivate
        rw [if_neg (by simp [huser]), hclaim]
      rw [hcall]
      refine identity_activated_iff hi hd.toUnused ⟨hmine, fun row hrow hid => (hknown row hrow hid).1⟩
        huser hstate fun row hrow hid u hu _ => ?_
      rw [hu, ← of_decide_eq_true hktext]
      exact (hknown row hrow hid).2
    | none =>
      dsimp only
      rcases selfActivate_applies hi hd huser hclaim hname with
        ⟨hsame, htaken⟩ | ⟨hnotlive, w', hg, hdev, husers, hcall⟩
      · rw [hsame]
        constructor
        · rintro ⟨u, -, -, -, hid, -⟩
          rw [huser] at hid
          cases hid
        · rintro ⟨hnot, hclear, -⟩
          rcases htaken with ⟨u, hu, huname⟩ | ⟨row, hrow, hrname, hrlive⟩
          · obtain ⟨v, hv, -, hvd⟩ := howned u hu huname
            exact absurd ⟨v, hv, hvd⟩ hnot
          · exact absurd (hlive row hrow hrname hrlive)
              (hclear row hrow (hname.trans (congrArg some hrname.symm)) hrlive)
      · rw [hcall .through (by decide)]
        dsimp only
        obtain ⟨-, hboth⟩ := hg.write hname huser
        have hnewRow : ∀ row ∈ w'.relay.requests, row.requestId = d.requestId →
            row = newRow hmac name d w.clock :=
          fun row hrow hid => hg.invariant.rows.ids row hrow _ hg.row hid
        have hregistered : Registered own w'.relay ↔ Registered own w.relay := by
          unfold Registered
          rw [hdev]
        rw [identity_activated_iff hboth ⟨husers ▸ hd.userId, husers ▸ hd.publicUid⟩
          ⟨hg.holds.mine, hg.holds.code⟩]
        · constructor
          · rintro ⟨row, hrow, hid, hgood, hkept⟩
            obtain rfl := hnewRow row hrow hid
            refine ⟨?_, fun x hx hxname hxlive => ?_, fun hkind => ?_⟩
            · rcases hgood with hdone | ⟨-, hnot⟩
              · cases hdone
              · exact fun hreg => hnot (hregistered.mpr hreg)
            · exact absurd hxlive (hnotlive x hx (Option.some.inj (hxname.symm.trans hname)))
            · subst hkind
              obtain ⟨a, ha, haname⟩ := hkept rfl
              obtain rfl := Option.some.inj ha
              rw [hname]
              exact congrArg some haname.symm
          · rintro ⟨hnot, -, hsame⟩
            refine ⟨_, hg.row, rfl, .inr ⟨⟨rfl, fun e he => ?_⟩, fun hreg => hnot (hregistered.mp hreg)⟩,
              fun hkind => ?_⟩
            · rw [← Option.some.inj he]
              exact (Nat.le_of_eq hg.kept.2).trans (Nat.le_add_right _ _)
            · subst hkind
              exact ⟨_, rfl, Option.some.inj ((hsame rfl).symm.trans hname)⟩
        · cases kind <;> exact huser
        · rintro rfl
          rfl
        · intro row hrow hid u hu _
          rw [hu, hnewRow row hrow hid]
          exact hname

section Expiry

def bundle : Bundle where
  payload := payload "" ""
  canonical := by decide +kernel
  prekeys := by decide +kernel
  integers := by decide +kernel

def start : World := ⟨⟨[], [], [], [], []⟩, ⟨none, none, none, none, none⟩, 0, [], []⟩

def draw : Draw := ⟨aliceId, aliceCode, "alice-user", "CP-0000-0001", "token"⟩

def later : Draw := ⟨bobId, bobCode, "later-user", "CP-0000-0002", "later-token"⟩

theorem start_reachable (kind : Kind) : Reachable (system kind id bundle) start :=
  reachable_initial ⟨rfl, rfl, rfl, rfl⟩

theorem draw_fresh : Fresh start draw :=
  ⟨⟨fun _ hu => (by cases hu), fun _ hu => (by cases hu)⟩, by decide, by decide +kernel⟩

theorem registration_ends : Ends .desktop id bundle "alice" draw start := by
  have hname : usernameSchema "alice" = some "alice" := by decide +kernel
  refine (selfActivate_ends_iff .desktop id bundle (start_reachable .desktop)
    ⟨_, hname, fun _ hu => (by cases hu), fun _ hrow => (by cases hrow)⟩ draw_fresh).mpr ?_
  exact ⟨fun ⟨_, hd, _⟩ => (by cases hd), fun _ hrow => (by cases hrow), fun _ => hname⟩

/-- The activation is lost after the claim was saved, and the next call comes after eleven
minutes. -/
def expired (kind : Kind) : World :=
  next kind id bundle (next kind id bundle start (.call "alice" .activateRequest draw)) (.tick 660000)

/-- A history after which the name is free and a call that gets through does not register it. -/
def Wedged (kind : Kind) : Prop :=
  Reachable (system kind id bundle) (expired kind) ∧ Free bundle (expired kind) "alice" ∧
    Fresh (expired kind) later ∧ ¬Ends kind id bundle "alice" later (expired kind)

theorem expired_reachable (kind : Kind) : Reachable (system kind id bundle) (expired kind) := by
  have hcalled : Reachable (system kind id bundle)
      (next kind id bundle start (.call "alice" .activateRequest draw)) :=
    reachable_step (e := Event.call "alice" .activateRequest draw) (start_reachable kind) draw_fresh
  refine reachable_step (M := system kind id bundle) (e := Event.tick 660000) hcalled ?_
  cases kind <;> exact Nat.zero_le _

theorem expired_claim_replayed : Wedged .desktop ∧ Wedged .android := by
  have hname : usernameSchema "alice" = some "alice" := by decide +kernel
  have wedged : ∀ kind, (expired kind).relay.users = [] →
      (∀ row ∈ (expired kind).relay.requests, row.requestId ∈ (expired kind).mine) →
      later.requestId ∉ (expired kind).used →
      (selfActivate kind id bundle "alice" .through later (expired kind)).client.userId = none →
      Wedged kind := by
    intro kind husers hmine hunused hlost
    refine ⟨expired_reachable kind, ⟨_, hname, fun u hu => ?_, fun row hrow _ _ => hmine row hrow⟩,
      ⟨⟨fun u hu => ?_, fun u hu => ?_⟩, hunused, by decide +kernel⟩, ?_⟩
    · rw [husers] at hu
      cases hu
    · rw [husers] at hu
      cases hu
    · rw [husers] at hu
      cases hu
    · rintro ⟨u, -, -, -, hid, -⟩
      rw [hlost] at hid
      cases hid
  constructor
  · refine wedged .desktop ?_ ?_ ?_ ?_ <;> decide +kernel
  · refine wedged .android ?_ ?_ ?_ ?_ <;> decide +kernel

end Expiry

end SelfActivation
