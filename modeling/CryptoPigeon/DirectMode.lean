import CryptoPigeon.TorRouting
import CryptoPigeon.TransitionSystem

/-! # Whether the relay is asked in direct mode

`TorRouting.route` decides by the mode in memory, which `ensureTor` reads from the vault. Calls and
timer passes take turns; the loop of the socket, the logins and the jobs of the adapter go on
beside them. A run lasts while one vault is open, and begins when its mode has been read.
`contacted` is history: the requests that `RelayClient` has started for others. A new client
counts its generations on from those of the last; an application for access and an activation are
the user's own and go to the relay in every mode. -/
namespace DirectMode

open TransitionSystem
open TorRouting (Mode InboxRow acknowledge)

/-- The fields of a JSON body; `none` where one is missing or of another type. The last two
are the lengths of the decoded `nonce` and `ciphertext`. -/
structure Body where
  envelopeId : Option String
  envelopeIds : Option (List String)
  mailboxId : Option String
  blobId : Option String
  chunkCount : Option Int
  totalSize : Option Int
  chunkIndex : Option Int
  nonce : Option Nat
  ciphertext : Option Nat
  deriving DecidableEq, Repr

inductive BodyText where
  | absent
  | malformed
  | fields (body : Body)
  deriving DecidableEq, Repr

/-- What the tables of the open vault answer: `sender` is the device whose download of a
blob is still to come. -/
structure View where
  inbox : List InboxRow
  peer : String → Bool
  blob : String → Option Nat
  stored : String → Int → Bool
  cached : String → Nat → Bool
  sender : String → Option String

inductive Answer where
  | response (ok : Bool)
  | thrown
  | passed
  deriving DecidableEq, Repr

/-- A key that is added to `jobs`. -/
structure Started where
  key : Option String
  download : Bool
  deriving DecidableEq, Repr

def isBlobChar (c : Char) : Bool := c.isDigit || ('a' ≤ c && c ≤ 'f') || c == '-'

/-- The id after `/api/attachments/` and what follows it. -/
def attachmentPath (path : String) : Option (String × List Char) :=
  let rest := path.toList.drop "/api/attachments/".length
  if "/api/attachments/".toList.isPrefixOf path.toList ∧ (rest.take 36).length = 36 ∧
      (rest.take 36).all isBlobChar then
    some (String.ofList (rest.take 36), rest.drop 36)
  else none

/-- `/chunks/(\d+)$`. -/
def chunkPath (rest : List Char) : Option Nat :=
  let digits := rest.drop "/chunks/".length
  if "/chunks/".toList.isPrefixOf rest ∧ digits ≠ [] ∧ digits.all Char.isDigit then
    some (digits.foldl (fun n c => 10 * n + (c.toNat - 48)) 0)
  else none

def routePending (mode : Mode) (v : View) : Answer :=
  if v.inbox ≠ [] ∨ mode = .direct then .response true else .passed

/-- The ids that were not in the inbox are left for the relay. -/
def routeAck (mode : Mode) (v : View) (body : Option Body) : Answer :=
  match body.bind Body.envelopeIds with
  | none => .thrown
  | some ids =>
    if mode = .hybrid ∧ (acknowledge v.inbox ids).2 ≠ [] then .passed else .response true

/-- `prepareRelay` is always set. -/
def routeSend (mode : Mode) (serverless : Bool) (jobs : List (Option String)) (v : View)
    (body : Option Body) : Answer × Option Started :=
  match body with
  | none => (.thrown, none)
  | some b =>
    if (b.mailboxId.any v.peer && serverless) || mode == .hybrid then
      (.response false, if b.envelopeId ∈ jobs then none else some ⟨b.envelopeId, false⟩)
    else (.response false, none)

def routeUpload (v : View) (body : Option Body) : Answer :=
  match body with
  | some ⟨_, _, _, some id, some count, some size, _, _, _⟩ =>
    if id.length ≠ 36 ∨ id.toList.all isBlobChar = false ∨ count < 1 ∨ 400 < count ∨ size < 0 ∨
        25 * 1024 * 1024 < size ∨ count ≠ max 1 ((size + 65535) / 65536) ∨ (v.blob id).isSome then
      .thrown
    else .response true
  | _ => .thrown

def routeChunk (v : View) (id : String) (body : Option Body) : Answer :=
  match v.blob id, body with
  | some count, some ⟨_, _, _, _, _, _, some i, some nonce, some cipher⟩ =>
    if i < 0 ∨ (count : Int) ≤ i ∨ nonce ≠ 12 ∨ cipher < 16 ∨ 65552 < cipher ∨ v.stored id i then
      .thrown
    else .response true
  | _, _ => .thrown

def routeDownload (mode : Mode) (serverless : Bool) (jobs : List (Option String)) (v : View)
    (id : String) (i : Nat) : Answer × Option Started :=
  if v.cached id i then (.response true, none)
  else if (v.sender id).any v.peer && serverless then
    let job := some ("blob:" ++ id)
    (.response false, if job ∈ jobs then none else some ⟨job, true⟩)
  else if mode = .hybrid then (.passed, none)
  else (.thrown, none)

/-- What none of the other branches takes. -/
def routeOther (mode : Mode) (method : String) (rest : Option (List Char)) : Answer :=
  if rest = some [] ∧ method = "DELETE" then .response true
  else if mode = .direct then .thrown
  else .passed

def routeAttachment (mode : Mode) (serverless : Bool) (jobs : List (Option String)) (v : View)
    (path method : String) (body : Option Body) : Answer × Option Started :=
  match attachmentPath path with
  | none => (routeOther mode method none, none)
  | some (id, rest) =>
    if rest = "/chunks".toList ∧ method = "POST" then (routeChunk v id body, none)
    else
      match chunkPath rest with
      | some i =>
        if method = "GET" then routeDownload mode serverless jobs v id i
        else (routeOther mode method (some rest), none)
      | none => (routeOther mode method (some rest), none)

def routeBody (mode : Mode) (serverless : Bool) (jobs : List (Option String)) (v : View)
    (path method : String) (body : Option Body) : Answer × Option Started :=
  if path = "/api/messages/pending" then (routePending mode v, none)
  else if path = "/api/messages/ack" then (routeAck mode v body, none)
  else if path = "/api/messages/send" then routeSend mode serverless jobs v body
  else if path = "/api/attachments/upload" ∧ method = "POST" then (routeUpload v body, none)
  else routeAttachment mode serverless jobs v path method body

/-- `TorRouting.route`; `passed` when it answers nothing. -/
def route (mode : Mode) (serverless : Bool) (jobs : List (Option String)) (v : View)
    (path method : String) (body : BodyText) : Answer × Option Started :=
  if mode = .relayOnly then (.passed, none)
  else
    match body with
    | .malformed => (.thrown, none)
    | .absent => routeBody mode serverless jobs v path method none
    | .fields b => routeBody mode serverless jobs v path method (some b)

section Routing

variable {serverless : Bool} {jobs : List (Option String)} {v : View} {path method : String}

/-- Whatever is asked, it is answered or refused in direct mode. -/
theorem route_direct (body : BodyText) :
    (route .direct serverless jobs v path method body).1 ≠ .passed := by
  have hack (b : Option Body) : routeAck .direct v b ≠ .passed := by
    unfold routeAck
    split <;> simp
  have hsend (b : Option Body) : (routeSend .direct serverless jobs v b).1 ≠ .passed := by
    unfold routeSend
    split
    · simp
    · split <;> simp
  have hupload (b : Option Body) : routeUpload v b ≠ .passed := by
    unfold routeUpload
    split
    · split <;> simp
    · simp
  have hchunk (id : String) (b : Option Body) : routeChunk v id b ≠ .passed := by
    unfold routeChunk
    split
    · split <;> simp
    · simp
  have hdownload (id : String) (i : Nat) :
      (routeDownload .direct serverless jobs v id i).1 ≠ .passed := by
    unfold routeDownload
    split
    · simp
    · split <;> simp
  have hother (rest : Option (List Char)) : routeOther .direct method rest ≠ .passed := by
    unfold routeOther
    split <;> simp
  have hattachment (b : Option Body) :
      (routeAttachment .direct serverless jobs v path method b).1 ≠ .passed := by
    unfold routeAttachment
    split
    · exact hother none
    · split
      · exact hchunk _ b
      · split
        · split
          · exact hdownload _ _
          · exact hother _
        · exact hother _
  have hbody (b : Option Body) :
      (routeBody .direct serverless jobs v path method b).1 ≠ .passed := by
    unfold routeBody
    split
    · simp [routePending]
    · split
      · exact hack b
      · split
        · exact hsend b
        · split
          · exact hupload b
          · exact hattachment b
  unfold route
  rw [if_neg (by decide)]
  cases body with
  | malformed => simp
  | absent => exact hbody none
  | fields b => exact hbody (some b)

end Routing

/-! ## Runs -/

/-- A login, by the generation that it began in. -/
structure Login where
  generation : Nat
  challenged : Bool
  deriving DecidableEq, Repr

/-- A request that a job has prepared, with what is compared before it starts. -/
structure Prepared where
  torGeneration : Option Nat
  generation : Nat
  deriving DecidableEq, Repr

/-- What whoever has its turn is doing. -/
inductive Turn where
  /-- `asking` once the adapter has let a request pass. -/
  | call (asking : Bool)
  | preparing (job : Started) (torGeneration generation : Nat)
  deriving DecidableEq, Repr

structure Contact where
  mode : Mode
  login : Option Nat
  generation : Nat
  deriving DecidableEq, Repr

/-- `persisted` is the mode in the vault, and `torDatabase` tells whether it has been read since
the transport was last stopped. -/
structure State where
  persisted : Mode
  quickLocked : Bool
  mode : Mode
  torDatabase : Bool
  torGeneration : Nat
  jobs : List Started
  prepared : List Prepared
  generation : Nat
  watching : Bool
  logins : List Login
  turn : Option Turn
  contacted : List Contact
  deriving DecidableEq, Repr

inductive Event where
  | enter
  | leave
  | ensureTor
  | ask (serverless : Bool) (view : View) (path method : String) (body : BodyText)
  | send
  | answered
  | watch
  | config (mode : Mode)
  | relayConfig
  | quickLock
  | pin
  | socket
  | authenticate
  | challenge (l : Login)
  | respond (l : Login)
  | abandon (l : Login)
  | prepare (job : Started)
  | prepared (requests : Nat)
  | request (p : Prepared)
  | finish (job : Started)

def State.stopTor (s : State) : State :=
  { s with torGeneration := s.torGeneration + 1, torDatabase := false }

def State.clearSession (s : State) : State :=
  { s with generation := s.generation + 1, watching := false }

def State.ensureTor (s : State) : State :=
  if s.quickLocked || s.torDatabase then s
  else { s with mode := s.persisted, torDatabase := true }

/-- A request to the relay starts. -/
def State.contact (login : Option Nat) (s : State) : State :=
  { s with contacted := ⟨s.persisted, login, s.generation⟩ :: s.contacted }

/-- Nothing has happened since that the request is compared with. -/
def Fresh (s : State) (p : Prepared) : Prop :=
  p.generation = s.generation ∧ ∀ t ∈ p.torGeneration, t = s.torGeneration

instance (s : State) (p : Prepared) : Decidable (Fresh s p) := by unfold Fresh; infer_instance

/-- A quick lock shuts the gate of the local API and the timer's pass. -/
def Enabled (s : State) : Event → Prop
  | .enter => s.turn = none
  | .leave | .pin => s.turn = some (.call false)
  | .ensureTor | .ask .. | .watch | .config _ | .relayConfig | .quickLock =>
    s.turn = some (.call false) ∧ s.quickLocked = false
  | .send | .answered => s.turn = some (.call true)
  | .socket => s.watching = true
  | .authenticate => s.watching = true ∨ s.turn.isSome ∧ s.turn ≠ some (.call false)
  | .challenge l => l ∈ s.logins ∧ l.challenged = false
  | .respond l => l ∈ s.logins ∧ l.challenged = true
  | .abandon l => l ∈ s.logins
  | .prepare j => s.turn = none ∧ j ∈ s.jobs ∧ s.quickLocked = false ∧ s.mode = .hybrid
  | .prepared _ => s.turn.isSome ∧ ∀ asking, s.turn ≠ some (.call asking)
  | .request p => p ∈ s.prepared
  | .finish j => j ∈ s.jobs

instance (s : State) (e : Event) : Decidable (Enabled s e) := by
  cases e <;> simp only [Enabled] <;> infer_instance

/-- `RelayClient.request` up to the answer of `route`. -/
def State.ask (serverless : Bool) (v : View) (path method : String) (body : BodyText)
    (s : State) : State :=
  let r := route s.mode serverless (s.jobs.map Started.key) v path method body
  { s with turn := some (.call (r.1 == .passed)), jobs := r.2.toList ++ s.jobs }

/-- The requests of a message are compared with the transport too, those of a download are not. -/
def State.keep (requests : Nat) (s : State) : State :=
  match s.turn with
  | some (.preparing j t g) =>
    { s with
      turn := none
      prepared := List.replicate requests ⟨if j.download then none else some t, g⟩ ++ s.prepared }
  | _ => s

def next (s : State) : Event → State
  | .enter => { s with turn := some (.call false) }
  | .leave => { s with turn := none }
  | .ensureTor => s.ensureTor
  | .ask serverless v path method body => s.ask serverless v path method body
  | .send | .socket => s.contact none
  | .answered => { s with turn := some (.call false) }
  | .watch => if s.mode = .direct then s else { s with watching := true }
  | .config mode => State.ensureTor { s with persisted := mode }.stopTor.clearSession
  | .relayConfig => s.clearSession
  | .quickLock => { s.stopTor.clearSession with quickLocked := true }
  | .pin => { s with quickLocked := false }
  | .authenticate => { s with logins := ⟨s.generation, false⟩ :: s.logins }
  | .challenge l =>
    { s.contact (some l.generation) with logins := ⟨l.generation, true⟩ :: s.logins.erase l }
  | .respond l => { s.contact (some l.generation) with logins := s.logins.erase l }
  | .abandon l => { s with logins := s.logins.erase l }
  | .prepare j => { s with turn := some (.preparing j s.torGeneration s.generation) }
  | .prepared requests => s.keep requests
  | .request p =>
    let kept := { s with prepared := s.prepared.erase p }
    if Fresh s p then kept.contact none else kept
  | .finish j => { s with jobs := s.jobs.erase j }

/-- What an earlier vault has left behind is out of date. -/
def Initial (s : State) : Prop :=
  s.mode = s.persisted ∧ s.watching = false ∧ (∀ l ∈ s.logins, l.generation < s.generation) ∧
    (∀ p ∈ s.prepared, p.generation < s.generation) ∧ s.turn = none ∧ s.contacted = []

def system : System State Event := ⟨Initial, Enabled, next⟩

/-- What began in this generation began outside of direct mode. -/
def Current (s : State) (generation : Nat) : Prop :=
  generation ≤ s.generation ∧ (generation = s.generation → s.persisted ≠ .direct)

/-- In direct mode only a login from before the last change of the session goes on. -/
def Contact.Spared (c : Contact) : Prop := c.mode = .direct → ∃ g ∈ c.login, g < c.generation

structure Invariant (s : State) : Prop where
  mode : s.mode = s.persisted
  watching : s.watching = true → s.persisted ≠ .direct
  logins : ∀ l ∈ s.logins, Current s l.generation
  prepared : ∀ p ∈ s.prepared, Current s p.generation
  asking : s.turn = some (.call true) → s.persisted ≠ .direct
  preparing : ∀ j t g, s.turn = some (.preparing j t g) →
    g = s.generation ∧ s.persisted ≠ .direct
  contacted : ∀ c ∈ s.contacted, c.Spared

variable {s : State}

theorem current_now (h : s.persisted ≠ .direct) : Current s s.generation := ⟨le_rfl, fun _ => h⟩

/-- A new generation leaves the old ones behind, whatever the mode is then. -/
theorem Current.outdated {t : State} {g : Nat} (h : Current s g)
    (hnew : t.generation = s.generation + 1) : Current t g :=
  ⟨by have := h.1; omega, fun heq => by have := h.1; omega⟩

theorem initial_invariant (h : Initial s) : Invariant s := by
  obtain ⟨hmode, hwatching, hlogins, hprepared, hturn, hcontacted⟩ := h
  refine ⟨hmode, by simp [hwatching], fun l hl => ?_, fun p hp => ?_, by simp [hturn],
    by simp [hturn], by simp [hcontacted]⟩
  · have := hlogins l hl
    exact ⟨this.le, fun heq => absurd heq this.ne⟩
  · have := hprepared p hp
    exact ⟨this.le, fun heq => absurd heq this.ne⟩

theorem Invariant.contact (h : Invariant s) {login : Option Nat}
    (hspared : s.persisted = .direct → ∃ g ∈ login, g < s.generation) :
    Invariant (s.contact login) :=
  { h with contacted := List.forall_mem_cons.mpr ⟨hspared, h.contacted⟩ }

theorem Invariant.idle (h : Invariant s) : Invariant { s with turn := none } :=
  { h with asking := by simp, preparing := by simp }

theorem Invariant.inTurn (h : Invariant s) {asking : Bool}
    (hasking : asking = true → s.persisted ≠ .direct) :
    Invariant { s with turn := some (.call asking) } :=
  { h with asking := by simpa using hasking, preparing := by simp }

/-- A session that is cleared may come with another mode. -/
theorem Invariant.cleared (h : Invariant s) {t : State} (hturn : t.turn = some (.call false))
    (hmode : t.mode = t.persisted) (hwatching : t.watching = false)
    (hnew : t.generation = s.generation + 1) (hlogins : t.logins = s.logins)
    (hprepared : t.prepared = s.prepared) (hcontacted : t.contacted = s.contacted) :
    Invariant t := by
  refine ⟨hmode, by simp [hwatching], ?_, ?_, by simp [hturn], by simp [hturn], ?_⟩
  · rw [hlogins]
    exact fun l hl => (h.logins l hl).outdated hnew
  · rw [hprepared]
    exact fun p hp => (h.prepared p hp).outdated hnew
  · rw [hcontacted]
    exact h.contacted

theorem Invariant.ensureTor (h : Invariant s) : Invariant s.ensureTor := by
  unfold State.ensureTor
  split
  · exact h
  · exact { h with mode := rfl }

theorem Invariant.asked (h : Invariant s) (serverless : Bool) (v : View) (path method : String)
    (body : BodyText) : Invariant (s.ask serverless v path method body) := by
  have hpassed : (route s.mode serverless (s.jobs.map Started.key) v path method body).1 =
      .passed → s.persisted ≠ .direct := by
    rw [h.mode]
    intro hanswer hdirect
    rw [hdirect] at hanswer
    exact route_direct body hanswer
  have hturn := h.inTurn fun heq => hpassed (eq_of_beq heq)
  exact { hturn with }

theorem Invariant.kept (h : Invariant s) (requests : Nat) : Invariant (s.keep requests) := by
  unfold State.keep
  split
  · next j t g hturn =>
    obtain ⟨rfl, hhybrid⟩ := h.preparing j t g hturn
    refine { h.idle with prepared := fun p hp => ?_ }
    rcases List.mem_append.mp hp with hp | hp
    · rw [(List.mem_replicate.mp hp).2]
      exact current_now hhybrid
    · exact h.prepared p hp
  · exact h

theorem Invariant.requested (h : Invariant s) {p : Prepared} (hp : p ∈ s.prepared) :
    Invariant (next s (.request p)) := by
  have hkept : Invariant { s with prepared := s.prepared.erase p } :=
    { h with prepared := fun q hq => h.prepared q (List.mem_of_mem_erase hq) }
  simp only [next]
  split
  · next hfresh => exact hkept.contact fun hdirect => absurd hdirect ((h.prepared p hp).2 hfresh.1)
  · exact hkept

theorem Invariant.authenticated (h : Invariant s) {l : Login} (hl : l ∈ s.logins)
    (logins : List Login) (hlogins : ∀ m ∈ logins, m.generation = l.generation ∨ m ∈ s.logins) :
    Invariant { s.contact (some l.generation) with logins := logins } := by
  have hcurrent := h.logins l hl
  have hcontact : Invariant (s.contact (some l.generation)) := h.contact fun hdirect =>
    ⟨l.generation, rfl, lt_of_le_of_ne hcurrent.1 fun heq => hcurrent.2 heq hdirect⟩
  refine { hcontact with logins := fun m hm => ?_ }
  rcases hlogins m hm with heq | hm
  · rw [heq]
    exact hcurrent
  · exact h.logins m hm

theorem step_preserves_invariant (s : State) (e : Event) (h : Invariant s) (he : Enabled s e) :
    Invariant (next s e) := by
  cases e with
  | enter => exact h.inTurn (by simp)
  | leave => exact h.idle
  | ensureTor => exact h.ensureTor
  | ask serverless v path method body => exact h.asked serverless v path method body
  | send => exact h.contact fun hdirect => absurd hdirect (h.asking he)
  | answered => exact h.inTurn (by simp)
  | watch =>
    simp only [next]
    split
    · exact h
    · next hmode => exact { h with watching := fun _ => h.mode ▸ hmode }
  | config mode =>
    refine h.cleared ?_ ?_ ?_ ?_ ?_ ?_ ?_ <;>
      simp [next, State.ensureTor, State.stopTor, State.clearSession, he.1, he.2]
  | relayConfig => exact h.cleared he.1 h.mode rfl rfl rfl rfl rfl
  | quickLock => exact h.cleared he.1 h.mode rfl rfl rfl rfl rfl
  | pin => exact { h with }
  | socket => exact h.contact fun hdirect => absurd hdirect (h.watching he)
  | authenticate =>
    have hmode : s.persisted ≠ .direct := by
      rcases he with hwatching | ⟨hsome, hbusy⟩
      · exact h.watching hwatching
      · cases hturn : s.turn with
        | none => simp [hturn] at hsome
        | some turn =>
          cases turn with
          | call asking =>
            cases asking with
            | false => exact absurd hturn hbusy
            | true => exact h.asking hturn
          | preparing j t g => exact (h.preparing j t g hturn).2
    exact { h with logins := List.forall_mem_cons.mpr ⟨current_now hmode, h.logins⟩ }
  | challenge l =>
    refine h.authenticated he.1 _ fun m hm => ?_
    rcases List.mem_cons.mp hm with rfl | hm
    · exact .inl rfl
    · exact .inr (List.mem_of_mem_erase hm)
  | respond l => exact h.authenticated he.1 _ fun m hm => .inr (List.mem_of_mem_erase hm)
  | abandon l => exact { h with logins := fun m hm => h.logins m (List.mem_of_mem_erase hm) }
  | prepare j =>
    obtain ⟨-, -, -, hhybrid⟩ := he
    refine { h with asking := by simp [next], preparing := fun _ _ _ hturn => ?_ }
    simp only [next, Option.some.injEq, Turn.preparing.injEq] at hturn
    refine ⟨hturn.2.2.symm, ?_⟩
    simp [next, ← h.mode, hhybrid]
  | prepared requests => exact h.kept requests
  | request p => exact h.requested he
  | finish j => exact { h with }

section Run

def view : View := ⟨[], fun _ => false, fun _ => none, fun _ _ => false, fun _ _ => false,
  fun _ => none⟩

def message : Body := ⟨some "e1", none, some "m1", none, none, none, none, none, none⟩

def hybridVault : State :=
  ⟨.hybrid, false, .hybrid, true, 0, [], [], 0, false, [], none, []⟩

/-- The mode is changed while a login is under way and a message is prepared for the relay. -/
def change : List Event :=
  [.enter, .watch, .authenticate, .challenge ⟨0, false⟩,
    .ask false view "/api/messages/send" "POST" (.fields message), .leave,
    .prepare ⟨some "e1", false⟩, .prepared 1, .enter, .config .direct, .leave,
    .request ⟨some 0, 0⟩, .respond ⟨0, true⟩]

def changed : State := system.replay hybridVault change

theorem changed_reachable : Reachable system changed := by
  refine valid_trace_reachable (reachable_initial ⟨rfl, rfl, by decide, by decide, rfl, rfl⟩) ?_
  simp only [change, System.Valid, system]
  refine ⟨?_, ?_, ?_, ?_, ?_, ?_, ?_, ?_, ?_, ?_, ?_, ?_, ?_, trivial⟩ <;> decide

end Run

end DirectMode
