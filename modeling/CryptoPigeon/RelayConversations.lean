import CryptoPigeon.TransitionSystem
import Mathlib.Data.String.Basic
import Mathlib.Data.List.Nodup

/-! # Who may write to whom at the relay

A user asks for a conversation; the other one accepts or rejects. There is one row for each
ordered pair, which keeps its status for good unless it is asked for again after a
rejection or deleted once both parties acknowledged the contact; accepting it makes or
revives the permission of the pair. Expiry only shows when a row is read. -/
namespace RelayConversations

open TransitionSystem

abbrev UserId := String

abbrev DeviceId := String

abbrev RequestId := String

structure User where
  userId : UserId
  username : String
  publicUid : String
  revoked : Bool
  deriving DecidableEq, Repr

structure Device where
  deviceId : DeviceId
  userId : UserId
  revoked : Bool
  deriving DecidableEq, Repr

inductive RequestStatus where
  | pending
  | accepted
  | rejected
  deriving DecidableEq, Repr

/-- A row of `connection_requests`. -/
structure ConnectionRequest where
  requestId : RequestId
  requester : UserId
  recipient : UserId
  status : RequestStatus
  createdAt : Nat
  expiresAt : Nat
  decidedAt : Option Nat
  deriving DecidableEq, Repr

/-- A row of `conversation_permissions`. -/
structure Permission where
  userOne : UserId
  userTwo : UserId
  revoked : Bool
  deriving DecidableEq, Repr

structure Relay where
  users : List User
  devices : List Device
  requests : List ConnectionRequest
  permissions : List Permission
  exchangeAcks : List (UserId × UserId)
  now : Nat
  deriving Repr

def Relay.device (s : Relay) (d : DeviceId) : Option Device := s.devices.find? fun x => x.deviceId = d

def Relay.user (s : Relay) (u : UserId) : Option User := s.users.find? fun x => x.userId = u

/-- Null for a revoked device and for a revoked user. -/
def currentUserId (s : Relay) (d : DeviceId) : Option UserId := do
  let device ← s.device d
  let user ← s.user device.userId
  if device.revoked ∨ user.revoked then none else some user.userId

/-- `LEAST` and `GREATEST` of two users. -/
def pair (u v : UserId) : UserId × UserId := if u < v then (u, v) else (v, u)

def permitted (s : Relay) (u v : UserId) : Bool :=
  s.permissions.any fun p => (p.userOne, p.userTwo) = pair u v ∧ p.revoked = false

inductive Reply where
  | deviceNotActive
  | received
  | notFound
  | accepted
  | rejected
  deriving DecidableEq, Repr

/-- Seven days. -/
def requestLifetime : Nat := 7 * 24 * 60 * 60 * 1000

def between (u v : UserId) (r : ConnectionRequest) : Bool := r.requester = u ∧ r.recipient = v

/-- Only a rejected row is asked for anew. -/
def reviveRequest (now : Nat) (u v : UserId) (r : ConnectionRequest) : ConnectionRequest :=
  if between u v r ∧ r.status = .rejected then
    { r with
      status := .pending, expiresAt := now + requestLifetime, createdAt := now, decidedAt := none }
  else r

def upsertRequest (now : Nat) (id : RequestId) (u v : UserId) (rows : List ConnectionRequest) :
    List ConnectionRequest :=
  if rows.any (between u v) then rows.map (reviveRequest now u v)
  else rows ++ [⟨id, u, v, .pending, now, now + requestLifetime, none⟩]

/-- The recipient the identifier names, if it may be connected to. -/
def connectable (s : Relay) (name : String) (u : UserId) : Option UserId := do
  let x ← s.users.find? fun x => (x.username = name ∨ x.publicUid = name) ∧ x.revoked = false
  if x.userId = u then none else some x.userId

/-- `POST /api/conversations/requests`. -/
def askRequest (s : Relay) (d : DeviceId) (name : String) (id : RequestId) : Reply × Relay :=
  match currentUserId s d with
  | none => (.deviceNotActive, s)
  | some u =>
    match connectable s name u with
    | none => (.received, s)
    | some v => (.received, { s with requests := upsertRequest s.now id u v s.requests })

def pendingFor (s : Relay) (v : UserId) (r : ConnectionRequest) : Bool :=
  r.recipient = v ∧ r.status = .pending ∧ s.now < r.expiresAt

/-- `GET /api/conversations/requests`. -/
def listRequests (s : Relay) (d : DeviceId) : List ConnectionRequest :=
  match currentUserId s d with
  | none => []
  | some v => s.requests.filter fun r => pendingFor s v r && (s.user r.requester).isSome

def grant (u v : UserId) (rows : List Permission) : List Permission :=
  if rows.any (fun p => (p.userOne, p.userTwo) = pair u v) then
    rows.map fun p => if (p.userOne, p.userTwo) = pair u v then { p with revoked := false } else p
  else rows ++ [⟨(pair u v).1, (pair u v).2, false⟩]

/-- The row that `accept` selects for update. -/
def acceptable (s : Relay) (v : UserId) (id : RequestId) : Option ConnectionRequest :=
  s.requests.find? fun r => r.requestId = id ∧ pendingFor s v r

def settle (status : RequestStatus) (now : Nat) (r : ConnectionRequest) : ConnectionRequest :=
  { r with status := status, decidedAt := some now }

def commitAccept (s : Relay) (r : ConnectionRequest) : Relay :=
  { s with
    requests := s.requests.map fun x => if x.requestId = r.requestId then settle .accepted s.now x else x
    permissions := grant r.requester r.recipient s.permissions }

/-- `POST /api/conversations/requests/:requestId/accept`. -/
def acceptRequest (s : Relay) (d : DeviceId) (id : RequestId) : Reply × Relay :=
  match currentUserId s d with
  | none => (.deviceNotActive, s)
  | some v =>
    match acceptable s v id with
    | none => (.notFound, s)
    | some r => (.accepted, commitAccept s r)

/-- Expiry does not keep a request from being rejected. -/
def rejectable (v : UserId) (id : RequestId) (r : ConnectionRequest) : Bool :=
  r.requestId = id ∧ r.recipient = v ∧ r.status = .pending

/-- `POST /api/conversations/requests/:requestId/reject`. -/
def rejectRequest (s : Relay) (d : DeviceId) (id : RequestId) : Reply × Relay :=
  match currentUserId s d with
  | none => (.notFound, s)
  | some v =>
    if s.requests.any (rejectable v id) then
      (.rejected, { s with
        requests := s.requests.map fun r => if rejectable v id r then settle .rejected s.now r else r })
    else (.notFound, s)

/-- The user of a device that is not revoked. -/
def deviceUser (s : Relay) (d : DeviceId) : Option UserId := do
  let device ← s.device d
  if device.revoked then none else some device.userId

/-- Both parties have acknowledged: the accepted rows of the pair are deleted. -/
def purge (u v : UserId) (s : Relay) : Relay :=
  { s with
    requests := s.requests.filter fun r => !(r.status = .accepted && (between u v r || between v u r))
    exchangeAcks := s.exchangeAcks.filter fun a => a ≠ (u, v) ∧ a ≠ (v, u) }

/-- `POST /api/contacts/exchange-ack`. -/
def exchangeAck (s : Relay) (d peer : DeviceId) : Relay :=
  match deviceUser s d, deviceUser s peer with
  | some u, some v =>
    if permitted s u v = false then s
    else
      let acked := { s with exchangeAcks := s.exchangeAcks.insert (u, v) }
      if (v, u) ∈ acked.exchangeAcks then purge u v acked else acked
  | _, _ => s

inductive Event where
  | register (user : User) (device : Device)
  | revokeUser (u : UserId)
  | revokeDevice (d : DeviceId)
  | revokePermission (u v : UserId)
  | ask (d : DeviceId) (name : String) (id : RequestId)
  | accept (d : DeviceId) (id : RequestId)
  | reject (d : DeviceId) (id : RequestId)
  | exchangeAck (d peer : DeviceId)
  | tick (ms : Nat)

/-- The relay draws the ids of its rows at random. -/
def Enabled (s : Relay) : Event → Prop
  | .ask _ _ id => ∀ r ∈ s.requests, r.requestId ≠ id
  | _ => True

def next (s : Relay) : Event → Relay
  | .register user device => { s with users := s.users ++ [user], devices := s.devices ++ [device] }
  | .revokeUser u =>
    { s with users := s.users.map fun x => if x.userId = u then { x with revoked := true } else x }
  | .revokeDevice d =>
    { s with devices := s.devices.map fun x => if x.deviceId = d then { x with revoked := true } else x }
  | .revokePermission u v =>
    { s with permissions := s.permissions.map fun p =>
        if (p.userOne, p.userTwo) = pair u v then { p with revoked := true } else p }
  | .ask d name id => (askRequest s d name id).2
  | .accept d id => (acceptRequest s d id).2
  | .reject d id => (rejectRequest s d id).2
  | .exchangeAck d peer => RelayConversations.exchangeAck s d peer
  | .tick ms => { s with now := s.now + ms }

/-- The tables when the relay is set up. -/
def Initial (s : Relay) : Prop :=
  s.users = [] ∧ s.devices = [] ∧ s.requests = [] ∧ s.permissions = [] ∧ s.exchangeAcks = []

def system : System Relay Event := ⟨Initial, Enabled, next⟩

/-- Ids and ordered pairs are unique, and nobody asks for themselves. -/
structure Invariant (rows : List ConnectionRequest) : Prop where
  ids : (rows.map ConnectionRequest.requestId).Nodup
  pairs : (rows.map fun r => (r.requester, r.recipient)).Nodup
  others : ∀ r ∈ rows, r.requester ≠ r.recipient

section Rows

variable {s : Relay} {rows : List ConnectionRequest} {u v : UserId} {id : RequestId} {now : Nat}

/-- An update of other columns keeps what the invariant is about. -/
theorem Invariant.map (h : Invariant rows) {f : ConnectionRequest → ConnectionRequest}
    (hf : ∀ r, (f r).requestId = r.requestId ∧ (f r).requester = r.requester ∧
      (f r).recipient = r.recipient) : Invariant (rows.map f) := by
  refine ⟨?_, ?_, fun r hr => ?_⟩
  · rw [List.map_map, show ConnectionRequest.requestId ∘ f = ConnectionRequest.requestId from
      funext fun r => (hf r).1]
    exact h.ids
  · have hpairs : (fun r : ConnectionRequest => (r.requester, r.recipient)) ∘ f =
        fun r => (r.requester, r.recipient) :=
      funext fun r => Prod.ext (hf r).2.1 (hf r).2.2
    rw [List.map_map, hpairs]
    exact h.pairs
  · obtain ⟨x, hx, rfl⟩ := List.mem_map.mp hr
    rw [(hf x).2.1, (hf x).2.2]
    exact h.others x hx

theorem Invariant.filter (h : Invariant rows) (p : ConnectionRequest → Bool) :
    Invariant (rows.filter p) :=
  ⟨h.ids.sublist (List.filter_sublist.map _), h.pairs.sublist (List.filter_sublist.map _),
    fun r hr => h.others r (List.mem_of_mem_filter hr)⟩

theorem Invariant.upsert (h : Invariant rows) (hid : ∀ r ∈ rows, r.requestId ≠ id) (huv : u ≠ v) :
    Invariant (upsertRequest now id u v rows) := by
  unfold upsertRequest
  split
  · refine h.map fun r => ?_
    unfold reviveRequest
    split <;> exact ⟨rfl, rfl, rfl⟩
  · next hnone =>
    refine ⟨?_, ?_, fun r hr => ?_⟩
    · rw [List.map_append, List.nodup_append]
      refine ⟨h.ids, List.nodup_singleton _, fun a ha b hb => ?_⟩
      obtain ⟨r, hr, rfl⟩ := List.mem_map.mp ha
      cases List.mem_singleton.mp hb
      exact hid r hr
    · rw [List.map_append, List.nodup_append]
      refine ⟨h.pairs, List.nodup_singleton _, fun a ha b hb heq => ?_⟩
      obtain ⟨r, hr, rfl⟩ := List.mem_map.mp ha
      cases List.mem_singleton.mp hb
      refine hnone (List.any_eq_true.mpr ⟨r, hr, ?_⟩)
      have hpair := Prod.mk.inj heq
      exact decide_eq_true hpair
    · obtain hr | hr := List.mem_append.mp hr
      · exact h.others r hr
      · cases List.mem_singleton.mp hr
        exact huv

/-- Two rows of one pair are one row. -/
theorem Invariant.eq_of_pair (h : Invariant rows) {a b : ConnectionRequest} (ha : a ∈ rows)
    (hb : b ∈ rows) (hrequester : a.requester = b.requester) (hrecipient : a.recipient = b.recipient) :
    a = b :=
  List.inj_on_of_nodup_map h.pairs ha hb (Prod.ext hrequester hrecipient)

theorem Invariant.eq_of_id (h : Invariant rows) {a b : ConnectionRequest} (ha : a ∈ rows)
    (hb : b ∈ rows) (hid : a.requestId = b.requestId) : a = b :=
  List.inj_on_of_nodup_map h.ids ha hb hid

theorem connectable_ne {name : String} (h : connectable s name u = some v) : v ≠ u := by
  simp only [connectable, bind, Option.bind_eq_some_iff] at h
  obtain ⟨x, _, h⟩ := h
  split at h
  · cases h
  · next hne =>
    cases h
    exact hne

end Rows

theorem step_invariant (s : Relay) (e : Event) (h : Invariant s.requests) (he : Enabled s e) :
    Invariant (next s e).requests := by
  have hsettle (status : RequestStatus) (b : Prop) [Decidable b] (r : ConnectionRequest) :
      (if b then settle status s.now r else r).requestId = r.requestId ∧
        (if b then settle status s.now r else r).requester = r.requester ∧
        (if b then settle status s.now r else r).recipient = r.recipient := by
    split <;> exact ⟨rfl, rfl, rfl⟩
  cases e with
  | register user device => exact h
  | revokeUser u => exact h
  | revokeDevice d => exact h
  | revokePermission u v => exact h
  | tick ms => exact h
  | ask d name id =>
    change Invariant (askRequest s d name id).2.requests
    unfold askRequest
    split
    · exact h
    · split
      · exact h
      · next hv => exact h.upsert he (connectable_ne hv).symm
  | accept d id =>
    change Invariant (acceptRequest s d id).2.requests
    unfold acceptRequest
    split
    · exact h
    · split
      · exact h
      · exact h.map fun r => hsettle .accepted _ r
  | reject d id =>
    change Invariant (rejectRequest s d id).2.requests
    unfold rejectRequest
    split
    · exact h
    · split
      · exact h.map fun r => hsettle .rejected _ r
      · exact h
  | exchangeAck d peer =>
    change Invariant (exchangeAck s d peer).requests
    unfold exchangeAck
    split
    · split
      · exact h
      · dsimp only
        split
        · exact h.filter _
        · exact h
    · exact h

theorem initial_invariant {s : Relay} (h : Initial s) : Invariant s.requests := by
  rw [h.2.2.1]
  exact ⟨List.nodup_nil, List.nodup_nil, fun _ hr => absurd hr List.not_mem_nil⟩

theorem run_invariant {s : Relay} (h : Reachable system s) : Invariant s.requests :=
  reachable_invariant (I := fun s : Relay => Invariant s.requests) (fun _ hi => initial_invariant hi)
    step_invariant h

/-- The recipient's list has a request of the other user, and its acceptance succeeds. -/
def Open (s : Relay) (u v : UserId) : Prop :=
  ∃ r ∈ s.requests, r.requester = u ∧ pendingFor s v r ∧ ∀ d, currentUserId s d = some v →
    r ∈ listRequests s d ∧ (acceptRequest s d r.requestId).1 = .accepted ∧
      permitted (acceptRequest s d r.requestId).2 u v

/-- An earlier request is not in the way: rejected, or still pending and not expired. -/
def Askable (s : Relay) (u v : UserId) : Prop :=
  ∀ r ∈ s.requests, r.requester = u → r.recipient = v →
    r.status = .rejected ∨ (r.status = .pending ∧ s.now < r.expiresAt)

section Asking

variable {s : Relay} {u v : UserId} {d : DeviceId} {name : String} {id : RequestId}

theorem permitted_grant (s : Relay) (u v : UserId) :
    permitted { s with permissions := grant u v s.permissions } u v = true := by
  unfold permitted grant
  refine List.any_eq_true.mpr ?_
  split
  · next hany =>
    obtain ⟨p, hp, hpair⟩ := List.any_eq_true.mp hany
    refine ⟨_, List.mem_map_of_mem hp, ?_⟩
    rw [if_pos (of_decide_eq_true hpair)]
    exact decide_eq_true ⟨of_decide_eq_true hpair, rfl⟩
  · exact ⟨_, List.mem_append_right _ (List.mem_singleton_self _), decide_eq_true ⟨rfl, rfl⟩⟩

theorem currentUserId_exists (h : currentUserId s d = some u) : (s.user u).isSome := by
  simp only [currentUserId, bind, Option.bind_eq_some_iff] at h
  obtain ⟨x, _, user, huser, h⟩ := h
  split at h
  · cases h
  · cases h
    have hid : user.userId = x.userId := by simpa using List.find?_some huser
    rw [hid]
    exact Option.isSome_iff_exists.mpr ⟨_, huser⟩

/-- A pending row of the pair is listed to the recipient, and accepted. -/
theorem open_of_pending {r : ConnectionRequest} (hinv : Invariant s.requests) (hr : r ∈ s.requests)
    (hrequester : r.requester = u) (hpending : pendingFor s v r) (hu : (s.user u).isSome) :
    Open s u v := by
  refine ⟨r, hr, hrequester, hpending, fun d hd => ⟨?_, ?_⟩⟩
  · unfold listRequests
    rw [hd]
    refine List.mem_filter.mpr ⟨hr, ?_⟩
    rw [hrequester, hpending, hu]
    rfl
  · have hrecipient : r.recipient = v := by simp [pendingFor] at hpending; exact hpending.1
    have hfound : acceptable s v r.requestId = some r := by
      unfold acceptable
      cases hfind : s.requests.find? fun x => x.requestId = r.requestId ∧ pendingFor s v x with
      | none =>
        have := List.find?_eq_none.mp hfind r hr
        simp [hpending] at this
      | some x =>
        have hx : x.requestId = r.requestId ∧ pendingFor s v x := by
          simpa using List.find?_some hfind
        rw [hinv.eq_of_id (List.mem_of_find?_eq_some hfind) hr hx.1]
    have haccept : acceptRequest s d r.requestId = (.accepted, commitAccept s r) := by
      unfold acceptRequest
      rw [hd]
      dsimp only
      rw [hfound]
    rw [haccept]
    refine ⟨rfl, ?_⟩
    have hgrant := permitted_grant s u v
    unfold commitAccept
    rw [hrequester, hrecipient]
    exact hgrant

/-- What asking leaves in the row of the pair. -/
theorem upsert_pending {now : Nat} {rows : List ConnectionRequest} {r : ConnectionRequest}
    (hr : r ∈ upsertRequest now id u v rows) (hu : r.requester = u) (hv : r.recipient = v) :
    (r.status = .pending ∧ r.expiresAt = now + requestLifetime) ∨
      (r ∈ rows ∧ r.status ≠ .rejected) := by
  unfold upsertRequest at hr
  split at hr
  · obtain ⟨x, hx, rfl⟩ := List.mem_map.mp hr
    unfold reviveRequest at hu hv ⊢
    split at hu
    · next hrejected =>
      rw [if_pos hrejected]
      exact .inl ⟨rfl, rfl⟩
    · next hkept =>
      rw [if_neg hkept] at hv ⊢
      refine .inr ⟨hx, fun hrejected => hkept ⟨?_, hrejected⟩⟩
      exact decide_eq_true ⟨hu, hv⟩
  · next hnone =>
    obtain hr | hr := List.mem_append.mp hr
    · exact absurd (List.any_eq_true.mpr ⟨r, hr, decide_eq_true ⟨hu, hv⟩⟩) hnone
    · cases List.mem_singleton.mp hr
      exact .inl ⟨rfl, rfl⟩

/-- Asking always leaves a row of the pair. -/
theorem upsert_exists {now : Nat} {rows : List ConnectionRequest} :
    ∃ r ∈ upsertRequest now id u v rows, r.requester = u ∧ r.recipient = v := by
  unfold upsertRequest
  split
  · next hany =>
    obtain ⟨r, hr, hbetween⟩ := List.any_eq_true.mp hany
    have hpair := of_decide_eq_true hbetween
    refine ⟨_, List.mem_map_of_mem hr, ?_⟩
    unfold reviveRequest
    split <;> exact hpair
  · exact ⟨_, List.mem_append_right _ (List.mem_singleton_self _), rfl, rfl⟩

theorem askRequest_connectable (hd : currentUserId s d = some u) (hv : connectable s name u = some v) :
    askRequest s d name id =
      (.received, { s with requests := upsertRequest s.now id u v s.requests }) := by
  unfold askRequest
  rw [hd]
  dsimp only
  rw [hv]

end Asking

/-- Asking for a conversation is answered with 202; it leaves a request that the recipient
can accept if and only if no accepted or expired one is in its place. -/
theorem asked_open_iff_askable {s : Relay} {d : DeviceId} {u v : UserId} {name : String}
    {id : RequestId} (hs : Reachable system s) (hid : Enabled s (.ask d name id))
    (hd : currentUserId s d = some u) (hv : connectable s name u = some v) :
    (askRequest s d name id).1 = .received ∧
      (Open (next s (.ask d name id)) u v ↔ Askable s u v) := by
  have hinv := run_invariant hs
  have hnext := step_invariant s _ hinv hid
  have hasked : askRequest s d name id =
      (.received, { s with requests := upsertRequest s.now id u v s.requests }) :=
    askRequest_connectable hd hv
  refine ⟨by rw [hasked], ?_⟩
  change Open (askRequest s d name id).2 u v ↔ _
  change Invariant (askRequest s d name id).2.requests at hnext
  rw [hasked] at hnext ⊢
  constructor
  · rintro ⟨r, hr, hrequester, hpending, _⟩ x hx hxu hxv
    obtain ⟨hrecipient, hstatus, hexpires⟩ := of_decide_eq_true hpending
    by_cases hrejected : x.status = .rejected
    · exact .inl hrejected
    · right
      -- the row is kept as it is, so it is the one that is listed
      have hsame : x ∈ upsertRequest s.now id u v s.requests := by
        unfold upsertRequest
        rw [if_pos (List.any_eq_true.mpr ⟨x, hx, decide_eq_true ⟨hxu, hxv⟩⟩)]
        refine List.mem_map.mpr ⟨x, hx, if_neg fun hrevived => hrejected hrevived.2⟩
      cases hnext.eq_of_pair hsame hr (hxu.trans hrequester.symm) (hxv.trans hrecipient.symm)
      exact ⟨hstatus, hexpires⟩
  · intro haskable
    have hexists : ∃ r ∈ upsertRequest s.now id u v s.requests, r.requester = u ∧ r.recipient = v :=
      upsert_exists
    obtain ⟨r, hr, hrequester, hrecipient⟩ := hexists
    refine open_of_pending (r := r) hnext hr hrequester (decide_eq_true ⟨hrecipient, ?_⟩)
      (currentUserId_exists hd)
    obtain ⟨hpending, hexpires⟩ | ⟨hold, hkept⟩ := upsert_pending hr hrequester hrecipient
    · refine ⟨hpending, ?_⟩
      rw [hexpires]
      exact Nat.lt_add_of_pos_right (by decide)
    · obtain hrejected | hpending := haskable r hold hrequester hrecipient
      · exact absurd hrejected hkept
      · exact hpending

/-- Two users who have just been activated. -/
def activations : List Event :=
  [.register ⟨"u1", "alice", "CP-0000-0001", false⟩ ⟨"d1", "u1", false⟩,
    .register ⟨"u2", "bob", "CP-0000-0002", false⟩ ⟨"d2", "u2", false⟩]

def setUp : Relay := ⟨[], [], [], [], [], 0⟩

theorem replay_reachable {es : List Event} (h : system.Valid setUp es) :
    Reachable system (system.replay setUp es) :=
  valid_trace_reachable (reachable_initial ⟨rfl, rfl, rfl, rfl, rfl⟩) h

theorem first_request_open :
    Open (next (system.replay setUp activations) (.ask "d1" "bob" "r1")) "u1" "u2" := by
  have hreachable : Reachable system (system.replay setUp activations) :=
    replay_reachable (show system.Valid setUp activations from ⟨trivial, trivial, trivial⟩)
  have hfresh : Enabled (system.replay setUp activations) (.ask "d1" "bob" "r1") :=
    fun r hr => absurd hr List.not_mem_nil
  exact (asked_open_iff_askable hreachable hfresh rfl rfl).2.mpr fun r hr => absurd hr List.not_mem_nil

def revokedAfterAccept : Relay :=
  system.replay setUp (activations ++
    [.ask "d1" "bob" "r1", .accept "d2" "r1", .revokePermission "u1" "u2"])

def expiredUnanswered : Relay :=
  system.replay setUp (activations ++ [.ask "d1" "bob" "r1", .tick requestLifetime])

/-- An accepted request stays behind when the permission is revoked, and a pending one when
it expires: asking again changes nothing. -/
theorem asked_again_in_vain :
    (Reachable system revokedAfterAccept ∧ permitted revokedAfterAccept "u1" "u2" = false ∧
      (askRequest revokedAfterAccept "d1" "bob" "r2").1 = .received ∧
      ¬Open (askRequest revokedAfterAccept "d1" "bob" "r2").2 "u1" "u2") ∧
    (Reachable system expiredUnanswered ∧ permitted expiredUnanswered "u1" "u2" = false ∧
      (askRequest expiredUnanswered "d1" "bob" "r2").1 = .received ∧
      ¬Open (askRequest expiredUnanswered "d1" "bob" "r2").2 "u1" "u2") := by
  have hnone {s : Relay} {u v : UserId} (h : ∀ r ∈ s.requests, pendingFor s v r = false) :
      ¬Open s u v := by
    rintro ⟨r, hr, _, hpending, _⟩
    exact absurd (hpending.symm.trans (h r hr)) nofun
  refine ⟨⟨replay_reachable ?_, by decide, by decide, hnone (by decide)⟩,
    replay_reachable ?_, by decide, by decide, hnone (by decide)⟩
  · exact ⟨trivial, trivial, fun r hr => absurd hr List.not_mem_nil, trivial, trivial, trivial⟩
  · exact ⟨trivial, trivial, fun r hr => absurd hr List.not_mem_nil, trivial, trivial⟩

end RelayConversations
