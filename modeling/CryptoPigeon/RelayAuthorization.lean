import CryptoPigeon.RelayConversations

/-! # What the relay passes from one device to another

Envelopes, prekey bundles and signals need the permission of the two users. Each route
has its own query for it: that for signals asks about both devices and both users, that for
bundles leaves out the recipient's user, and that for envelopes the recipient altogether. -/
namespace RelayAuthorization

open TransitionSystem RelayConversations

structure Envelope where
  envelopeId : String
  mailboxId : DeviceId
  typing : Bool
  ttlMs : Option Nat
  createdAtMs : Option Nat
  deriving DecidableEq, Repr

def Envelope.ttl (b : Envelope) : Nat :=
  b.ttlMs.getD (if b.typing then 5000 else 30 * 24 * 60 * 60 * 1000)

def Envelope.expiresAt (now : Nat) (b : Envelope) : Nat := min now (b.createdAtMs.getD now) + b.ttl

/-- An accept, with the row as it was found. -/
structure Grant where
  request : ConnectionRequest
  grantedAt : Nat
  deriving DecidableEq, Repr

/-- `messages` holds the ids queued, `clients` the devices with a socket, `published` those
with a signed and a last resort prekey. The grants are a history. -/
structure State where
  relay : Relay
  messages : List String
  clients : List DeviceId
  published : List DeviceId
  grants : List Grant

inductive Delivery where
  | queued (sender recipient : DeviceId)
  | pushed (sender recipient : DeviceId)
  | bundle (requester target : DeviceId)
  | signal (sender peer : DeviceId)
  deriving DecidableEq, Repr

def Delivery.source : Delivery → DeviceId
  | .queued a _ | .pushed a _ | .bundle a _ | .signal a _ => a

def Delivery.target : Delivery → DeviceId
  | .queued _ b | .pushed _ b | .bundle _ b | .signal _ b => b

def push (s : State) (a b : DeviceId) : List Delivery := if b ∈ s.clients then [.pushed a b] else []

/-- What the relay queues and pushes for an envelope that is let through. -/
def passEnvelope (s : State) (a : DeviceId) (b : Envelope) : List Delivery :=
  if b.typing ∨ b.ttl ≤ 10000 then
    if s.relay.now < b.expiresAt s.relay.now then push s a b.mailboxId else []
  else
    (if b.envelopeId ∈ s.messages then [] else [.queued a b.mailboxId]) ++ push s a b.mailboxId

/-- `POST /api/messages/send`, after `authMiddleware`. -/
def sendMessage (s : State) (a : DeviceId) (b : Envelope) : List Delivery :=
  if (currentUserId s.relay a).isNone then []
  else
    match s.relay.device a, s.relay.device b.mailboxId with
    | some x, some y =>
      if permitted s.relay x.userId y.userId = false then [] else passEnvelope s a b
    | _, _ => []

/-- The bundle is asked for by device or by name. -/
inductive BundleTarget where
  | device (d : DeviceId)
  | name (name : String)
  deriving DecidableEq, Repr

def named (s : Relay) (name : String) (y : Device) : Bool :=
  match s.user y.userId with
  | none => false
  | some u => u.username = name ∨ u.publicUid = name

def resolveTarget (s : Relay) : BundleTarget → Option DeviceId
  | .device d => some d
  | .name name => (s.devices.find? fun y => named s name y && !y.revoked).map Device.deviceId

/-- `POST /api/prekeys/bundle`, after `authMiddleware`. -/
def prekeyBundle (s : State) (a : DeviceId) (target : BundleTarget) : List Delivery :=
  if (currentUserId s.relay a).isNone then []
  else
    match resolveTarget s.relay target with
    | none => []
    | some b =>
      match s.relay.device a, s.relay.device b with
      | some x, some y =>
        if permitted s.relay x.userId y.userId = false then []
        else if y.revoked ∨ (s.relay.user y.userId).isNone ∨ b ∉ s.published then []
        else [.bundle a b]
      | _, _ => []

structure Signal where
  fromUid : String
  toUid : String
  deriving DecidableEq, Repr

/-- The answers that do not depend on the tables: the socket's own check, the budget of the
pair, and the time the signal may take. -/
structure Circumstances where
  stillAuthorized : Bool
  withinBudget : Bool
  inTime : Bool
  deriving DecidableEq, Repr

def activeUid (s : Relay) (u : UserId) (uid : String) : Bool :=
  match s.user u with
  | none => false
  | some x => x.publicUid = uid ∧ x.revoked = false

def isPeer (s : Relay) (u : UserId) (toUid : String) (y : Device) : Bool :=
  !y.revoked && activeUid s y.userId toUid && permitted s y.userId u

/-- `forwardSignal`. -/
def forwardSignal (s : State) (a : DeviceId) (m : Signal) (c : Circumstances) : List Delivery :=
  match currentUserId s.relay a with
  | none => []
  | some u =>
    if activeUid s.relay u m.fromUid = false ∨ m.fromUid = m.toUid then []
    else if c.stillAuthorized = false ∨ c.withinBudget = false ∨ c.inTime = false then []
    else
      match s.relay.devices.find? (isPeer s.relay u m.toUid) with
      | none => []
      | some y => if y.deviceId ∈ s.clients then [.signal a y.deviceId] else []

inductive Event where
  | table (e : RelayConversations.Event)
  | connect (d : DeviceId)
  | disconnect (d : DeviceId)
  | publish (d : DeviceId)
  | send (a : DeviceId) (b : Envelope)
  | ack (id : String)

/-- An accept is written down when it succeeds. -/
def granted (s : Relay) : RelayConversations.Event → List Grant
  | .accept d id =>
    match currentUserId s d with
    | none => []
    | some v => ((acceptable s v id).map fun r => Grant.mk r s.now).toList
  | _ => []

/-- A device id and a user id are given once. -/
def Enabled (s : State) : Event → Prop
  | .table (.register user device) =>
    (∀ x ∈ s.relay.users, x.userId ≠ user.userId) ∧
      (∀ x ∈ s.relay.devices, x.deviceId ≠ device.deviceId)
  | .table e => RelayConversations.Enabled s.relay e
  | _ => True

def next (s : State) : Event → State
  | .table e => { s with relay := RelayConversations.next s.relay e, grants := s.grants ++ granted s.relay e }
  | .connect d => { s with clients := s.clients.insert d }
  | .disconnect d => { s with clients := s.clients.filter fun x => x ≠ d }
  | .publish d => { s with published := s.published.insert d }
  | .send a b =>
    if .queued a b.mailboxId ∈ sendMessage s a b then { s with messages := b.envelopeId :: s.messages } else s
  | .ack id => { s with messages := s.messages.filter fun x => x ≠ id }

def Initial (s : State) : Prop :=
  RelayConversations.Initial s.relay ∧ s.messages = [] ∧ s.clients = [] ∧ s.published = [] ∧
    s.grants = []

def system : System State Event := ⟨Initial, Enabled, next⟩

/-- The recipient accepted, in time, a pending request between the two. -/
def Accepted (s : State) (u v : UserId) : Prop :=
  ∃ g ∈ s.grants, g.request.status = .pending ∧ g.grantedAt < g.request.expiresAt ∧
    ((g.request.requester = u ∧ g.request.recipient = v) ∨
      (g.request.requester = v ∧ g.request.recipient = u))

/-- A delivery between two active devices of different users with a permission that one of
them asked for and the other gave. -/
def Lawful (s : State) (x : Delivery) : Prop :=
  ∃ u v, currentUserId s.relay x.source = some u ∧ currentUserId s.relay x.target = some v ∧ u ≠ v ∧
    permitted s.relay u v ∧ Accepted s u v

/-- The invariants of the two tables: nobody has a permission with themselves, and each
permission was given. -/
structure Invariant (s : State) : Prop where
  requests : ∀ r ∈ s.relay.requests, r.requester ≠ r.recipient
  permissions : ∀ p ∈ s.relay.permissions, ∃ u v, u ≠ v ∧ (p.userOne, p.userTwo) = pair u v ∧
    Accepted s u v

section Tables

variable {s : State} {u v : UserId} {a b : DeviceId}

theorem pair_comm (u v : UserId) : pair u v = pair v u := by
  unfold pair
  rcases lt_trichotomy u v with h | h | h
  · rw [if_pos h, if_neg h.not_gt]
  · rw [h]
  · rw [if_neg h.not_gt, if_pos h]

theorem pair_eq {u v x y : UserId} (h : pair u v = pair x y) :
    (u = x ∧ v = y) ∨ (u = y ∧ v = x) := by
  unfold pair at h
  split at h <;> split at h <;> cases h
  · exact .inl ⟨rfl, rfl⟩
  · exact .inr ⟨rfl, rfl⟩
  · exact .inr ⟨rfl, rfl⟩
  · exact .inl ⟨rfl, rfl⟩

theorem Accepted.mono {t : State} (h : Accepted s u v) (hg : ∀ g ∈ s.grants, g ∈ t.grants) :
    Accepted t u v := by
  obtain ⟨g, hm, hrest⟩ := h
  exact ⟨g, hg g hm, hrest⟩

theorem Accepted.symm (h : Accepted s u v) : Accepted s v u := by
  obtain ⟨g, hm, hpending, hexpires, hends⟩ := h
  exact ⟨g, hm, hpending, hexpires, hends.symm⟩

theorem Invariant.accepted (h : Invariant s) (hp : permitted s.relay u v = true) :
    u ≠ v ∧ Accepted s u v := by
  obtain ⟨p, hm, hpermits⟩ := List.any_eq_true.mp hp
  obtain ⟨x, y, hne, hpair, hgiven⟩ := h.permissions p hm
  obtain ⟨rfl, rfl⟩ | ⟨rfl, rfl⟩ := pair_eq ((of_decide_eq_true hpermits).1.symm.trans hpair)
  · exact ⟨hne, hgiven⟩
  · exact ⟨hne.symm, hgiven.symm⟩

theorem permitted_comm (s : Relay) (u v : UserId) : permitted s u v = permitted s v u := by
  unfold permitted
  rw [pair_comm]

/-- A device that is active is that of its user. -/
theorem currentUserId_device {s : Relay} (h : currentUserId s a = some u) :
    ∃ x, s.device a = some x ∧ x.userId = u ∧ x.revoked = false ∧
      ∃ y, s.user u = some y ∧ y.revoked = false := by
  simp only [currentUserId, bind, Option.bind_eq_some_iff] at h
  obtain ⟨x, hx, user, huser, h⟩ := h
  split at h
  · cases h
  · next hactive =>
    cases h
    have hid : user.userId = x.userId := by simpa using List.find?_some huser
    rw [not_or, Bool.not_eq_true, Bool.not_eq_true] at hactive
    exact ⟨x, hx, hid.symm, hactive.1, user, by rw [hid]; exact huser, hactive.2⟩

theorem active_of_rows {s : Relay} {x : Device} {y : User} (hx : s.device a = some x)
    (hrevoked : x.revoked = false) (hy : s.user x.userId = some y) (hactive : y.revoked = false) :
    currentUserId s a = some x.userId := by
  have hid : y.userId = x.userId := by simpa using List.find?_some hy
  simp only [currentUserId, hx, hy, hrevoked, hactive, bind, Option.bind_some, Bool.false_eq_true,
    or_self, if_false, hid]

end Tables

section Runs

variable {s : State} {u v : UserId} {a b : DeviceId}

theorem grant_rows {rows : List Permission} {p : Permission} (h : p ∈ grant u v rows) :
    (∃ q ∈ rows, (p.userOne, p.userTwo) = (q.userOne, q.userTwo)) ∨
      (p.userOne, p.userTwo) = pair u v := by
  unfold grant at h
  split at h
  · obtain ⟨q, hq, rfl⟩ := List.mem_map.mp h
    refine .inl ⟨q, hq, ?_⟩
    split <;> rfl
  · obtain h | h := List.mem_append.mp h
    · exact .inl ⟨p, h, rfl⟩
    · cases List.mem_singleton.mp h
      exact .inr rfl

theorem Invariant.of_tables {t : State} (h : Invariant s)
    (hrequests : ∀ r ∈ t.relay.requests, r.requester ≠ r.recipient)
    (hpermissions : ∀ p ∈ t.relay.permissions, ∃ q ∈ s.relay.permissions,
      (p.userOne, p.userTwo) = (q.userOne, q.userTwo))
    (hgrants : ∀ g ∈ s.grants, g ∈ t.grants) : Invariant t := by
  refine ⟨hrequests, fun p hp => ?_⟩
  obtain ⟨q, hq, hpair⟩ := hpermissions p hp
  obtain ⟨x, y, hne, hq, haccepted⟩ := h.permissions q hq
  exact ⟨x, y, hne, hpair.trans hq, haccepted.mono hgrants⟩

/-- The rows of other tables may change as they like. -/
theorem Invariant.same {t : State} (h : Invariant s) (hrequests : t.relay.requests = s.relay.requests)
    (hpermissions : t.relay.permissions = s.relay.permissions) (hgrants : t.grants = s.grants) :
    Invariant t := by
  refine h.of_tables ?_ ?_ ?_
  · rw [hrequests]
    exact h.requests
  · rw [hpermissions]
    exact fun p hp => ⟨p, hp, rfl⟩
  · rw [hgrants]
    exact fun g hg => hg

theorem mem_upsert {now : Nat} {id : RequestId} {rows : List ConnectionRequest} {r : ConnectionRequest}
    (hr : r ∈ upsertRequest now id u v rows) :
    (∃ x ∈ rows, r.requester = x.requester ∧ r.recipient = x.recipient) ∨
      (r.requester = u ∧ r.recipient = v) := by
  unfold upsertRequest at hr
  split at hr
  · obtain ⟨x, hx, rfl⟩ := List.mem_map.mp hr
    refine .inl ⟨x, hx, ?_⟩
    unfold reviveRequest
    split <;> exact ⟨rfl, rfl⟩
  · obtain hr | hr := List.mem_append.mp hr
    · exact .inl ⟨r, hr, rfl, rfl⟩
    · cases List.mem_singleton.mp hr
      exact .inr ⟨rfl, rfl⟩

theorem settled_rows {rows : List ConnectionRequest} (h : ∀ r ∈ rows, r.requester ≠ r.recipient)
    (p : ConnectionRequest → Prop) [DecidablePred p] (status : RequestStatus) (now : Nat) :
    ∀ r ∈ rows.map (fun r => if p r then settle status now r else r), r.requester ≠ r.recipient := by
  intro r hr
  obtain ⟨x, hx, rfl⟩ := List.mem_map.mp hr
  split
  · exact h x hx
  · exact h x hx

theorem accept_invariant (h : Invariant s) (d : DeviceId) (id : RequestId) :
    Invariant (next s (.table (.accept d id))) := by
  change Invariant { s with
    relay := (acceptRequest s.relay d id).2, grants := s.grants ++ granted s.relay (.accept d id) }
  cases hd : currentUserId s.relay d with
  | none =>
    simp only [acceptRequest, granted, hd]
    exact h.of_tables h.requests (fun p hp => ⟨p, hp, rfl⟩) fun g hg => List.mem_append_left _ hg
  | some w =>
    cases hr : acceptable s.relay w id with
    | none =>
      simp only [acceptRequest, granted, hd, hr]
      exact h.of_tables h.requests (fun p hp => ⟨p, hp, rfl⟩) fun g hg => List.mem_append_left _ hg
    | some r =>
      simp only [acceptRequest, granted, hd, hr]
      have hmem : r ∈ s.relay.requests := List.mem_of_find?_eq_some hr
      have hfound : r.requestId = id ∧ pendingFor s.relay w r := by simpa using List.find?_some hr
      obtain ⟨_, hpending, hexpires⟩ := of_decide_eq_true hfound.2
      refine ⟨settled_rows h.requests _ _ _, fun p hp => ?_⟩
      obtain ⟨q, hq, hpair⟩ | hpair := grant_rows hp
      · obtain ⟨x, y, hne, hq, haccepted⟩ := h.permissions q hq
        exact ⟨x, y, hne, hpair.trans hq, haccepted.mono fun g hg => List.mem_append_left _ hg⟩
      · refine ⟨r.requester, r.recipient, h.requests r hmem, hpair, ⟨r, s.relay.now⟩, ?_, hpending,
          hexpires, .inl ⟨rfl, rfl⟩⟩
        exact List.mem_append_right _ (List.mem_singleton_self _)

theorem step_invariant (s : State) (e : Event) (h : Invariant s) (_ : Enabled s e) :
    Invariant (next s e) := by
  have hkept {t : State} (hrequests : ∀ r ∈ t.relay.requests, r.requester ≠ r.recipient)
      (hpermissions : t.relay.permissions = s.relay.permissions)
      (hgrants : t.grants = s.grants ++ []) : Invariant t := by
    refine h.of_tables hrequests ?_ ?_
    · rw [hpermissions]
      exact fun p hp => ⟨p, hp, rfl⟩
    · rw [hgrants]
      exact fun g hg => List.mem_append_left _ hg
  cases e with
  | table e =>
    cases e with
    | register user device => exact hkept h.requests rfl rfl
    | revokeUser u => exact hkept h.requests rfl rfl
    | revokeDevice d => exact hkept h.requests rfl rfl
    | tick ms => exact hkept h.requests rfl rfl
    | accept d id => exact accept_invariant h d id
    | revokePermission u v =>
      refine h.of_tables h.requests (fun p hp => ?_) fun g hg => List.mem_append_left _ hg
      obtain ⟨q, hq, rfl⟩ := List.mem_map.mp hp
      refine ⟨q, hq, ?_⟩
      split <;> rfl
    | ask d name id =>
      change Invariant { s with
        relay := (askRequest s.relay d name id).2, grants := s.grants ++ [] }
      unfold askRequest
      split
      · exact hkept h.requests rfl rfl
      · split
        · exact hkept h.requests rfl rfl
        · next hv =>
          refine hkept (fun r hr => ?_) rfl rfl
          obtain ⟨x, hx, hrequester, hrecipient⟩ | ⟨hrequester, hrecipient⟩ := mem_upsert hr
          · rw [hrequester, hrecipient]
            exact h.requests x hx
          · rw [hrequester, hrecipient]
            exact (connectable_ne hv).symm
    | reject d id =>
      change Invariant { s with relay := (rejectRequest s.relay d id).2, grants := s.grants ++ [] }
      unfold rejectRequest
      split
      · exact hkept h.requests rfl rfl
      · split
        · exact hkept (settled_rows h.requests _ _ _) rfl rfl
        · exact hkept h.requests rfl rfl
    | exchangeAck d peer =>
      change Invariant { s with relay := exchangeAck s.relay d peer, grants := s.grants ++ [] }
      unfold exchangeAck
      split
      · split
        · exact hkept h.requests rfl rfl
        · dsimp only
          split
          · exact hkept (fun r hr => h.requests r (List.mem_of_mem_filter hr)) rfl rfl
          · exact hkept h.requests rfl rfl
      · exact hkept h.requests rfl rfl
  | connect d => exact h.same rfl rfl rfl
  | disconnect d => exact h.same rfl rfl rfl
  | publish d => exact h.same rfl rfl rfl
  | ack id => exact h.same rfl rfl rfl
  | send a b =>
    change Invariant (if .queued a b.mailboxId ∈ sendMessage s a b then
      { s with messages := b.envelopeId :: s.messages } else s)
    split
    · exact h.same rfl rfl rfl
    · exact h

theorem run_invariant (h : Reachable system s) : Invariant s := by
  refine reachable_invariant (I := Invariant) (fun s hi => ?_) step_invariant h
  obtain ⟨⟨_, _, hrequests, hpermissions, _⟩, _⟩ := hi
  refine ⟨fun r hr => ?_, fun p hp => ?_⟩
  · rw [hrequests] at hr
    exact absurd hr List.not_mem_nil
  · rw [hpermissions] at hp
    exact absurd hp List.not_mem_nil

end Runs

section Routes

variable {s : State} {a : DeviceId} {x : Delivery}

theorem mem_push {b : DeviceId} (h : x ∈ push s a b) : x = .pushed a b := by
  unfold push at h
  split at h
  · exact List.mem_singleton.mp h
  · exact absurd h List.not_mem_nil

theorem mem_passEnvelope {b : Envelope} (h : x ∈ passEnvelope s a b) :
    x.source = a ∧ x.target = b.mailboxId := by
  unfold passEnvelope at h
  split at h
  · split at h
    · rw [mem_push h]
      exact ⟨rfl, rfl⟩
    · exact absurd h List.not_mem_nil
  · obtain h | h := List.mem_append.mp h
    · split at h
      · exact absurd h List.not_mem_nil
      · rw [List.mem_singleton.mp h]
        exact ⟨rfl, rfl⟩
    · rw [mem_push h]
      exact ⟨rfl, rfl⟩

/-- The sender is active and the two users have a permission. -/
def Permitted (s : State) (x : Delivery) : Prop :=
  ∃ u y, currentUserId s.relay x.source = some u ∧ s.relay.device x.target = some y ∧
    permitted s.relay u y.userId = true

theorem sendMessage_permitted {b : Envelope} (h : x ∈ sendMessage s a b) : Permitted s x := by
  unfold sendMessage at h
  split at h
  · exact absurd h List.not_mem_nil
  · next hactive =>
    split at h
    · next xa y ha hy =>
      split at h
      · exact absurd h List.not_mem_nil
      · next hp =>
        obtain ⟨hsource, htarget⟩ := mem_passEnvelope h
        obtain ⟨u, hu⟩ : ∃ u, currentUserId s.relay a = some u :=
          Option.ne_none_iff_exists'.mp (by simpa using hactive)
        obtain ⟨z, hz, hzu, _⟩ := currentUserId_device hu
        cases ha.symm.trans hz
        refine ⟨u, y, by rw [hsource]; exact hu, by rw [htarget]; exact hy, ?_⟩
        rw [← hzu]
        simpa using hp
    · exact absurd h List.not_mem_nil

theorem prekeyBundle_permitted {target : BundleTarget} (h : x ∈ prekeyBundle s a target) :
    Permitted s x := by
  unfold prekeyBundle at h
  split at h
  · exact absurd h List.not_mem_nil
  · next hactive =>
    split at h
    · exact absurd h List.not_mem_nil
    · next b hb =>
      split at h
      · next xa y ha hy =>
        split at h
        · exact absurd h List.not_mem_nil
        · next hp =>
          split at h
          · exact absurd h List.not_mem_nil
          · cases List.mem_singleton.mp h
            obtain ⟨u, hu⟩ : ∃ u, currentUserId s.relay a = some u :=
              Option.ne_none_iff_exists'.mp (by simpa using hactive)
            obtain ⟨z, hz, hzu, _⟩ := currentUserId_device hu
            cases ha.symm.trans hz
            refine ⟨u, y, hu, hy, ?_⟩
            rw [← hzu]
            simpa using hp
      · exact absurd h List.not_mem_nil

/-- What is permitted is lawful as long as the recipient is active. -/
theorem Permitted.lawful_iff (h : Permitted s x) (hinv : Invariant s) :
    Lawful s x ↔ (currentUserId s.relay x.target).isSome := by
  obtain ⟨u, y, hu, hy, hp⟩ := h
  refine ⟨fun ⟨_, v, _, hv, _⟩ => by rw [hv]; rfl, fun hactive => ?_⟩
  obtain ⟨v, hv⟩ := Option.isSome_iff_exists.mp hactive
  obtain ⟨z, hz, rfl, _⟩ := currentUserId_device hv
  cases hy.symm.trans hz
  obtain ⟨hne, haccepted⟩ := hinv.accepted hp
  exact ⟨u, y.userId, hu, hv, hne, hp, haccepted⟩

end Routes

section Signals

variable {s : State} {a : DeviceId} {x : Delivery}

/-- The routes of the conversations leave the devices alone. -/
theorem routes_devices (r : Relay) (d peer : DeviceId) (name : String) (id : RequestId) :
    (askRequest r d name id).2.devices = r.devices ∧ (acceptRequest r d id).2.devices = r.devices ∧
      (rejectRequest r d id).2.devices = r.devices ∧ (exchangeAck r d peer).devices = r.devices := by
  refine ⟨?_, ?_, ?_, ?_⟩
  · unfold askRequest
    split
    · rfl
    · split <;> rfl
  · unfold acceptRequest
    split
    · rfl
    · split <;> rfl
  · unfold rejectRequest
    split
    · rfl
    · split <;> rfl
  · unfold exchangeAck
    split
    · split
      · rfl
      · dsimp only
        split <;> rfl
    · rfl

theorem step_devices (s : State) (e : Event) (h : (s.relay.devices.map Device.deviceId).Nodup)
    (he : Enabled s e) : ((next s e).relay.devices.map Device.deviceId).Nodup := by
  cases e with
  | table e =>
    cases e with
    | register user device =>
      change ((s.relay.devices ++ [device]).map Device.deviceId).Nodup
      rw [List.map_append, List.nodup_append]
      refine ⟨h, List.nodup_singleton _, fun i hi j hj => ?_⟩
      obtain ⟨y, hy, rfl⟩ := List.mem_map.mp hi
      cases List.mem_singleton.mp hj
      exact he.2 y hy
    | revokeDevice d =>
      change ((s.relay.devices.map _).map Device.deviceId).Nodup
      rw [List.map_map]
      refine Eq.subst (motive := List.Nodup) (List.map_congr_left fun y _ => ?_) h
      change _ = Device.deviceId (if y.deviceId = d then { y with revoked := true } else y)
      split <;> rfl
    | revokeUser u => exact h
    | revokePermission u v => exact h
    | tick ms => exact h
    | ask d name id =>
      change ((askRequest s.relay d name id).2.devices.map Device.deviceId).Nodup
      rw [(routes_devices s.relay d d name id).1]
      exact h
    | accept d id =>
      change ((acceptRequest s.relay d id).2.devices.map Device.deviceId).Nodup
      rw [(routes_devices s.relay d d "" id).2.1]
      exact h
    | reject d id =>
      change ((rejectRequest s.relay d id).2.devices.map Device.deviceId).Nodup
      rw [(routes_devices s.relay d d "" id).2.2.1]
      exact h
    | exchangeAck d peer =>
      change ((exchangeAck s.relay d peer).devices.map Device.deviceId).Nodup
      rw [(routes_devices s.relay d peer "" "").2.2.2]
      exact h
  | connect d => exact h
  | disconnect d => exact h
  | publish d => exact h
  | ack id => exact h
  | send a b =>
    change ((if .queued a b.mailboxId ∈ sendMessage s a b then
      { s with messages := b.envelopeId :: s.messages } else s : State).relay.devices.map _).Nodup
    split <;> exact h

theorem device_of_mem (h : Reachable system s) {y : Device} (hy : y ∈ s.relay.devices) :
    s.relay.device y.deviceId = some y := by
  have hnodup : (s.relay.devices.map Device.deviceId).Nodup := by
    refine reachable_invariant (I := fun s : State => (s.relay.devices.map Device.deviceId).Nodup)
      (fun t hi => ?_) step_devices h
    rw [show t.relay.devices = [] from hi.1.2.1]
    exact List.nodup_nil
  unfold Relay.device
  cases hfind : s.relay.devices.find? fun z => z.deviceId = y.deviceId with
  | none => simpa using List.find?_eq_none.mp hfind y hy
  | some z =>
    have hid : z.deviceId = y.deviceId := by simpa using List.find?_some hfind
    rw [List.inj_on_of_nodup_map hnodup (List.mem_of_find?_eq_some hfind) hy hid]

/-- A signal asks about everything. -/
theorem forwardSignal_lawful (h : Reachable system s) {m : Signal} {c : Circumstances}
    (hx : x ∈ forwardSignal s a m c) : Lawful s x := by
  unfold forwardSignal at hx
  split at hx
  · exact absurd hx List.not_mem_nil
  · next u hu =>
    split at hx
    · exact absurd hx List.not_mem_nil
    · split at hx
      · exact absurd hx List.not_mem_nil
      · split at hx
        · exact absurd hx List.not_mem_nil
        · next y hy =>
          split at hx
          · cases List.mem_singleton.mp hx
            have hpeer : isPeer s.relay u m.toUid y = true := List.find?_some hy
            simp only [isPeer, Bool.and_eq_true, Bool.not_eq_true'] at hpeer
            obtain ⟨⟨hrevoked, huid⟩, hp⟩ := hpeer
            obtain ⟨z, hz, hactive⟩ : ∃ z, s.relay.user y.userId = some z ∧ z.revoked = false := by
              unfold activeUid at huid
              split at huid
              · cases huid
              · next z hz => exact ⟨z, hz, (of_decide_eq_true huid).2⟩
            have hdevice := device_of_mem h (List.mem_of_find?_eq_some hy)
            obtain ⟨hne, haccepted⟩ := (run_invariant h).accepted hp
            exact ⟨u, y.userId, hu, active_of_rows hdevice hrevoked hz hactive, hne.symm,
              by rw [permitted_comm]; exact hp, haccepted.symm⟩
          · exact absurd hx List.not_mem_nil

end Signals

/-- An accept and a reject of one request under way at once. `held` is the row that the
accept has locked; the reject waits for it. -/
structure Race where
  relay : Relay
  held : Option ConnectionRequest
  accept : Option Reply
  reject : Option Reply

inductive Turn where
  | select
  | commit
  | reject
  | tick (ms : Nat)

def Race.Enabled (r : Race) : Turn → Prop
  | .select => r.held = none ∧ r.accept = none
  | .commit => r.held.isSome
  | .reject => r.held = none ∧ r.reject = none
  | .tick _ => True

/-- The first part of `accept`, up to the lock. -/
def selectForUpdate (d : DeviceId) (id : RequestId) (r : Race) : Race :=
  match currentUserId r.relay d with
  | none => { r with accept := some .deviceNotActive }
  | some v =>
    match acceptable r.relay v id with
    | none => { r with accept := some .notFound }
    | some row => { r with held := some row }

def Race.next (da dr : DeviceId) (id : RequestId) (r : Race) : Turn → Race
  | .select => selectForUpdate da id r
  | .commit =>
    match r.held with
    | none => r
    | some row => { r with relay := commitAccept r.relay row, held := none, accept := some .accepted }
  | .reject =>
    { r with
      relay := (rejectRequest r.relay dr id).2, reject := some (rejectRequest r.relay dr id).1 }
  | .tick ms => { r with relay := { r.relay with now := r.relay.now + ms } }

def race (da dr : DeviceId) (id : RequestId) : System Race Turn :=
  ⟨fun r => r.held = none ∧ r.accept = none ∧ r.reject = none, Race.Enabled, Race.next da dr id⟩

def pendingRow (s : Relay) (v : UserId) (id : RequestId) : Bool := s.requests.any (rejectable v id)

/-- The stations of a race. -/
inductive Station (v : UserId) (id : RequestId) (r : Race) : Prop where
  | open_ (held : r.held = none) (accept : r.accept = none ∨ r.accept = some .notFound)
      (reject : r.reject = none) (row : pendingRow r.relay v id = true)
  | locked (row : ConnectionRequest) (held : r.held = some row) (id : row.requestId = id)
      (accept : r.accept = none) (reject : r.reject = none)
  | accepted (held : r.held = none) (accept : r.accept = some .accepted)
      (reject : r.reject = none ∨ r.reject = some .notFound) (row : pendingRow r.relay v id = false)
  | rejected (held : r.held = none) (accept : r.accept = none ∨ r.accept = some .notFound)
      (reject : r.reject = some .rejected) (row : pendingRow r.relay v id = false)

section Racing

variable {v : UserId} {id : RequestId} {da dr : DeviceId}

theorem acceptable_pending {s : Relay} {row : ConnectionRequest} (h : acceptable s v id = some row) :
    row.requestId = id ∧ pendingRow s v id = true := by
  have hfound : row.requestId = id ∧ pendingFor s v row := by simpa using List.find?_some h
  obtain ⟨hrecipient, hpending, _⟩ := of_decide_eq_true hfound.2
  exact ⟨hfound.1, List.any_eq_true.mpr ⟨row, List.mem_of_find?_eq_some h,
    decide_eq_true ⟨hfound.1, hrecipient, hpending⟩⟩⟩

theorem commitAccept_row {s : Relay} {row : ConnectionRequest} (h : row.requestId = id) :
    pendingRow (commitAccept s row) v id = false := by
  refine List.any_eq_false.mpr fun r hr => ?_
  obtain ⟨x, hx, rfl⟩ := List.mem_map.mp hr
  split
  · exact fun hpending => absurd (of_decide_eq_true hpending).2.2 nofun
  · next hne => exact fun hpending => hne ((of_decide_eq_true hpending).1.trans h.symm)

theorem rejectRequest_row {s : Relay} (hd : currentUserId s dr = some v) :
    (pendingRow s v id = true → (rejectRequest s dr id).1 = .rejected) ∧
      (pendingRow s v id = false → (rejectRequest s dr id).1 = .notFound) ∧
      pendingRow (rejectRequest s dr id).2 v id = false := by
  unfold rejectRequest
  rw [hd]
  dsimp only
  split
  · next hany =>
    refine ⟨fun _ => rfl, fun hnone => absurd (hany.symm.trans hnone) nofun, ?_⟩
    refine List.any_eq_false.mpr fun r hr => ?_
    obtain ⟨x, hx, rfl⟩ := List.mem_map.mp hr
    split
    · exact fun hpending => absurd (of_decide_eq_true hpending).2.2 nofun
    · next hne => exact hne
  · next hnone =>
    have hfalse : pendingRow s v id = false := Bool.eq_false_iff.mpr hnone
    exact ⟨fun hany => absurd (hany.symm.trans hfalse) nofun, fun _ => rfl, hfalse⟩

theorem rejectRequest_user {s : Relay} (d : DeviceId) :
    currentUserId (rejectRequest s dr id).2 d = currentUserId s d := by
  unfold rejectRequest
  split
  · rfl
  · split <;> rfl

theorem race_step (r : Race) (e : Turn)
    (h : (currentUserId r.relay da = some v ∧ currentUserId r.relay dr = some v) ∧ Station v id r)
    (he : Race.Enabled r e) :
    (currentUserId (Race.next da dr id r e).relay da = some v ∧
      currentUserId (Race.next da dr id r e).relay dr = some v) ∧
      Station v id (Race.next da dr id r e) := by
  obtain ⟨hd, hstation⟩ := h
  cases e with
  | tick ms =>
    refine ⟨hd, ?_⟩
    cases hstation with
    | open_ held accept reject row => exact .open_ held accept reject row
    | locked row held hid accept reject => exact .locked row held hid accept reject
    | accepted held accept reject row => exact .accepted held accept reject row
    | rejected held accept reject row => exact .rejected held accept reject row
  | select =>
    change (currentUserId (selectForUpdate da id r).relay da = some v ∧
      currentUserId (selectForUpdate da id r).relay dr = some v) ∧
      Station v id (selectForUpdate da id r)
    cases hfound : acceptable r.relay v id with
    | none =>
      have hselect : selectForUpdate da id r = { r with accept := some .notFound } := by
        simp only [selectForUpdate, hd.1, hfound]
      rw [hselect]
      refine ⟨hd, ?_⟩
      cases hstation with
      | open_ held accept reject row => exact .open_ held (.inr rfl) reject row
      | locked row held hid accept reject => exact absurd (held.symm.trans he.1) nofun
      | accepted held accept reject row => exact absurd (accept.symm.trans he.2) nofun
      | rejected held accept reject row => exact .rejected held (.inr rfl) reject row
    | some found =>
      have hselect : selectForUpdate da id r = { r with held := some found } := by
        simp only [selectForUpdate, hd.1, hfound]
      obtain ⟨hid, hrow⟩ := acceptable_pending hfound
      rw [hselect]
      refine ⟨hd, ?_⟩
      cases hstation with
      | open_ held accept reject row => exact .locked found rfl hid he.2 reject
      | locked row held _ accept reject => exact absurd (held.symm.trans he.1) nofun
      | accepted held accept reject row => exact absurd (row.symm.trans hrow) nofun
      | rejected held accept reject row => exact absurd (row.symm.trans hrow) nofun
  | commit =>
    cases hstation with
    | open_ held accept reject row =>
      change r.held.isSome = true at he
      rw [held] at he
      cases he
    | accepted held accept reject row =>
      change r.held.isSome = true at he
      rw [held] at he
      cases he
    | rejected held accept reject row =>
      change r.held.isSome = true at he
      rw [held] at he
      cases he
    | locked row held hid accept reject =>
      unfold Race.next
      rw [held]
      exact ⟨hd, .accepted rfl rfl (.inl reject) (commitAccept_row hid)⟩
  | reject =>
    obtain ⟨hrejected, hnotFound, hrow⟩ := rejectRequest_row hd.2
    refine ⟨⟨(rejectRequest_user da).trans hd.1, (rejectRequest_user dr).trans hd.2⟩, ?_⟩
    cases hstation with
    | open_ held accept reject row =>
      exact .rejected held accept (congrArg some (hrejected row)) hrow
    | locked row held hid accept reject => exact absurd (held.symm.trans he.1) nofun
    | accepted held accept reject row =>
      exact .accepted held accept (.inr (congrArg some (hnotFound row))) hrow
    | rejected held accept reject row => exact absurd (reject.symm.trans he.2) nofun

/-- However an accept and a reject of a pending request interleave, one of them succeeds. -/
theorem race_decided {s : Relay} {ts : List Turn} {t : Race} (ha : currentUserId s da = some v)
    (hr : currentUserId s dr = some v) (hrow : pendingRow s v id = true)
    (h : Execution (race da dr id) ⟨s, none, none, none⟩ ts t) (haccept : t.accept.isSome)
    (hreject : t.reject.isSome) : t.accept = some .accepted ↔ t.reject ≠ some .rejected := by
  have hend := (execution_invariant (M := race da dr id) (I := fun r =>
    (currentUserId r.relay da = some v ∧ currentUserId r.relay dr = some v) ∧ Station v id r)
    race_step h ⟨⟨ha, hr⟩, .open_ rfl (.inl rfl) rfl hrow⟩).2
  cases hend with
  | open_ held accept reject row => rw [reject] at hreject; cases hreject
  | locked row held hid accept reject => rw [accept] at haccept; cases haccept
  | accepted held accept reject row =>
    refine iff_of_true accept ?_
    obtain hnone | hsome := reject
    · rw [hnone]
      exact nofun
    · rw [hsome]
      exact nofun
  | rejected held accept reject row =>
    refine iff_of_false ?_ fun h => h reject
    obtain hnone | hsome := accept
    · rw [hnone]
      exact nofun
    · rw [hsome]
      exact nofun

end Racing

/-- Everything the relay passes on is lawful exactly if its recipient is active, which a
signal's always is; an accept and a reject of one request are never both successful, and
one of them is. -/
theorem deliveries_lawful_iff {s : State} (h : Reachable system s) :
    (∀ a b x, x ∈ sendMessage s a b →
      (Lawful s x ↔ (currentUserId s.relay x.target).isSome)) ∧
    (∀ a target x, x ∈ prekeyBundle s a target →
      (Lawful s x ↔ (currentUserId s.relay x.target).isSome)) ∧
    (∀ a m c x, x ∈ forwardSignal s a m c → Lawful s x) ∧
    (∀ v id da dr ts t, currentUserId s.relay da = some v → currentUserId s.relay dr = some v →
      pendingRow s.relay v id = true → Execution (race da dr id) ⟨s.relay, none, none, none⟩ ts t →
      t.accept.isSome → t.reject.isSome → (t.accept = some .accepted ↔ t.reject ≠ some .rejected)) :=
  ⟨fun _ _ _ hx => (sendMessage_permitted hx).lawful_iff (run_invariant h),
    fun _ _ _ hx => (prekeyBundle_permitted hx).lawful_iff (run_invariant h),
    fun _ _ _ _ hx => forwardSignal_lawful h hx,
    fun _ _ _ _ _ _ ha hr hrow hx haccept hreject => race_decided ha hr hrow hx haccept hreject⟩

/-- The tables after bob accepted alice's request and his account was revoked. -/
def revokedRecipient : State :=
  let accepted : List RelayConversations.Event :=
    activations ++ [.ask "d1" "bob" "r1", .accept "d2" "r1", .revokeUser "u2"]
  system.replay ⟨setUp, [], [], [], []⟩ (accepted.map Event.table)

def letter : Envelope := ⟨"00000000000000000000000000000001", "d2", false, none, none⟩

theorem revokedRecipient_reachable : Reachable system revokedRecipient := by
  refine valid_trace_reachable (reachable_initial ⟨⟨rfl, rfl, rfl, rfl, rfl⟩, rfl, rfl, rfl, rfl⟩) ?_
  refine ⟨⟨?_, ?_⟩, ⟨?_, ?_⟩, ?_, trivial, trivial, trivial⟩
  · exact fun x hx => absurd hx List.not_mem_nil
  · exact fun x hx => absurd hx List.not_mem_nil
  · decide
  · decide
  · exact fun r hr => absurd hr List.not_mem_nil

/-- The queue takes an envelope for an account that was revoked. -/
theorem queued_to_revoked : Reachable system revokedRecipient ∧
    .queued "d1" "d2" ∈ sendMessage revokedRecipient "d1" letter ∧
    ¬Lawful revokedRecipient (.queued "d1" "d2") := by
  refine ⟨revokedRecipient_reachable, by decide, ?_⟩
  rintro ⟨u, v, _, hv, _⟩
  have hnone : currentUserId revokedRecipient.relay "d2" = none := by decide
  exact absurd (hnone.symm.trans hv) nofun

theorem revokedRecipient_decided :
    ¬Lawful revokedRecipient (.queued "d1" "d2") ∧
      (currentUserId revokedRecipient.relay "d2").isSome = false := by
  have hnone : (currentUserId revokedRecipient.relay "d2").isSome = false := by decide
  refine ⟨fun hlawful => ?_, hnone⟩
  have hactive := ((deliveries_lawful_iff revokedRecipient_reachable).1 "d1" letter _ (by decide)).mp hlawful
  exact absurd (hnone.symm.trans hactive) nofun

end RelayAuthorization
