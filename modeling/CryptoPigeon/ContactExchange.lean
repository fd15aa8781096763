import CryptoPigeon.RelayConversations

/-! # Acknowledging an exchanged contact in overlapping transactions

`RelayConversations.exchangeAck` statement by statement, at READ COMMITTED. A statement sees
the rows that are committed when it starts and those of its own transaction; one that would
wait for a row of another transaction is taken when that one has ended. `answered` is history. -/
namespace ContactExchange

open TransitionSystem RelayConversations

local instance pairLawful : LawfulBEq (UserId × UserId) := inferInstance

/-- What a transaction has done last. -/
inductive Stage where
  | began
  | inserted
  | looked
  | requestsDeleted
  | acksDeleted
  deriving DecidableEq, Repr

/-- `added` unless the insert met a conflict, `found` if `both.rowCount`; the rest is deleted
but not committed. -/
structure Txn where
  id : Nat
  own : UserId
  peer : UserId
  stage : Stage
  added : Bool
  found : Bool
  requests : List RequestId
  acks : List (UserId × UserId)
  deriving DecidableEq, Repr

structure State where
  relay : Relay
  txns : List Txn
  answered : List (UserId × UserId)

def ofPair (u v : UserId) (a : UserId × UserId) : Bool := a == (u, v) || a == (v, u)

/-- The accepted rows that the first deletion finds. -/
def acceptedOf (u v : UserId) (rows : List ConnectionRequest) : List ConnectionRequest :=
  rows.filter fun r => r.status = .accepted && (between u v r || between v u r)

/-- What the second one finds, its own row included. -/
def acksOf (s : State) (t : Txn) : List (UserId × UserId) :=
  (s.relay.exchangeAcks ++ if t.added then [(t.own, t.peer)] else []).filter (ofPair t.own t.peer)

/-- Another transaction has written the row and has not ended. -/
def Held (s : State) (t : Txn) (a : UserId × UserId) : Prop :=
  ∃ x ∈ s.txns, x.id ≠ t.id ∧ ((x.added ∧ (x.own, x.peer) = a) ∨ a ∈ x.acks)

instance (s : State) (t : Txn) (a : UserId × UserId) : Decidable (Held s t a) :=
  inferInstanceAs (Decidable (∃ x ∈ s.txns, _))

def HeldRequest (s : State) (t : Txn) (id : RequestId) : Prop :=
  ∃ x ∈ s.txns, x.id ≠ t.id ∧ id ∈ x.requests

instance (s : State) (t : Txn) (id : RequestId) : Decidable (HeldRequest s t id) :=
  inferInstanceAs (Decidable (∃ x ∈ s.txns, _))

def write (t : Txn) (s : State) : State :=
  { s with txns := s.txns.map fun x => if x.id = t.id then t else x }

def close (t : Txn) (s : State) : State := { s with txns := s.txns.filter fun x => x.id ≠ t.id }

/-- The checks of the devices and of the permission. -/
def begin (id : Nat) (d peer : DeviceId) (s : State) : State :=
  match deviceUser s.relay d, deviceUser s.relay peer with
  | some u, some v =>
    if permitted s.relay u v then { s with txns := s.txns ++ [⟨id, u, v, .began, false, false, [], []⟩] }
    else s
  | _, _ => s

def insertAck (t : Txn) (s : State) : State :=
  write { t with
    stage := .inserted, added := decide ((t.own, t.peer) ∉ s.relay.exchangeAcks) } s

def look (t : Txn) (s : State) : State :=
  write { t with stage := .looked, found := decide ((t.peer, t.own) ∈ s.relay.exchangeAcks) } s

def deleteRequests (t : Txn) (s : State) : State :=
  write { t with
    stage := .requestsDeleted
    requests := (acceptedOf t.own t.peer s.relay.requests).map ConnectionRequest.requestId } s

def deleteAcks (t : Txn) (s : State) : State :=
  write { t with stage := .acksDeleted, acks := acksOf s t } s

def commitRows (t : Txn) (r : Relay) : Relay :=
  { r with
    requests := r.requests.filter fun x => x.requestId ∉ t.requests
    exchangeAcks :=
      (r.exchangeAcks ++ if t.added then [(t.own, t.peer)] else []).filter fun a => a ∉ t.acks }

def commit (t : Txn) (s : State) : State :=
  close t { s with relay := commitRows t s.relay, answered := s.answered ++ [(t.own, t.peer)] }

inductive Event where
  | begin (id : Nat) (d peer : DeviceId)
  | insertAck (t : Txn)
  | look (t : Txn)
  | deleteRequests (t : Txn)
  | deleteAcks (t : Txn)
  | commit (t : Txn)
  | rollback (t : Txn)

def Enabled (s : State) : Event → Prop
  | .begin id _ _ => ∀ x ∈ s.txns, x.id ≠ id
  | .insertAck t => t ∈ s.txns ∧ t.stage = .began ∧ ¬Held s t (t.own, t.peer)
  | .look t => t ∈ s.txns ∧ t.stage = .inserted
  | .deleteRequests t =>
    t ∈ s.txns ∧ t.stage = .looked ∧ t.found ∧
      ∀ r ∈ acceptedOf t.own t.peer s.relay.requests, ¬HeldRequest s t r.requestId
  | .deleteAcks t =>
    t ∈ s.txns ∧ t.stage = .requestsDeleted ∧ ∀ a ∈ acksOf s t, ¬Held s t a
  | .commit t => t ∈ s.txns ∧ ((t.stage = .looked ∧ t.found = false) ∨ t.stage = .acksDeleted)
  | .rollback t => t ∈ s.txns

def next (s : State) : Event → State
  | .begin id d peer => ContactExchange.begin id d peer s
  | .insertAck t => ContactExchange.insertAck t s
  | .look t => ContactExchange.look t s
  | .deleteRequests t => ContactExchange.deleteRequests t s
  | .deleteAcks t => ContactExchange.deleteAcks t s
  | .commit t => ContactExchange.commit t s
  | .rollback t => close t s

/-- Nobody has acknowledged yet; the last clause is the check of `conversation_permissions`. -/
structure Initial (s : State) : Prop where
  acks : s.relay.exchangeAcks = []
  txns : s.txns = []
  answered : s.answered = []
  pairs : ∀ p ∈ s.relay.permissions, p.userOne < p.userTwo

def system : System State Event := ⟨Initial, Enabled, next⟩

/-- An ack of each side was answered. -/
def Exchanged (s : State) (u v : UserId) : Prop := (u, v) ∈ s.answered ∧ (v, u) ∈ s.answered

def Purged (r : Relay) (u v : UserId) : Prop :=
  acceptedOf u v r.requests = [] ∧ ∀ a ∈ r.exchangeAcks, ofPair u v a = false

/-- It has added its row and has not found the other one. -/
def Missed (t : Txn) : Prop := t.added ∧ t.stage = .looked ∧ t.found = false

/-- A row is added only until both sides have been answered, and an ack does not look for the
other row while one of the other side that has missed its own is not answered. -/
def Ordered (s : State) : Event → Prop
  | .insertAck t => (t.own, t.peer) ∉ s.relay.exchangeAcks → ¬Exchanged s t.own t.peer
  | .look t => t.added → ∀ x ∈ s.txns, x.own = t.peer → x.peer = t.own → ¬Missed x
  | _ => True

instance (s : State) (e : Event) : Decidable (Enabled s e) :=
  match e with
  | .begin id _ _ => inferInstanceAs (Decidable (∀ x ∈ s.txns, x.id ≠ id))
  | .insertAck t => inferInstanceAs (Decidable (t ∈ s.txns ∧ t.stage = .began ∧ ¬Held s t _))
  | .look t => inferInstanceAs (Decidable (t ∈ s.txns ∧ t.stage = .inserted))
  | .deleteRequests t => inferInstanceAs (Decidable (t ∈ s.txns ∧ t.stage = .looked ∧ t.found ∧
      ∀ r ∈ acceptedOf t.own t.peer s.relay.requests, ¬HeldRequest s t r.requestId))
  | .deleteAcks t => inferInstanceAs (Decidable (t ∈ s.txns ∧ t.stage = .requestsDeleted ∧
      ∀ a ∈ acksOf s t, ¬Held s t a))
  | .commit t => inferInstanceAs (Decidable (t ∈ s.txns ∧
      ((t.stage = .looked ∧ t.found = false) ∨ t.stage = .acksDeleted)))
  | .rollback t => inferInstanceAs (Decidable (t ∈ s.txns))

instance (t : Txn) : Decidable (Missed t) :=
  inferInstanceAs (Decidable (t.added ∧ t.stage = .looked ∧ t.found = false))

instance (s : State) (u v : UserId) : Decidable (Exchanged s u v) :=
  inferInstanceAs (Decidable ((u, v) ∈ s.answered ∧ (v, u) ∈ s.answered))

instance (s : State) (e : Event) : Decidable (Ordered s e) :=
  match e with
  | .insertAck _ => inferInstanceAs (Decidable (_ ∉ s.relay.exchangeAcks → ¬Exchanged s _ _))
  | .look t => inferInstanceAs (Decidable (t.added → ∀ x ∈ s.txns, _ → _ → ¬Missed x))
  | .begin _ _ _ => isTrue trivial
  | .deleteRequests _ => isTrue trivial
  | .deleteAcks _ => isTrue trivial
  | .commit _ => isTrue trivial
  | .rollback _ => isTrue trivial

/-- While acks run. -/
structure Invariant (s : State) : Prop where
  pairs : ∀ p ∈ s.relay.permissions, p.userOne < p.userTwo
  unique : ∀ x ∈ s.txns, ∀ y ∈ s.txns, x.id = y.id → x = y
  distinct : ∀ t ∈ s.txns, t.own ≠ t.peer
  early : ∀ t ∈ s.txns, (t.stage = .began → t.added = false) ∧
    (t.stage = .began ∨ t.stage = .inserted → t.found = false) ∧
    (t.stage ≠ .acksDeleted → t.acks = [])
  late : ∀ t ∈ s.txns, t.stage = .requestsDeleted ∨ t.stage = .acksDeleted → t.found = true ∧
    ∀ r ∈ acceptedOf t.own t.peer s.relay.requests, r.requestId ∈ t.requests
  emptied : ∀ t ∈ s.txns, (∀ a ∈ t.acks, ofPair t.own t.peer a) ∧
    (t.stage = .acksDeleted → t.added → (t.own, t.peer) ∈ t.acks ∧ (t.peer, t.own) ∈ t.acks)
  rows : ∀ a ∈ s.relay.exchangeAcks, a ∈ s.answered
  kept : ∀ u v, (u, v) ∈ s.answered → (v, u) ∉ s.answered → (u, v) ∈ s.relay.exchangeAcks
  purged : ∀ u v, Exchanged s u v → Purged s.relay u v ∧
    ∀ t ∈ s.txns, t.own = u → t.peer = v → t.added = false
  alone : ∀ t ∈ s.txns, t.added → (t.own, t.peer) ∉ s.relay.exchangeAcks ∧
    ∀ x ∈ s.txns, x.added → x.own = t.own → x.peer = t.peer → x = t
  conflict : ∀ t ∈ s.txns, t.stage ≠ .began → t.added = false → (t.own, t.peer) ∈ s.answered
  found : ∀ t ∈ s.txns, t.found → (t.peer, t.own) ∈ s.answered
  missed : ∀ t ∈ s.txns, Missed t → (t.peer, t.own) ∉ s.answered
  apart : ∀ t ∈ s.txns, ∀ x ∈ s.txns, Missed t → Missed x → x.own = t.peer → x.peer ≠ t.own

section Transactions

variable {s : State} {t t' x : Txn} {u v : UserId}

theorem mem_write (h : x ∈ (write t s).txns) : x = t ∨ (x ∈ s.txns ∧ x.id ≠ t.id) := by
  obtain ⟨y, hy, rfl⟩ := List.mem_map.mp h
  split
  · exact .inl rfl
  · next hne => exact .inr ⟨hy, hne⟩

theorem mem_close (h : x ∈ (close t s).txns) : x ∈ s.txns ∧ x.id ≠ t.id := by
  obtain ⟨hx, hne⟩ := List.mem_filter.mp h
  exact ⟨hx, by simpa using hne⟩

theorem ofPair_iff {a : UserId × UserId} : ofPair u v a = true ↔ a = (u, v) ∨ a = (v, u) := by
  simp [ofPair]

theorem Purged.symm {r : Relay} (h : Purged r u v) : Purged r v u := by
  refine ⟨?_, fun a ha => ?_⟩
  · rw [← h.1]
    unfold acceptedOf
    simp only [Bool.or_comm]
  · rw [← h.2 a ha]
    unfold ofPair
    rw [Bool.or_comm]

theorem Exchanged.symm (h : Exchanged s u v) : Exchanged s v u := ⟨h.2, h.1⟩

/-- What is asked of the transaction a statement has changed, for the invariant to go on. -/
structure Continues (s : State) (t t' : Txn) : Prop where
  id : t'.id = t.id
  own : t'.own = t.own
  peer : t'.peer = t.peer
  early : (t'.stage = .began → t'.added = false) ∧
    (t'.stage = .began ∨ t'.stage = .inserted → t'.found = false) ∧
    (t'.stage ≠ .acksDeleted → t'.acks = [])
  late : t'.stage = .requestsDeleted ∨ t'.stage = .acksDeleted → t'.found = true ∧
    ∀ r ∈ acceptedOf t.own t.peer s.relay.requests, r.requestId ∈ t'.requests
  emptied : (∀ a ∈ t'.acks, ofPair t.own t.peer a) ∧
    (t'.stage = .acksDeleted → t'.added → (t.own, t.peer) ∈ t'.acks ∧ (t.peer, t.own) ∈ t'.acks)
  purged : Exchanged s t.own t.peer → t'.added = false
  alone : t'.added → (t.own, t.peer) ∉ s.relay.exchangeAcks ∧
    ∀ x ∈ s.txns, x.id ≠ t.id → x.added → x.own = t.own → x.peer ≠ t.peer
  conflict : t'.stage ≠ .began → t'.added = false → (t.own, t.peer) ∈ s.answered
  found : t'.found → (t.peer, t.own) ∈ s.answered
  missed : Missed t' → (t.peer, t.own) ∉ s.answered
  apart : Missed t' → ∀ x ∈ s.txns, x.id ≠ t.id → Missed x → x.own = t.peer → x.peer ≠ t.own

theorem Invariant.write (h : Invariant s) (ht : t ∈ s.txns) (hc : Continues s t t') :
    Invariant (write t' s) := by
  obtain ⟨hid, hown, hpeer, hearly, hlate, hemptied, hpurged, halone, hconflict, hfound, hmissed,
    hapart⟩ := hc
  have split {x : Txn} (hx : x ∈ (ContactExchange.write t' s).txns) :
      x = t' ∨ (x ∈ s.txns ∧ x.id ≠ t.id) := by
    rw [← hid]
    exact mem_write hx
  refine ⟨h.pairs, fun x hx y hy hxy => ?_, fun x hx => ?_, fun x hx => ?_, fun x hx => ?_,
    fun x hx => ?_, h.rows, h.kept, fun u v huv => ⟨(h.purged u v huv).1, fun x hx hu hv => ?_⟩,
    fun x hx hadded => ?_, fun x hx => ?_, fun x hx => ?_, fun x hx => ?_, fun x hx y hy => ?_⟩
  · rcases split hx with rfl | ⟨hx, hxid⟩ <;> rcases split hy with rfl | ⟨hy, hyid⟩
    · rfl
    · exact absurd (hxy.symm.trans hid) hyid
    · exact absurd (hxy.trans hid) hxid
    · exact h.unique x hx y hy hxy
  · rcases split hx with rfl | ⟨hx, -⟩
    · rw [hown, hpeer]
      exact h.distinct t ht
    · exact h.distinct x hx
  · rcases split hx with rfl | ⟨hx, -⟩
    · exact hearly
    · exact h.early x hx
  · rcases split hx with rfl | ⟨hx, -⟩
    · rw [hown, hpeer]
      exact hlate
    · exact h.late x hx
  · rcases split hx with rfl | ⟨hx, -⟩
    · rw [hown, hpeer]
      exact hemptied
    · exact h.emptied x hx
  · rcases split hx with rfl | ⟨hx, -⟩
    · rw [hown] at hu
      rw [hpeer] at hv
      subst hu hv
      exact hpurged huv
    · exact (h.purged u v huv).2 x hx hu hv
  · rcases split hx with rfl | ⟨hx, hxid⟩
    · rw [hown, hpeer]
      refine ⟨(halone hadded).1, fun y hy hyadded hyo hyp => ?_⟩
      rcases split hy with rfl | ⟨hy, hyid⟩
      · rfl
      · exact absurd hyp ((halone hadded).2 y hy hyid hyadded hyo)
    · refine ⟨(h.alone x hx hadded).1, fun y hyw hyadded hyo hyp => ?_⟩
      rcases split hyw with hyt | ⟨hy, -⟩
      · rw [hyt, hown] at hyo
        rw [hyt, hpeer] at hyp
        exact absurd hyp.symm ((halone (hyt ▸ hyadded)).2 x hx hxid hadded hyo.symm)
      · exact (h.alone x hx hadded).2 y hy hyadded hyo hyp
  · rcases split hx with rfl | ⟨hx, -⟩
    · rw [hown, hpeer]
      exact hconflict
    · exact h.conflict x hx
  · rcases split hx with rfl | ⟨hx, -⟩
    · rw [hown, hpeer]
      exact hfound
    · exact h.found x hx
  · rcases split hx with rfl | ⟨hx, -⟩
    · rw [hown, hpeer]
      exact hmissed
    · exact h.missed x hx
  · intro hmx hmy hyo hyp
    rcases split hx with hxt | ⟨hxs, hxid⟩ <;> rcases split hy with hyt | ⟨hys, hyid⟩
    · rw [hxt, hyt] at hyo
      exact h.distinct t ht (by rw [← hown, hyo, hpeer])
    · rw [hxt, hpeer] at hyo
      rw [hxt, hown] at hyp
      exact hapart (hxt ▸ hmx) y hys hyid hmy hyo hyp
    · rw [hyt, hown] at hyo
      rw [hyt, hpeer] at hyp
      exact hapart (hyt ▸ hmy) x hxs hxid hmx hyp.symm hyo.symm
    · exact h.apart x hxs y hys hmx hmy hyo hyp

/-- Fewer transactions, rows the same. -/
theorem Invariant.rollback (h : Invariant s) (t : Txn) : Invariant (close t s) where
  pairs := h.pairs
  unique x hx y hy := h.unique x (mem_close hx).1 y (mem_close hy).1
  distinct x hx := h.distinct x (mem_close hx).1
  early x hx := h.early x (mem_close hx).1
  late x hx := h.late x (mem_close hx).1
  emptied x hx := h.emptied x (mem_close hx).1
  rows := h.rows
  kept := h.kept
  purged u v huv := ⟨(h.purged u v huv).1, fun x hx => (h.purged u v huv).2 x (mem_close hx).1⟩
  alone x hx hadded := ⟨(h.alone x (mem_close hx).1 hadded).1, fun y hy =>
    (h.alone x (mem_close hx).1 hadded).2 y (mem_close hy).1⟩
  conflict x hx := h.conflict x (mem_close hx).1
  found x hx := h.found x (mem_close hx).1
  missed x hx := h.missed x (mem_close hx).1
  apart x hx y hy := h.apart x (mem_close hx).1 y (mem_close hy).1

theorem permitted_distinct (hpairs : ∀ p ∈ s.relay.permissions, p.userOne < p.userTwo)
    (h : permitted s.relay u v = true) : u ≠ v := by
  rintro rfl
  obtain ⟨p, hp, hpair⟩ := List.any_eq_true.mp h
  have heq := (of_decide_eq_true hpair).1
  have hself : pair u u = (u, u) := by
    unfold pair
    split <;> rfl
  rw [hself] at heq
  obtain ⟨hone, htwo⟩ := Prod.mk.inj heq
  exact absurd (hone ▸ htwo ▸ hpairs p hp) (lt_irrefl _)

theorem Invariant.begin {id : Nat} {d peer : DeviceId} (h : Invariant s)
    (hfresh : ∀ x ∈ s.txns, x.id ≠ id) : Invariant (begin id d peer s) := by
  unfold ContactExchange.begin
  split
  · next u v _ _ =>
    split
    · next hpermitted =>
      have split {x : Txn} (hx : x ∈ s.txns ++ [⟨id, u, v, .began, false, false, [], []⟩]) :
          x ∈ s.txns ∨ x = ⟨id, u, v, .began, false, false, [], []⟩ := by simpa using hx
      have hmissed : ¬Missed ⟨id, u, v, .began, false, false, [], []⟩ := fun hm => by cases hm.1
      refine ⟨h.pairs, fun x hx y hy hxy => ?_, fun x hx => ?_, fun x hx => ?_, fun x hx => ?_,
        fun x hx => ?_, h.rows, h.kept,
        fun a b hab => ⟨(h.purged a b hab).1, fun x hx ha hb => ?_⟩,
        fun x hx hadded => ?_, fun x hx => ?_, fun x hx => ?_, fun x hx => ?_, fun x hx y hy => ?_⟩
      · rcases split hx with hx | rfl <;> rcases split hy with hy | rfl
        · exact h.unique x hx y hy hxy
        · exact absurd hxy (hfresh x hx)
        · exact absurd hxy.symm (hfresh y hy)
        · rfl
      · rcases split hx with hx | rfl
        · exact h.distinct x hx
        · exact permitted_distinct h.pairs hpermitted
      · rcases split hx with hx | rfl
        · exact h.early x hx
        · exact ⟨fun _ => rfl, fun _ => rfl, fun _ => rfl⟩
      · rcases split hx with hx | rfl
        · exact h.late x hx
        · intro hstage
          simp at hstage
      · rcases split hx with hx | rfl
        · exact h.emptied x hx
        · exact ⟨fun a ha => absurd ha List.not_mem_nil, fun hstage => by cases hstage⟩
      · rcases split hx with hx | rfl
        · exact (h.purged a b hab).2 x hx ha hb
        · rfl
      · rcases split hx with hx | rfl
        · refine ⟨(h.alone x hx hadded).1, fun y hy hyadded => ?_⟩
          rcases split hy with hy | rfl
          · exact (h.alone x hx hadded).2 y hy hyadded
          · cases hyadded
        · cases hadded
      · rcases split hx with hx | rfl
        · exact h.conflict x hx
        · exact fun hstage => absurd rfl hstage
      · rcases split hx with hx | rfl
        · exact h.found x hx
        · exact fun hfound => by cases hfound
      · rcases split hx with hx | rfl
        · exact h.missed x hx
        · exact fun hm => absurd hm hmissed
      · intro hmx hmy
        rcases split hx with hx | rfl
        · rcases split hy with hy | rfl
          · exact h.apart x hx y hy hmx hmy
          · exact absurd hmy hmissed
        · exact absurd hmx hmissed
    · exact h
  · exact h

theorem Invariant.insertAck (h : Invariant s) (ht : t ∈ s.txns) (hstage : t.stage = .began)
    (hfree : ¬Held s t (t.own, t.peer))
    (hopen : (t.own, t.peer) ∉ s.relay.exchangeAcks → ¬Exchanged s t.own t.peer) :
    Invariant (insertAck t s) := by
  have hearly := h.early t ht
  have hfound : t.found = false := hearly.2.1 (.inl hstage)
  have hacks : t.acks = [] := hearly.2.2 (by rw [hstage]; decide)
  have hnew : decide ((t.own, t.peer) ∉ s.relay.exchangeAcks) = true ↔
      (t.own, t.peer) ∉ s.relay.exchangeAcks := decide_eq_true_iff
  refine h.write ht ⟨rfl, rfl, rfl, ⟨nofun, fun _ => hfound, fun _ => hacks⟩, fun hs => by simp at hs,
    ⟨fun a ha => ?_, nofun⟩, fun hx => ?_, fun hadded => ⟨hnew.mp hadded, fun x hx hne hxa hxo hxp => ?_⟩,
    fun _ hadded => ?_, fun hx => ?_, fun hm => ?_, fun hm => ?_⟩
  · rw [show ({ t with stage := .inserted, added := _ } : Txn).acks = [] from hacks] at ha
    exact absurd ha List.not_mem_nil
  · exact decide_eq_false fun hnot => hopen hnot hx
  · exact hfree ⟨x, hx, hne, .inl ⟨hxa, Prod.ext hxo hxp⟩⟩
  · exact h.rows _ (by simpa using hadded)
  · exact absurd (hfound.symm.trans hx) nofun
  · exact absurd hm.2.1 nofun
  · exact absurd hm.2.1 nofun

/-- A row that was answered for is there, or both sides have been answered. -/
theorem Invariant.row (h : Invariant s) (huv : (u, v) ∈ s.answered) :
    (u, v) ∈ s.relay.exchangeAcks ∨ Exchanged s u v :=
  or_iff_not_imp_right.mpr fun hnot => h.kept u v huv fun hvu => hnot ⟨huv, hvu⟩

theorem Invariant.look (h : Invariant s) (ht : t ∈ s.txns) (hstage : t.stage = .inserted)
    (hturn : t.added → ∀ x ∈ s.txns, x.own = t.peer → x.peer = t.own → ¬Missed x) :
    Invariant (look t s) := by
  have hearly := h.early t ht
  have hacks : t.acks = [] := hearly.2.2 (by rw [hstage]; decide)
  refine h.write ht ⟨rfl, rfl, rfl, ⟨nofun, fun hs => by simp at hs, fun _ => hacks⟩,
    fun hs => by simp at hs, ⟨fun a ha => ?_, nofun⟩, fun hx => (h.purged _ _ hx).2 t ht rfl rfl,
    fun hadded => ⟨(h.alone t ht hadded).1, fun x hx hne hxa hxo hxp => ?_⟩,
    fun _ hadded => h.conflict t ht (by rw [hstage]; decide) hadded, fun hx => ?_, fun hm hans => ?_,
    fun hm x hx _ hmx hxo hxp => hturn hm.1 x hx hxo hxp hmx⟩
  · rw [show ({ t with stage := .looked, found := _ } : Txn).acks = [] from hacks] at ha
    exact absurd ha List.not_mem_nil
  · exact hne (congrArg Txn.id ((h.alone t ht hadded).2 x hx hxa hxo hxp))
  · exact h.rows _ (of_decide_eq_true hx)
  · obtain ⟨hadded, -, hmissed⟩ := hm
    rcases h.row hans with hrow | hboth
    · exact of_decide_eq_false hmissed hrow
    · exact absurd (((h.purged _ _ hboth.symm).2 t ht rfl rfl).symm.trans hadded) nofun

theorem Invariant.deleteRequests (h : Invariant s) (ht : t ∈ s.txns) (hstage : t.stage = .looked)
    (hfound : t.found = true) : Invariant (deleteRequests t s) := by
  have hacks : t.acks = [] := (h.early t ht).2.2 (by rw [hstage]; decide)
  refine h.write ht ⟨rfl, rfl, rfl, ⟨nofun, fun hs => by simp at hs, fun _ => hacks⟩,
    fun _ => ⟨hfound, fun r hr => List.mem_map_of_mem hr⟩, ⟨fun a ha => ?_, nofun⟩,
    fun hx => (h.purged _ _ hx).2 t ht rfl rfl,
    fun hadded => ⟨(h.alone t ht hadded).1, fun x hx hne hxa hxo hxp => ?_⟩,
    fun _ hadded => h.conflict t ht (by rw [hstage]; decide) hadded, fun _ => h.found t ht hfound,
    fun hm => absurd hm.2.1 nofun, fun hm => absurd hm.2.1 nofun⟩
  · rw [show ({ t with stage := .requestsDeleted, requests := _ } : Txn).acks = [] from hacks] at ha
    exact absurd ha List.not_mem_nil
  · exact hne (congrArg Txn.id ((h.alone t ht hadded).2 x hx hxa hxo hxp))

/-- A transaction that found the other row finds it still there when it deletes. -/
theorem Invariant.deleteAcks (h : Invariant s) (ht : t ∈ s.txns)
    (hstage : t.stage = .requestsDeleted) : Invariant (deleteAcks t s) := by
  obtain ⟨hfound, hrequests⟩ := h.late t ht (.inl hstage)
  refine h.write ht ⟨rfl, rfl, rfl, ⟨nofun, fun hs => by simp at hs, fun hs => absurd rfl hs⟩,
    fun _ => ⟨hfound, hrequests⟩, ⟨fun a ha => (List.mem_filter.mp ha).2, fun _ hadded => ⟨?_, ?_⟩⟩,
    fun hx => (h.purged _ _ hx).2 t ht rfl rfl,
    fun hadded => ⟨(h.alone t ht hadded).1, fun x hx hne hxa hxo hxp => ?_⟩,
    fun _ hadded => h.conflict t ht (by rw [hstage]; decide) hadded, fun _ => h.found t ht hfound,
    fun hm => absurd hm.2.1 nofun, fun hm => absurd hm.2.1 nofun⟩
  · have hadded : t.added = true := hadded
    refine List.mem_filter.mpr ⟨List.mem_append_right _ ?_, by simp [ofPair]⟩
    rw [if_pos hadded]
    exact List.mem_singleton_self _
  · have hadded : t.added = true := hadded
    refine List.mem_filter.mpr ⟨List.mem_append_left _ ?_, by simp [ofPair]⟩
    rcases h.row (h.found t ht hfound) with hrow | hboth
    · exact hrow
    · exact absurd (((h.purged _ _ hboth.symm).2 t ht rfl rfl).symm.trans hadded) nofun
  · exact hne (congrArg Txn.id ((h.alone t ht hadded).2 x hx hxa hxo hxp))

theorem mem_commitRows {r : Relay} {a : UserId × UserId} : a ∈ (commitRows t r).exchangeAcks ↔
    (a ∈ r.exchangeAcks ∨ (t.added = true ∧ a = (t.own, t.peer))) ∧ a ∉ t.acks := by
  unfold commitRows
  cases t.added with
  | false => simp
  | true => simp [or_and_right]

theorem acceptedOf_commitRows {r : Relay} {x : ConnectionRequest} :
    x ∈ acceptedOf u v (commitRows t r).requests ↔
      x ∈ acceptedOf u v r.requests ∧ x.requestId ∉ t.requests := by
  simp only [acceptedOf, commitRows, List.mem_filter, decide_eq_true_eq]
  tauto

/-- An ack that has deleted had found the other row. -/
theorem Invariant.deleted_found (h : Invariant s) (ht : t ∈ s.txns) {a : UserId × UserId}
    (ha : a ∈ t.acks) : t.found = true := by
  have hstage : t.stage = .acksDeleted := by
    by_contra hstage
    rw [(h.early t ht).2.2 hstage] at ha
    exact absurd ha List.not_mem_nil
  exact (h.late t ht (.inr hstage)).1

/-- While one side has added its row, that of the other side is there or was never answered. -/
theorem Invariant.opposite (h : Invariant s) (hx : x ∈ s.txns) (hadded : x.added = true)
    (hans : (x.own, x.peer) ∈ s.answered) : Exchanged s x.own x.peer :=
  (h.row hans).resolve_left (h.alone x hx hadded).1

/-- The commit by which both sides have been answered for the first time. -/
theorem Invariant.exchange (h : Invariant s) (ht : t ∈ s.txns)
    (hready : (t.stage = .looked ∧ t.found = false) ∨ t.stage = .acksDeleted)
    (hpeer : (t.peer, t.own) ∈ s.answered) (hown : (t.own, t.peer) ∉ s.answered) :
    Purged (commitRows t s.relay) t.own t.peer ∧ ∀ x ∈ s.txns, x.id ≠ t.id → x.added = true →
      ofPair t.own t.peer (x.own, x.peer) = false := by
  have hbegan : t.stage ≠ .began := by
    rcases hready with ⟨hs, -⟩ | hs <;> rw [hs] <;> decide
  have hadded : t.added = true := by
    by_contra hnot
    exact hown (h.conflict t ht hbegan (by simpa using hnot))
  have hstage : t.stage = .acksDeleted := by
    refine hready.resolve_left fun hlooked => ?_
    exact h.missed t ht ⟨hadded, hlooked⟩ hpeer
  obtain ⟨hmine, hother⟩ := (h.emptied t ht).2 hstage hadded
  refine ⟨⟨List.eq_nil_iff_forall_not_mem.mpr fun r hr => ?_, fun a ha => ?_⟩,
    fun x hx hne hxa => ?_⟩
  · obtain ⟨hr, hkept⟩ := acceptedOf_commitRows.mp hr
    exact hkept ((h.late t ht (.inr hstage)).2 r hr)
  · refine Bool.eq_false_iff.mpr fun hpair => (mem_commitRows.mp ha).2 ?_
    rcases ofPair_iff.mp hpair with rfl | rfl
    · exact hmine
    · exact hother
  · refine Bool.eq_false_iff.mpr fun hpair => ?_
    rcases ofPair_iff.mp hpair with hkey | hkey
    · obtain ⟨hxo, hxp⟩ := Prod.mk.inj hkey
      exact hne (congrArg Txn.id ((h.alone t ht hadded).2 x hx hxa hxo hxp))
    · have hans : (x.own, x.peer) ∈ s.answered := by rw [hkey]; exact hpeer
      obtain ⟨hxo, hxp⟩ := Prod.mk.inj hkey
      have hboth := h.opposite hx hxa hans
      rw [hxo, hxp] at hboth
      exact hown hboth.2

theorem Invariant.commit (h : Invariant s) (ht : t ∈ s.txns)
    (hready : (t.stage = .looked ∧ t.found = false) ∨ t.stage = .acksDeleted) :
    Invariant (commit t s) := by
  have hans {a : UserId × UserId} : a ∈ (ContactExchange.commit t s).answered ↔
      a ∈ s.answered ∨ a = (t.own, t.peer) := by
    change a ∈ s.answered ++ [(t.own, t.peer)] ↔ _
    simp
  have hrows {a : UserId × UserId} : a ∈ (ContactExchange.commit t s).relay.exchangeAcks ↔
      (a ∈ s.relay.exchangeAcks ∨ (t.added = true ∧ a = (t.own, t.peer))) ∧ a ∉ t.acks :=
    mem_commitRows
  have hother {x : Txn} (hx : x ∈ (ContactExchange.commit t s).txns) : x ∈ s.txns ∧ x.id ≠ t.id :=
    mem_close (s := { s with relay := _, answered := _ }) hx
  have hbegan : t.stage ≠ .began := by
    rcases hready with ⟨hs, -⟩ | hs <;> rw [hs] <;> decide
  -- a row that the transaction deletes is of a pair of which both sides are answered now
  have hdeleted {u v : UserId} (ha : (u, v) ∈ t.acks) :
      (v, u) ∈ (ContactExchange.commit t s).answered := by
    have hpeer := h.found t ht (h.deleted_found ht ha)
    rcases ofPair_iff.mp ((h.emptied t ht).1 _ ha) with hkey | hkey
    · obtain ⟨rfl, rfl⟩ := Prod.mk.inj hkey
      exact hans.mpr (.inl hpeer)
    · obtain ⟨rfl, rfl⟩ := Prod.mk.inj hkey
      exact hans.mpr (.inr rfl)
  have hold {u v : UserId} (huv : Exchanged s u v) :
      Purged (ContactExchange.commit t s).relay u v := by
    obtain ⟨⟨hrequests, hacks⟩, hnone⟩ := h.purged u v huv
    refine ⟨List.eq_nil_iff_forall_not_mem.mpr fun r hr => ?_, fun a ha => ?_⟩
    · have hr := (acceptedOf_commitRows.mp hr).1
      rw [hrequests] at hr
      exact absurd hr List.not_mem_nil
    · rcases (hrows.mp ha).1 with ha | ⟨hadded, rfl⟩
      · exact hacks a ha
      · refine Bool.eq_false_iff.mpr fun hpair => ?_
        rcases ofPair_iff.mp hpair with hkey | hkey
        · obtain ⟨hu, hv⟩ := Prod.mk.inj hkey
          exact absurd ((hnone t ht hu hv).symm.trans hadded) nofun
        · obtain ⟨hu, hv⟩ := Prod.mk.inj hkey
          exact absurd (((h.purged v u huv.symm).2 t ht hu hv).symm.trans hadded) nofun
  refine ⟨h.pairs, fun x hx y hy => h.unique x (hother hx).1 y (hother hy).1,
    fun x hx => h.distinct x (hother hx).1, fun x hx => h.early x (hother hx).1,
    fun x hx hstage => ?_, fun x hx => h.emptied x (hother hx).1, fun a ha => ?_,
    fun u v huv hvu => ?_, fun u v huv => ?_, fun x hx hadded => ?_,
    fun x hx hstage hadded => hans.mpr (.inl (h.conflict x (hother hx).1 hstage hadded)),
    fun x hx hfound => hans.mpr (.inl (h.found x (hother hx).1 hfound)), fun x hx hm hin => ?_,
    fun x hx y hy => h.apart x (hother hx).1 y (hother hy).1⟩
  · obtain ⟨hfound, hrequests⟩ := h.late x (hother hx).1 hstage
    exact ⟨hfound, fun r hr => hrequests r (acceptedOf_commitRows.mp hr).1⟩
  · exact hans.mpr ((hrows.mp ha).1.imp (h.rows a) And.right)
  · have hkept : (u, v) ∉ t.acks := fun ha => hvu (hdeleted ha)
    refine hrows.mpr ⟨?_, hkept⟩
    have hnot : (v, u) ∉ s.answered := fun hin => hvu (hans.mpr (.inl hin))
    rcases hans.mp huv with huv | hkey
    · exact .inl (h.kept u v huv hnot)
    · cases hadded : t.added with
      | true => exact .inr ⟨rfl, hkey⟩
      | false =>
        have hin := h.conflict t ht hbegan hadded
        rw [← hkey] at hin
        exact .inl (h.kept u v hin hnot)
  · by_cases hexchanged : Exchanged s u v
    · exact ⟨hold hexchanged, fun x hx => (h.purged u v hexchanged).2 x (hother hx).1⟩
    · -- one side is answered by this commit, the other one was before
      have hnew : (t.peer, t.own) ∈ s.answered ∧ (t.own, t.peer) ∉ s.answered ∧
          ((u, v) = (t.own, t.peer) ∨ (v, u) = (t.own, t.peer)) := by
        have hne : (t.own, t.peer) ≠ (t.peer, t.own) := fun heq =>
          h.distinct t ht (Prod.mk.inj heq).1
        rcases hans.mp huv.1 with hu | hu <;> rcases hans.mp huv.2 with hv | hv
        · exact absurd ⟨hu, hv⟩ hexchanged
        · obtain ⟨rfl, rfl⟩ := Prod.mk.inj hv
          exact ⟨hu, fun hin => hexchanged ⟨hu, hin⟩, .inr rfl⟩
        · obtain ⟨rfl, rfl⟩ := Prod.mk.inj hu
          exact ⟨hv, fun hin => hexchanged ⟨hin, hv⟩, .inl rfl⟩
        · obtain ⟨rfl, rfl⟩ := Prod.mk.inj hu
          exact absurd hv.symm hne
      obtain ⟨hpeer, hown, hpair⟩ := hnew
      obtain ⟨hpurged, hnone⟩ := h.exchange ht hready hpeer hown
      have hout {a b : UserId} (hab : ofPair t.own t.peer (a, b)) (x : Txn)
          (hx : x ∈ (ContactExchange.commit t s).txns) (hxo : x.own = a) (hxp : x.peer = b) :
          x.added = false := by
        refine Bool.eq_false_iff.mpr fun hadded => ?_
        have hfalse := hnone x (hother hx).1 (hother hx).2 hadded
        rw [hxo, hxp, hab] at hfalse
        cases hfalse
      rcases hpair with hkey | hkey
      · obtain ⟨rfl, rfl⟩ := Prod.mk.inj hkey
        exact ⟨hpurged, hout (ofPair_iff.mpr (.inl rfl))⟩
      · obtain ⟨rfl, rfl⟩ := Prod.mk.inj hkey
        exact ⟨hpurged.symm, hout (ofPair_iff.mpr (.inr rfl))⟩
  · obtain ⟨hrow, halone⟩ := h.alone x (hother hx).1 hadded
    refine ⟨fun hin => ?_, fun y hy => halone y (hother hy).1⟩
    rcases (hrows.mp hin).1 with hin | ⟨hta, hkey⟩
    · exact hrow hin
    · obtain ⟨hxo, hxp⟩ := Prod.mk.inj hkey
      exact (hother hx).2 (congrArg Txn.id ((h.alone t ht hta).2 x (hother hx).1 hadded hxo hxp))
  · obtain ⟨hxs, hne⟩ := hother hx
    have hbefore := h.missed x hxs hm
    rcases hans.mp hin with hin | hkey
    · exact hbefore hin
    · obtain ⟨hxp, hxo⟩ := Prod.mk.inj hkey
      rw [hkey] at hbefore
      rcases hready with hlooked | hstage
      · cases hadded : t.added with
        | true => exact h.apart t ht x hxs ⟨hadded, hlooked⟩ hm hxo hxp
        | false => exact hbefore (h.conflict t ht hbegan hadded)
      · have hpeer := h.found t ht (h.late t ht (.inr hstage)).1
        have hboth := h.opposite hxs hm.1 (by rw [hxo, hxp]; exact hpeer)
        rw [hxo, hxp] at hboth
        exact hbefore hboth.2

theorem initial_invariant {s : State} (h : Initial s) : Invariant s := by
  have hnone {x : Txn} (hx : x ∈ s.txns) : False := by
    rw [h.txns] at hx
    exact absurd hx List.not_mem_nil
  have hsilent {a : UserId × UserId} (ha : a ∈ s.answered) : False := by
    rw [h.answered] at ha
    exact absurd ha List.not_mem_nil
  refine ⟨h.pairs, fun x hx => (hnone hx).elim, fun x hx => (hnone hx).elim,
    fun x hx => (hnone hx).elim, fun x hx => (hnone hx).elim, fun x hx => (hnone hx).elim,
    fun a ha => ?_, fun u v huv => (hsilent huv).elim, fun u v huv => (hsilent huv.1).elim,
    fun x hx => (hnone hx).elim, fun x hx => (hnone hx).elim, fun x hx => (hnone hx).elim,
    fun x hx => (hnone hx).elim, fun x hx => (hnone hx).elim⟩
  rw [h.acks] at ha
  exact absurd ha List.not_mem_nil

theorem step_invariant {s : State} {e : Event} (h : Invariant s) (he : Enabled s e)
    (ho : Ordered s e) : Invariant (next s e) := by
  cases e with
  | begin id d peer => exact h.begin he
  | insertAck t => exact h.insertAck he.1 he.2.1 he.2.2 ho
  | look t => exact h.look he.1 he.2 ho
  | deleteRequests t => exact h.deleteRequests he.1 he.2.1 he.2.2.1
  | deleteAcks t => exact h.deleteAcks he.1 he.2.1
  | commit t => exact h.commit he.1 he.2
  | rollback t => exact h.rollback t

theorem next_permissions (s : State) (e : Event) :
    (next s e).relay.permissions = s.relay.permissions := by
  cases e with
  | begin id d peer =>
    change (ContactExchange.begin id d peer s).relay.permissions = _
    unfold ContactExchange.begin
    split
    · split <;> rfl
    · rfl
  | _ => rfl

end Transactions

/-- Once both sides were answered, nothing of the exchange is left but the permission. -/
theorem exchange_purged {s₀ s : State} {es : List Event} (h₀ : Initial s₀)
    (h : Execution (system.Within Ordered) s₀ es s) {u v : UserId} (huv : Exchanged s u v) :
    Purged s.relay u v ∧ s.relay.permissions = s₀.relay.permissions := by
  have hinv : Invariant s := execution_invariant (I := Invariant)
    (fun t e ht (he : Enabled t e ∧ Ordered t e) => step_invariant ht he.1 he.2) h (initial_invariant h₀)
  refine ⟨(hinv.purged u v huv).1, ?_⟩
  exact execution_invariant (I := fun t => t.relay.permissions = s₀.relay.permissions)
    (fun t e ht _ => (next_permissions t e).trans ht) h rfl

section Contacts

/-- Alice's request to Bob was accepted. -/
def contacts : State where
  relay :=
    { users := [], devices := [⟨"alice-phone", "alice", false⟩, ⟨"bob-phone", "bob", false⟩]
      requests := [⟨"request", "alice", "bob", .accepted, 0, 0, some 0⟩]
      permissions := [⟨"alice", "bob", false⟩], exchangeAcks := [], now := 0 }
  txns := []
  answered := []

theorem contacts_initial : Initial contacts := ⟨rfl, rfl, rfl, by decide⟩

def ackOf (own peer : UserId) (stage : Stage) (added : Bool) : Txn :=
  ⟨if own = "alice" then 1 else 2, own, peer, stage, added, false, [], []⟩

/-- Alice's ack, then Bob's. -/
def inTurn : List Event :=
  let bob := { ackOf "bob" "alice" .looked true with found := true }
  [.begin 1 "alice-phone" "bob-phone", .insertAck (ackOf "alice" "bob" .began false),
    .look (ackOf "alice" "bob" .inserted true), .commit (ackOf "alice" "bob" .looked true),
    .begin 2 "bob-phone" "alice-phone", .insertAck (ackOf "bob" "alice" .began false),
    .look (ackOf "bob" "alice" .inserted true), .deleteRequests bob,
    .deleteAcks { bob with stage := .requestsDeleted, requests := ["request"] },
    .commit { bob with
      stage := .acksDeleted, requests := ["request"], acks := [("alice", "bob"), ("bob", "alice")] }]

theorem inTurn_purged : Purged ((system.Within Ordered).replay contacts inTurn).relay "alice" "bob" ∧
    ((system.Within Ordered).replay contacts inTurn).relay.permissions =
      contacts.relay.permissions := by
  refine exchange_purged contacts_initial (valid_execution ?_) ⟨by decide +kernel, by decide +kernel⟩
  simp only [inTurn, System.Valid, System.Within, system]
  decide +kernel

/-- Each looks before the other has committed. -/
def overlapping : List Event :=
  [.begin 1 "alice-phone" "bob-phone", .begin 2 "bob-phone" "alice-phone",
    .insertAck (ackOf "alice" "bob" .began false), .insertAck (ackOf "bob" "alice" .began false),
    .look (ackOf "alice" "bob" .inserted true), .look (ackOf "bob" "alice" .inserted true),
    .commit (ackOf "alice" "bob" .looked true), .commit (ackOf "bob" "alice" .looked true)]

theorem overlapping_not_purged : Initial contacts ∧ system.Valid contacts overlapping ∧
    Exchanged (system.replay contacts overlapping) "alice" "bob" ∧
    ¬Purged (system.replay contacts overlapping).relay "alice" "bob" := by
  refine ⟨contacts_initial, ?_, ⟨by decide +kernel, by decide +kernel⟩, fun h => ?_⟩
  · simp only [overlapping, System.Valid, system]
    decide +kernel
  · exact absurd h.1 (by decide +kernel)

end Contacts

end ContactExchange
