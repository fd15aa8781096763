import CryptoPigeon.OnionListener
import CryptoPigeon.TransitionSystem
import Mathlib.Logic.Function.Basic
import Mathlib.Data.Set.Function

/-! # Challenges and the sessions created from them

`POST /api/auth/challenge` and `POST /api/auth/respond`, with a step for what runs between two
awaits and one for each query. `activeChallenges` is keyed by the device id as it was sent; a
UUID column compares ids without regard to case. `verify` is the signature check, `allowed` the
names of this relay. `issued` and the fields `issue`, `before` and `takenAt` are history. -/
namespace LoginChallenges

open TransitionSystem
open OnionListener (hexDigits uuidShape)

/-- The value of a UUID column. -/
def uuid (text : String) : String := String.ofList (text.toList.map Char.toLower)

structure Device where
  deviceId : String
  authPublicKey : String
  revoked : Bool
  deriving DecidableEq, Repr

/-- A challenge as it was handed out. -/
structure Issue where
  serial : Nat
  deviceId : String
  challenge : String
  issuedAt : Nat
  deriving DecidableEq, Repr

structure Stored where
  challenge : String
  expiresAt : Nat
  issue : Issue
  deriving DecidableEq, Repr

structure Respond where
  deviceId : String
  challenge : String
  signature : String
  relayHostname : String
  deriving DecidableEq, Repr

/-- What a respond request waits for: the device's row, its turn after that, or the insert. -/
inductive Stage where
  | taken
  | found (authPublicKey : String)
  | proved (authPublicKey : String) (expiresAt : Nat)
  deriving DecidableEq, Repr

/-- A respond request that has taken its challenge; `before` challenges were issued by then. -/
structure Login where
  request : Respond
  stage : Stage
  issue : Issue
  before : Nat
  takenAt : Nat
  deriving DecidableEq, Repr

structure Session where
  token : String
  deviceId : String
  expiresAt : Nat
  login : Login
  deriving DecidableEq, Repr

/-- `checked` are the challenge requests whose device check has answered. -/
structure State where
  devices : List Device
  clock : Nat
  activeChallenges : String → Option Stored
  checked : List String
  logins : List Login
  sessions : List Session
  issued : List Issue

/-- `challengeVerifySchema`. -/
def challengeVerifySchema (r : Respond) : Bool :=
  uuidShape r.deviceId && hexDigits r.challenge && r.challenge.length = 64 &&
    hexDigits r.signature && r.signature.length = 128 && 1 ≤ r.relayHostname.length

def device (s : State) (deviceId : String) : Option Device :=
  s.devices.find? fun d => d.deviceId = uuid deviceId && !d.revoked

def write (l : Login) (s : State) : State :=
  { s with logins := s.logins.map fun x => if x.issue.serial = l.issue.serial then l else x }

def close (l : Login) (s : State) : State :=
  { s with logins := s.logins.filter fun x => x.issue.serial ≠ l.issue.serial }

/-- 60 s validity; a challenge that is still outstanding under this key is replaced. -/
def challenge (deviceId challenge : String) (s : State) : State :=
  let issue : Issue := ⟨s.issued.length, deviceId, challenge, s.clock⟩
  { s with
    checked := s.checked.erase deviceId
    activeChallenges :=
      Function.update s.activeChallenges deviceId (some ⟨challenge, s.clock + 60 * 1000, issue⟩)
    issued := s.issued ++ [issue] }

/-- Up to the device lookup: the challenge is gone whatever the checks say. -/
def respond (allowed : List String) (r : Respond) (s : State) : State :=
  match s.activeChallenges r.deviceId with
  | none => s
  | some stored =>
    let t := { s with activeChallenges := Function.update s.activeChallenges r.deviceId none }
    if stored.challenge ≠ r.challenge then t
    else if s.clock > stored.expiresAt then t
    else if r.relayHostname ∉ allowed then t
    else { t with logins := ⟨r, .taken, stored.issue, s.issued.length, s.clock⟩ :: s.logins }

def lookup (l : Login) (s : State) : State :=
  match device s l.request.deviceId with
  | none => close l s
  | some d => write { l with stage := .found d.authPublicKey } s

def message (r : Respond) : String := r.deviceId ++ r.challenge ++ r.relayHostname

def check (verify : String → String → String → Bool) (l : Login) (s : State) : State :=
  match l.stage with
  | .found key =>
    if verify key (message l.request) l.request.signature then
      write { l with stage := .proved key (s.clock + 24 * 60 * 60 * 1000) } s
    else close l s
  | _ => s

def insert (l : Login) (token : String) (s : State) : State :=
  match l.stage with
  | .proved _ expiresAt =>
    let t := close l s
    { t with sessions := ⟨token, uuid l.request.deviceId, expiresAt, l⟩ :: s.sessions }
  | _ => s

/-- `drop` ends a request that throws or is cut off, `restart` is a new process. -/
inductive Event where
  | tick (clock : Nat)
  | register (d : Device)
  | revoke (deviceId : String)
  | devCheck (deviceId : String)
  | challenge (deviceId challenge : String)
  | respond (r : Respond)
  | lookup (l : Login)
  | check (l : Login)
  | insert (l : Login) (token : String)
  | drop (l : Login)
  | restart

def Enabled (s : State) : Event → Prop
  | .tick _ => True
  | .register d => ∀ x ∈ s.devices, x.deviceId ≠ d.deviceId
  | .revoke _ => True
  | .devCheck deviceId => uuidShape deviceId ∧ (device s deviceId).isSome
  | .challenge deviceId _ => deviceId ∈ s.checked
  | .respond r => challengeVerifySchema r
  | .lookup l => l ∈ s.logins ∧ l.stage = .taken
  | .check l => l ∈ s.logins
  | .insert l token => l ∈ s.logins ∧ ∀ x ∈ s.sessions, x.token ≠ token
  | .drop l => l ∈ s.logins
  | .restart => True

def next (verify : String → String → String → Bool) (allowed : List String) (s : State) :
    Event → State
  | .tick clock => { s with clock }
  | .register d => { s with devices := d :: s.devices }
  | .revoke deviceId =>
    { s with devices := s.devices.map fun d =>
        if d.deviceId = uuid deviceId then { d with revoked := true } else d }
  | .devCheck deviceId => { s with checked := deviceId :: s.checked }
  | .challenge deviceId text => LoginChallenges.challenge deviceId text s
  | .respond r => LoginChallenges.respond allowed r s
  | .lookup l => LoginChallenges.lookup l s
  | .check l => LoginChallenges.check verify l s
  | .insert l token => LoginChallenges.insert l token s
  | .drop l => close l s
  | .restart => { s with activeChallenges := fun _ => none, checked := [], logins := [] }

/-- A fresh process with any devices registered. -/
structure Initial (s : State) : Prop where
  active : ∀ id, s.activeChallenges id = none
  checked : s.checked = []
  logins : s.logins = []
  sessions : s.sessions = []
  issued : s.issued = []

def system (verify : String → String → String → Bool) (allowed : List String) :
    System State Event := ⟨Initial, Enabled, next verify allowed⟩

/-- The session was created with this challenge: issued to its device, at most 60 s old when it
was taken, and signed with a registered key. -/
structure Matched (verify : String → String → String → Bool) (s : State) (x : Session)
    (i : Issue) : Prop where
  issued : i ∈ s.issued ∧ i.serial < x.login.before
  device : uuid i.deviceId = x.deviceId
  fresh : x.login.takenAt ≤ i.issuedAt + 60 * 1000
  signed : ∃ d ∈ s.devices, d.deviceId = x.deviceId ∧
    verify d.authPublicKey (i.deviceId ++ i.challenge ++ x.login.request.relayHostname)
      x.login.request.signature

/-- No later one of these had been issued when the challenge was taken. -/
def Latest (s : State) (x : Session) (i : Issue) (of : Issue → Prop) : Prop :=
  ∀ j ∈ s.issued, of j → j.serial < x.login.before → j.serial ≤ i.serial

/-- What is known of a request that has taken its challenge. -/
structure Tracked (issued : List Issue) (l : Login) : Prop where
  mem : l.issue ∈ issued
  earlier : l.issue.serial < l.before
  taken : l.before ≤ issued.length
  deviceId : l.request.deviceId = l.issue.deviceId
  challenge : l.request.challenge = l.issue.challenge
  fresh : l.takenAt ≤ l.issue.issuedAt + 60 * 1000
  latest : ∀ j ∈ issued, j.deviceId = l.request.deviceId → j.serial < l.before →
    j.serial ≤ l.issue.serial

def Registered (devices : List Device) (deviceId key : String) : Prop :=
  ∃ d ∈ devices, d.deviceId = uuid deviceId ∧ d.authPublicKey = key

/-- What the stage of a request says. -/
def Proved (verify : String → String → String → Bool) (devices : List Device) (l : Login) : Prop :=
  match l.stage with
  | .taken => True
  | .found key => Registered devices l.request.deviceId key
  | .proved key _ =>
    Registered devices l.request.deviceId key ∧ verify key (message l.request) l.request.signature

/-- An outstanding challenge is the latest one of its key. -/
structure Outstanding (s : State) (id : String) (c : Stored) : Prop where
  mem : c.issue ∈ s.issued
  deviceId : c.issue.deviceId = id
  challenge : c.issue.challenge = c.challenge
  expires : c.expiresAt = c.issue.issuedAt + 60 * 1000
  latest : ∀ j ∈ s.issued, j.deviceId = id → j.serial ≤ c.issue.serial
  unused : ∀ l ∈ s.logins, l.issue.serial ≠ c.issue.serial
  unmatched : ∀ x ∈ s.sessions, x.login.issue.serial ≠ c.issue.serial

structure Invariant (verify : String → String → String → Bool) (s : State) : Prop where
  serials : ∀ i ∈ s.issued, i.serial < s.issued.length
  unique : ∀ i ∈ s.issued, ∀ j ∈ s.issued, i.serial = j.serial → i = j
  active : ∀ id c, s.activeChallenges id = some c → Outstanding s id c
  logins : ∀ l ∈ s.logins, Tracked s.issued l ∧ Proved verify s.devices l
  sessions : ∀ x ∈ s.sessions, x.deviceId = uuid x.login.request.deviceId ∧
    Tracked s.issued x.login ∧ ∃ key, Registered s.devices x.login.request.deviceId key ∧
      verify key (message x.login.request) x.login.request.signature
  alone : ∀ l ∈ s.logins, ∀ m ∈ s.logins, l.issue.serial = m.issue.serial → l = m
  apart : ∀ l ∈ s.logins, ∀ x ∈ s.sessions, l.issue.serial ≠ x.login.issue.serial
  once : ∀ x ∈ s.sessions, ∀ y ∈ s.sessions, x.login.issue.serial = y.login.issue.serial → x = y
  tokens : (s.sessions.map Session.token).Nodup

section Steps

variable {verify : String → String → String → Bool} {allowed : List String} {s : State}
  {l l' x : Login} {issued : List Issue} {devices devices' : List Device}

theorem mem_write (h : x ∈ (write l s).logins) :
    x = l ∨ (x ∈ s.logins ∧ x.issue.serial ≠ l.issue.serial) := by
  obtain ⟨y, hy, rfl⟩ := List.mem_map.mp h
  split
  · exact .inl rfl
  · next hne => exact .inr ⟨hy, hne⟩

theorem mem_close (h : x ∈ (close l s).logins) :
    x ∈ s.logins ∧ x.issue.serial ≠ l.issue.serial := by
  obtain ⟨hx, hne⟩ := List.mem_filter.mp h
  exact ⟨hx, of_decide_eq_true hne⟩

theorem Tracked.snoc {id text : String} {t : Nat} (h : Tracked issued l) :
    Tracked (issued ++ [⟨issued.length, id, text, t⟩]) l := by
  refine { h with mem := List.mem_append_left _ h.mem, taken := ?_, latest := fun j hj hid hlt => ?_ }
  · rw [List.length_append]
    exact Nat.le_add_right_of_le h.taken
  · rcases List.mem_append.mp hj with hj | hj
    · exact h.latest j hj hid hlt
    · rw [List.mem_singleton.mp hj] at hlt
      exact absurd hlt (Nat.not_lt.mpr h.taken)

/-- Rows of devices are added and revoked, and keep their keys. -/
def Keeps (devices devices' : List Device) : Prop :=
  ∀ d ∈ devices, ∃ d' ∈ devices', d'.deviceId = d.deviceId ∧ d'.authPublicKey = d.authPublicKey

theorem Registered.keeps {id key : String} (hk : Keeps devices devices')
    (h : Registered devices id key) : Registered devices' id key := by
  obtain ⟨d, hd, hid, hkey⟩ := h
  obtain ⟨d', hd', hid', hkey'⟩ := hk d hd
  exact ⟨d', hd', hid'.trans hid, hkey'.trans hkey⟩

theorem Proved.keeps (hk : Keeps devices devices') (h : Proved verify devices l) :
    Proved verify devices' l := by
  unfold Proved at h ⊢
  cases hl : l.stage with
  | taken => trivial
  | found key =>
    rw [hl] at h
    exact Registered.keeps hk h
  | proved key expiresAt =>
    rw [hl] at h
    exact ⟨Registered.keeps hk h.1, h.2⟩

theorem invariant_devices (hk : Keeps s.devices devices') (hi : Invariant verify s) :
    Invariant verify { s with devices := devices' } := by
  refine { hi with
    active := fun id c hc => { hi.active id c hc with }
    logins := fun l hl => ⟨(hi.logins l hl).1, (hi.logins l hl).2.keeps hk⟩
    sessions := fun x hx => ?_ }
  obtain ⟨hid, htracked, key, hregistered, hverify⟩ := hi.sessions x hx
  exact ⟨hid, htracked, key, hregistered.keeps hk, hverify⟩

theorem invariant_challenge {id text : String} (hi : Invariant verify s) :
    Invariant verify (challenge id text s) := by
  have hlength : (challenge id text s).issued.length = s.issued.length + 1 := by
    simp [challenge]
  refine
    { serials := fun i h => ?_
      unique := fun i h j h' heq => ?_
      active := fun id' c hc => ?_
      logins := fun l hl => ⟨(hi.logins l hl).1.snoc, (hi.logins l hl).2⟩
      sessions := fun x hx => ?_
      alone := hi.alone
      apart := hi.apart
      once := hi.once
      tokens := hi.tokens }
  · rw [hlength]
    rcases List.mem_append.mp h with h | h
    · exact Nat.lt_succ_of_lt (hi.serials i h)
    · rw [List.mem_singleton.mp h]
      exact Nat.lt_succ_self _
  · rcases List.mem_append.mp h with h | h <;> rcases List.mem_append.mp h' with h' | h'
    · exact hi.unique i h j h' heq
    · rw [List.mem_singleton.mp h'] at heq
      exact absurd (hi.serials i h) (by rw [heq]; exact Nat.lt_irrefl _)
    · rw [List.mem_singleton.mp h] at heq
      exact absurd (hi.serials j h') (by rw [← heq]; exact Nat.lt_irrefl _)
    · rw [List.mem_singleton.mp h, List.mem_singleton.mp h']
  · by_cases hid : id' = id
    · subst hid
      simp only [challenge, Function.update_self, Option.some.injEq] at hc
      subst hc
      refine ⟨List.mem_append_right _ List.mem_cons_self, rfl, rfl, rfl, fun j hj _ => ?_,
        fun l hl => ?_, fun x hx => ?_⟩
      · rcases List.mem_append.mp hj with hj | hj
        · exact Nat.le_of_lt (hi.serials j hj)
        · rw [List.mem_singleton.mp hj]
      · exact Nat.ne_of_lt (hi.serials _ (hi.logins l hl).1.mem)
      · exact Nat.ne_of_lt (hi.serials _ (hi.sessions x hx).2.1.mem)
    · have hc' : s.activeChallenges id' = some c := (Function.update_of_ne hid _ _).symm.trans hc
      have hout := hi.active id' c hc'
      refine { hout with mem := List.mem_append_left _ hout.mem, latest := fun j hj hjd => ?_ }
      rcases List.mem_append.mp hj with hj | hj
      · exact hout.latest j hj hjd
      · rw [List.mem_singleton.mp hj] at hjd
        exact absurd hjd.symm hid
  · obtain ⟨hid, htracked, hkey⟩ := hi.sessions x hx
    exact ⟨hid, htracked.snoc, hkey⟩

/-- Taking a challenge away leaves the others. -/
theorem invariant_take (id : String) (hi : Invariant verify s) :
    Invariant verify { s with activeChallenges := Function.update s.activeChallenges id none } := by
  refine { hi with active := fun id' c hc => ?_ }
  by_cases hid : id' = id
  · subst hid
    have hnone := (Function.update_self (f := s.activeChallenges) id' none).symm.trans hc
    cases hnone
  · have hc' : s.activeChallenges id' = some c := (Function.update_of_ne hid _ _).symm.trans hc
    exact { hi.active id' c hc' with }

theorem invariant_respond {r : Respond} (hi : Invariant verify s) :
    Invariant verify (respond allowed r s) := by
  unfold respond
  cases hstored : s.activeChallenges r.deviceId with
  | none => exact hi
  | some stored =>
    have ht := invariant_take r.deviceId hi
    have hout := hi.active _ _ hstored
    dsimp only
    split
    · exact ht
    · next hsame =>
      split
      · exact ht
      · next hintime =>
        split
        · exact ht
        · have htracked : Tracked s.issued ⟨r, .taken, stored.issue, s.issued.length, s.clock⟩ := by
            refine ⟨hout.mem, hi.serials _ hout.mem, Nat.le_refl _, hout.deviceId.symm,
              (not_not.mp hsame).symm.trans hout.challenge.symm, ?_, fun j hj hid _ =>
                hout.latest j hj hid⟩
            rw [← hout.expires]
            exact Nat.not_lt.mp hintime
          refine { ht with
            active := fun id c hc => { ht.active id c hc with unused := fun l hl => ?_ }
            logins := fun l hl => ?_
            alone := fun l hl m hm heq => ?_
            apart := fun l hl x hx => ?_ }
          · rcases List.mem_cons.mp hl with rfl | hl
            · intro heq
              have hsame := hi.unique _ hout.mem _ (ht.active id c hc).mem heq
              have hid := hout.deviceId.symm.trans ((congrArg Issue.deviceId hsame).trans
                (ht.active id c hc).deviceId)
              subst hid
              have hnone := (Function.update_self (f := s.activeChallenges) r.deviceId none).symm.trans hc
              cases hnone
            · exact (ht.active id c hc).unused l hl
          · rcases List.mem_cons.mp hl with rfl | hl
            · exact ⟨htracked, trivial⟩
            · exact hi.logins l hl
          · rcases List.mem_cons.mp hl with rfl | hl <;> rcases List.mem_cons.mp hm with rfl | hm
            · rfl
            · exact absurd heq.symm (hout.unused m hm)
            · exact absurd heq (hout.unused l hl)
            · exact hi.alone l hl m hm heq
          · rcases List.mem_cons.mp hl with rfl | hl
            · exact (hout.unmatched x hx).symm
            · exact hi.apart l hl x hx

theorem invariant_close (hi : Invariant verify s) : Invariant verify (close l s) :=
  { hi with
    active := fun id c hc => { hi.active id c hc with
      unused := fun x hx => (hi.active id c hc).unused x (mem_close hx).1 }
    logins := fun x hx => hi.logins x (mem_close hx).1
    alone := fun x hx y hy => hi.alone x (mem_close hx).1 y (mem_close hy).1
    apart := fun x hx => hi.apart x (mem_close hx).1 }

/-- A request goes on to another stage. -/
theorem invariant_write {stage : Stage} (hl : l ∈ s.logins) (hi : Invariant verify s)
    (hproved : Proved verify s.devices { l with stage }) :
    Invariant verify (write { l with stage } s) := by
  have htracked : Tracked s.issued { l with stage } := { (hi.logins l hl).1 with }
  refine { hi with
    active := fun id c hc => { hi.active id c hc with unused := fun x hx => ?_ }
    logins := fun x hx => ?_
    alone := fun x hx y hy heq => ?_
    apart := fun x hx => ?_ }
  · rcases mem_write hx with rfl | ⟨hx, -⟩
    · exact (hi.active id c hc).unused l hl
    · exact (hi.active id c hc).unused x hx
  · rcases mem_write hx with rfl | ⟨hx, -⟩
    · exact ⟨htracked, hproved⟩
    · exact hi.logins x hx
  · rcases mem_write hx with rfl | ⟨hx, hxne⟩ <;> rcases mem_write hy with rfl | ⟨hy, hyne⟩
    · rfl
    · exact absurd heq.symm hyne
    · exact absurd heq hxne
    · exact hi.alone x hx y hy heq
  · rcases mem_write hx with rfl | ⟨hx, -⟩
    · exact hi.apart l hl
    · exact hi.apart x hx

theorem invariant_lookup (hl : l ∈ s.logins) (hi : Invariant verify s) :
    Invariant verify (lookup l s) := by
  unfold lookup
  split
  · exact invariant_close hi
  · next d hd =>
    refine invariant_write hl hi ⟨d, List.mem_of_find?_eq_some hd, ?_, rfl⟩
    have hfound := List.find?_some hd
    simp only [Bool.and_eq_true, decide_eq_true_eq] at hfound
    exact hfound.1

theorem invariant_check (hl : l ∈ s.logins) (hi : Invariant verify s) :
    Invariant verify (check verify l s) := by
  unfold check
  have hproved := (hi.logins l hl).2
  cases hstage : l.stage with
  | taken => exact hi
  | proved key expiresAt => exact hi
  | found key =>
    unfold Proved at hproved
    rw [hstage] at hproved
    dsimp only
    split
    · next hverify => exact invariant_write hl hi ⟨hproved, hverify⟩
    · exact invariant_close hi

theorem invariant_insert {token : String} (hl : l ∈ s.logins)
    (htoken : ∀ x ∈ s.sessions, x.token ≠ token) (hi : Invariant verify s) :
    Invariant verify (insert l token s) := by
  unfold insert
  obtain ⟨htracked, hproved⟩ := hi.logins l hl
  cases hstage : l.stage with
  | taken => exact hi
  | found key => exact hi
  | proved key expiresAt =>
    unfold Proved at hproved
    rw [hstage] at hproved
    have ht : Invariant verify (close l s) := invariant_close hi
    refine { ht with
      active := fun id c hc => { ht.active id c hc with unmatched := fun x hx => ?_ }
      sessions := fun x hx => ?_
      apart := fun m hm x hx => ?_
      once := fun x hx y hy heq => ?_
      tokens := ?_ }
    · rcases List.mem_cons.mp hx with rfl | hx
      · exact (hi.active id c hc).unused l hl
      · exact (hi.active id c hc).unmatched x hx
    · rcases List.mem_cons.mp hx with rfl | hx
      · exact ⟨rfl, htracked, key, hproved⟩
      · exact hi.sessions x hx
    · rcases List.mem_cons.mp hx with rfl | hx
      · exact (mem_close hm).2
      · exact ht.apart m hm x hx
    · rcases List.mem_cons.mp hx with rfl | hx <;> rcases List.mem_cons.mp hy with rfl | hy
      · rfl
      · exact absurd heq (hi.apart l hl y hy)
      · exact absurd heq.symm (hi.apart l hl x hx)
      · exact hi.once x hx y hy heq
    · refine List.nodup_cons.mpr ⟨fun hmem => ?_, hi.tokens⟩
      obtain ⟨x, hx, heq⟩ := List.mem_map.mp hmem
      exact htoken x hx heq

end Steps

theorem next_invariant {verify : String → String → String → Bool} {allowed : List String}
    {s : State} {e : Event} (hi : Invariant verify s) (he : Enabled s e) :
    Invariant verify (next verify allowed s e) := by
  cases e with
  | tick clock => exact { hi with active := fun id c hc => { hi.active id c hc with } }
  | register d =>
    exact invariant_devices (fun x hx => ⟨x, List.mem_cons_of_mem d hx, rfl, rfl⟩) hi
  | revoke deviceId =>
    refine invariant_devices (fun d hd => ⟨_, List.mem_map_of_mem hd, ?_⟩) hi
    split <;> exact ⟨rfl, rfl⟩
  | devCheck deviceId => exact { hi with active := fun id c hc => { hi.active id c hc with } }
  | challenge deviceId text => exact invariant_challenge hi
  | respond r => exact invariant_respond hi
  | lookup l => exact invariant_lookup he.1 hi
  | check l => exact invariant_check he hi
  | insert l token => exact invariant_insert he.1 he.2 hi
  | drop l => exact invariant_close hi
  | restart =>
    exact { hi with
      active := fun _ _ hc => by cases hc
      logins := fun _ hl => by cases hl
      alone := fun _ hl => by cases hl
      apart := fun _ hl => by cases hl }

theorem initial_invariant {verify : String → String → String → Bool} {s : State} (h : Initial s) :
    Invariant verify s := by
  refine ⟨?_, ?_, fun id c hc => ?_, ?_, ?_, ?_, ?_, ?_, ?_⟩
  · simp [h.issued]
  · simp [h.issued]
  · rw [h.active id] at hc
    cases hc
  all_goals simp [h.logins, h.sessions]

/-- Each session has a challenge of its own: the latest one that was issued under the spelling of
the device id that its request used. A request takes no challenge of another device away. -/
theorem session_matched (verify : String → String → String → Bool) (allowed : List String)
    {s : State} (h : Reachable (system verify allowed) s) :
    (∃ m : Session → Issue, Set.InjOn m {x | x ∈ s.sessions} ∧ ∀ x ∈ s.sessions,
        Matched verify s x (m x) ∧
          Latest s x (m x) fun j => j.deviceId = x.login.request.deviceId) ∧
      s.sessions.Nodup ∧
      ((∀ i ∈ s.issued, ∀ j ∈ s.issued, i.challenge = j.challenge → i = j) →
        ∀ x ∈ s.sessions, ∀ y ∈ s.sessions,
          x.login.request.challenge = y.login.request.challenge → x = y) ∧
      ∀ r id c, s.activeChallenges id = some c →
        (respond allowed r s).activeChallenges id = none → c.issue.deviceId = r.deviceId := by
  have hi : Invariant verify s :=
    reachable_invariant (fun _ => initial_invariant) (fun _ _ => next_invariant) h
  refine ⟨⟨fun x => x.login.issue, fun x hx y hy heq => ?_, fun x hx => ?_⟩,
    hi.tokens.of_map _, fun hrandom x hx y hy heq => ?_, fun r id c hc hnone => ?_⟩
  · exact hi.once x hx y hy (congrArg Issue.serial heq)
  · obtain ⟨hid, ht, key, ⟨d, hd, hdid, rfl⟩, hverify⟩ := hi.sessions x hx
    refine ⟨⟨⟨ht.mem, ht.earlier⟩, ?_, ht.fresh, d, hd, hdid.trans hid.symm, ?_⟩, ht.latest⟩
    · rw [hid, ht.deviceId]
    · rw [← ht.deviceId, ← ht.challenge]
      exact hverify
  · have htx := (hi.sessions x hx).2.1
    have hty := (hi.sessions y hy).2.1
    have hissue := hrandom _ htx.mem _ hty.mem (htx.challenge.symm.trans (heq.trans hty.challenge))
    exact hi.once x hx y hy (congrArg Issue.serial hissue)
  · by_cases hsame : id = r.deviceId
    · exact (hi.active id c hc).deviceId.trans hsame
    · have hkept : (respond allowed r s).activeChallenges id = s.activeChallenges id := by
        unfold respond
        split
        · rfl
        · dsimp only
          split_ifs <;> exact Function.update_of_ne hsame _ _
      rw [hkept, hc] at hnone
      cases hnone

section Spellings

instance (s : State) (e : Event) : Decidable (Enabled s e) :=
  match e with
  | .tick _ => isTrue trivial
  | .register d => inferInstanceAs (Decidable (∀ x ∈ s.devices, x.deviceId ≠ d.deviceId))
  | .revoke _ => isTrue trivial
  | .devCheck deviceId =>
    inferInstanceAs (Decidable (uuidShape deviceId = true ∧ (device s deviceId).isSome = true))
  | .challenge deviceId _ => inferInstanceAs (Decidable (deviceId ∈ s.checked))
  | .respond r => inferInstanceAs (Decidable (challengeVerifySchema r = true))
  | .lookup l => inferInstanceAs (Decidable (l ∈ s.logins ∧ l.stage = .taken))
  | .check l => inferInstanceAs (Decidable (l ∈ s.logins))
  | .insert l token =>
    inferInstanceAs (Decidable (l ∈ s.logins ∧ ∀ x ∈ s.sessions, x.token ≠ token))
  | .drop l => inferInstanceAs (Decidable (l ∈ s.logins))
  | .restart => isTrue trivial

def phone : String := "6f1c1b3e-52a7-4c55-9d0e-1f2a3b4c5d6e"

def phoneUpper : String := "6F1C1B3E-52A7-4C55-9D0E-1F2A3B4C5D6E"

def first : String := String.ofList (List.replicate 64 'a')

def second : String := String.ofList (List.replicate 64 'b')

/-- The response under the upper-case spelling. -/
def answer : Respond := ⟨phoneUpper, first, String.ofList (List.replicate 128 'c'), "relay.test"⟩

/-- The device has signed nothing else. -/
def verifies (key text signature : String) : Bool :=
  key = "key" && text = message answer && signature = answer.signature

def login (stage : Stage) : Login := ⟨answer, stage, ⟨0, phoneUpper, first, 5⟩, 2, 6⟩

/-- The second challenge is issued to the same device before the first is answered. -/
def trace : List Event :=
  [.devCheck phoneUpper, .challenge phoneUpper first, .devCheck phone, .challenge phone second,
    .tick 6, .respond answer, .lookup (login .taken), .check (login (.found "key")),
    .insert (login (.proved "key" 86400006)) "token"]

def registered : State := ⟨[⟨phone, "key", false⟩], 5, fun _ => none, [], [], [], []⟩

def afterTrace : State := (system verifies ["relay.test"]).replay registered trace

/-- Matched as the device's latest challenge, whatever its id was spelled like. -/
def MatchedLatest (s : State) (x : Session) (i : Issue) : Prop :=
  Matched verifies s x i ∧ Latest s x i fun j => uuid j.deviceId = x.deviceId

theorem afterTrace_reachable : Reachable (system verifies ["relay.test"]) afterTrace := by
  have hvalid : (system verifies ["relay.test"]).Valid registered trace := by
    simp only [trace, System.Valid, system]
    decide +kernel
  exact valid_trace_reachable (reachable_initial ⟨fun _ => rfl, rfl, rfl, rfl, rfl⟩) hvalid

theorem answered_matched : afterTrace.sessions ≠ [] ∧ ∃ m : Session → Issue,
    ∀ x ∈ afterTrace.sessions, Matched verifies afterTrace x (m x) := by
  obtain ⟨⟨m, -, hm⟩, -⟩ := session_matched verifies ["relay.test"] afterTrace_reachable
  exact ⟨by decide +kernel, m, fun x hx => (hm x hx).1⟩

theorem earlier_challenge_answered :
    Reachable (system verifies ["relay.test"]) afterTrace ∧
      ∃ x ∈ afterTrace.sessions, ∀ i, ¬MatchedLatest afterTrace x i := by
  have hsessions : afterTrace.sessions =
      [⟨"token", phone, 86400006, login (.proved "key" 86400006)⟩] := by decide +kernel
  have hissued : afterTrace.issued = [⟨0, phoneUpper, first, 5⟩, ⟨1, phone, second, 5⟩] := by
    decide +kernel
  have hunsigned : ∀ key, verifies key (phone ++ second ++ "relay.test") answer.signature = false := by
    intro key
    have hne : phone ++ second ++ "relay.test" ≠ message answer := by decide +kernel
    simp [verifies, hne]
  refine ⟨afterTrace_reachable, _, by rw [hsessions]; exact List.mem_cons_self, ?_⟩
  rintro i ⟨hmatched, hlatest⟩
  have hi := hmatched.issued.1
  rw [hissued] at hi
  rcases List.mem_cons.mp hi with rfl | hi
  · have hlater := hlatest ⟨1, phone, second, 5⟩ (by rw [hissued]; simp) (by decide +kernel) (by decide)
    exact absurd hlater (by decide)
  · obtain rfl := List.mem_singleton.mp hi
    obtain ⟨d, -, -, hverify⟩ := hmatched.signed
    exact absurd ((hunsigned d.authPublicKey).symm.trans hverify) Bool.false_ne_true

end Spellings

end LoginChallenges
