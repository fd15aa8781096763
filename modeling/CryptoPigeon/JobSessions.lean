import CryptoPigeon.TransitionSystem
import CryptoPigeon.TorRouting

/-! # Delivery jobs and vault sessions

A delivery or a download runs outside the lock that serializes the program and comes back to it
after each answer of the network. Meanwhile the vault may be locked, opened, restored or given
another password, and Tor may be stopped and started. An event is what runs without interruption:
a section under the queue of the desktop or the monitor of the Android engine, or one answer of
the network. On the desktop a comparison and the request it guards run together; on Android a
relay request leaves outside the monitor, after the comparison that allowed it. -/
namespace JobSessions

open TransitionSystem TorRouting

inductive Platform where
  | desktop
  | android
  deriving DecidableEq, Repr

/-- Where a job waits. The prepared requests of a delivery keep the two generations they were
prepared under, and `left` counts those that follow; `total` chunks are fetched one by one. -/
inductive Stage where
  | waiting
  | direct
  | fallback
  | relaying (epoch client left : Nat)
  | checked (epoch client left : Nat)
  | accepted
  | chunk (index total : Nat)
  | unavailable (index total : Nat)
  | prepared (index total : Nat)
  | fetched (index total : Nat)
  deriving DecidableEq, Repr

/-- What a job captures when it is started: the database, the vault object, the transport and
the generation. -/
structure Job where
  name : String
  db : Nat
  owner : Nat
  transport : Option Nat
  epoch : Nat
  hybrid : Bool
  stage : Stage
  deriving DecidableEq, Repr

/-- What a job does outside itself, with the database that was unlocked then. -/
inductive Effect where
  | read (job : Nat) (opened : Option Nat)
  | write (job : Nat) (opened : Option Nat)
  | relay (prepared : Nat) (opened : Option Nat)
  deriving DecidableEq, Repr

/-- `session` is the open database; `jobs` are those that have not ended and `names` the set that
keeps them from being started twice. -/
structure State where
  session : Option Nat
  owner : Nat
  quickLocked : Bool
  mode : Mode
  transport : Option Nat
  stopped : List Nat
  epoch : Nat
  client : Nat
  fresh : Nat
  names : List String
  jobs : List Job
  effects : List Effect
  deriving DecidableEq, Repr

def initial : State := ⟨none, 0, false, .direct, none, [], 0, 0, 1, [], [], []⟩

/-- Storage is imported by opening it. The engine is closed as a vault is locked. -/
inductive Switch where
  | lock
  | openVault
  | restore
  | changePassword
  | create
  deriving DecidableEq, Repr

inductive Outcome where
  | kept
  | closed
  | opened
  deriving DecidableEq, Repr

inductive Event where
  | switch (k : Switch) (o : Outcome)
  | setMode (m : Mode)
  | loadMode (m : Mode)
  | quickLock
  | quickUnlock
  | relayConfig
  | ensureTor
  | torStops (cleared : Bool)
  | stopDelivery
  | startSend (name : String) (viaTor : Bool)
  | refused (name : String)
  | startDownload (name : String) (total : Nat)
  | take (j : Job)
  | answered (j : Job) (accepted : Bool)
  | prepare (j : Job) (left : Nat)
  | check (j : Job)
  | request (j : Job) (ok : Bool)
  | record (j : Job)
  | fetch (j : Job) (ok : Bool)
  | prepareChunk (j : Job) (ok : Bool)
  | requestChunk (j : Job) (ok : Bool)
  | store (j : Job) (valid : Bool)
  | fail (j : Job)
  deriving DecidableEq, Repr

section Steps

/-- The database that can be used: none while the vault is locked or waits for its session PIN. -/
def opened (s : State) : Option Nat := if s.quickLocked then none else s.session

/-- A job that has not left the queue of its transport's executor is dropped when that is shut
down. -/
def dropped (p : Platform) (s : State) (j : Job) : Bool :=
  p == .android && j.stage == .waiting && j.transport == s.transport

/-- `close` of the transport. -/
def closeTransport (p : Platform) (s : State) : State :=
  { s with
    stopped := s.transport.toList ++ s.stopped
    jobs := s.jobs.filter fun j => !dropped p s j }

/-- `stopTor` and `stopDirect` -/
def stopTor (p : Platform) (s : State) : State :=
  { closeTransport p s with
    epoch := s.epoch + 1
    transport := none }

def clearSession (s : State) : State := { s with client := s.client + 1 }

/-- Whether a switch stops Tor. On Android a vault that cannot be opened leaves everything as it
is. -/
def stops (p : Platform) (k : Switch) (o : Outcome) : Bool :=
  match p, k with
  | .desktop, .create => false
  | .desktop, _ => true
  | .android, .lock => true
  | .android, .changePassword => true
  | .android, _ => o != .kept

/-- Whether a switch ends the session with the relay; the desktop does that on two routes. -/
def clears (k : Switch) : Bool := k == .lock || k == .openVault

/-- The vault is another object unless it was locked or its password was changed. -/
def nextOwner (k : Switch) (s : State) : Nat :=
  if k = .lock ∨ k = .changePassword then s.owner else s.fresh

def switchSession (p : Platform) (k : Switch) (o : Outcome) (s : State) : State :=
  match o with
  | .kept => s
  | .closed =>
    { s with
      session := none
      owner := nextOwner k s
      quickLocked := false
      fresh := s.fresh + 1 }
  | .opened =>
    { s with
      session := some s.fresh
      owner := nextOwner k s
      quickLocked := p == .desktop && s.quickLocked
      fresh := s.fresh + 1 }

def applySwitch (p : Platform) (k : Switch) (o : Outcome) (s : State) : State :=
  let s := if stops p k o then stopTor p s else s
  let s := if clears k then clearSession s else s
  switchSession p k o s

def addJob (s : State) (name : String) (stage : Stage) : State :=
  match s.session with
  | none => s
  | some db =>
    { s with
      names := name :: s.names
      jobs := ⟨name, db, s.owner, s.transport, s.epoch, s.mode == .hybrid, stage⟩ :: s.jobs }

def setStage (s : State) (j : Job) (stage : Stage) : State :=
  { s with jobs := s.jobs.map fun k => if k = j then { j with stage } else k }

/-- `finally { this.jobs.delete(id) }` -/
def finish (s : State) (j : Job) : State :=
  { s with
    names := s.names.filter fun n => n != j.name
    jobs := s.jobs.filter fun k => k.name != j.name }

def logEffect (s : State) (e : Effect) : State := { s with effects := s.effects ++ [e] }

/-- `this.transport===transport&&!transport?.isStopped()` -/
def sameTransport (s : State) (j : Job) : Prop :=
  s.transport = j.transport ∧ ∀ t ∈ j.transport, t ∉ s.stopped

/-- `vault==owner&&!owner.isLocked()&&!quickLocked` -/
def sameOwner (s : State) (j : Job) : Prop :=
  s.owner = j.owner ∧ s.session ≠ none ∧ s.quickLocked = false

def mayRecord (p : Platform) (s : State) (j : Job) : Prop :=
  match p with
  | .desktop => sameTransport s j ∧ s.session = some j.db
  | .android => sameOwner s j ∧ s.transport = j.transport

/-- The desktop compares no database here. -/
def mayStore (p : Platform) (s : State) (j : Job) : Prop :=
  match p with
  | .desktop => sameTransport s j ∧ s.session ≠ none
  | .android => sameOwner s j ∧ s.transport = j.transport

def mayPrepare (p : Platform) (s : State) (j : Job) : Prop :=
  match p with
  | .desktop => sameTransport s j ∧ s.session = some j.db ∧ s.quickLocked = false ∧ s.mode = .hybrid
  | .android => sameOwner s j ∧ s.epoch = j.epoch ∧ s.mode = .hybrid

def mayPrepareChunk (p : Platform) (s : State) (j : Job) : Prop :=
  match p with
  | .desktop => sameTransport s j ∧ s.session = some j.db ∧ s.quickLocked = false ∧ s.mode = .hybrid
  | .android => sameOwner s j ∧ s.transport = j.transport ∧ s.mode = .hybrid

def mayRequest (p : Platform) (s : State) (epoch client : Nat) : Prop :=
  match p with
  | .desktop => epoch = s.epoch ∧ client = s.client
  | .android => epoch = s.epoch

instance (s : State) (j : Job) : Decidable (sameTransport s j) := by
  unfold sameTransport; infer_instance
instance (s : State) (j : Job) : Decidable (sameOwner s j) := by
  unfold sameOwner; infer_instance
instance (p : Platform) (s : State) (j : Job) : Decidable (mayRecord p s j) := by
  cases p <;> unfold mayRecord <;> infer_instance
instance (p : Platform) (s : State) (j : Job) : Decidable (mayStore p s j) := by
  cases p <;> unfold mayStore <;> infer_instance
instance (p : Platform) (s : State) (j : Job) : Decidable (mayPrepare p s j) := by
  cases p <;> unfold mayPrepare <;> infer_instance
instance (p : Platform) (s : State) (j : Job) : Decidable (mayPrepareChunk p s j) := by
  cases p <;> unfold mayPrepareChunk <;> infer_instance
instance (p : Platform) (s : State) (e c : Nat) : Decidable (mayRequest p s e c) := by
  cases p <;> unfold mayRequest <;> infer_instance

/-- One prepared request is sent; the next one follows its answer. -/
def relayed (s : State) (j : Job) (epoch client left : Nat) (ok : Bool) : State :=
  let s := logEffect s (.relay j.db (opened s))
  match ok, left with
  | false, _ => finish s j
  | true, 0 => setStage s j .accepted
  | true, left + 1 => setStage s j (.relaying epoch client left)

/-- The relay answers the request for one chunk. -/
def relayedChunk (s : State) (j : Job) (index total : Nat) (ok : Bool) : State :=
  let s := logEffect s (.relay j.db (opened s))
  if ok then setStage s j (.fetched index total) else finish s j

/-- A delivery falls back to the relay in hybrid mode: that of now on the desktop, that of its
start on Android. -/
def fallsBack (p : Platform) (s : State) (j : Job) : Bool :=
  match p with
  | .desktop => s.mode == .hybrid
  | .android => j.hybrid

def startStage (p : Platform) (viaTor : Bool) : Stage :=
  match p, viaTor with
  | _, false => .fallback
  | .desktop, true => .direct
  | .android, true => .waiting

def next (p : Platform) (s : State) : Event → State
  | .switch k o => applySwitch p k o s
  | .setMode m => { clearSession (stopTor p s) with mode := m }
  | .loadMode m => { s with mode := m }
  | .quickLock => { clearSession (stopTor p s) with quickLocked := true }
  | .quickUnlock => { s with quickLocked := false }
  | .relayConfig => clearSession s
  | .ensureTor =>
    { s with
      transport := some s.fresh
      fresh := s.fresh + 1 }
  | .torStops cleared =>
    { closeTransport p s with transport := if cleared then none else s.transport }
  | .stopDelivery => stopTor p s
  | .startSend name viaTor => addJob s name (startStage p viaTor)
  | .refused name => { s with names := name :: s.names }
  | .startDownload name total => addJob s name (.chunk 0 total)
  | .take j => setStage s j .direct
  | .answered j accepted =>
    if accepted then setStage s j .accepted
    else if fallsBack p s j then setStage s j .fallback
    else finish s j
  | .prepare j left =>
    if mayPrepare p s j then
      setStage (logEffect s (.read j.db (opened s))) j (.relaying s.epoch s.client left)
    else finish s j
  | .check j =>
    match j.stage with
    | .relaying epoch client left =>
      if mayRequest p s epoch client then setStage s j (.checked epoch client left)
      else finish s j
    | _ => s
  | .request j ok =>
    match j.stage with
    | .relaying epoch client left =>
      if mayRequest p s epoch client then relayed s j epoch client left ok else finish s j
    | .checked epoch client left => relayed s j epoch client left ok
    | _ => s
  | .record j =>
    if mayRecord p s j then finish (logEffect s (.write j.db (opened s))) j else finish s j
  | .fetch j ok =>
    match j.stage with
    | .chunk index total =>
      setStage s j (if ok then .fetched index total else .unavailable index total)
    | _ => s
  | .prepareChunk j ok =>
    match j.stage with
    | .unavailable index total =>
      if mayPrepareChunk p s j then
        let s := logEffect s (.read j.db (opened s))
        match p with
        | .desktop => relayedChunk s j index total ok
        | .android => setStage s j (.prepared index total)
      else finish s j
    | _ => s
  | .requestChunk j ok =>
    match j.stage with
    | .prepared index total => relayedChunk s j index total ok
    | _ => s
  | .store j valid =>
    match j.stage with
    | .fetched index total =>
      if valid ∧ mayStore p s j then
        let s := logEffect s (.write j.db (opened s))
        if index + 1 < total then setStage s j (.chunk (index + 1) total) else finish s j
      else finish s j
    | _ => s
  | .fail j => finish s j

/-- While the session PIN is asked for, the vault can only be locked. -/
def switchable (s : State) (k : Switch) (o : Outcome) : Prop :=
  (s.quickLocked = true → k = .lock) ∧
  match k with
  | .lock => o = .closed
  | .changePassword => o = .kept ∨ s.session ≠ none
  | _ => o = .kept ∨ s.session = none

/-- On Android a request is checked before it is sent. -/
def sendable (p : Platform) (stage : Stage) : Bool :=
  match p, stage with
  | .android, .relaying .. => false
  | _, _ => true

def live (s : State) : Prop := s.transport ≠ none ∧ ∀ t ∈ s.transport, t ∉ s.stopped

/-- On Android Tor is started before the job, so that there is a transport. -/
def startable (p : Platform) (s : State) (name : String) : Prop :=
  opened s ≠ none ∧ s.mode ≠ .relayOnly ∧ name ∉ s.names ∧ (p = .android → s.transport ≠ none)

def Enabled (p : Platform) (s : State) : Event → Prop
  | .switch k o => switchable s k o
  | .setMode _ => s.quickLocked = false ∧ (p = .desktop → s.session ≠ none)
  | .loadMode _ => opened s ≠ none
  | .quickLock => opened s ≠ none
  | .quickUnlock => s.session ≠ none ∧ s.quickLocked = true
  | .relayConfig => s.quickLocked = false
  | .ensureTor => opened s ≠ none ∧ s.mode ≠ .relayOnly ∧ ∀ t ∈ s.transport, t ∈ s.stopped
  | .torStops cleared => s.transport ≠ none ∧ (cleared = true → p = .desktop)
  | .stopDelivery => True
  | .startSend name viaTor =>
    startable p s name ∧ if viaTor then live s else s.mode = .hybrid
  -- The transport closes itself between the test of `live` and the hand-over to its executor.
  | .refused name => p = .android ∧ startable p s name ∧ ∀ t ∈ s.transport, t ∈ s.stopped
  | .startDownload name total => startable p s name ∧ live s ∧ 0 < total
  | .take j => p = .android ∧ j ∈ s.jobs ∧ j.stage = .waiting
  | .answered j _ => j ∈ s.jobs ∧ j.stage = .direct
  | .prepare j _ => j ∈ s.jobs ∧ j.stage = .fallback
  | .check j => p = .android ∧ j ∈ s.jobs
  | .request j _ => j ∈ s.jobs ∧ sendable p j.stage = true
  | .record j => j ∈ s.jobs ∧ j.stage = .accepted
  | .fetch j _ => j ∈ s.jobs
  | .prepareChunk j _ => j ∈ s.jobs
  | .requestChunk j _ => j ∈ s.jobs
  | .store j _ => j ∈ s.jobs
  | .fail j => j ∈ s.jobs ∧ j.stage ≠ .waiting

def system (p : Platform) : System State Event where
  Initial s := s = initial
  Enabled := Enabled p
  next := next p

end Steps

/-! ## Isolation -/

section Isolation

/-- It touches only the database the job was started with, or its request was prepared under, and
only while that is unlocked. -/
def Effect.Proper : Effect → Prop
  | .read db now => now = some db
  | .write db now => now = some db
  | .relay db now => now = some db

/-- No job touches another session and no name outlives its job. -/
def Isolated (s : State) : Prop :=
  (∀ e ∈ s.effects, e.Proper) ∧ ∀ n ∈ s.names, ∃ j ∈ s.jobs, j.name = n

/-- A relay request is allowed and not yet sent. -/
def Stage.pending : Stage → Bool
  | .checked .. => true
  | .prepared .. => true
  | _ => false

/-- No delivery is waiting for the executor that is shut down. -/
def NoneDropped (p : Platform) (s : State) : Prop := ∀ j ∈ s.jobs, dropped p s j = false

def NonePending (s : State) : Prop := ∀ j ∈ s.jobs, j.stage.pending = false

/-- The steps after which nothing can go wrong: nothing that waits is dropped or sent under the
next session, and the desktop records no delivery that has no transport while its session is
locked. -/
def Careful (p : Platform) (s : State) : Event → Prop
  | .switch k o => (stops p k o = true → NoneDropped p s) ∧ (o ≠ .kept → NonePending s)
  | .quickLock => NoneDropped p s ∧ NonePending s
  | .setMode _ => NoneDropped p s
  | .torStops _ => NoneDropped p s
  | .stopDelivery => NoneDropped p s
  | .refused _ => False
  | .record j => p = .desktop → j.transport = none → s.quickLocked = false
  | _ => True

/-- The generation that prepared requests compare with. -/
def Stage.epoch : Stage → Option Nat
  | .relaying e _ _ => some e
  | .checked e _ _ => some e
  | _ => none

def Stage.downloads : Stage → Bool
  | .chunk .. => true
  | .unavailable .. => true
  | .prepared .. => true
  | .fetched .. => true
  | _ => false

/-- A generation that still holds was taken in the session that is open. -/
def Fenced (s : State) (db epoch : Nat) : Prop :=
  epoch ≤ s.epoch ∧ (epoch = s.epoch → opened s = some db)

structure StageOk (p : Platform) (s : State) (j : Job) (stage : Stage) : Prop where
  prepared : ∀ e ∈ stage.epoch, Fenced s j.db e
  pending : stage.pending = true → p = .android ∧ opened s = some j.db
  bound : p = .android ∨ stage.downloads = true → j.transport ≠ none

/-- A job whose transport or generation still holds belongs to the session that is open. -/
structure Follows (p : Platform) (s : State) (j : Job) : Prop where
  known : ∀ t ∈ j.transport, t < s.fresh
  held : j.transport ≠ none → j.transport = s.transport → opened s = some j.db
  started : Fenced s j.db j.epoch
  stage : StageOk p s j j.stage

structure Inv (p : Platform) (s : State) : Prop where
  fresh : ∀ t ∈ s.transport, t < s.fresh
  closed : opened s = none → s.transport = none
  jobs : ∀ j ∈ s.jobs, Follows p s j
  effects : ∀ e ∈ s.effects, e.Proper
  names : ∀ n ∈ s.names, ∃ j ∈ s.jobs, j.name = n

/-- No job can act any more. -/
structure Stale (s : State) : Prop where
  transport : s.transport = none
  started : ∀ j ∈ s.jobs, j.epoch < s.epoch
  prepared : ∀ j ∈ s.jobs, ∀ e ∈ j.stage.epoch, e < s.epoch
  pending : NonePending s

theorem initial_inv (p : Platform) : Inv p initial := by
  constructor <;> simp [initial]

theorem fenced_same {s t : State} {db e : Nat} (h : Fenced s db e) (he : t.epoch = s.epoch)
    (ho : opened t = opened s) : Fenced t db e := by
  unfold Fenced
  rw [he, ho]
  exact h

theorem stageOk_same {p : Platform} {s t : State} {j : Job} {stage : Stage}
    (h : StageOk p s j stage) (he : t.epoch = s.epoch) (ho : opened t = opened s) :
    StageOk p t j stage :=
  ⟨fun e hm => fenced_same (h.prepared e hm) he ho, fun hp => by rw [ho]; exact h.pending hp,
    h.bound⟩

theorem follows_same {p : Platform} {s t : State} {j : Job} (h : Follows p s j)
    (hf : t.fresh = s.fresh) (ht : t.transport = s.transport) (he : t.epoch = s.epoch)
    (ho : opened t = opened s) : Follows p t j := by
  refine ⟨?_, ?_, fenced_same h.started he ho, stageOk_same h.stage he ho⟩
  · rw [hf]; exact h.known
  · rw [ht, ho]; exact h.held

/-! ### What one job does -/

theorem logEffect_inv {p : Platform} {s : State} (h : Inv p s) {e : Effect} (he : e.Proper) :
    Inv p (logEffect s e) := by
  refine ⟨h.fresh, h.closed, fun j hj => follows_same (h.jobs j hj) rfl rfl rfl rfl, ?_, h.names⟩
  intro e' hm
  rcases List.mem_append.mp hm with hm | hm
  · exact h.effects e' hm
  · rw [List.mem_singleton.mp hm]
    exact he

theorem setStage_inv {p : Platform} {s : State} (h : Inv p s) {j : Job} (hj : j ∈ s.jobs)
    {stage : Stage} (hs : StageOk p s j stage) : Inv p (setStage s j stage) := by
  refine ⟨h.fresh, h.closed, ?_, h.effects, ?_⟩
  · intro k hk
    obtain ⟨k', hk', rfl⟩ := List.mem_map.mp hk
    by_cases hkj : k' = j
    · rw [if_pos hkj]
      have hf := h.jobs j hj
      exact ⟨hf.known, hf.held, hf.started, ⟨hs.prepared, hs.pending, hs.bound⟩⟩
    · rw [if_neg hkj]
      exact follows_same (h.jobs k' hk') rfl rfl rfl rfl
  · intro n hn
    obtain ⟨k, hk, rfl⟩ := h.names n hn
    refine ⟨_, List.mem_map_of_mem hk, ?_⟩
    by_cases hkj : k = j
    · rw [if_pos hkj, hkj]
    · rw [if_neg hkj]

theorem finish_inv {p : Platform} {s : State} (h : Inv p s) (j : Job) : Inv p (finish s j) := by
  refine ⟨h.fresh, h.closed, ?_, h.effects, ?_⟩
  · intro k hk
    exact follows_same (h.jobs k (List.mem_filter.mp hk).1) rfl rfl rfl rfl
  · intro n hn
    obtain ⟨hn, hne⟩ := List.mem_filter.mp hn
    obtain ⟨k, hk, rfl⟩ := h.names n hn
    exact ⟨k, List.mem_filter.mpr ⟨hk, hne⟩, rfl⟩

theorem addJob_open {s : State} {db : Nat} (h : s.session = some db) (name : String)
    (stage : Stage) :
    addJob s name stage =
      { s with
        names := name :: s.names
        jobs :=
          ⟨name, db, s.owner, s.transport, s.epoch, s.mode == .hybrid, stage⟩ :: s.jobs } := by
  simp only [addJob, h]

theorem addJob_inv {p : Platform} {s : State} (h : Inv p s) {name : String} {stage : Stage}
    (ho : opened s ≠ none) (he : stage.epoch = none) (hp : stage.pending = false)
    (hb : p = .android ∨ stage.downloads = true → s.transport ≠ none) :
    Inv p (addJob s name stage) := by
  obtain ⟨db, hs, hopen⟩ : ∃ db, s.session = some db ∧ opened s = some db := by
    unfold opened at ho ⊢
    split at ho
    · exact absurd rfl ho
    · rename_i hq
      obtain ⟨db, hdb⟩ := Option.ne_none_iff_exists'.mp ho
      exact ⟨db, hdb, by rw [if_neg hq, hdb]⟩
  rw [addJob_open hs]
  refine ⟨h.fresh, h.closed, ?_, h.effects, ?_⟩
  · intro k hk
    rcases List.mem_cons.mp hk with rfl | hk
    · refine ⟨h.fresh, fun _ _ => ?_, ⟨Nat.le_refl _, fun _ => ?_⟩, ⟨?_, ?_, hb⟩⟩
      · exact hopen
      · exact hopen
      · simp [he]
      · simp [hp]
    · exact follows_same (h.jobs k hk) rfl rfl rfl rfl
  · intro n hn
    rcases List.mem_cons.mp hn with rfl | hn
    · exact ⟨_, List.mem_cons_self, rfl⟩
    · obtain ⟨k, hk, hkn⟩ := h.names n hn
      exact ⟨k, List.mem_cons_of_mem _ hk, hkn⟩

/-! ### What ends a session -/

theorem closeTransport_jobs {p : Platform} {s : State} (h : NoneDropped p s) :
    (closeTransport p s).jobs = s.jobs := by
  refine List.filter_eq_self.mpr fun j hj => ?_
  rw [h j hj]
  rfl

/-- The transport may be forgotten, but not replaced. -/
theorem closeTransport_inv {p : Platform} {s : State} (h : Inv p s) (hd : NoneDropped p s)
    (cleared : Bool) :
    Inv p { closeTransport p s with transport := if cleared then none else s.transport } := by
  have hjobs := closeTransport_jobs hd
  refine ⟨?_, ?_, ?_, h.effects, ?_⟩
  · intro t ht
    cases cleared with
    | true => cases ht
    | false => exact h.fresh t ht
  · intro ho
    cases cleared with
    | true => rfl
    | false => exact h.closed ho
  · intro j hj
    rw [hjobs] at hj
    have hf := h.jobs j hj
    refine ⟨hf.known, fun hne heq => ?_, fenced_same hf.started rfl rfl,
      stageOk_same hf.stage rfl rfl⟩
    cases cleared with
    | true => exact absurd heq hne
    | false => exact hf.held hne heq
  · intro n hn
    rw [hjobs]
    exact h.names n hn

theorem stopTor_stale {p : Platform} {s : State} (h : Inv p s) (hd : NoneDropped p s)
    (hp : NonePending s) : Stale (stopTor p s) := by
  have hjobs : (stopTor p s).jobs = s.jobs := closeTransport_jobs hd
  refine ⟨rfl, ?_, ?_, ?_⟩
  · intro j hj
    rw [hjobs] at hj
    exact Nat.lt_succ_of_le (h.jobs j hj).started.1
  · intro j hj e he
    rw [hjobs] at hj
    exact Nat.lt_succ_of_le ((h.jobs j hj).stage.prepared e he).1
  · intro j hj
    rw [hjobs] at hj
    exact hp j hj

theorem stopTor_inv {p : Platform} {s : State} (h : Inv p s) (hd : NoneDropped p s) :
    Inv p (stopTor p s) := by
  have hjobs : (stopTor p s).jobs = s.jobs := closeTransport_jobs hd
  refine ⟨?_, fun _ => rfl, ?_, h.effects, ?_⟩
  · intro t ht
    cases ht
  · intro j hj
    rw [hjobs] at hj
    have hf := h.jobs j hj
    have later {e : Nat} (he : e ≤ s.epoch) : Fenced (stopTor p s) j.db e :=
      ⟨Nat.le_succ_of_le he, fun heq => absurd heq (Nat.ne_of_lt (Nat.lt_succ_of_le he))⟩
    exact ⟨hf.known, fun hne heq => absurd heq hne, later hf.started.1,
      ⟨fun e he => later (hf.stage.prepared e he).1, hf.stage.pending, hf.stage.bound⟩⟩
  · intro n hn
    rw [hjobs]
    exact h.names n hn

/-- While nothing is open no job can act. -/
theorem Inv.stale {p : Platform} {s : State} (h : Inv p s) (ho : opened s = none) : Stale s := by
  have fence {db e : Nat} (hf : Fenced s db e) : e < s.epoch := by
    refine Nat.lt_of_le_of_ne hf.1 fun he => ?_
    have := hf.2 he
    rw [ho] at this
    cases this
  refine ⟨h.closed ho, fun j hj => fence (h.jobs j hj).started,
    fun j hj e he => fence ((h.jobs j hj).stage.prepared e he), ?_⟩
  intro j hj
  cases hp : j.stage.pending with
  | false => rfl
  | true =>
    have := ((h.jobs j hj).stage.pending hp).2
    rw [ho] at this
    cases this

/-- Once no job can act, any session may be opened or closed. -/
theorem stale_reopen {p : Platform} {s t : State} (h : Inv p s) (hs : Stale s)
    (hf : s.fresh ≤ t.fresh) (ht : t.transport = s.transport) (he : t.epoch = s.epoch)
    (hj : t.jobs = s.jobs) (hn : t.names = s.names) (hx : t.effects = s.effects) : Inv p t := by
  have hnone : t.transport = none := by rw [ht, hs.transport]
  refine ⟨?_, fun _ => hnone, ?_, by rw [hx]; exact h.effects, by rw [hn, hj]; exact h.names⟩
  · rw [hnone]
    intro t' ht'
    cases ht'
  · intro j hm
    rw [hj] at hm
    have hf' := h.jobs j hm
    have earlier {e : Nat} (hlt : e < s.epoch) : Fenced t j.db e := by
      unfold Fenced
      rw [he]
      exact ⟨Nat.le_of_lt hlt, fun heq => absurd heq (Nat.ne_of_lt hlt)⟩
    refine ⟨fun t' ht' => Nat.lt_of_lt_of_le (hf'.known t' ht') hf, ?_,
      earlier (hs.started j hm), ⟨fun e hm' => earlier (hs.prepared j hm e hm'), ?_,
        hf'.stage.bound⟩⟩
    · rw [hnone]
      exact fun hne heq => absurd heq hne
    · intro hp
      rw [hs.pending j hm] at hp
      cases hp

theorem switch_inv {p : Platform} {s : State} (h : Inv p s) {k : Switch} {o : Outcome}
    (he : switchable s k o) (hc : Careful p s (.switch k o)) : Inv p (applySwitch p k o s) := by
  -- Tor is stopped and the relay session ended before the vault itself changes.
  have hstop : Inv p (if stops p k o then stopTor p s else s) := by
    split
    · rename_i hst
      exact stopTor_inv h (hc.1 hst)
    · exact h
  have hstale (ho : o ≠ .kept) : Stale (if stops p k o then stopTor p s else s) := by
    split
    · rename_i hst
      exact stopTor_stale h (hc.1 hst) (hc.2 ho)
    · rename_i hst
      refine h.stale ?_
      have hsession : s.session = none := by
        cases p <;> cases k <;> simp_all [stops, switchable]
      simp [opened, hsession]
  unfold applySwitch
  generalize (if stops p k o then stopTor p s else s) = u at hstop hstale
  have hclear : Inv p (if clears k then clearSession u else u) := by
    split
    · exact ⟨hstop.fresh, hstop.closed,
        fun j hj => follows_same (hstop.jobs j hj) rfl rfl rfl rfl, hstop.effects, hstop.names⟩
    · exact hstop
  have hstale' (ho : o ≠ .kept) : Stale (if clears k then clearSession u else u) := by
    have hs := hstale ho
    split
    · exact ⟨hs.transport, hs.started, hs.prepared, hs.pending⟩
    · exact hs
  dsimp only
  generalize (if clears k then clearSession u else u) = v at hclear hstale'
  cases o with
  | kept => exact hclear
  | closed =>
    exact stale_reopen hclear (hstale' (by simp)) (Nat.le_succ _) rfl rfl rfl rfl rfl
  | opened =>
    exact stale_reopen hclear (hstale' (by simp)) (Nat.le_succ _) rfl rfl rfl rfl rfl

/-! ### What the comparisons establish -/

theorem mayRecord_opened {p : Platform} {s : State} {j : Job} (hf : Follows p s j)
    (hg : mayRecord p s j) (hc : p = .desktop → j.transport = none → s.quickLocked = false) :
    opened s = some j.db := by
  cases p with
  | desktop =>
    obtain ⟨⟨ht, -⟩, hdb⟩ := hg
    by_cases hn : j.transport = none
    · simp [opened, hc rfl hn, hdb]
    · exact hf.held hn ht.symm
  | android => exact hf.held (hf.stage.bound (.inl rfl)) hg.2.symm

theorem mayStore_opened {p : Platform} {s : State} {j : Job} (hf : Follows p s j)
    (hd : j.stage.downloads = true) (hg : mayStore p s j) : opened s = some j.db := by
  have hb := hf.stage.bound (.inr hd)
  cases p with
  | desktop => exact hf.held hb hg.1.1.symm
  | android => exact hf.held hb hg.2.symm

theorem mayPrepare_opened {p : Platform} {s : State} {j : Job} (hf : Follows p s j)
    (hg : mayPrepare p s j) : opened s = some j.db := by
  cases p with
  | desktop => simp [opened, hg.2.2.1, hg.2.1]
  | android => exact hf.started.2 hg.2.1.symm

theorem mayPrepareChunk_opened {p : Platform} {s : State} {j : Job} (hf : Follows p s j)
    (hd : j.stage.downloads = true) (hg : mayPrepareChunk p s j) : opened s = some j.db := by
  have hb := hf.stage.bound (.inr hd)
  cases p with
  | desktop => exact hf.held hb hg.1.1.symm
  | android => exact hf.held hb hg.2.1.symm

theorem mayRequest_opened {p : Platform} {s : State} {db e c : Nat} (hf : Fenced s db e)
    (hg : mayRequest p s e c) : opened s = some db := by
  cases p with
  | desktop => exact hf.2 hg.1
  | android => exact hf.2 hg

/-! ### Steps of the jobs -/

/-- A stage that holds no prepared request. -/
theorem stageOk_plain {p : Platform} {s : State} {j : Job} (hf : Follows p s j) {stage : Stage}
    (he : stage.epoch = none) (hp : stage.pending = false)
    (hd : stage.downloads = true → j.stage.downloads = true) : StageOk p s j stage := by
  refine ⟨?_, ?_, fun hb => hf.stage.bound (hb.imp_right hd)⟩
  · simp [he]
  · simp [hp]

theorem relayed_inv {p : Platform} {s : State} (h : Inv p s) {j : Job} (hj : j ∈ s.jobs)
    {e c left : Nat} (hfence : Fenced s j.db e) (ho : opened s = some j.db) (ok : Bool) :
    Inv p (relayed s j e c left ok) := by
  have hlog := logEffect_inv h (e := .relay j.db (opened s)) ho
  have hf := hlog.jobs j hj
  unfold relayed
  cases ok with
  | false => exact finish_inv hlog j
  | true =>
    cases left with
    | zero => exact setStage_inv hlog hj (stageOk_plain hf rfl rfl (by simp [Stage.downloads]))
    | succ left =>
      refine setStage_inv hlog hj ⟨?_, by simp [Stage.pending], fun hb => ?_⟩
      · intro e' he'
        cases he'
        exact fenced_same hfence rfl rfl
      · exact hf.stage.bound (hb.imp_right (by simp [Stage.downloads]))

theorem relayedChunk_inv {p : Platform} {s : State} (h : Inv p s) {j : Job} (hj : j ∈ s.jobs)
    (hd : j.stage.downloads = true) (ho : opened s = some j.db) (index total : Nat) (ok : Bool) :
    Inv p (relayedChunk s j index total ok) := by
  have hlog := logEffect_inv h (e := .relay j.db (opened s)) ho
  unfold relayedChunk
  cases ok with
  | false => exact finish_inv hlog j
  | true => exact setStage_inv hlog hj (stageOk_plain (hlog.jobs j hj) rfl rfl fun _ => hd)

theorem answered_inv {p : Platform} {s : State} (h : Inv p s) {j : Job} (hj : j ∈ s.jobs)
    (accepted : Bool) : Inv p (next p s (.answered j accepted)) := by
  have hf := h.jobs j hj
  simp only [next]
  split
  · exact setStage_inv h hj (stageOk_plain hf rfl rfl (by simp [Stage.downloads]))
  · split
    · exact setStage_inv h hj (stageOk_plain hf rfl rfl (by simp [Stage.downloads]))
    · exact finish_inv h j

theorem prepare_inv {p : Platform} {s : State} (h : Inv p s) {j : Job} (hj : j ∈ s.jobs)
    (left : Nat) : Inv p (next p s (.prepare j left)) := by
  have hf := h.jobs j hj
  simp only [next]
  split
  · rename_i hg
    have ho := mayPrepare_opened hf hg
    have hlog := logEffect_inv h (e := .read j.db (opened s)) ho
    refine setStage_inv hlog hj ⟨?_, by simp [Stage.pending], fun hb => ?_⟩
    · intro e he
      cases he
      exact ⟨Nat.le_refl _, fun _ => ho⟩
    · exact hf.stage.bound (hb.imp_right (by simp [Stage.downloads]))
  · exact finish_inv h j

theorem check_inv {p : Platform} {s : State} (h : Inv p s) {j : Job} (hj : j ∈ s.jobs)
    (hp : p = .android) : Inv p (next p s (.check j)) := by
  have hf := h.jobs j hj
  simp only [next]
  split
  · rename_i e c left hst
    have hfence : Fenced s j.db e := hf.stage.prepared e (by simp [hst, Stage.epoch])
    split
    · rename_i hg
      refine setStage_inv h hj ⟨?_, fun _ => ⟨hp, mayRequest_opened hfence hg⟩, fun _ => ?_⟩
      · intro e' he'
        cases he'
        exact hfence
      · exact hf.stage.bound (.inl hp)
    · exact finish_inv h j
  · exact h

theorem request_inv {p : Platform} {s : State} (h : Inv p s) {j : Job} (hj : j ∈ s.jobs)
    (ok : Bool) : Inv p (next p s (.request j ok)) := by
  have hf := h.jobs j hj
  simp only [next]
  split
  · rename_i e c left hst
    have hfence : Fenced s j.db e := hf.stage.prepared e (by simp [hst, Stage.epoch])
    split
    · rename_i hg
      exact relayed_inv h hj hfence (mayRequest_opened hfence hg) ok
    · exact finish_inv h j
  · rename_i e c left hst
    have hfence : Fenced s j.db e := hf.stage.prepared e (by simp [hst, Stage.epoch])
    exact relayed_inv h hj hfence (hf.stage.pending (by simp [hst, Stage.pending])).2 ok
  · exact h

theorem record_inv {p : Platform} {s : State} (h : Inv p s) {j : Job} (hj : j ∈ s.jobs)
    (hc : Careful p s (.record j)) : Inv p (next p s (.record j)) := by
  simp only [next]
  split
  · rename_i hg
    have ho := mayRecord_opened (h.jobs j hj) hg hc
    exact finish_inv (logEffect_inv h (e := .write j.db (opened s)) ho) j
  · exact finish_inv h j

theorem fetch_inv {p : Platform} {s : State} (h : Inv p s) {j : Job} (hj : j ∈ s.jobs)
    (ok : Bool) : Inv p (next p s (.fetch j ok)) := by
  have hf := h.jobs j hj
  simp only [next]
  split
  · rename_i index total hst
    have hd : j.stage.downloads = true := by simp [hst, Stage.downloads]
    cases ok with
    | true => exact setStage_inv h hj (stageOk_plain hf rfl rfl fun _ => hd)
    | false => exact setStage_inv h hj (stageOk_plain hf rfl rfl fun _ => hd)
  · exact h

theorem prepareChunk_inv {p : Platform} {s : State} (h : Inv p s) {j : Job} (hj : j ∈ s.jobs)
    (ok : Bool) : Inv p (next p s (.prepareChunk j ok)) := by
  have hf := h.jobs j hj
  simp only [next]
  split
  · rename_i index total hst
    have hd : j.stage.downloads = true := by simp [hst, Stage.downloads]
    split
    · rename_i hg
      have ho := mayPrepareChunk_opened hf hd hg
      have hlog := logEffect_inv h (e := .read j.db (opened s)) ho
      cases p with
      | desktop => exact relayedChunk_inv hlog hj hd ho index total ok
      | android =>
        refine setStage_inv hlog hj ⟨?_, fun _ => ⟨rfl, ho⟩, fun _ => hf.stage.bound (.inr hd)⟩
        simp [Stage.epoch]
    · exact finish_inv h j
  · exact h

theorem requestChunk_inv {p : Platform} {s : State} (h : Inv p s) {j : Job} (hj : j ∈ s.jobs)
    (ok : Bool) : Inv p (next p s (.requestChunk j ok)) := by
  have hf := h.jobs j hj
  simp only [next]
  split
  · rename_i index total hst
    refine relayedChunk_inv h hj (by simp [hst, Stage.downloads]) ?_ index total ok
    exact (hf.stage.pending (by simp [hst, Stage.pending])).2
  · exact h

theorem store_inv {p : Platform} {s : State} (h : Inv p s) {j : Job} (hj : j ∈ s.jobs)
    (valid : Bool) : Inv p (next p s (.store j valid)) := by
  have hf := h.jobs j hj
  simp only [next]
  split
  · rename_i index total hst
    have hd : j.stage.downloads = true := by simp [hst, Stage.downloads]
    split
    · rename_i hg
      have hlog := logEffect_inv h (e := .write j.db (opened s)) (mayStore_opened hf hd hg.2)
      split
      · exact setStage_inv hlog hj (stageOk_plain (hlog.jobs j hj) rfl rfl fun _ => hd)
      · exact finish_inv hlog j
    · exact finish_inv h j
  · exact h

/-! ### Runs -/

theorem startStage_plain (p : Platform) (viaTor : Bool) :
    (startStage p viaTor).epoch = none ∧ (startStage p viaTor).pending = false ∧
      (startStage p viaTor).downloads = false := by
  cases p <;> cases viaTor <;> exact ⟨rfl, rfl, rfl⟩

theorem next_inv {p : Platform} {s : State} {e : Event} (h : Inv p s) (he : Enabled p s e)
    (hc : Careful p s e) : Inv p (next p s e) := by
  have same {j : Job} (hj : j ∈ s.jobs) := h.jobs j hj
  cases e with
  | switch k o => exact switch_inv h he hc
  | setMode m =>
    have hs := stopTor_inv h hc
    exact ⟨hs.fresh, hs.closed, fun j hj => follows_same (hs.jobs j hj) rfl rfl rfl rfl,
      hs.effects, hs.names⟩
  | loadMode m =>
    exact ⟨h.fresh, h.closed, fun j hj => follows_same (same hj) rfl rfl rfl rfl, h.effects,
      h.names⟩
  | quickLock =>
    exact stale_reopen (stopTor_inv h hc.1) (stopTor_stale h hc.1 hc.2) (Nat.le_refl _) rfl rfl
      rfl rfl rfl
  | quickUnlock =>
    refine stale_reopen h (h.stale ?_) (Nat.le_refl _) rfl rfl rfl rfl rfl
    simp [opened, he.2]
  | relayConfig =>
    exact ⟨h.fresh, h.closed, fun j hj => follows_same (same hj) rfl rfl rfl rfl, h.effects,
      h.names⟩
  | ensureTor =>
    -- The number of the new transport is in no job.
    refine ⟨?_, fun ho => absurd ho he.1, ?_, h.effects, h.names⟩
    · intro t ht
      cases ht
      exact Nat.lt_succ_self _
    · intro j hj
      have hf := same hj
      refine ⟨fun t ht => Nat.lt_succ_of_lt (hf.known t ht), fun _ heq => ?_,
        fenced_same hf.started rfl rfl, stageOk_same hf.stage rfl rfl⟩
      exact absurd (hf.known s.fresh heq) (Nat.lt_irrefl _)
  | torStops cleared => exact closeTransport_inv h hc cleared
  | stopDelivery => exact stopTor_inv h hc
  | startSend name viaTor =>
    obtain ⟨hst, hep, hdl⟩ := startStage_plain p viaTor
    refine addJob_inv h he.1.1 hst hep fun hb => ?_
    rcases hb with hp | hd
    · exact he.1.2.2.2 hp
    · rw [hdl] at hd
      cases hd
  | refused name => exact absurd hc id
  | startDownload name total => exact addJob_inv h he.1.1 rfl rfl fun _ => he.2.1.1
  | take j =>
    exact setStage_inv h he.2.1 (stageOk_plain (same he.2.1) rfl rfl (by simp [Stage.downloads]))
  | answered j accepted => exact answered_inv h he.1 accepted
  | prepare j left => exact prepare_inv h he.1 left
  | check j => exact check_inv h he.2 he.1
  | request j ok => exact request_inv h he.1 ok
  | record j => exact record_inv h he.1 hc
  | fetch j ok => exact fetch_inv h he ok
  | prepareChunk j ok => exact prepareChunk_inv h he ok
  | requestChunk j ok => exact requestChunk_inv h he ok
  | store j valid => exact store_inv h he valid
  | fail j => exact finish_inv h j

theorem careful_isolated (p : Platform) {s : State}
    (h : Reachable ((system p).Within (Careful p)) s) : Isolated s := by
  have hinv : Inv p s := by
    refine reachable_invariant ?_ ?_ h
    · rintro _ rfl
      exact initial_inv p
    · intro s e hs he
      exact next_inv hs he.1 he.2
  exact ⟨hinv.effects, hinv.names⟩

instance (e : Effect) : Decidable e.Proper := by
  cases e <;> unfold Effect.Proper <;> infer_instance
instance (s : State) : Decidable (Isolated s) := by unfold Isolated; infer_instance
instance (p : Platform) (s : State) : Decidable (NoneDropped p s) := by
  unfold NoneDropped; infer_instance
instance (s : State) : Decidable (NonePending s) := by unfold NonePending; infer_instance
instance (s : State) (k : Switch) (o : Outcome) : Decidable (switchable s k o) := by
  cases k <;> unfold switchable <;> infer_instance
instance (s : State) : Decidable (live s) := by unfold live; infer_instance
instance (p : Platform) (s : State) (name : String) : Decidable (startable p s name) := by
  unfold startable; infer_instance
instance (p : Platform) (s : State) (e : Event) : Decidable (Enabled p s e) := by
  cases e <;> unfold Enabled <;> infer_instance
instance (p : Platform) (s : State) (e : Event) : Decidable (Careful p s e) := by
  cases e <;> unfold Careful <;> infer_instance

/-- A download that starts in the first session and has one chunk. -/
def download (stage : Stage) : Job := ⟨"blob", 1, 1, some 2, 1, true, stage⟩

/-- A delivery that starts in the first session and has no transport. -/
def delivery (stage : Stage) : Job := ⟨"envelope", 1, 1, none, 1, true, stage⟩

/-- The vault is opened in hybrid mode and Tor is started. -/
def opening (rest : List Event) : List Event :=
  .switch .openVault .opened :: .loadMode .hybrid :: .ensureTor :: rest

/-- The vault is locked and opened again while the peer answers a download. -/
def careful : List Event :=
  opening [.startDownload "blob" 1, .fetch (download (.chunk 0 1)) true,
    .switch .lock .closed, .switch .openVault .opened, .store (download (.fetched 0 1)) true]

theorem careful_download_isolated :
    Isolated (((system .android).Within (Careful .android)).replay initial careful) := by
  refine careful_isolated .android (valid_trace_reachable (reachable_initial rfl) ?_)
  simp only [careful, opening, System.Valid, System.Within, system]
  decide +kernel

/-- The vault is locked after the request for a chunk was prepared and before it is sent. -/
def lateRequest : List Event :=
  opening [.startDownload "blob" 1, .fetch (download (.chunk 0 1)) false,
    .prepareChunk (download (.unavailable 0 1)) true, .switch .lock .closed,
    .requestChunk (download (.prepared 0 1)) true]

/-- The vault is locked while a delivery waits for a thread of the transport. -/
def lostDelivery : List Event :=
  opening [.startSend "envelope" true, .switch .lock .closed]

/-- The session is locked while the relay answers a delivery that has no transport. -/
def lateRecord : List Event :=
  [.switch .openVault .opened, .loadMode .hybrid, .startSend "envelope" false,
    .prepare (delivery .fallback) 0, .request (delivery (.relaying 1 1 0)) true, .quickLock,
    .record (delivery .accepted)]

theorem jobs_not_isolated :
    (¬ ∀ s, Reachable (system .android) s → ∀ e ∈ s.effects, e.Proper) ∧
    (¬ ∀ s, Reachable (system .android) s → ∀ n ∈ s.names, ∃ j ∈ s.jobs, j.name = n) ∧
    ¬ ∀ s, Reachable (system .desktop) s → ∀ e ∈ s.effects, e.Proper := by
  refine ⟨fun h => ?_, fun h => ?_, fun h => ?_⟩
  · have hr : Reachable (system .android) ((system .android).replay initial lateRequest) := by
      refine valid_trace_reachable (reachable_initial rfl) ?_
      simp only [lateRequest, opening, System.Valid, system]
      decide +kernel
    have hlast : Effect.relay 1 none ∈ ((system .android).replay initial lateRequest).effects := by
      decide +kernel
    exact absurd (h _ hr _ hlast) (by decide)
  · have hr : Reachable (system .android) ((system .android).replay initial lostDelivery) := by
      refine valid_trace_reachable (reachable_initial rfl) ?_
      simp only [lostDelivery, opening, System.Valid, system]
      decide +kernel
    have hlost : ¬ ∀ n ∈ ((system .android).replay initial lostDelivery).names,
        ∃ j ∈ ((system .android).replay initial lostDelivery).jobs, j.name = n := by
      decide +kernel
    exact hlost (h _ hr)
  · have hr : Reachable (system .desktop) ((system .desktop).replay initial lateRecord) := by
      refine valid_trace_reachable (reachable_initial rfl) ?_
      simp only [lateRecord, System.Valid, system]
      decide +kernel
    have hlast : Effect.write 1 none ∈ ((system .desktop).replay initial lateRecord).effects := by
      decide +kernel
    exact absurd (h _ hr _ hlast) (by decide)

end Isolation

end JobSessions
