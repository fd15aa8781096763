import CryptoPigeon.TransitionSystem

/-! # Background backups on the phone

`NativeEngine` and `NativeVault` while one vault is open. The engine's lock is held by a handler
until it returns; the one background thread uploads without it. An upload is skipped when
`total_changes()` has not moved since the last one, so a missed change would stay out of the cloud.
`content` counts the changes of this session in a snapshot. Ciphertexts are never equal, as every
encryption draws a nonce; a change of the password that fails is a manual sync here, and one that
succeeds ends the run, like a lock. `scheduled` and `dropped` are history. -/
namespace AndroidBackup

open TransitionSystem

structure Prepared where
  changes : Nat
  generation : Nat
  deriving DecidableEq, Repr

/-- A PUT on its way to the relay; one of an earlier session has no content of this one. -/
structure Request where
  id : Nat
  version : Nat
  content : Option Nat
  deriving DecidableEq, Repr

/-- A call of `uploadPreparedBackup`. -/
inductive Upload where
  | unsent (prepared : Prepared)
  | asked (prepared : Prepared) (request : Request)
  | ended (ok : Bool)
  deriving DecidableEq, Repr

def Upload.isOver : Upload → Bool
  | .ended _ => true
  | _ => false

structure Relay where
  version : Nat
  content : Option Nat
  deriving DecidableEq, Repr

/-- The background thread: `runBackup` waits for the engine, uploads, and comes back to it. -/
inductive Background where
  | idle
  | entering
  | running (u : Upload)
  deriving DecidableEq, Repr

inductive Job where
  | sync
  | storage (enabled : Bool)
  | configure (pending : Bool)
  deriving DecidableEq, Repr

/-- A handler in the engine: behind `cancelBackup`, in `drainBackup` or in `syncBackup`. -/
inductive Handler where
  | draining (job : Job)
  | syncing (u : Upload)
  deriving DecidableEq, Repr

inductive Uploader where
  | background
  | handler
  deriving DecidableEq, Repr

structure Vault where
  changes : Nat
  cloudBackupEnabled : Bool
  vaultDirty : Bool
  dirtyGeneration : Nat
  lastBackedUpChanges : Option Nat
  backupVersion : Nat
  deriving DecidableEq, Repr

structure Network where
  relay : Relay
  wire : List Request
  accepted : List Nat
  requests : Nat
  deriving DecidableEq, Repr

structure State where
  vault : Vault
  backupTimer : Option Nat
  armed : List Nat
  timers : Nat
  backupDirty : Bool
  background : Background
  handler : Option Handler
  network : Network
  scheduled : Option Nat
  dropped : Bool
  deriving DecidableEq, Repr

def State.upload (s : State) : Uploader → Option Upload
  | .background => match s.background with
    | .running u => some u
    | _ => none
  | .handler => match s.handler with
    | some (.syncing u) => some u
    | _ => none

def State.setUpload (s : State) (u : Upload) : Uploader → State
  | .background => { s with background := .running u }
  | .handler => { s with handler := some (.syncing u) }

/-- `cancel(false)`: a timer that has fired goes on. -/
def clearTimer (s : State) : List Nat := s.armed.filter fun id => s.backupTimer ≠ some id

def Vault.markDirty (v : Vault) : Vault :=
  { v with dirtyGeneration := v.dirtyGeneration + 1, vaultDirty := true }

/-- `markDirty` writes the settings only if they were clean, and throws if it cannot. -/
def scheduleBackup (s : State) (saved : Bool) : State :=
  let marked := { s with vault := s.vault.markDirty }
  if (!s.vault.vaultDirty && !saved) || !s.vault.cloudBackupEnabled then marked
  else
    { marked with
      backupDirty := true
      armed := clearTimer s ++ [s.timers]
      backupTimer := some s.timers
      timers := s.timers + 1
      scheduled := some s.vault.changes
      dropped := false }

def cancelBackup (s : State) : State :=
  { s with armed := clearTimer s, backupTimer := none, backupDirty := false }

/-- Without cloud backups or without a change there is nothing to upload. -/
def prepareBackgroundBackup (v : Vault) : Upload :=
  if !v.cloudBackupEnabled || (!v.vaultDirty && v.lastBackedUpChanges == some v.changes) then
    .ended true
  else .unsent ⟨v.changes, v.dirtyGeneration⟩

/-- The first block of `runBackup`. -/
def enter (s : State) (prepares saved : Bool) : State :=
  if !s.backupDirty then { s with background := .idle }
  else if prepares then
    { s with background := .running (prepareBackgroundBackup s.vault), backupDirty := false }
  else scheduleBackup { s with background := .idle } saved

def send (s : State) (who : Uploader) : State :=
  match s.upload who with
  | some (.unsent p) =>
    let r : Request := ⟨s.network.requests, s.vault.backupVersion + 1, some p.changes⟩
    { s with
      network.wire := r :: s.network.wire
      network.requests := s.network.requests + 1 }.setUpload (.asked p r) who
  | _ => s

/-- The relay stores the next version only, and may refuse that one for another reason. -/
def arrive (n : Network) (r : Request) (willing : Bool) : Network :=
  if willing && r.version == n.relay.version + 1 then
    { n with
      relay := ⟨r.version, r.content⟩
      accepted := r.id :: n.accepted
      wire := n.wire.erase r }
  else { n with wire := n.wire.erase r }

/-- A version has been stored: the vault is clean unless it has changed since the snapshot. -/
def Vault.uploaded (v : Vault) (p : Prepared) (r : Request) : Vault :=
  if v.dirtyGeneration = p.generation ∧ v.changes = p.changes then
    { v with
      backupVersion := r.version
      vaultDirty := false
      lastBackedUpChanges := some p.changes }
  else { v with backupVersion := r.version }

def answer (s : State) (who : Uploader) (saved : Bool) : State :=
  match s.upload who with
  | some (.asked p r) =>
    if r.id ∈ s.network.accepted then
      { s with vault := s.vault.uploaded p r }.setUpload (.ended saved) who
    else s.setUpload (.ended false) who
  | _ => s

/-- The last block of `runBackup`. -/
def finish (s : State) (saved : Bool) : State :=
  match s.background with
  | .running (.ended false) => scheduleBackup { s with background := .idle } saved
  | _ => { s with background := .idle }

inductive Call where
  | sync
  | storage (enabled : Bool)
  | configure
  deriving DecidableEq, Repr

/-- The handlers that cancel the background backup and wait for it. -/
def call (s : State) : Call → State
  | .sync => { cancelBackup s with handler := some (.draining .sync) }
  | .storage enabled => { cancelBackup s with handler := some (.draining (.storage enabled)) }
  | .configure => { cancelBackup s with handler := some (.draining (.configure s.backupDirty)) }

/-- What the handler does behind `drainBackup`; `ok` is whether its next operation succeeds. -/
def drained (s : State) (ok saved : Bool) : State :=
  match s.handler with
  | some (.draining .sync) =>
    if !s.vault.cloudBackupEnabled then { s with handler := none }
    else if ok then
      { s with
        handler := some (.syncing (.unsent ⟨s.vault.changes, s.vault.dirtyGeneration⟩)) }
    else { s with handler := none, dropped := true }
  | some (.draining (.storage enabled)) =>
    let stored := { s with
      vault.cloudBackupEnabled := enabled
      handler := none
      dropped := s.dropped || enabled }
    if ok && enabled then scheduleBackup stored saved else stored
  | some (.draining (.configure pending)) =>
    if pending then scheduleBackup { s with handler := none } saved
    else { s with handler := none }
  | _ => s

def returned (s : State) : State :=
  match s.handler with
  | some (.syncing (.ended ok)) => { s with handler := none, dropped := s.dropped || !ok }
  | _ => s

/-- `capsule` is a seventh share that was saved to a file, which turns cloud backups off. -/
inductive Event where
  | change
  | schedule (saved : Bool)
  | capsule
  | fire (id : Nat)
  | enter (prepares saved : Bool)
  | send (who : Uploader)
  | arrive (r : Request) (willing : Bool)
  | answer (who : Uploader) (saved : Bool)
  | giveUp (who : Uploader)
  | finish (saved : Bool)
  | call (c : Call)
  | drained (ok saved : Bool)
  | returned
  deriving DecidableEq, Repr

def Enabled (s : State) : Event → Prop
  | .change | .schedule _ | .capsule | .call _ => s.handler = none
  | .fire id => id ∈ s.armed ∧ s.background = .idle
  | .enter _ _ => s.handler = none ∧ s.background = .entering
  | .send who => ∃ p, s.upload who = some (.unsent p)
  | .arrive r _ => r ∈ s.network.wire
  | .answer who _ => ∃ p r, s.upload who = some (.asked p r) ∧ r ∉ s.network.wire
  | .giveUp who => ∃ u, s.upload who = some u ∧ u.isOver = false
  | .finish _ => s.handler = none ∧ ∃ ok, s.background = .running (.ended ok)
  | .drained _ _ => (∃ job, s.handler = some (.draining job)) ∧
    ∀ u, s.upload .background = some u → u.isOver = true
  | .returned => ∃ ok, s.handler = some (.syncing (.ended ok))

def next (s : State) : Event → State
  | .change => { s with vault.changes := s.vault.changes + 1 }
  | .schedule saved => scheduleBackup s saved
  | .capsule => { s with vault.cloudBackupEnabled := false }
  | .fire id => { s with armed := s.armed.erase id, background := .entering }
  | .enter prepares saved => enter s prepares saved
  | .send who => send s who
  | .arrive r willing => { s with network := arrive s.network r willing }
  | .answer who saved => answer s who saved
  | .giveUp who => s.setUpload (.ended false) who
  | .finish saved => finish s saved
  | .call c => call s c
  | .drained ok saved => drained s ok saved
  | .returned => returned s

/-- Nothing of this session is in the record, or the vault has just been made and uploaded. -/
def Opened (v : Vault) (n : Network) : Prop :=
  (v.lastBackedUpChanges = none ∧ n.relay.content = none) ∨
    (v.lastBackedUpChanges = some v.changes ∧ n.relay.content = some v.changes ∧
      ∀ r ∈ n.wire, r.version ≤ v.backupVersion)

/-- Requests of earlier sessions may still be on their way. -/
structure Initial (s : State) : Prop where
  opened : Opened s.vault s.network
  version : s.vault.backupVersion ≤ s.network.relay.version
  wire : ∀ r ∈ s.network.wire,
    r.version ≤ s.vault.backupVersion + 1 ∧ r.id < s.network.requests ∧ r.content = none
  accepted : ∀ id ∈ s.network.accepted, id < s.network.requests
  background : ∀ u, s.background ≠ .running u
  handler : s.handler = none
  scheduled : s.scheduled = none

def system : System State Event := ⟨Initial, Enabled, next⟩

/-- The relay's record has the first `n` changes. -/
def Landed (r : Relay) (n : Nat) : Prop := ∃ c, r.content = some c ∧ n ≤ c

/-- An upload that has them, or one that has failed and will be scheduled again. -/
def Upload.Carries (n : Nat) : Upload → Prop
  | .unsent p => n ≤ p.changes
  | .asked p _ => n ≤ p.changes
  | .ended ok => ok = false

/-- The record has them, a timer or the thread will take them up, or an upload carries them. -/
def Covered (s : State) (n : Nat) : Prop :=
  Landed s.network.relay n ∨ (s.backupDirty = true ∧ (s.armed ≠ [] ∨ s.background = .entering)) ∨
    ∃ u, s.background = .running u ∧ u.Carries n

section Uploads

variable {s t : State} {p : Prepared} {r : Request} {u v : Upload} {who other : Uploader} {n : Nat}

@[simp] theorem setUpload_vault : (s.setUpload u who).vault = s.vault := by cases who <;> rfl

@[simp] theorem setUpload_network : (s.setUpload u who).network = s.network := by cases who <;> rfl

@[simp] theorem setUpload_scheduled : (s.setUpload u who).scheduled = s.scheduled := by
  cases who <;> rfl

@[simp] theorem upload_setUpload : (s.setUpload u who).upload who = some u := by cases who <;> rfl

theorem upload_setUpload_of_ne (h : other ≠ who) :
    (s.setUpload u who).upload other = s.upload other := by
  cases who <;> cases other <;> first | rfl | exact absurd rfl h

theorem upload_congr (hbackground : t.background = s.background)
    (hhandler : t.handler = s.handler) : t.upload = s.upload := by
  funext who
  cases who
  · simp only [State.upload, hbackground]
  · simp only [State.upload, hhandler]

theorem scheduleBackup_frame (saved : Bool) :
    (scheduleBackup s saved).background = s.background ∧
      (scheduleBackup s saved).handler = s.handler ∧
      (scheduleBackup s saved).network = s.network ∧
      (scheduleBackup s saved).vault = s.vault.markDirty := by
  unfold scheduleBackup
  split <;> exact ⟨rfl, rfl, rfl, rfl⟩

theorem landed_mono {w : Relay} {m : Nat} (h : Landed w n) (hle : m ≤ n) : Landed w m :=
  let ⟨c, hc, hn⟩ := h
  ⟨c, hc, Nat.le_trans hle hn⟩

/-- The snapshot has what the record has, unless an upload whose answer was lost is the record. -/
structure Prepared.Sound (s : State) (p : Prepared) : Prop where
  changes : p.changes ≤ s.vault.changes
  newer : s.network.relay.version = s.vault.backupVersion →
    ∀ c, s.network.relay.content = some c → c ≤ p.changes
  generation : p.generation ≤ s.vault.dirtyGeneration
  scheduled : p.generation = s.vault.dirtyGeneration →
    ∀ m, s.scheduled = some m → m ≤ p.changes

/-- The request the uploader waits for. -/
structure Request.Of (s : State) (p : Prepared) (r : Request) : Prop where
  content : r.content = some p.changes
  version : r.version = s.vault.backupVersion + 1
  id : r.id < s.network.requests
  only : ∀ q ∈ s.network.wire, q.id = r.id → q = r
  stored : r.id ∈ s.network.accepted → s.network.relay = ⟨r.version, r.content⟩

def Upload.Sound (s : State) : Upload → Prop
  | .unsent p => p.Sound s
  | .asked p r => p.Sound s ∧ r.Of s p
  | .ended _ => True

/-- What the next version may be has all that the record has. -/
def Succeeds (v : Vault) (w : Network) (r : Request) : Prop :=
  w.relay.version = v.backupVersion → r.version = v.backupVersion + 1 →
    ∀ c, w.relay.content = some c → ∃ d, r.content = some d ∧ c ≤ d

structure Invariant (s : State) : Prop where
  version : s.vault.backupVersion ≤ s.network.relay.version
  record : ∀ c, s.network.relay.content = some c → c ≤ s.vault.changes
  wire : ∀ r ∈ s.network.wire, r.version ≤ s.vault.backupVersion + 1 ∧ r.id < s.network.requests
  contents : ∀ r ∈ s.network.wire, ∀ c, r.content = some c → c ≤ s.vault.changes
  succeeds : ∀ r ∈ s.network.wire, Succeeds s.vault s.network r
  accepted : ∀ id ∈ s.network.accepted, id < s.network.requests
  backed : ∀ c, s.vault.lastBackedUpChanges = some c → Landed s.network.relay c
  scheduled : ∀ m, s.scheduled = some m → m ≤ s.vault.changes
  uploads : ∀ who u, s.upload who = some u → u.Sound s
  alone : ∀ u v, s.upload .background = some u → s.upload .handler = some v → u.isOver = true

theorem invariant_initial (h : Initial s) : Invariant s where
  version := h.version
  record c hc := by
    rcases h.opened with ⟨_, hnone⟩ | ⟨_, hsome, _⟩
    · rw [hnone] at hc; cases hc
    · rw [hsome] at hc; exact Nat.le_of_eq (Option.some.inj hc).symm
  wire r hr := ⟨(h.wire r hr).1, (h.wire r hr).2.1⟩
  contents r hr c hc := by rw [(h.wire r hr).2.2] at hc; cases hc
  succeeds r hr _ hnext c hc := by
    rcases h.opened with ⟨_, hnone⟩ | ⟨_, _, hold⟩
    · rw [hnone] at hc; cases hc
    · have := hold r hr; omega
  accepted := h.accepted
  backed c hc := by
    rcases h.opened with ⟨hnone, _⟩ | ⟨hlast, hsome, _⟩
    · rw [hnone] at hc; cases hc
    · exact ⟨c, by rw [hsome, ← hlast, hc], Nat.le_refl c⟩
  scheduled m hm := by rw [h.scheduled] at hm; cases hm
  uploads who u hu := by
    cases who with
    | background =>
      simp only [State.upload] at hu
      split at hu
      · next v hv => exact absurd hv (h.background v)
      · cases hu
    | handler => simp [State.upload, h.handler] at hu
  alone u v _ hv := by simp [State.upload, h.handler] at hv

/-- The steps that move no request. -/
structure Local (s t : State) : Prop where
  changes : s.vault.changes ≤ t.vault.changes
  last : t.vault.lastBackedUpChanges = s.vault.lastBackedUpChanges
  version : t.vault.backupVersion = s.vault.backupVersion
  network : t.network = s.network
  generation : (s.vault.dirtyGeneration < t.vault.dirtyGeneration ∧
      ∀ m, t.scheduled = some m → m ≤ t.vault.changes) ∨
    (t.vault.dirtyGeneration = s.vault.dirtyGeneration ∧ t.scheduled = s.scheduled)

theorem Local.refl (hvault : t.vault = s.vault) (hnetwork : t.network = s.network)
    (hscheduled : t.scheduled = s.scheduled) : Local s t :=
  ⟨hvault ▸ Nat.le_refl _, hvault ▸ rfl, hvault ▸ rfl, hnetwork, .inr ⟨hvault ▸ rfl, hscheduled⟩⟩

theorem Prepared.Sound.of_local (h : p.Sound s) (hl : Local s t) : p.Sound t where
  changes := Nat.le_trans h.changes hl.changes
  newer := by rw [hl.network, hl.version]; exact h.newer
  generation := by
    rcases hl.generation with ⟨hlt, _⟩ | ⟨heq, _⟩
    · exact Nat.le_trans h.generation (Nat.le_of_lt hlt)
    · rw [heq]; exact h.generation
  scheduled hgeneration := by
    rcases hl.generation with ⟨hlt, _⟩ | ⟨heq, hscheduled⟩
    · have := h.generation; omega
    · rw [hscheduled]; exact h.scheduled (hgeneration.trans heq)

theorem Upload.Sound.of_local (h : u.Sound s) (hl : Local s t) : u.Sound t := by
  cases u with
  | unsent p => exact Prepared.Sound.of_local h hl
  | asked p r =>
    exact ⟨h.1.of_local hl, h.2.content, by rw [hl.version]; exact h.2.version,
      by rw [hl.network]; exact h.2.id, by rw [hl.network]; exact h.2.only,
      by rw [hl.network]; exact h.2.stored⟩
  | ended ok => trivial

/-- An upload that is over, or one prepared from the vault as it is. -/
def Begins (s : State) (u : Upload) : Prop :=
  u.isOver = true ∨ u = .unsent ⟨s.vault.changes, s.vault.dirtyGeneration⟩

theorem begins_sound (hrecord : ∀ c, s.network.relay.content = some c → c ≤ s.vault.changes)
    (hscheduled : ∀ m, s.scheduled = some m → m ≤ s.vault.changes) (hu : Begins s u) :
    u.Sound s := by
  rcases hu with hover | rfl
  · cases u with
    | ended ok => trivial
    | unsent p => cases hover
    | asked p r => cases hover
  · exact ⟨Nat.le_refl _, fun _ => hrecord, Nat.le_refl _, fun _ => hscheduled⟩

theorem Invariant.of_local (h : Invariant s) (hl : Local s t)
    (huploads : ∀ who u, t.upload who = some u → s.upload who = some u ∨ Begins t u)
    (halone : ∀ u v, t.upload .background = some u → t.upload .handler = some v →
      u.isOver = true) : Invariant t := by
  have hscheduled : ∀ m, t.scheduled = some m → m ≤ t.vault.changes := by
    rcases hl.generation with ⟨_, hbound⟩ | ⟨_, hsame⟩
    · exact hbound
    · intro m hm
      rw [hsame] at hm
      exact Nat.le_trans (h.scheduled m hm) hl.changes
  have hrecord : ∀ c, t.network.relay.content = some c → c ≤ t.vault.changes := by
    rw [hl.network]
    exact fun c hc => Nat.le_trans (h.record c hc) hl.changes
  constructor
  · rw [hl.version, hl.network]; exact h.version
  · exact hrecord
  · rw [hl.version, hl.network]; exact h.wire
  · rw [hl.network]; exact fun r hr c hc => Nat.le_trans (h.contents r hr c hc) hl.changes
  · rw [hl.network]
    intro r hr
    unfold Succeeds
    rw [hl.version]
    exact h.succeeds r hr
  · rw [hl.network]; exact h.accepted
  · rw [hl.last, hl.network]; exact h.backed
  · exact hscheduled
  · intro who u hu
    rcases huploads who u hu with hold | hbegins
    · exact (h.uploads who u hold).of_local hl
    · exact begins_sound hrecord hscheduled hbegins
  · exact halone

theorem scheduleBackup_scheduled (saved : Bool) :
    (scheduleBackup s saved).scheduled = s.scheduled ∨
      (scheduleBackup s saved).scheduled = some s.vault.changes := by
  unfold scheduleBackup
  split
  · exact .inl rfl
  · exact .inr rfl

theorem local_schedule (h : Invariant s) (saved : Bool) : Local s (scheduleBackup s saved) := by
  obtain ⟨_, _, hnetwork, hvault⟩ := scheduleBackup_frame (s := s) saved
  refine ⟨hvault ▸ Nat.le_refl _, hvault ▸ rfl, hvault ▸ rfl, hnetwork,
    .inl ⟨hvault ▸ Nat.lt_succ_self _, fun m hm => ?_⟩⟩
  rw [hvault]
  rcases scheduleBackup_scheduled (s := s) saved with hold | hnew
  · exact h.scheduled m (hold ▸ hm)
  · exact Nat.le_of_eq (Option.some.inj (hm.symm.trans hnew))

theorem invariant_schedule (h : Invariant s) (saved : Bool) :
    Invariant (scheduleBackup s saved) := by
  obtain ⟨hbackground, hhandler, _, _⟩ := scheduleBackup_frame (s := s) saved
  have hupload := upload_congr hbackground hhandler
  refine h.of_local (local_schedule h saved) (fun who u hu => .inl (hupload ▸ hu)) ?_
  rw [hupload]
  exact h.alone

/-- While one uploads, the other does not. -/
theorem Invariant.other_over (h : Invariant s) (hu : s.upload who = some u)
    (hopen : u.isOver = false) (hne : other ≠ who) (hv : s.upload other = some v) :
    v.isOver = true := by
  cases who <;> cases other
  · exact absurd rfl hne
  · exact absurd (h.alone u v hu hv) (by rw [hopen]; decide)
  · exact h.alone v u hv hu
  · exact absurd rfl hne

theorem Invariant.alone_setUpload {w : Upload} (h : Invariant s) (hu : s.upload who = some u)
    (hopen : u.isOver = false) (hsame : t.upload = s.upload) (v v' : Upload)
    (hv : (t.setUpload w who).upload .background = some v)
    (hv' : (t.setUpload w who).upload .handler = some v') : v.isOver = true := by
  cases who with
  | background =>
    rw [upload_setUpload_of_ne (by decide), hsame] at hv'
    exact absurd (h.alone u v' hu hv') (by rw [hopen]; decide)
  | handler =>
    rw [upload_setUpload_of_ne (by decide), hsame] at hv
    exact h.alone v u hv hu

theorem Invariant.uploads_setUpload {w : Upload} (h : Invariant s) (hu : s.upload who = some u)
    (hopen : u.isOver = false) (hsame : t.upload = s.upload)
    (hw : w.Sound (t.setUpload w who)) (other : Uploader) (v : Upload)
    (hv : (t.setUpload w who).upload other = some v) : v.Sound (t.setUpload w who) := by
  by_cases hne : other = who
  · subst hne
    rw [upload_setUpload] at hv
    rw [← Option.some.inj hv]
    exact hw
  · rw [upload_setUpload_of_ne hne, hsame] at hv
    have hover := h.other_over hu hopen hne hv
    cases v with
    | ended ok => trivial
    | unsent p => cases hover
    | asked p r => cases hover

theorem invariant_over (h : Invariant s) (hu : s.upload who = some u) (hopen : u.isOver = false)
    (ok : Bool) : Invariant (s.setUpload (.ended ok) who) := by
  refine h.of_local (Local.refl setUpload_vault setUpload_network setUpload_scheduled)
    (fun other v hv => ?_) (h.alone_setUpload hu hopen rfl)
  by_cases hne : other = who
  · subst hne
    rw [upload_setUpload] at hv
    exact .inr (.inl (by rw [← Option.some.inj hv]; rfl))
  · exact .inl (by rw [upload_setUpload_of_ne hne] at hv; exact hv)

theorem invariant_send (h : Invariant s) (hu : s.upload who = some (.unsent p)) :
    Invariant (send s who) := by
  have hsound : p.Sound s := h.uploads who _ hu
  simp only [send, hu]
  have hunused : ∀ q ∈ s.network.wire, q.id ≠ s.network.requests :=
    fun q hq => Nat.ne_of_lt (h.wire q hq).2
  constructor
  · simpa only [setUpload_vault, setUpload_network] using h.version
  · simpa only [setUpload_vault, setUpload_network] using h.record
  · simp only [setUpload_vault, setUpload_network, List.forall_mem_cons]
    exact ⟨⟨Nat.le_refl _, Nat.lt_succ_self _⟩, fun r hr =>
      ⟨(h.wire r hr).1, Nat.lt_succ_of_lt (h.wire r hr).2⟩⟩
  · simp only [setUpload_vault, setUpload_network, List.forall_mem_cons]
    exact ⟨fun c hc => Option.some.inj hc ▸ hsound.changes, h.contents⟩
  · simp only [setUpload_vault, setUpload_network, List.forall_mem_cons]
    exact ⟨fun hversion _ c hc => ⟨_, rfl, hsound.newer hversion c hc⟩, h.succeeds⟩
  · simp only [setUpload_network]
    exact fun id hid => Nat.lt_succ_of_lt (h.accepted id hid)
  · simpa only [setUpload_vault, setUpload_network] using h.backed
  · simpa only [setUpload_vault, setUpload_scheduled] using h.scheduled
  · refine h.uploads_setUpload hu rfl rfl ⟨?_, ?_⟩
    · exact ⟨by simpa using hsound.changes, by simpa using hsound.newer,
        by simpa using hsound.generation, by simpa using hsound.scheduled⟩
    · refine ⟨rfl, by simp, by simp, ?_, ?_⟩
      · simp only [setUpload_network, List.forall_mem_cons]
        exact ⟨fun _ => trivial, fun q hq hid => absurd hid (hunused q hq)⟩
      · simp only [setUpload_network]
        exact fun hid => absurd (h.accepted _ hid) (Nat.lt_irrefl _)
  · exact h.alone_setUpload hu rfl rfl

theorem arrive_wire {w : Network} (willing : Bool) :
    (arrive w r willing).wire = w.wire.erase r := by
  unfold arrive
  split <;> rfl

theorem arrive_requests {w : Network} (willing : Bool) :
    (arrive w r willing).requests = w.requests := by
  unfold arrive
  split <;> rfl

/-- The relay refuses a request, or the version after the vault's becomes the record. -/
theorem arrive_cases (h : Invariant s) (hr : r ∈ s.network.wire) (willing : Bool) :
    ((arrive s.network r willing).relay = s.network.relay ∧
        (arrive s.network r willing).accepted = s.network.accepted) ∨
      (s.network.relay.version = s.vault.backupVersion ∧ r.version = s.vault.backupVersion + 1 ∧
        (arrive s.network r willing).relay = ⟨r.version, r.content⟩ ∧
        (arrive s.network r willing).accepted = r.id :: s.network.accepted) := by
  unfold arrive
  split
  · next hstored =>
    simp only [Bool.and_eq_true, beq_iff_eq] at hstored
    have hwire := (h.wire r hr).1
    have hversion := h.version
    exact .inr ⟨by omega, by omega, rfl, rfl⟩
  · exact .inl ⟨rfl, rfl⟩

/-- The record only grows. -/
theorem arrive_landed (h : Invariant s) (hr : r ∈ s.network.wire) (willing : Bool)
    (hn : Landed s.network.relay n) : Landed (arrive s.network r willing).relay n := by
  rcases arrive_cases h hr willing with ⟨hsame, _⟩ | ⟨hversion, hnext, hrelay, _⟩
  · rw [hsame]; exact hn
  · obtain ⟨c, hc, hle⟩ := hn
    obtain ⟨d, hd, hcd⟩ := h.succeeds r hr hversion hnext c hc
    exact ⟨d, by rw [hrelay]; exact hd, Nat.le_trans hle hcd⟩

theorem arrive_sound (h : Invariant s) (hr : r ∈ s.network.wire) (willing : Bool)
    (hu : u.Sound s) : u.Sound { s with network := arrive s.network r willing } := by
  have hprepared {p : Prepared} (hp : p.Sound s) :
      p.Sound { s with network := arrive s.network r willing } := by
    refine ⟨hp.changes, fun hversion => ?_, hp.generation, hp.scheduled⟩
    rcases arrive_cases h hr willing with ⟨hsame, _⟩ | ⟨_, hnext, hrelay, _⟩
    · simp only [hsame] at hversion ⊢
      exact hp.newer hversion
    · simp only [hrelay] at hversion
      omega
  cases u with
  | unsent p => exact hprepared hu
  | ended ok => trivial
  | asked p q =>
    refine ⟨hprepared hu.1, hu.2.content, hu.2.version, by rw [arrive_requests]; exact hu.2.id,
      fun r' hr' => ?_, fun hstored => ?_⟩
    · rw [arrive_wire] at hr'
      exact hu.2.only r' (List.mem_of_mem_erase hr')
    · rcases arrive_cases h hr willing with
        ⟨hsame, haccepted⟩ | ⟨hversion, hnext, hrelay, haccepted⟩
      · simp only [hsame, haccepted] at hstored ⊢
        exact hu.2.stored hstored
      · simp only [haccepted, List.mem_cons] at hstored
        simp only [hrelay]
        rcases hstored with hid | hstored
        · rw [hu.2.only r hr hid.symm]
        · have hrecord := hu.2.stored hstored
          have := hu.2.version
          rw [hrecord] at hversion
          simp only at hversion
          omega

theorem invariant_arrive (h : Invariant s) (hr : r ∈ s.network.wire) (willing : Bool) :
    Invariant { s with network := arrive s.network r willing } := by
  have hkept : ∀ q ∈ (arrive s.network r willing).wire, q ∈ s.network.wire := by
    rw [arrive_wire]
    exact fun q hq => List.mem_of_mem_erase hq
  have hcases := arrive_cases h hr willing
  constructor
  · rcases hcases with ⟨hsame, _⟩ | ⟨_, hnext, hrelay, _⟩
    · simp only [hsame]; exact h.version
    · simp only [hrelay]; omega
  · rcases hcases with ⟨hsame, _⟩ | ⟨_, _, hrelay, _⟩
    · simp only [hsame]; exact h.record
    · simp only [hrelay]; exact h.contents r hr
  · intro q hq
    rw [arrive_requests]
    exact h.wire q (hkept q hq)
  · exact fun q hq => h.contents q (hkept q hq)
  · intro q hq
    rcases hcases with ⟨hsame, _⟩ | ⟨_, hnext, hrelay, _⟩
    · unfold Succeeds
      rw [hsame]
      exact h.succeeds q (hkept q hq)
    · intro hversion
      simp only [hrelay] at hversion
      omega
  · rw [arrive_requests]
    rcases hcases with ⟨_, haccepted⟩ | ⟨_, _, _, haccepted⟩
    · simp only [haccepted]; exact h.accepted
    · simp only [haccepted, List.forall_mem_cons]
      exact ⟨(h.wire r hr).2, h.accepted⟩
  · exact fun c hc => arrive_landed h hr willing (h.backed c hc)
  · exact h.scheduled
  · exact fun who u hu => arrive_sound h hr willing (h.uploads who u hu)
  · exact h.alone

theorem uploaded_frame (v : Vault) : (v.uploaded p r).changes = v.changes ∧
    (v.uploaded p r).cloudBackupEnabled = v.cloudBackupEnabled ∧
    (v.uploaded p r).dirtyGeneration = v.dirtyGeneration ∧
    (v.uploaded p r).backupVersion = r.version := by
  unfold Vault.uploaded
  split <;> exact ⟨rfl, rfl, rfl, rfl⟩

theorem uploaded_last {v : Vault} {c : Nat} (hc : (v.uploaded p r).lastBackedUpChanges = some c) :
    c = p.changes ∨ v.lastBackedUpChanges = some c := by
  unfold Vault.uploaded at hc
  split at hc
  · exact .inl (Option.some.inj hc).symm
  · exact .inr hc

theorem invariant_uploaded (h : Invariant s) (hu : s.upload who = some (.asked p r))
    (hstored : r.id ∈ s.network.accepted) (saved : Bool) :
    Invariant ({ s with vault := s.vault.uploaded p r }.setUpload (.ended saved) who) := by
  obtain ⟨hsound, hrequest⟩ : p.Sound s ∧ r.Of s p := h.uploads who _ hu
  have hrelay : s.network.relay = ⟨r.version, some p.changes⟩ := by
    rw [hrequest.stored hstored, hrequest.content]
  have hnext := hrequest.version
  obtain ⟨hchanges, -, -, hversion⟩ := uploaded_frame (p := p) (r := r) s.vault
  constructor
  · simp only [setUpload_vault, setUpload_network, hversion, hrelay]
    exact Nat.le_refl _
  · simp only [setUpload_vault, setUpload_network, hchanges]
    exact h.record
  · simp only [setUpload_vault, setUpload_network, hversion]
    intro q hq
    have := (h.wire q hq).1
    exact ⟨by omega, (h.wire q hq).2⟩
  · simp only [setUpload_vault, setUpload_network, hchanges]
    exact h.contents
  · simp only [setUpload_vault, setUpload_network]
    intro q hq _ hsuccessor
    have := (h.wire q hq).1
    rw [hversion] at hsuccessor
    omega
  · simpa only [setUpload_network] using h.accepted
  · simp only [setUpload_vault, setUpload_network]
    intro c hc
    rcases uploaded_last hc with rfl | hold
    · exact ⟨_, by rw [hrelay], Nat.le_refl _⟩
    · exact h.backed c hold
  · simp only [setUpload_vault, setUpload_scheduled, hchanges]
    exact h.scheduled
  · exact h.uploads_setUpload hu rfl rfl trivial
  · exact h.alone_setUpload hu rfl rfl

theorem invariant_answer (h : Invariant s) (hu : s.upload who = some (.asked p r)) (saved : Bool) :
    Invariant (answer s who saved) := by
  simp only [answer, hu]
  split
  · next hstored => exact invariant_uploaded h hu hstored saved
  · exact invariant_over h hu rfl false

/-- A step of the background thread or of the handler that moves no request. -/
theorem invariant_placed (h : Invariant s) (hvault : t.vault = s.vault)
    (hnetwork : t.network = s.network) (hscheduled : t.scheduled = s.scheduled)
    (hplaced : ∀ who u, t.upload who = some u → s.upload who = some u ∨ Begins t u)
    (halone : t.upload .handler = none ∨ ∀ u, t.upload .background = some u → u.isOver = true) :
    Invariant t := by
  refine h.of_local (Local.refl hvault hnetwork hscheduled) hplaced fun u v hu hv => ?_
  rcases halone with hnone | hover
  · rw [hnone] at hv; cases hv
  · exact hover u hu

theorem invariant_vacant (h : Invariant s) {b : Background} (hhandler : s.handler = none)
    (hb : ∀ u, b = .running u → Begins s u) : Invariant { s with background := b } := by
  refine invariant_placed h rfl rfl rfl (fun who u hu => ?_) (.inl ?_)
  · cases who with
    | background =>
      cases b with
      | running v => exact .inr (hb u (congrArg Background.running (Option.some.inj hu)))
      | idle => cases hu
      | entering => cases hu
    | handler => exact .inl hu
  · simp only [State.upload, hhandler]

theorem prepare_begins (v : Vault) : prepareBackgroundBackup v = .ended true ∨
    prepareBackgroundBackup v = .unsent ⟨v.changes, v.dirtyGeneration⟩ := by
  unfold prepareBackgroundBackup
  split
  · exact .inl rfl
  · exact .inr rfl

theorem invariant_enter (h : Invariant s) (hhandler : s.handler = none) (prepares saved : Bool) :
    Invariant (enter s prepares saved) := by
  have hidle : Invariant { s with background := .idle } :=
    invariant_vacant h hhandler fun _ hu => nomatch hu
  unfold enter
  split
  · exact hidle
  split
  · have hrunning := invariant_vacant h hhandler (b := .running (prepareBackgroundBackup s.vault))
      fun u hu => by
        rcases prepare_begins s.vault with hover | hunsent
        · exact .inl (by rw [← Background.running.inj hu, hover]; rfl)
        · exact .inr ((Background.running.inj hu).symm.trans hunsent)
    exact invariant_placed hrunning rfl rfl rfl (fun _ _ hu => .inl hu) (.inl (by
      simp only [State.upload, hhandler]))
  · exact invariant_schedule hidle saved

theorem invariant_finish (h : Invariant s) (hhandler : s.handler = none) (saved : Bool) :
    Invariant (finish s saved) := by
  have hidle : Invariant { s with background := .idle } :=
    invariant_vacant h hhandler fun _ hu => nomatch hu
  unfold finish
  split
  · exact invariant_schedule hidle saved
  · exact hidle

/-- A handler that does not upload, as it enters the engine or leaves it. -/
theorem invariant_waits (h : Invariant s) (hvault : t.vault = s.vault)
    (hnetwork : t.network = s.network) (hscheduled : t.scheduled = s.scheduled)
    (hbackground : t.background = s.background) (hnone : t.upload .handler = none) :
    Invariant t := by
  refine invariant_placed h hvault hnetwork hscheduled (fun who u hu => ?_) (.inl hnone)
  cases who with
  | background => exact .inl (by simpa only [State.upload, hbackground] using hu)
  | handler => rw [hnone] at hu; cases hu

theorem invariant_call (h : Invariant s) (c : Call) : Invariant (call s c) := by
  cases c <;> exact invariant_waits h rfl rfl rfl rfl rfl

theorem invariant_leaves (h : Invariant s) : Invariant { s with handler := none } :=
  invariant_waits h rfl rfl rfl rfl rfl

theorem invariant_switched (h : Invariant s) (enabled dropped : Bool) :
    Invariant { s with
      vault.cloudBackupEnabled := enabled
      handler := none
      dropped := dropped } := by
  refine h.of_local ⟨Nat.le_refl _, rfl, rfl, rfl, .inr ⟨rfl, rfl⟩⟩ (fun who u hu => ?_)
    fun u v _ hv => nomatch hv
  cases who with
  | background => exact .inl hu
  | handler => cases hu

theorem invariant_drained (h : Invariant s)
    (hover : ∀ u, s.upload .background = some u → u.isOver = true) (ok saved : Bool) :
    Invariant (drained s ok saved) := by
  unfold drained
  split
  · split
    · exact invariant_leaves h
    split
    · refine invariant_placed h rfl rfl rfl (fun who u hu => ?_) (.inr hover)
      cases who with
      | background => exact .inl hu
      | handler => exact .inr (.inr (Option.some.inj hu).symm)
    · exact invariant_waits h rfl rfl rfl rfl rfl
  · next enabled _ =>
    have hswitched := invariant_switched h enabled (s.dropped || enabled)
    dsimp only
    split
    · exact invariant_schedule hswitched saved
    · exact hswitched
  · split
    · exact invariant_schedule (invariant_leaves h) saved
    · exact invariant_leaves h
  · exact h

theorem invariant_returned (h : Invariant s) : Invariant (returned s) := by
  unfold returned
  split
  · exact invariant_waits h rfl rfl rfl rfl rfl
  · exact h

theorem invariant_change (h : Invariant s) :
    Invariant { s with vault.changes := s.vault.changes + 1 } :=
  h.of_local ⟨Nat.le_succ _, rfl, rfl, rfl, .inr ⟨rfl, rfl⟩⟩ (fun _ _ hu => .inl hu) h.alone

theorem invariant_capsule (h : Invariant s) :
    Invariant { s with vault.cloudBackupEnabled := false } :=
  h.of_local ⟨Nat.le_refl _, rfl, rfl, rfl, .inr ⟨rfl, rfl⟩⟩ (fun _ _ hu => .inl hu) h.alone

theorem invariant_fire (h : Invariant s) (armed : List Nat) :
    Invariant { s with armed := armed, background := .entering } := by
  refine invariant_placed h rfl rfl rfl (fun who u hu => ?_) (.inr fun u hu => nomatch hu)
  cases who with
  | background => cases hu
  | handler => exact .inl hu

theorem invariant_next {e : Event} (h : Invariant s) (he : Enabled s e) : Invariant (next s e) := by
  cases e with
  | change => exact invariant_change h
  | schedule saved => exact invariant_schedule h saved
  | capsule => exact invariant_capsule h
  | fire id => exact invariant_fire h _
  | enter prepares saved => exact invariant_enter h he.1 prepares saved
  | send who =>
    obtain ⟨p, hu⟩ := he
    exact invariant_send h hu
  | arrive r willing => exact invariant_arrive h he willing
  | answer who saved =>
    obtain ⟨p, r, hu, -⟩ := he
    exact invariant_answer h hu saved
  | giveUp who =>
    obtain ⟨u, hu, hopen⟩ := he
    exact invariant_over h hu hopen false
  | finish saved => exact invariant_finish h he.1 saved
  | call c => exact invariant_call h c
  | drained ok saved => exact invariant_drained h he.2 ok saved
  | returned => exact invariant_returned h

theorem reachable_sound (h : Reachable system s) : Invariant s :=
  reachable_invariant (fun _ hs => invariant_initial hs) (fun _ _ hs he => invariant_next hs he) h

theorem skip_landed (h : Invariant s) (henabled : s.vault.cloudBackupEnabled = true)
    (hskip : prepareBackgroundBackup s.vault = .ended true) :
    Landed s.network.relay s.vault.changes := by
  unfold prepareBackgroundBackup at hskip
  split at hskip
  · next hcond =>
    simp only [henabled, Bool.not_true, Bool.false_or, Bool.and_eq_true, beq_iff_eq] at hcond
    exact h.backed _ hcond.2
  · cases hskip

/-- What a background backup leaves out is already in the relay's record. -/
theorem skipped_backup_current (h : Reachable system s)
    (henabled : s.vault.cloudBackupEnabled = true)
    (hskip : prepareBackgroundBackup s.vault = .ended true) :
    s.network.relay.content = some s.vault.changes := by
  have hinv := reachable_sound h
  obtain ⟨c, hc, hle⟩ := skip_landed hinv henabled hskip
  rw [hc, Nat.le_antisymm (hinv.record c hc) hle]

end Uploads

section Owing

variable {s : State} {p : Prepared} {r : Request} {u : Upload} {who : Uploader} {n : Nat}

/-- What a handler inside the engine still owes to the changes that were scheduled. -/
def Promised (s : State) (n : Nat) : Prop :=
  match s.handler with
  | none => Covered s n
  | some (.draining (.configure pending)) =>
    Landed s.network.relay n ∨ pending = true ∨ ∃ u, s.background = .running u ∧ u.Carries n
  | some (.draining _) => True
  | some (.syncing u) => Landed s.network.relay n ∨ u.Carries n

structure Owing (s : State) : Prop where
  settled : s.vault.vaultDirty = false → ∀ n, s.scheduled = some n → Landed s.network.relay n
  owed : s.vault.cloudBackupEnabled = true → s.dropped = false →
    ∀ n, s.scheduled = some n → Promised s n

theorem owing_initial (h : Initial s) : Owing s where
  settled _ n hn := by rw [h.scheduled] at hn; cases hn
  owed _ _ n hn := by rw [h.scheduled] at hn; cases hn

theorem promised_none (hnone : s.handler = none) : Promised s n ↔ Covered s n := by
  unfold Promised
  rw [hnone]

/-- A schedule whose settings cannot be saved finds everything in the record. -/
theorem owing_schedule (hsettled : s.vault.vaultDirty = false →
      ∀ n, s.scheduled = some n → Landed s.network.relay n)
    (hnone : s.handler = none) (saved : Bool) : Owing (scheduleBackup s saved) := by
  obtain ⟨-, hhandler, hnetwork, hvault⟩ := scheduleBackup_frame (s := s) saved
  refine ⟨fun hclean => ?_, fun henabled _ n hn => (promised_none (hhandler.trans hnone)).mpr ?_⟩
  · rw [hvault] at hclean; cases hclean
  · have hcloud : s.vault.cloudBackupEnabled = true := by rw [hvault] at henabled; exact henabled
    by_cases hthrown : s.vault.vaultDirty = false ∧ saved = false
    · have hsame : (scheduleBackup s saved).scheduled = s.scheduled := by
        simp [scheduleBackup, hthrown]
      rw [hsame] at hn
      exact .inl (hnetwork ▸ hsettled hthrown.1 n hn)
    · right; left
      have heffective :
          ((!s.vault.vaultDirty && !saved) || !s.vault.cloudBackupEnabled) = false := by
        cases hdirty : s.vault.vaultDirty <;> cases saved <;> simp_all
      simp [scheduleBackup, heffective]

/-- The steps on which nothing is scheduled, prepared or stored. -/
theorem Owing.kept {t : State} (h : Owing s) (hvault : t.vault = s.vault)
    (hrelay : t.network.relay = s.network.relay) (hscheduled : t.scheduled = s.scheduled)
    (howed : s.vault.cloudBackupEnabled = true → t.dropped = false →
      ∀ n, s.scheduled = some n → Promised t n) : Owing t where
  settled := by rw [hvault, hrelay, hscheduled]; exact h.settled
  owed := by rw [hvault, hscheduled]; exact howed

theorem owing_fire (h : Owing s) {id : Nat} (hidle : s.background = .idle) :
    Owing (next s (.fire id)) := by
  refine h.kept rfl rfl rfl fun henabled hkept n hn => ?_
  have howed := h.owed henabled hkept n hn
  simp only [Promised, Covered, next, hidle] at howed ⊢
  split at howed
  · rcases howed with hlanded | ⟨hdirty, -⟩ | ⟨u, hu, -⟩
    · exact .inl hlanded
    · exact .inr (.inl ⟨hdirty, .inr trivial⟩)
    · cases hu
  · rcases howed with hlanded | hpending | ⟨u, hu, -⟩
    · exact .inl hlanded
    · exact .inr (.inl hpending)
    · cases hu
  · trivial
  · exact howed

theorem owing_enter (hinv : Invariant s) (h : Owing s) (hnone : s.handler = none)
    (hentering : s.background = .entering) (prepares saved : Bool) :
    Owing (enter s prepares saved) := by
  unfold enter
  split
  · next hclean =>
    refine h.kept rfl rfl rfl fun henabled hkept n hn => (promised_none (by exact hnone)).mpr ?_
    rcases (promised_none hnone).mp (h.owed henabled hkept n hn) with hlanded | ⟨hdirty, -⟩ | hruns
    · exact .inl hlanded
    · rw [hdirty] at hclean; cases hclean
    · obtain ⟨u, hu, -⟩ := hruns
      rw [hentering] at hu
      cases hu
  split
  · refine h.kept rfl rfl rfl fun henabled _ n hn => (promised_none (by exact hnone)).mpr ?_
    have hle := hinv.scheduled n hn
    rcases prepare_begins s.vault with hskip | hunsent
    · have hlanded : Landed s.network.relay s.vault.changes := skip_landed hinv henabled hskip
      exact .inl (landed_mono hlanded hle)
    · exact .inr (.inr ⟨_, rfl, by rw [hunsent]; exact hle⟩)
  · exact owing_schedule (s := { s with background := .idle }) h.settled hnone saved

/-- An upload goes on, with what it carries. -/
theorem promised_setUpload {t : State} {w : Upload} (hu : s.upload who = some u)
    (hhandler : t.handler = s.handler)
    (harmed : t.armed = s.armed) (hdirty : t.backupDirty = s.backupDirty)
    (hlanded : Landed s.network.relay n → Landed t.network.relay n)
    (hcarries : u.Carries n → Landed t.network.relay n ∨ w.Carries n) (h : Promised s n) :
    Promised (t.setUpload w who) n := by
  cases who with
  | background =>
    have hrunning : s.background = .running u := by
      simp only [State.upload] at hu
      split at hu
      · next v hv => rw [hv, Option.some.inj hu]
      · cases hu
    have hcarried : (∃ v, s.background = .running v ∧ v.Carries n) →
        Landed t.network.relay n ∨ w.Carries n := by
      rintro ⟨v, hv, hn⟩
      rw [hrunning] at hv
      exact hcarries (Background.running.inj hv ▸ hn)
    simp only [Promised, Covered, State.setUpload, hhandler, harmed, hdirty] at h ⊢
    split at h
    · rcases h with hl | ⟨hd, harm | hentering⟩ | hruns
      · exact .inl (hlanded hl)
      · exact .inr (.inl ⟨hd, .inl harm⟩)
      · rw [hrunning] at hentering; cases hentering
      · rcases hcarried hruns with hl | hw
        · exact .inl hl
        · exact .inr (.inr ⟨w, rfl, hw⟩)
    · rcases h with hl | hpending | hruns
      · exact .inl (hlanded hl)
      · exact .inr (.inl hpending)
      · rcases hcarried hruns with hl | hw
        · exact .inl hl
        · exact .inr (.inr ⟨w, rfl, hw⟩)
    · trivial
    · exact h.imp hlanded id
  | handler =>
    have hsyncing : s.handler = some (.syncing u) := by
      simp only [State.upload] at hu
      split at hu
      · next v hv => rw [hv, Option.some.inj hu]
      · cases hu
    simp only [Promised, State.setUpload, hsyncing] at h ⊢
    rcases h with hl | hn
    · exact .inl (hlanded hl)
    · exact hcarries hn

theorem owing_send (h : Owing s) (hu : s.upload who = some (.unsent p)) : Owing (send s who) := by
  simp only [send, hu]
  refine h.kept (by simp) (by simp) (by simp) fun henabled hkept n hn => ?_
  refine promised_setUpload hu rfl rfl rfl id .inr (h.owed henabled ?_ n hn)
  cases who <;> exact hkept

theorem owing_arrive (hinv : Invariant s) (h : Owing s) (hr : r ∈ s.network.wire)
    (willing : Bool) : Owing { s with network := arrive s.network r willing } where
  settled hclean n hn := arrive_landed hinv hr willing (h.settled hclean n hn)
  owed henabled hkept n hn := by
    have hlanded : Landed s.network.relay n → Landed (arrive s.network r willing).relay n :=
      arrive_landed hinv hr willing
    have howed := h.owed henabled hkept n hn
    simp only [Promised, Covered] at howed ⊢
    split at howed
    · exact howed.imp hlanded id
    · exact howed.imp hlanded id
    · trivial
    · exact howed.imp hlanded id

theorem owing_over (h : Owing s) (hu : s.upload who = some u) :
    Owing (s.setUpload (.ended false) who) := by
  refine h.kept (by simp) (by simp) (by simp) fun henabled hkept n hn => ?_
  refine promised_setUpload hu rfl rfl rfl id (fun _ => .inr rfl) (h.owed henabled ?_ n hn)
  cases who <;> exact hkept

theorem owing_uploaded (hinv : Invariant s) (h : Owing s) (hu : s.upload who = some (.asked p r))
    (hstored : r.id ∈ s.network.accepted) (saved : Bool) :
    Owing ({ s with vault := s.vault.uploaded p r }.setUpload (.ended saved) who) := by
  obtain ⟨hsound, hrequest⟩ : p.Sound s ∧ r.Of s p := hinv.uploads who _ hu
  have hrecord : s.network.relay.content = some p.changes := by
    rw [hrequest.stored hstored, hrequest.content]
  obtain ⟨-, henabled', -, -⟩ := uploaded_frame (p := p) (r := r) s.vault
  constructor
  · simp only [setUpload_vault, setUpload_network, setUpload_scheduled]
    intro hclean n hn
    unfold Vault.uploaded at hclean
    split at hclean
    · next hsame => exact ⟨_, hrecord, hsound.scheduled hsame.1.symm n hn⟩
    · exact h.settled hclean n hn
  · simp only [setUpload_vault, setUpload_scheduled, henabled']
    intro henabled hkept n hn
    refine promised_setUpload hu rfl rfl rfl id (fun hle => .inl ⟨_, hrecord, hle⟩)
      (h.owed henabled ?_ n hn)
    cases who <;> exact hkept

theorem owing_answer (hinv : Invariant s) (h : Owing s) (hu : s.upload who = some (.asked p r))
    (saved : Bool) : Owing (answer s who saved) := by
  simp only [answer, hu]
  split
  · next hstored => exact owing_uploaded hinv h hu hstored saved
  · exact owing_over h hu

theorem owing_finish (h : Owing s) (hnone : s.handler = none) {ok : Bool}
    (hover : s.background = .running (.ended ok)) (saved : Bool) : Owing (finish s saved) := by
  cases ok with
  | false =>
    simp only [finish, hover]
    exact owing_schedule (s := { s with background := .idle }) h.settled hnone saved
  | true =>
    simp only [finish, hover]
    refine h.kept rfl rfl rfl fun henabled hkept n hn => (promised_none (by exact hnone)).mpr ?_
    rcases (promised_none hnone).mp (h.owed henabled hkept n hn) with
      hlanded | ⟨hdirty, harmed | hentering⟩ | ⟨u, hu, hcarries⟩
    · exact .inl hlanded
    · exact .inr (.inl ⟨hdirty, .inl harmed⟩)
    · rw [hover] at hentering; cases hentering
    · rw [hover] at hu
      rw [← Background.running.inj hu] at hcarries
      cases hcarries

theorem owing_call (h : Owing s) (hnone : s.handler = none) (c : Call) : Owing (call s c) := by
  cases c with
  | sync => exact h.kept rfl rfl rfl fun _ _ _ _ => trivial
  | storage enabled => exact h.kept rfl rfl rfl fun _ _ _ _ => trivial
  | configure =>
    refine h.kept rfl rfl rfl fun henabled hkept n hn => ?_
    rcases (promised_none hnone).mp (h.owed henabled hkept n hn) with
      hlanded | ⟨hdirty, -⟩ | hruns
    · exact .inl hlanded
    · exact .inr (.inl hdirty)
    · exact .inr (.inr hruns)

theorem owing_drained (hinv : Invariant s) (h : Owing s) (ok saved : Bool) :
    Owing (drained s ok saved) := by
  unfold drained
  split
  · split
    · next hdisabled =>
      refine h.kept rfl rfl rfl fun henabled => ?_
      rw [henabled] at hdisabled
      cases hdisabled
    split
    · exact h.kept rfl rfl rfl fun _ _ n hn => .inr (hinv.scheduled n hn)
    · exact h.kept rfl rfl rfl fun _ hkept => nomatch hkept
  · next enabled _ =>
    dsimp only
    split
    · exact owing_schedule (by exact h.settled) rfl saved
    · refine ⟨h.settled, fun henabled hkept => ?_⟩
      simp only at henabled
      rw [henabled, Bool.or_true] at hkept
      cases hkept
  · next pending hhandler =>
    split
    · exact owing_schedule (by exact h.settled) rfl saved
    · next hidle =>
      refine h.kept rfl rfl rfl fun henabled hkept n hn => ?_
      have howed := h.owed henabled hkept n hn
      simp only [Promised, hhandler] at howed
      rcases howed with hlanded | hpending | hruns
      · exact .inl hlanded
      · exact absurd hpending hidle
      · exact .inr (.inr hruns)
  · exact h

theorem owing_returned (h : Owing s) {ok : Bool}
    (hhandler : s.handler = some (.syncing (.ended ok))) : Owing (returned s) := by
  simp only [returned, hhandler]
  refine h.kept rfl rfl rfl fun henabled hkept n hn => ?_
  simp only [Bool.or_eq_false_iff, Bool.not_eq_false'] at hkept
  have howed := h.owed henabled hkept.1 n hn
  simp only [Promised, hhandler] at howed
  rcases howed with hlanded | hcarries
  · exact .inl hlanded
  · simp only [Upload.Carries, hkept.2] at hcarries
    cases hcarries

theorem owing_next {e : Event} (hinv : Invariant s) (h : Owing s) (he : Enabled s e) :
    Owing (next s e) := by
  cases e with
  | change => exact ⟨h.settled, h.owed⟩
  | schedule saved => exact owing_schedule h.settled he saved
  | capsule => exact ⟨h.settled, fun henabled => nomatch henabled⟩
  | fire id => exact owing_fire h he.2
  | enter prepares saved => exact owing_enter hinv h he.1 he.2 prepares saved
  | send who =>
    obtain ⟨p, hu⟩ := he
    exact owing_send h hu
  | arrive r willing => exact owing_arrive hinv h he willing
  | answer who saved =>
    obtain ⟨p, r, hu, -⟩ := he
    exact owing_answer hinv h hu saved
  | giveUp who =>
    obtain ⟨u, hu, -⟩ := he
    exact owing_over h hu
  | finish saved =>
    obtain ⟨hnone, ok, hover⟩ := he
    exact owing_finish h hnone hover saved
  | call c => exact owing_call h he c
  | drained ok saved => exact owing_drained hinv h ok saved
  | returned =>
    obtain ⟨ok, hhandler⟩ := he
    exact owing_returned h hhandler

theorem reachable_owing (h : Reachable system s) : Invariant s ∧ Owing s :=
  reachable_invariant (I := fun s => Invariant s ∧ Owing s)
    (fun _ hs => ⟨invariant_initial hs, owing_initial hs⟩)
    (fun _ _ hs he => ⟨invariant_next hs.1 he, owing_next hs.1 hs.2 he⟩) h

def reopened : State :=
  { vault := ⟨0, true, false, 0, none, 3⟩
    backupTimer := none
    armed := []
    timers := 0
    backupDirty := false
    background := .idle
    handler := none
    network := ⟨⟨3, none⟩, [], [], 0⟩
    scheduled := none
    dropped := false }

theorem reopened_initial : Initial reopened :=
  ⟨.inl ⟨rfl, rfl⟩, Nat.le_refl _, List.forall_mem_nil _, List.forall_mem_nil _,
    fun _ => Background.noConfusion, rfl, rfl⟩

/-- A change during an upload, whose answer comes before the next timer. -/
def overtaken : List Event :=
  [.schedule true, .fire 0, .enter true true, .send .background, .change, .schedule true,
    .arrive ⟨0, 4, some 0⟩ true, .answer .background true, .finish true]

theorem overtaken_reachable : Reachable system (system.replay reopened overtaken) := by
  refine valid_trace_reachable (reachable_initial reopened_initial) ?_
  simp only [overtaken, System.Valid, system]
  exact ⟨rfl, ⟨by decide, rfl⟩, ⟨rfl, rfl⟩, ⟨_, rfl⟩, rfl, rfl, .head _, ⟨_, _, rfl, by decide⟩,
    ⟨rfl, _, rfl⟩, trivial⟩

/-- Then the relay is changed, and the last change uploaded. -/
def caughtUp : List Event :=
  overtaken ++ [.call .configure, .drained true true, .fire 2, .enter true true,
    .send .background, .arrive ⟨1, 5, some 1⟩ true, .answer .background true, .finish true]

theorem caughtUp_reachable : Reachable system (system.replay reopened caughtUp) := by
  refine valid_trace_reachable (reachable_initial reopened_initial) ?_
  simp only [caughtUp, overtaken, List.cons_append, List.nil_append, System.Valid, system]
  exact ⟨rfl, ⟨by decide, rfl⟩, ⟨rfl, rfl⟩, ⟨_, rfl⟩, rfl, rfl, .head _, ⟨_, _, rfl, by decide⟩,
    ⟨rfl, _, rfl⟩, rfl, ⟨⟨_, rfl⟩, fun _ => nofun⟩, ⟨by decide, rfl⟩, ⟨rfl, rfl⟩, ⟨_, rfl⟩,
    .head _, ⟨_, _, rfl, by decide⟩, ⟨rfl, _, rfl⟩, trivial⟩

theorem caughtUp_current : (system.replay reopened caughtUp).network.relay.content =
    some (system.replay reopened caughtUp).vault.changes :=
  skipped_backup_current caughtUp_reachable rfl rfl

end Owing
end AndroidBackup
