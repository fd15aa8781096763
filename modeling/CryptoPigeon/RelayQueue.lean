import CryptoPigeon.ConsumeIncoming
import CryptoPigeon.TransitionSystem
import Mathlib.Data.List.Sort
import Mathlib.Logic.Function.Basic

/-! # The relay's message queue and its recipients

Sends are answered after the insert is durable; delivery is by push and by poll, and a
row is deleted by its recipient's acknowledgement or once it has expired. Devices that
run the client acknowledge what their passes emit; any other device acknowledges what it
likes. A request on its way may arrive at any later time, more than once or never.
`answered` is history. -/
namespace RelayQueue

open TransitionSystem ConsumingLoop VaultStore SyncMessages
open ConsumeIncoming (ClientKind iterate iterate_iteration)

def hexToUuid (hex : String) : String :=
  let c := hex.toList
  if '-' ∈ c then hex
  else String.ofList ((c.take 8 ++ '-' :: (c.drop 8).take 4 ++ '-' :: (c.drop 12).take 4 ++
    '-' :: (c.drop 16).take 4 ++ '-' :: (c.drop 20).take 12).map Char.toLower)

def uuidToHex (uuid : String) : String := ConsumeIncoming.normalizeId uuid

/-- The uuid column an envelope id is stored in and compared with, by its 32 digits. -/
def uuidOf (envelopeId : String) : String := uuidToHex (hexToUuid envelopeId)

inductive EnvelopeType where
  | message
  | receiptDelivered
  | receiptRead
  | typing
  | attachmentChunk
  deriving DecidableEq, Repr

/-- The body of a send request; `none` is an absent field. -/
structure Envelope where
  envelopeId : String
  mailboxId : String
  ciphertext : String
  envelopeType : Option EnvelopeType
  ttlMs : Option Nat
  createdAtMs : Option Nat
  deriving DecidableEq, Repr

structure Row where
  id : String
  senderId : String
  recipientId : String
  payload : String
  timestamp : Nat
  expiresAt : Nat
  deriving DecidableEq, Repr

def ttl (body : Envelope) : Nat :=
  body.ttlMs.getD (if body.envelopeType = some .typing then 5000 else 30 * 24 * 60 * 60 * 1000)

/-- Anything else is only pushed. -/
def durable (body : Envelope) : Bool := body.envelopeType ≠ some .typing && 10000 < ttl body

def expiresAt (now : Nat) (body : Envelope) : Nat := min now (body.createdAtMs.getD now) + ttl body

def rowOf (now : Nat) (senderId : String) (body : Envelope) : Row :=
  ⟨uuidOf body.envelopeId, senderId, body.mailboxId, body.ciphertext, now, expiresAt now body⟩

/-- `INSERT … ON CONFLICT (id) DO NOTHING`. -/
def insertRow (messages : List Row) (row : Row) : List Row :=
  if messages.any (fun r => r.id == row.id) then messages else messages ++ [row]

/-- What a poll deletes, of any device's rows. -/
def deleteExpired (now : Nat) (messages : List Row) : List Row :=
  messages.filter (fun r => !(r.expiresAt < now))

/-- What the relay's own maintenance deletes. -/
def maintain (now : Nat) (messages : List Row) : List Row :=
  messages.filter (fun r => !(r.expiresAt ≤ now))

def deleteAcknowledged (messages : List Row) (deviceId : String) (ids : List String) : List Row :=
  messages.filter (fun r => !(r.id ∈ ids.map uuidOf && r.recipientId == deviceId))

def entryOf (envelopeId senderId ciphertext : String) : Entry :=
  .object ⟨.num 1 true "1", .str envelopeId none, .str ciphertext none, .str senderId none⟩

/-- The rows `/api/messages/pending` answers to a device, oldest first. -/
def pendingRows (messages : List Row) (deviceId : String) : List Row :=
  (messages.filter (fun r => r.recipientId == deviceId)).insertionSort
    (fun a b => a.timestamp ≤ b.timestamp)

/-- `pushed` is in memory only. -/
structure Client where
  kind : ClientKind
  vault : Vault
  pushed : List Entry

/-- The desktop keeps at most 256 pushed envelopes. -/
def push (c : Client) (entry : Entry) : Client :=
  match c.kind with
  | .desktop => if c.pushed.length < 256 then { c with pushed := c.pushed ++ [entry] } else c
  | .android => { c with pushed := c.pushed ++ [entry] }

structure State where
  now : Nat
  messages : List Row
  clients : String → Client
  acks : List (String × List String)
  answered : List Row

/-- Where a pass takes its entries from: the pushed envelopes, else the relay's answer; or
the inbox and the dropboxes, whose ids are acknowledged elsewhere. -/
inductive Source where
  | relay
  | elsewhere (entries : List Entry)

inductive Event where
  | tick (now : Nat)
  | send (senderId : String) (body : Envelope) (permitted pushes : Bool)
  | poll (deviceId : String)
  | maintain
  | sync (deviceId : String) (source : Source) (outcomes : List Outcome)
      (acknowledged : List String)
  | crash (deviceId : String)
  | clientStep (deviceId : String) (v : Vault)
  | acknowledge (deviceId : String) (ids : List String)
  | foreignAcknowledge (deviceId : String) (ids : List String)

def updateClient (s : State) (deviceId : String) (c : Client) : State :=
  { s with clients := Function.update s.clients deviceId c }

/-- `POST /api/messages/send`, once authorized. -/
def send (s : State) (senderId : String) (body : Envelope) (permitted pushes : Bool) : State :=
  if permitted = false then s
  else
    let pushed :=
      if pushes then updateClient s body.mailboxId
        (push (s.clients body.mailboxId) (entryOf body.envelopeId senderId body.ciphertext))
      else s
    if durable body then
      let row := rowOf s.now senderId body
      { pushed with
        messages := insertRow s.messages row
        answered := if s.messages.any (fun r => r.id == row.id) then s.answered
          else row :: s.answered }
    else pushed

/-- What a pass of the device would work through. -/
def entries (s : State) (deviceId : String) : Source → List Entry
  | .elsewhere entries => entries
  | .relay =>
    let c := s.clients deviceId
    if c.pushed ≠ [] then
      match c.kind with
      | .desktop => c.pushed.take 256
      | .android => c.pushed
    else
      (pendingRows (deleteExpired s.now s.messages) deviceId).map
        (fun r => entryOf (uuidToHex r.id) r.senderId r.payload)

/-- As many iterations as there are outcomes: a crash leaves the rest out. -/
def pass (s : State) (deviceId : String) (source : Source) (outcomes : List Outcome) :
    Result Vault String :=
  let c := s.clients deviceId
  consume (iterate c.kind) c.vault ((entries s deviceId source).zipWith Pending.mk outcomes)

/-- The pushed envelopes a pass does not take. -/
def leftPushed (c : Client) : Source → List Entry
  | .elsewhere _ => c.pushed
  | .relay =>
    match c.kind with
    | .desktop => c.pushed.drop 256
    | .android => []

/-- The queue after the request of a pass, if it makes one. -/
def polled (s : State) (deviceId : String) : Source → List Row
  | .elsewhere _ => s.messages
  | .relay =>
    if (s.clients deviceId).pushed ≠ [] then s.messages else deleteExpired s.now s.messages

def sync (s : State) (deviceId : String) (source : Source) (outcomes : List Outcome)
    (acknowledged : List String) : State :=
  let c := s.clients deviceId
  { updateClient s deviceId
      { c with vault := (pass s deviceId source outcomes).state, pushed := leftPushed c source } with
    messages := polled s deviceId source
    acks := (deviceId, acknowledged) :: s.acks }

def next (s : State) : Event → State
  | .tick now => { s with now := now }
  | .send senderId body permitted pushes => send s senderId body permitted pushes
  | .poll _ => { s with messages := deleteExpired s.now s.messages }
  | .maintain => { s with messages := maintain s.now s.messages }
  | .sync deviceId source outcomes acknowledged => sync s deviceId source outcomes acknowledged
  | .crash deviceId => updateClient s deviceId { s.clients deviceId with pushed := [] }
  | .clientStep deviceId v => updateClient s deviceId { s.clients deviceId with vault := v }
  | .acknowledge deviceId ids =>
    { s with messages := deleteAcknowledged s.messages deviceId ids }
  | .foreignAcknowledge deviceId ids =>
    { s with messages := deleteAcknowledged s.messages deviceId ids }

variable (runsClient : String → Bool)

/-- A pass acknowledges some of what it emitted, and nothing unless it reached its end.
Whatever else a client does keeps its seen ids and processes no unseen one. -/
def Enabled (s : State) : Event → Prop
  | .tick now => s.now ≤ now
  | .sync deviceId source outcomes acknowledged =>
    (∀ id ∈ acknowledged, id ∈ (pass s deviceId source outcomes).emitted) ∧
    (acknowledged ≠ [] → (entries s deviceId source).length ≤ outcomes.length ∧
      (pass s deviceId source outcomes).escaped = false)
  | .clientStep deviceId v =>
    v.seen = (s.clients deviceId).vault.seen ∧
    ∀ id ∈ v.processed, id ∈ (s.clients deviceId).vault.processed ∨ id ∈ v.seen
  | .acknowledge deviceId ids => (deviceId, ids) ∈ s.acks
  | .foreignAcknowledge deviceId _ => runsClient deviceId = false
  | _ => True

/-- No durable send answered yet, no acknowledgement on its way. -/
def Initial (s : State) : Prop :=
  s.answered = [] ∧ s.acks = [] ∧
  ∀ deviceId, ProcessedSeen (s.clients deviceId).vault

def system : System State Event where
  Initial := Initial
  Enabled := Enabled runsClient
  next := next

/-- The recipient has consumed an envelope stored under this uuid. -/
def Seen (s : State) (row : Row) : Prop :=
  ∃ id ∈ (s.clients row.recipientId).vault.seen, uuidOf id = row.id

def Kept (s : State) (row : Row) : Prop :=
  row ∈ s.messages ∨ Seen s row ∨ row.expiresAt ≤ s.now

structure Invariant (s : State) : Prop where
  processed : ∀ deviceId, ProcessedSeen (s.clients deviceId).vault
  acks : ∀ p ∈ s.acks, ∀ id ∈ p.2, id ∈ (s.clients p.1).vault.seen
  kept : ∀ row ∈ s.answered, runsClient row.recipientId = true → Kept s row

variable {runsClient : String → Bool} {s t : State} {row : Row} {deviceId : String}

theorem initial_invariant (h : Initial s) : Invariant runsClient s := by
  obtain ⟨ha, hk, hp⟩ := h
  refine ⟨hp, ?_, ?_⟩
  · rw [hk]; exact fun p hmem => by cases hmem
  · rw [ha]; exact fun p hmem => by cases hmem

/-- What every step leaves alone: seen ids stay seen and the clock does not go back. -/
structure Extends (s t : State) : Prop where
  now : s.now ≤ t.now
  seen : ∀ deviceId, ∀ id ∈ (s.clients deviceId).vault.seen,
    id ∈ (t.clients deviceId).vault.seen

theorem Extends.kept (h : Extends s t) (hrow : Kept s row)
    (hm : row ∈ s.messages → row ∈ t.messages ∨ Seen t row ∨ row.expiresAt ≤ t.now) :
    Kept t row := by
  rcases hrow with hr | ⟨id, hid, hu⟩ | he
  · exact hm hr
  · exact .inr (.inl ⟨id, h.seen _ id hid, hu⟩)
  · exact .inr (.inr (Nat.le_trans he h.now))

theorem mem_deleteExpired {now : Nat} {messages : List Row} (h : row ∈ messages) :
    row ∈ deleteExpired now messages ∨ row.expiresAt ≤ now := by
  by_cases he : row.expiresAt < now
  · exact .inr (Nat.le_of_lt he)
  · exact .inl (List.mem_filter.mpr ⟨h, by simpa using he⟩)

theorem mem_maintain {now : Nat} {messages : List Row} (h : row ∈ messages) :
    row ∈ maintain now messages ∨ row.expiresAt ≤ now := by
  by_cases he : row.expiresAt ≤ now
  · exact .inr he
  · exact .inl (List.mem_filter.mpr ⟨h, by simpa using he⟩)

/-- A row goes only by an acknowledgement of its own recipient that names it. -/
theorem mem_deleteAcknowledged (deviceId : String) (ids : List String) {messages : List Row}
    (h : row ∈ messages) :
    row ∈ deleteAcknowledged messages deviceId ids ∨
      row.recipientId = deviceId ∧ ∃ id ∈ ids, uuidOf id = row.id := by
  by_cases hr : row.recipientId = deviceId
  · by_cases hi : row.id ∈ ids.map uuidOf
    · exact .inr ⟨hr, List.mem_map.mp hi⟩
    · exact .inl (List.mem_filter.mpr ⟨h, by simp [hi]⟩)
  · exact .inl (List.mem_filter.mpr ⟨h, by simp [hr]⟩)

/-- What a pass does to the vault of its device, and that it emits seen ids only. -/
theorem pass_seen {source : Source} {outcomes : List Outcome}
    (h : ProcessedSeen (s.clients deviceId).vault) :
    (∀ id ∈ (s.clients deviceId).vault.seen, id ∈ (pass s deviceId source outcomes).state.seen) ∧
    ProcessedSeen (pass s deviceId source outcomes).state ∧
    ∀ id ∈ (pass s deviceId source outcomes).emitted,
      id ∈ (pass s deviceId source outcomes).state.seen := by
  obtain ⟨known, hstep, hknown⟩ := iterate_iteration (s.clients deviceId).kind
  refine ⟨fun id hid => consume_seen hstep hid, consume_processedSeen hstep h, ?_⟩
  exact consume_acknowledges hstep
    (fun v p hv => iteration_processedSeen (hstep v p) hv) hknown h

theorem updateClient_vault (c : Client) (other : String) :
    ((updateClient s deviceId c).clients other).vault =
      if other = deviceId then c.vault else (s.clients other).vault := by
  simp only [updateClient, Function.update_apply]
  split <;> rfl

theorem updateClient_extends {c : Client}
    (h : ∀ id ∈ (s.clients deviceId).vault.seen, id ∈ c.vault.seen) :
    Extends s (updateClient s deviceId c) := by
  refine ⟨Nat.le_refl _, fun other id hid => ?_⟩
  rw [updateClient_vault]
  split
  · next he => exact h id (he ▸ hid)
  · exact hid

theorem updateClient_processed {c : Client}
    (h : ∀ other, ProcessedSeen (s.clients other).vault) (hc : ProcessedSeen c.vault) :
    ∀ other, ProcessedSeen ((updateClient s deviceId c).clients other).vault := by
  intro other
  rw [updateClient_vault]
  split
  · exact hc
  · exact h other

theorem push_vault (c : Client) (entry : Entry) : (push c entry).vault = c.vault := by
  unfold push
  split
  · split <;> rfl
  · rfl

/-- A step that keeps the queue except for expired rows, and the history. -/
theorem Invariant.of_extends (h : Invariant runsClient s) (hx : Extends s t)
    (hp : ∀ other, ProcessedSeen (t.clients other).vault)
    (hacks : ∀ p ∈ t.acks, p ∈ s.acks ∨ ∀ id ∈ p.2, id ∈ (t.clients p.1).vault.seen)
    (hm : ∀ row ∈ s.messages, runsClient row.recipientId = true →
      row ∈ t.messages ∨ Seen t row ∨ row.expiresAt ≤ t.now)
    (hanswered : ∀ row ∈ t.answered, row ∈ s.answered ∨ row ∈ t.messages) :
    Invariant runsClient t := by
  refine ⟨hp, fun p hmem id hid => ?_, fun row hrow hr => ?_⟩
  · rcases hacks p hmem with hold | hnew
    · exact hx.seen p.1 id (h.acks p hold id hid)
    · exact hnew id hid
  · rcases hanswered row hrow with hold | hnew
    · exact hx.kept (h.kept row hold hr) (fun hmem => hm row hmem hr)
    · exact .inl hnew

theorem insertRow_keeps {messages : List Row} {new : Row} (h : row ∈ messages) :
    row ∈ insertRow messages new := by
  unfold insertRow
  split
  · exact h
  · exact List.mem_append_left _ h

/-- An answered send whose id is fresh is in the table. -/
theorem answered_inserted {messages answered : List Row} {new : Row}
    (h : row ∈ if messages.any (fun r => r.id == new.id) then answered else new :: answered) :
    row ∈ answered ∨ row ∈ insertRow messages new := by
  unfold insertRow
  split at h
  · exact .inl h
  · next hfresh =>
    rw [if_neg hfresh]
    rcases List.mem_cons.mp h with rfl | h
    · exact .inr (List.mem_append_right _ (List.mem_singleton_self _))
    · exact .inl h

theorem send_invariant {senderId : String} {body : Envelope} {permitted pushes : Bool}
    (h : Invariant runsClient s) : Invariant runsClient (send s senderId body permitted pushes) := by
  unfold send
  split
  · exact h
  · dsimp only
    set c := push (s.clients body.mailboxId) (entryOf body.envelopeId senderId body.ciphertext)
    have hvault : c.vault = (s.clients body.mailboxId).vault := push_vault _ _
    have hx : Extends s (if pushes then updateClient s body.mailboxId c else s) := by
      split
      · exact updateClient_extends (fun id hid => hvault ▸ hid)
      · exact ⟨Nat.le_refl _, fun _ _ hid => hid⟩
    have hp : ∀ other, ProcessedSeen
        ((if pushes then updateClient s body.mailboxId c else s).clients other).vault := by
      split
      · exact updateClient_processed h.processed (hvault ▸ h.processed _)
      · exact h.processed
    have hsame : (if pushes then updateClient s body.mailboxId c else s).messages = s.messages ∧
        (if pushes then updateClient s body.mailboxId c else s).acks = s.acks ∧
        (if pushes then updateClient s body.mailboxId c else s).answered = s.answered := by
      split <;> exact ⟨rfl, rfl, rfl⟩
    split
    · exact h.of_extends ⟨hx.now, hx.seen⟩ hp (fun p hmem => .inl (hsame.2.1 ▸ hmem))
        (fun row hrow _ => .inl (insertRow_keeps hrow)) (fun row hrow => answered_inserted hrow)
    · exact h.of_extends hx hp (fun p hmem => .inl (hsame.2.1 ▸ hmem))
        (fun row hrow _ => .inl (hsame.1 ▸ hrow)) (fun row hrow => .inl (hsame.2.2 ▸ hrow))

theorem acknowledge_invariant {ids : List String} (h : Invariant runsClient s)
    (hids : runsClient deviceId = true → ∀ id ∈ ids, id ∈ (s.clients deviceId).vault.seen) :
    Invariant runsClient { s with messages := deleteAcknowledged s.messages deviceId ids } := by
  refine h.of_extends ⟨Nat.le_refl _, fun _ _ hid => hid⟩ h.processed (fun _ hp => .inl hp)
    (fun row hrow hr => ?_) (fun row hrow => .inl hrow)
  rcases mem_deleteAcknowledged deviceId ids hrow with hk | ⟨rfl, id, hid, hu⟩
  · exact .inl hk
  · exact .inr (.inl ⟨id, hids hr id hid, hu⟩)

theorem mem_polled {source : Source} (h : row ∈ s.messages) :
    row ∈ polled s deviceId source ∨ row.expiresAt ≤ s.now := by
  unfold polled
  split
  · exact .inl h
  · split
    · exact .inl h
    · exact mem_deleteExpired h

theorem sync_invariant {source : Source} {outcomes : List Outcome} {acknowledged : List String}
    (h : Invariant runsClient s)
    (hacks : ∀ id ∈ acknowledged, id ∈ (pass s deviceId source outcomes).emitted) :
    Invariant runsClient (sync s deviceId source outcomes acknowledged) := by
  obtain ⟨hseen, hprocessed, hemitted⟩ := pass_seen (h.processed deviceId)
  have hx := updateClient_extends (c := ⟨(s.clients deviceId).kind,
    (pass s deviceId source outcomes).state, leftPushed (s.clients deviceId) source⟩) hseen
  refine h.of_extends ⟨hx.now, hx.seen⟩
    (updateClient_processed h.processed hprocessed) (fun p hp => ?_)
    (fun row hrow _ => (mem_polled hrow).imp_right .inr) (fun row hrow => .inl hrow)
  rcases List.mem_cons.mp hp with rfl | hp
  · refine .inr fun id hid => ?_
    change id ∈ ((updateClient s deviceId _).clients deviceId).vault.seen
    rw [updateClient_vault, if_pos rfl]
    exact hemitted id (hacks id hid)
  · exact .inl hp

theorem step_preserves_invariant (s : State) (e : Event) (h : Invariant runsClient s)
    (he : Enabled runsClient s e) : Invariant runsClient (next s e) := by
  cases e with
  | tick now =>
    exact h.of_extends ⟨he, fun _ _ hid => hid⟩ h.processed (fun _ hp => .inl hp)
      (fun _ hrow _ => .inl hrow) (fun _ hrow => .inl hrow)
  | send senderId body permitted pushes => exact send_invariant h
  | poll _ =>
    exact h.of_extends ⟨Nat.le_refl _, fun _ _ hid => hid⟩ h.processed (fun _ hp => .inl hp)
      (fun _ hrow _ => (mem_deleteExpired hrow).imp_right .inr) (fun _ hrow => .inl hrow)
  | maintain =>
    exact h.of_extends ⟨Nat.le_refl _, fun _ _ hid => hid⟩ h.processed (fun _ hp => .inl hp)
      (fun _ hrow _ => (mem_maintain hrow).imp_right .inr) (fun _ hrow => .inl hrow)
  | sync deviceId source outcomes acknowledged => exact sync_invariant h he.1
  | crash deviceId =>
    exact h.of_extends (updateClient_extends fun _ hid => hid)
      (updateClient_processed h.processed (h.processed deviceId)) (fun _ hp => .inl hp)
      (fun _ hrow _ => .inl hrow) (fun _ hrow => .inl hrow)
  | clientStep deviceId v =>
    have hv : ProcessedSeen v := by
      intro id hid
      rcases he.2 id hid with hold | hnew
      · rw [he.1]; exact h.processed deviceId id hold
      · exact hnew
    exact h.of_extends (updateClient_extends fun id hid => he.1.symm ▸ hid)
      (updateClient_processed h.processed hv) (fun _ hp => .inl hp)
      (fun _ hrow _ => .inl hrow) (fun _ hrow => .inl hrow)
  | acknowledge deviceId ids =>
    exact acknowledge_invariant h (fun _ => h.acks (deviceId, ids) he)
  | foreignAcknowledge deviceId ids =>
    refine acknowledge_invariant h (fun hr => ?_)
    rw [he] at hr
    cases hr

theorem reachable_satisfies_invariant (h : Reachable (system runsClient) s) :
    Invariant runsClient s :=
  reachable_invariant (fun _ hi => initial_invariant hi)
    (fun s e hs he => step_preserves_invariant s e hs he) h

/-- What the relay has answered stays queued until its recipient has seen it or it has
expired, and an acknowledgement on its way names seen ids only. -/
theorem answered_envelope_kept (h : Reachable (system runsClient) s) :
    (∀ row ∈ s.answered, runsClient row.recipientId = true →
      row ∈ s.messages ∨ Seen s row ∨ row.expiresAt ≤ s.now) ∧
    ∀ p ∈ s.acks, ∀ id ∈ p.2, id ∈ (s.clients p.1).vault.seen := by
  have hi := reachable_satisfies_invariant h
  exact ⟨hi.kept, hi.acks⟩

section Delivered

def alice : Contact := ⟨"alice.1", "alice", none, "ik-alice", some "s", true, false⟩

def bobVault : Vault :=
  { Vault.empty with
    contacts := [alice]
    remoteContacts := [⟨"alice.1", "alice", "alice-device", 1⟩] }

def start : State := ⟨0, [], fun _ => ⟨.desktop, bobVault, []⟩, [], []⟩

def body : Envelope :=
  ⟨"0123456789abcdef0123456789abcdef", "bob-device", "AAAA", none, none, none⟩

def decrypts : Outcome :=
  { now := 0, bundle := .throws, begins := true
    payload := some ⟨.text, "", "", none, "hello", none, none, none⟩
    messageId := "received", conversationId := "from-alice", receipt := none
    persists := true, rollsBack := true }

/-- The pass over the pushed envelope crashes before its transaction; a stranger's
acknowledgement changes nothing; the next pass polls, commits and acknowledges. -/
def delivered : List Event :=
  [.send "alice-device" body true true, .sync "bob-device" .relay [] [],
    .foreignAcknowledge "mallory-device" [body.envelopeId],
    .sync "bob-device" .relay [decrypts] [body.envelopeId],
    .acknowledge "bob-device" [body.envelopeId]]

def runsBob (deviceId : String) : Bool := deviceId == "bob-device"

theorem acknowledged_envelope_seen :
    ((system runsBob).replay start delivered).messages = [] ∧
    Seen ((system runsBob).replay start delivered) (rowOf 0 "alice-device" body) := by
  have hreach : Reachable (system runsBob) ((system runsBob).replay start delivered) := by
    refine valid_trace_reachable (reachable_initial ⟨rfl, rfl, fun _ id hid => ?_⟩) ?_
    · cases hid
    · refine ⟨trivial, ⟨nofun, fun h => absurd rfl h⟩, rfl, ⟨by decide, fun _ => by decide⟩, ?_,
        trivial⟩
      exact List.mem_cons_self
  refine ⟨by decide, ?_⟩
  rcases (answered_envelope_kept hreach).1 (rowOf 0 "alice-device" body) (by decide) rfl
    with h | h | h
  · exact absurd h (by decide)
  · exact h
  · exact absurd h (by decide)

end Delivered

end RelayQueue
