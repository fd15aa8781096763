import CryptoPigeon.ConsumeIncoming
import CryptoPigeon.TorRouting

/-! # One delivery pass

`retryTorQueues` (desktop) and `sync` (Android) on an unlocked, registered vault. The
desktop consumes its inbox and then flushes the message and the control queue within one
`try`; Android flushes its messages first and its controls last. Either flush works
through one queue for all contacts and ends with the first envelope that is not delivered
at once. -/
namespace DeliveryPass

open ConsumingLoop VaultStore SyncMessages TorRouting

/-- What a pass finds: pushed envelopes, the answer to `/pending` (`none` when it is
refused or throws), the dropboxes' (Android), and whether acknowledging returns. -/
structure Fetching where
  pushed : List Pending
  pending : Option (List Pending)
  blind : Option (List Pending)
  acks : Bool

structure Synced where
  vault : Vault
  thrown : Bool

structure Passed where
  messages : List OutboxRow
  controls : List ControlRow
  state : Outgoing

def pendingList (F : Fetching) : Option (List Pending) :=
  if F.pushed = [] then F.pending else some F.pushed

/-- The loop over the fetched entries, and the acknowledgements if there are any. -/
def receive (F : Fetching) (step : Vault → Pending → Progress Vault String)
    (entries : Option (List Pending)) (v : Vault) : Synced :=
  match entries with
  | none => ⟨v, true⟩
  | some l =>
    let r := consume step v l
    ⟨r.state, r.escaped || (decide (r.emitted ≠ []) && !F.acks)⟩

/-- An entry that comes up in its queue: every entry before it goes on. -/
def Turn {α : Type} (signal : α → Signal) (queue : List α) (row : α) : Prop :=
  ∃ before after, queue = before ++ row :: after ∧ ∀ b ∈ before, signal b = .goOn

namespace Desktop

structure Pass where
  fetching : Fetching
  routing : Routing
  now : Nat

def syncMessages (F : Fetching) (v : Vault) : Synced :=
  receive F SyncMessages.processEnvelope (pendingList F) v

def retryTorQueues (D : Pass) (s : Outgoing) : Passed :=
  let synced := syncMessages D.fetching s.vault
  if synced.thrown then ⟨[], [], { s with vault := synced.vault }⟩
  else
    let m := flushOutbox D.routing D.now { s with vault := synced.vault }
    let c := flushControls D.routing m.state
    ⟨m.attempted, c.attempted, c.state⟩

/-- The relay is asked or a job is there after an attempt. -/
def takes (R : Routing) (p : Packet) : Prop := route R p ≠ .nothing

def sendSignal (R : Routing) (p : Packet) : Signal :=
  if route R p = .relay ∧ R.relay p.envelopeId = .ok ∧ R.removes p.envelopeId = true then .goOn
  else .stop

def controlSignal (R : Routing) (row : ControlRow) : Signal :=
  if expiredControl R row then if R.removes row.envelopeId then .goOn else .escape
  else sendSignal R (ControlRow.packet row)

/-- Every eligible envelope has a job already or is handed to its transport. -/
structure HandsEvery (D : Pass) (s : Outgoing) : Prop where
  messages : ∀ row ∈ queuedMessages (syncMessages D.fetching s.vault).vault D.now,
    running s row.envelopeId = true ∨
      row ∈ (retryTorQueues D s).messages ∧ takes D.routing (OutboxRow.packet row)
  controls : ∀ row ∈ queuedControls (syncMessages D.fetching s.vault).vault,
    expiredControl D.routing row = false → running s row.envelopeId = true ∨
      row ∈ (retryTorQueues D s).controls ∧ takes D.routing (ControlRow.packet row)

/-- The sync returns and every envelope without a job has its turn and a transport. -/
structure Unblocked (D : Pass) (s : Outgoing) : Prop where
  messages : ∀ row ∈ queuedMessages (syncMessages D.fetching s.vault).vault D.now,
    running s row.envelopeId = true ∨
      (syncMessages D.fetching s.vault).thrown = false ∧
      Turn (fun b => sendSignal D.routing (OutboxRow.packet b))
        (queuedMessages (syncMessages D.fetching s.vault).vault D.now) row ∧
      takes D.routing (OutboxRow.packet row)
  controls : ∀ row ∈ queuedControls (syncMessages D.fetching s.vault).vault,
    expiredControl D.routing row = false → running s row.envelopeId = true ∨
      (syncMessages D.fetching s.vault).thrown = false ∧
      Turn (controlSignal D.routing)
        (queuedControls (syncMessages D.fetching s.vault).vault) row ∧
      takes D.routing (ControlRow.packet row)

section Flush

variable {R : Routing} {D : Pass} {s : Outgoing} {now : Nat}

theorem sendEnvelope_signal (p : Packet) (remove : Vault → Vault) :
    (sendEnvelope R p remove s).2 = sendSignal R p := by
  unfold sendEnvelope sendSignal
  cases route R p with
  | job => rfl
  | nothing => rfl
  | relay => by_cases h : R.relay p.envelopeId = .ok ∧ R.removes p.envelopeId = true <;> simp [h]

theorem sendControlRow_signal (row : ControlRow) :
    (sendControlRow R s row).2 = controlSignal R row := by
  unfold sendControlRow controlSignal
  split
  · split <;> rfl
  · exact sendEnvelope_signal _ _

theorem flushOutbox_attempted {row : OutboxRow} :
    row ∈ (flushOutbox R now s).attempted ↔
      Turn (fun b => sendSignal R (OutboxRow.packet b)) (queuedMessages s.vault now) row :=
  attempted_iff fun _ b _ => sendEnvelope_signal (OutboxRow.packet b) _

theorem flushControls_attempted {row : ControlRow} :
    row ∈ (flushControls R s).attempted ↔
      Turn (controlSignal R) (queuedControls s.vault) row :=
  attempted_iff fun _ b _ => sendControlRow_signal b

theorem sendEnvelope_controls {remove : Vault → Vault} (p : Packet)
    (hremove : ∀ v, queuedControls (remove v) = queuedControls v) :
    queuedControls (sendEnvelope R p remove s).1.vault = queuedControls s.vault := by
  unfold sendEnvelope
  cases route R p with
  | job => exact congrArg queuedControls (startJob_vault p)
  | nothing => rfl
  | relay =>
    dsimp only
    split
    · exact hremove s.vault
    · rfl

/-- Sending messages leaves the control queue as it is. -/
theorem flushOutbox_controls :
    queuedControls (flushOutbox R now s).state.vault = queuedControls s.vault :=
  attempt_invariant (I := fun t : Outgoing => queuedControls t.vault = queuedControls s.vault)
    (fun t row _ h => (sendEnvelope_controls (s := t) (OutboxRow.packet row)
      (fun _ => rfl : ∀ v, queuedControls (deleteOutbox row.envelopeId
        (markSent [row.messageId] v)) = queuedControls v)).trans h) rfl

theorem retryTorQueues_thrown (h : (syncMessages D.fetching s.vault).thrown = true) :
    (retryTorQueues D s).messages = [] ∧ (retryTorQueues D s).controls = [] := by
  unfold retryTorQueues
  dsimp only
  rw [if_pos h]
  exact ⟨rfl, rfl⟩

theorem retryTorQueues_returns (h : (syncMessages D.fetching s.vault).thrown = false) :
    (retryTorQueues D s).messages = (flushOutbox D.routing D.now
      { s with vault := (syncMessages D.fetching s.vault).vault }).attempted ∧
    (retryTorQueues D s).controls = (flushControls D.routing (flushOutbox D.routing D.now
      { s with vault := (syncMessages D.fetching s.vault).vault }).state).attempted := by
  unfold retryTorQueues
  dsimp only
  rw [if_neg (by simp [h])]
  exact ⟨rfl, rfl⟩

theorem retryTorQueues_messages {row : OutboxRow} :
    row ∈ (retryTorQueues D s).messages ↔
      (syncMessages D.fetching s.vault).thrown = false ∧
      Turn (fun b => sendSignal D.routing (OutboxRow.packet b))
        (queuedMessages (syncMessages D.fetching s.vault).vault D.now) row := by
  cases h : (syncMessages D.fetching s.vault).thrown with
  | true => simp [(retryTorQueues_thrown h).1]
  | false =>
    rw [(retryTorQueues_returns h).1, flushOutbox_attempted]
    exact (and_iff_right rfl).symm

theorem retryTorQueues_controls {row : ControlRow} :
    row ∈ (retryTorQueues D s).controls ↔
      (syncMessages D.fetching s.vault).thrown = false ∧
      Turn (controlSignal D.routing)
        (queuedControls (syncMessages D.fetching s.vault).vault) row := by
  cases h : (syncMessages D.fetching s.vault).thrown with
  | true => simp [(retryTorQueues_thrown h).2]
  | false =>
    rw [(retryTorQueues_returns h).2, flushControls_attempted, flushOutbox_controls]
    exact (and_iff_right rfl).symm

theorem handsEvery_iff : HandsEvery D s ↔ Unblocked D s := by
  constructor
  · intro h
    refine ⟨fun row hrow => ?_, fun row hrow hfresh => ?_⟩
    · exact (h.messages row hrow).imp_right fun ⟨hattempted, htakes⟩ =>
        ⟨(retryTorQueues_messages.mp hattempted).1, (retryTorQueues_messages.mp hattempted).2, htakes⟩
    · exact (h.controls row hrow hfresh).imp_right fun ⟨hattempted, htakes⟩ =>
        ⟨(retryTorQueues_controls.mp hattempted).1, (retryTorQueues_controls.mp hattempted).2, htakes⟩
  · intro h
    refine ⟨fun row hrow => ?_, fun row hrow hfresh => ?_⟩
    · exact (h.messages row hrow).imp_right fun ⟨hsync, hturn, htakes⟩ =>
        ⟨retryTorQueues_messages.mpr ⟨hsync, hturn⟩, htakes⟩
    · exact (h.controls row hrow hfresh).imp_right fun ⟨hsync, hturn, htakes⟩ =>
        ⟨retryTorQueues_controls.mpr ⟨hsync, hturn⟩, htakes⟩

end Flush

end Desktop

namespace Android

/-- What the sends of a pass find. `expires` is the expiry kept in `outbox_envelopes`;
`persists` and `removes` say whether the statements before and after a send succeed. -/
structure Phone where
  mode : Mode
  torReady : Bool
  live : Bool
  relay : String → Reply
  persists : String → Bool
  removes : String → Bool
  clock : String → Nat
  expires : String → Nat

structure Pass where
  phone : Phone
  now : Nat
  fetching : Fetching

/-- A job is started whether or not the peer's onion is known; it always throws. -/
def sendPersisted (A : Phone) (s : Outgoing) (p : Packet) : Outgoing × Signal :=
  if A.mode ≠ .relayOnly then
    if A.torReady = true ∧ (A.live = true ∨ A.mode = .hybrid) then (startJob s p, .stop)
    else (s, .stop)
  else if A.clock p.envelopeId < A.expires p.envelopeId ∧ A.relay p.envelopeId = .ok then (s, .goOn)
  else (s, .stop)

/-- Only `sendPersisted` stands in the `try` of a flush. -/
def sendEnvelope (A : Phone) (p : Packet) (remove : Vault → Vault) (s : Outgoing) :
    Outgoing × Signal :=
  if A.persists p.envelopeId = false then (s, .escape)
  else
    match sendPersisted A s p with
    | (t, .goOn) =>
      if A.removes p.envelopeId then ({ t with vault := remove t.vault }, .goOn) else (t, .escape)
    | (t, _) => (t, .stop)

def sendMessageRow (A : Phone) (s : Outgoing) (row : OutboxRow) : Outgoing × Signal :=
  sendEnvelope A (OutboxRow.packet row)
    (fun v => deleteOutbox row.envelopeId (markSent [row.messageId] v)) s

def flush (A : Phone) (now : Nat) (s : Outgoing) : Attempts Outgoing OutboxRow :=
  attempt (sendMessageRow A) s (queuedMessages s.vault now)

def expiredControl (A : Phone) (row : ControlRow) : Bool :=
  match row.expiresAt with
  | none => false
  | some t => t ≤ A.clock row.envelopeId

def sendControlRow (A : Phone) (s : Outgoing) (row : ControlRow) : Outgoing × Signal :=
  if expiredControl A row then
    if A.removes row.envelopeId then
      ({ s with vault := deleteControl row.envelopeId s.vault }, .goOn)
    else (s, .escape)
  else sendEnvelope A (ControlRow.packet row) (deleteControl row.envelopeId) s

def flushControls (A : Phone) (s : Outgoing) : Attempts Outgoing ControlRow :=
  attempt (sendControlRow A) s (queuedControls s.vault)

/-- The entries of the socket or of `/pending`, and after them the dropboxes'. -/
def entries (F : Fetching) : Option (List Pending) :=
  match pendingList F, F.blind with
  | some l, some m => some (l ++ m)
  | _, _ => none

/-- The flush of the messages and what comes before the controls' turn. -/
def fetch (A : Pass) (s : Outgoing) : Synced :=
  let m := flush A.phone A.now s
  if m.escaped then ⟨m.state.vault, true⟩
  else receive A.fetching ConsumeIncoming.processEnvelope (entries A.fetching) m.state.vault

/-- `flushControlsLater` is the last thing a pass does. -/
def sync (A : Pass) (s : Outgoing) : Passed :=
  let m := flush A.phone A.now s
  let fetched := fetch A s
  let t := { m.state with vault := fetched.vault }
  if fetched.thrown then ⟨m.attempted, [], t⟩
  else
    let c := flushControls A.phone t
    ⟨m.attempted, c.attempted, c.state⟩

/-- A relay request that the router does not refuse as expired, or a job. -/
def takes (A : Phone) (p : Packet) : Prop :=
  A.persists p.envelopeId = true ∧
    if A.mode = .relayOnly then A.clock p.envelopeId < A.expires p.envelopeId
    else A.torReady = true ∧ (A.live = true ∨ A.mode = .hybrid)

def sendSignal (A : Phone) (p : Packet) : Signal :=
  if A.persists p.envelopeId = false then .escape
  else if A.mode = .relayOnly ∧ A.clock p.envelopeId < A.expires p.envelopeId ∧
      A.relay p.envelopeId = .ok then
    if A.removes p.envelopeId then .goOn else .escape
  else .stop

def controlSignal (A : Phone) (row : ControlRow) : Signal :=
  if expiredControl A row then if A.removes row.envelopeId then .goOn else .escape
  else sendSignal A (ControlRow.packet row)

structure HandsEvery (A : Pass) (s : Outgoing) : Prop where
  messages : ∀ row ∈ queuedMessages s.vault A.now, running s row.envelopeId = true ∨
    row ∈ (sync A s).messages ∧ takes A.phone (OutboxRow.packet row)
  controls : ∀ row ∈ queuedControls (fetch A s).vault,
    expiredControl A.phone row = false → running s row.envelopeId = true ∨
      row ∈ (sync A s).controls ∧ takes A.phone (ControlRow.packet row)

/-- Nothing throws out of the message flush, and fetching and consuming return. -/
structure ReachesControls (A : Pass) (s : Outgoing) : Prop where
  flushed : ∀ row, Turn (fun b => sendSignal A.phone (OutboxRow.packet b))
    (queuedMessages s.vault A.now) row → sendSignal A.phone (OutboxRow.packet row) ≠ .escape
  received : (receive A.fetching ConsumeIncoming.processEnvelope (entries A.fetching)
    (flush A.phone A.now s).state.vault).thrown = false

structure Unblocked (A : Pass) (s : Outgoing) : Prop where
  messages : ∀ row ∈ queuedMessages s.vault A.now, running s row.envelopeId = true ∨
    Turn (fun b => sendSignal A.phone (OutboxRow.packet b)) (queuedMessages s.vault A.now) row ∧
      takes A.phone (OutboxRow.packet row)
  controls : ∀ row ∈ queuedControls (fetch A s).vault,
    expiredControl A.phone row = false → running s row.envelopeId = true ∨
      ReachesControls A s ∧
      Turn (controlSignal A.phone) (queuedControls (fetch A s).vault) row ∧
      takes A.phone (ControlRow.packet row)

section Flush

variable {A : Phone} {P : Pass} {s : Outgoing} {now : Nat}

theorem sendEnvelope_signal (p : Packet) (remove : Vault → Vault) :
    (sendEnvelope A p remove s).2 = sendSignal A p := by
  unfold sendEnvelope sendSignal sendPersisted
  split
  · rfl
  by_cases hmode : A.mode = .relayOnly
  · by_cases hsent : A.clock p.envelopeId < A.expires p.envelopeId ∧ A.relay p.envelopeId = .ok
    · cases A.removes p.envelopeId <;> simp [hmode, hsent]
    · simp [hmode, hsent]
  · by_cases hjob : A.torReady = true ∧ (A.live = true ∨ A.mode = .hybrid) <;> simp [hmode, hjob]

theorem sendControlRow_signal (row : ControlRow) :
    (sendControlRow A s row).2 = controlSignal A row := by
  unfold sendControlRow controlSignal
  split
  · split <;> rfl
  · exact sendEnvelope_signal _ _

theorem flush_attempted {row : OutboxRow} :
    row ∈ (flush A now s).attempted ↔
      Turn (fun b => sendSignal A (OutboxRow.packet b)) (queuedMessages s.vault now) row :=
  attempted_iff fun _ b _ => sendEnvelope_signal (OutboxRow.packet b) _

theorem flush_escaped :
    (flush A now s).escaped = true ↔ ∃ row ∈ (flush A now s).attempted,
      sendSignal A (OutboxRow.packet row) = .escape :=
  attempt_escaped_iff fun _ b _ => sendEnvelope_signal (OutboxRow.packet b) _

theorem flushControls_attempted {row : ControlRow} :
    row ∈ (flushControls A s).attempted ↔
      Turn (controlSignal A) (queuedControls s.vault) row :=
  attempted_iff fun _ b _ => sendControlRow_signal b

theorem fetch_thrown_iff : (fetch P s).thrown = false ↔ ReachesControls P s := by
  have hflush : (flush P.phone P.now s).escaped = false ↔
      ∀ row, Turn (fun b => sendSignal P.phone (OutboxRow.packet b))
        (queuedMessages s.vault P.now) row →
          sendSignal P.phone (OutboxRow.packet row) ≠ .escape := by
    rw [← Bool.not_eq_true, flush_escaped]
    simp only [flush_attempted, not_exists, not_and]
  unfold fetch
  dsimp only
  cases hescaped : (flush P.phone P.now s).escaped with
  | true => exact ⟨nofun, fun h => absurd (hflush.mpr h.flushed) (by simp [hescaped])⟩
  | false => exact ⟨fun h => ⟨hflush.mp hescaped, h⟩, fun h => h.received⟩

theorem sync_messages {row : OutboxRow} :
    row ∈ (sync P s).messages ↔
      Turn (fun b => sendSignal P.phone (OutboxRow.packet b)) (queuedMessages s.vault P.now) row := by
  have hmessages : (sync P s).messages = (flush P.phone P.now s).attempted := by
    unfold sync
    dsimp only
    split <;> rfl
  rw [hmessages, flush_attempted]

theorem sync_controls {row : ControlRow} :
    row ∈ (sync P s).controls ↔ ReachesControls P s ∧
      Turn (controlSignal P.phone) (queuedControls (fetch P s).vault) row := by
  rw [← fetch_thrown_iff]
  unfold sync
  dsimp only
  split
  · next hthrown => simp [hthrown]
  · next hreturns =>
    rw [flushControls_attempted]
    simp [hreturns]

theorem handsEvery_iff : HandsEvery P s ↔ Unblocked P s := by
  constructor
  · intro h
    refine ⟨fun row hrow => ?_, fun row hrow hfresh => ?_⟩
    · exact (h.messages row hrow).imp_right (And.imp_left sync_messages.mp)
    · exact (h.controls row hrow hfresh).imp_right fun ⟨hattempted, htakes⟩ =>
        ⟨(sync_controls.mp hattempted).1, (sync_controls.mp hattempted).2, htakes⟩
  · intro h
    refine ⟨fun row hrow => ?_, fun row hrow hfresh => ?_⟩
    · exact (h.messages row hrow).imp_right (And.imp_left sync_messages.mpr)
    · exact (h.controls row hrow hfresh).imp_right fun ⟨hreaches, hturn, htakes⟩ =>
        ⟨sync_controls.mpr ⟨hreaches, hturn⟩, htakes⟩

end Flush

end Android

/-- A pass hands on every eligible envelope if and only if each without a job comes up in
its queue and has a transport; on the desktop only after a sync that returns. -/
theorem every_envelope_handed_iff (D : Desktop.Pass) (A : Android.Pass) (s : Outgoing) :
    (Desktop.HandsEvery D s ↔ Desktop.Unblocked D s) ∧
    (Android.HandsEvery A s ↔ Android.Unblocked A s) :=
  ⟨Desktop.handsEvery_iff, Android.handsEvery_iff⟩

section HeadOfLine

def alice : Contact := ⟨"alice.1", "alice", none, "ik-alice", some "s", false, false⟩

def bob : Contact := ⟨"bob.1", "bob", none, "ik-bob", some "s", false, false⟩

def message (id conversation : String) : Message :=
  ⟨id, conversation, .sent, "hello", none, .queued, none⟩

def toAlice : OutboxRow := ⟨"e1", "m1", "alice-device", "AAAA", 1⟩

def toBob : OutboxRow := ⟨"e2", "m2", "bob-device", "BBBB", 2⟩

/-- One message queued for each of two contacts. -/
def vault : Vault :=
  { Vault.empty with
    contacts := [alice, bob]
    conversations := [⟨"c1", "alice.1"⟩, ⟨"c2", "bob.1"⟩]
    messages := [message "m1" "c1", message "m2" "c2"]
    outbox := [toAlice, toBob] }

def quiet : Fetching := ⟨[], some [], some [], true⟩

/-- The Tor mode with a live service and both onions known. -/
def desktop : Desktop.Pass :=
  ⟨quiet, ⟨.direct, fun _ => true, true, false, fun _ => .refused, fun _ => true, fun _ => 0⟩, 0⟩

def phone : Android.Pass :=
  ⟨⟨.direct, true, true, fun _ => .refused, fun _ => true, fun _ => true, fun _ => 0, fun _ => 1⟩,
    0, quiet⟩

def offline : Desktop.Pass := { desktop with fetching := { quiet with pending := none } }

/-- The first message gets a job, the second contact's message is not tried; a failing
fetch keeps a desktop pass from both. -/
theorem second_contact_not_attempted :
    ¬ Desktop.HandsEvery desktop ⟨vault, []⟩ ∧ ¬ Android.HandsEvery phone ⟨vault, []⟩ ∧
      ¬ Desktop.HandsEvery offline ⟨vault, []⟩ := by
  refine ⟨fun h => ?_, fun h => ?_, fun h => ?_⟩
  · rcases h.messages toBob (by decide) with hrunning | ⟨hattempted, _⟩
    · exact absurd hrunning (by decide)
    · exact absurd hattempted (by decide)
  · rcases h.messages toBob (by decide) with hrunning | ⟨hattempted, _⟩
    · exact absurd hrunning (by decide)
    · exact absurd hattempted (by decide)
  · rcases h.messages toAlice (by decide) with hrunning | ⟨hattempted, _⟩
    · exact absurd hrunning (by decide)
    · exact absurd hattempted (by decide)

end HeadOfLine

end DeliveryPass
