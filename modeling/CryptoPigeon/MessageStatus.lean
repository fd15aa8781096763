import CryptoPigeon.EnvelopeWrites
import CryptoPigeon.DirectTorDelivery

/-! # The status of a sent message

Four writers update it: a flush pass and a finished Tor job on the sending side, a
delivery receipt and a read receipt on the receiving side. Passes, job completions and
consumed envelopes are serialized; a pass cut short by a crash is one whose later
requests fail. `used` is history: the message ids ever given out. -/
namespace MessageStatus

open TransitionSystem ConsumingLoop VaultStore SyncMessages ConsumeIncoming EnvelopeWrites
  TorRouting

/-- queued < sent < delivered < read; a received message has no place in the order. -/
def rank : Status → Nat
  | .queued => 0
  | .sent => 1
  | .delivered => 2
  | .read => 3
  | .received => 0

def sentMessages (v : Vault) : List Message := v.messages.filter (fun m => m.direction == .sent)

def sentIds (v : Vault) : List String := (sentMessages v).map Message.messageId

/-- No sent message of `w` is behind what it was in `v`. -/
def Forward (v w : Vault) : Prop :=
  ∀ m ∈ sentMessages v, ∀ n ∈ sentMessages w, n.messageId = m.messageId →
    rank m.status ≤ rank n.status

structure State where
  client : Outgoing
  used : List String

inductive Event where
  | sendMessage (m : Message) (row : OutboxRow)
  | flushOutbox (R : Routing) (now : Nat)
  | flushControls (R : Routing)
  | complete (p : Packet)
  | abandon (p : Packet)
  | restart
  | consume (p : Pending)
  | contacts (v : Vault)
  | expire (messageId : String)

def storeSent (v : Vault) (m : Message) (row : OutboxRow) : Vault :=
  { v with messages := v.messages ++ [m], outbox := v.outbox ++ [row] }

def next (kind : ClientKind) (s : State) : Event → State
  | .sendMessage m row =>
    { client := { s.client with vault := storeSent s.client.vault m row }
      used := m.messageId :: s.used }
  | .flushOutbox R now => { s with client := (TorRouting.flushOutbox R now s.client).state }
  | .flushControls R => { s with client := (TorRouting.flushControls R s.client).state }
  | .complete p => { s with client := completeJob s.client p }
  | .abandon p =>
    { s with client := { s.client with
        jobs := s.client.jobs.filter (fun q => q.envelopeId != p.envelopeId) } }
  | .restart => { s with client := { s.client with jobs := [] } }
  | .consume p =>
    { s with client := { s.client with vault := (iterate kind s.client.vault p).state } }
  | .contacts v => { s with client := { s.client with vault := v } }
  | .expire messageId =>
    { s with client := { s.client with
        vault := DirectTorDelivery.deleteMessage messageId s.client.vault } }

/-- A message id is a fresh UUID; a job that ends has been started. -/
def Enabled (s : State) : Event → Prop
  | .sendMessage m row =>
    m.direction = .sent ∧ m.status = .queued ∧ row.messageId = m.messageId ∧
      m.messageId ∉ s.used
  | .complete p => p ∈ s.client.jobs
  | .abandon p => p ∈ s.client.jobs
  | .contacts v => SameMail s.client.vault v
  | _ => True

/-- The ids of the sent messages are distinct and no id is given out again. -/
structure Invariant (s : State) : Prop where
  nodup : (sentIds s.client.vault).Nodup
  used : ∀ id ∈ sentIds s.client.vault, id ∈ s.used

def system (kind : ClientKind) : System State Event where
  Initial := Invariant
  Enabled := Enabled
  next := next kind

/-- The relay takes the envelope, the response arrives and its transaction commits. -/
def relayAccepts (R : Routing) (row : OutboxRow) : Bool :=
  route R (OutboxRow.packet row) == .relay && R.relay row.envelopeId == .ok &&
    R.removes row.envelopeId

/-- The envelopes a pass marks sent: accepted one after the other from the head. -/
def acceptedRows (R : Routing) (now : Nat) (v : Vault) : List OutboxRow :=
  (queuedMessages v now).takeWhile (relayAccepts R)

/-- A receipt for the message has been applied while its envelope is still queued. -/
def Overtaken (v : Vault) (row : OutboxRow) : Prop :=
  ∃ m ∈ sentMessages v, m.messageId = row.messageId ∧
    (m.status = .delivered ∨ m.status = .read)

def NotOvertaken (s : State) : Event → Prop
  | .flushOutbox R now => ∀ row ∈ acceptedRows R now s.client.vault, ¬ Overtaken s.client.vault row
  | _ => True

section Advance

variable {u v w : Vault} {R : Routing} {now : Nat} {s : Outgoing}

/-- `w` has no sent message that `v` does not have, and none that fell behind. -/
structure Advance (v w : Vault) : Prop where
  ids : (sentIds w).Sublist (sentIds v)
  status : ∀ n ∈ sentMessages w, ∃ m ∈ sentMessages v,
    n.messageId = m.messageId ∧ rank m.status ≤ rank n.status

theorem Advance.of_messages (h : w.messages = v.messages) : Advance v w := by
  have hs : sentMessages w = sentMessages v := by unfold sentMessages; rw [h]
  constructor
  · unfold sentIds; rw [hs]
  · rw [hs]
    exact fun n hn => ⟨n, hn, rfl, le_refl _⟩

theorem Advance.refl (v : Vault) : Advance v v := .of_messages rfl

theorem Advance.trans (h : Advance u v) (k : Advance v w) : Advance u w := by
  refine ⟨k.ids.trans h.ids, fun n hn => ?_⟩
  obtain ⟨m, hm, hid, hrank⟩ := k.status n hn
  obtain ⟨l, hl, hid', hrank'⟩ := h.status m hm
  exact ⟨l, hl, hid.trans hid', hrank'.trans hrank⟩

theorem mem_sentMessages {m : Message} :
    m ∈ sentMessages v ↔ m ∈ v.messages ∧ m.direction = .sent := by
  simp [sentMessages]

/-- An update of the status column that does not put a sent message back. -/
structure Updated (m n : Message) : Prop where
  messageId : n.messageId = m.messageId
  direction : n.direction = m.direction
  status : m.direction = .sent → rank m.status ≤ rank n.status

theorem Updated.refl (m : Message) : Updated m m := ⟨rfl, rfl, fun _ => le_refl _⟩

theorem updates_sent {l k : List Message} (h : List.Forall₂ Updated l k) :
    List.Forall₂ Updated (l.filter (fun m => m.direction == .sent))
      (k.filter (fun m => m.direction == .sent)) := by
  induction h with
  | nil => exact .nil
  | @cons m n l k hmn _ ih =>
    by_cases hm : m.direction = .sent
    · rw [List.filter_cons_of_pos (by simp [hm]),
        List.filter_cons_of_pos (by simp [hmn.direction, hm])]
      exact .cons hmn ih
    · rw [List.filter_cons_of_neg (by simpa using hm),
        List.filter_cons_of_neg (by simpa [hmn.direction] using hm)]
      exact ih

theorem updates_ids {l k : List Message} (h : List.Forall₂ Updated l k) :
    k.map Message.messageId = l.map Message.messageId := by
  induction h with
  | nil => rfl
  | cons hmn _ ih => exact congrArg₂ List.cons hmn.messageId ih

theorem updates_source {l k : List Message} {n : Message} (h : List.Forall₂ Updated l k)
    (hn : n ∈ k) : ∃ m ∈ l, Updated m n := by
  induction h with
  | nil => cases hn
  | @cons m _ l _ hmn _ ih =>
    rcases List.mem_cons.mp hn with rfl | hn
    · exact ⟨m, List.mem_cons_self, hmn⟩
    · obtain ⟨x, hx, hxn⟩ := ih hn
      exact ⟨x, List.mem_cons_of_mem m hx, hxn⟩

theorem Advance.of_updates (h : List.Forall₂ Updated v.messages w.messages) : Advance v w := by
  have hs : List.Forall₂ Updated (sentMessages v) (sentMessages w) := updates_sent h
  constructor
  · have hids : sentIds w = sentIds v := updates_ids hs
    rw [hids]
  · intro n hn
    obtain ⟨m, hm, hmn⟩ := updates_source hs hn
    exact ⟨m, hm, hmn.messageId, hmn.status (mem_sentMessages.mp hm).2⟩

theorem Advance.of_map {f : Message → Message} (h : w.messages = v.messages.map f)
    (hf : ∀ m ∈ v.messages, Updated m (f m)) : Advance v w := by
  refine .of_updates ?_
  rw [h, List.forall₂_map_right_iff, List.forall₂_same]
  exact hf

theorem rank_le_read (x : Status) : rank x ≤ rank .read := by
  cases x <;> decide

theorem markDelivered_advance (v : Vault) (conversation messageId : String) :
    Advance v (markDelivered v conversation messageId) := by
  refine .of_map rfl fun m _ => ?_
  split
  · next h =>
    refine ⟨rfl, rfl, fun _ => ?_⟩
    rcases h.2.2.2 with hs | hs <;> simp [hs, rank]
  · exact .refl m

theorem markReadUpTo_updates (conversation messageId : String) (l : List Message) :
    List.Forall₂ Updated l (markReadUpTo conversation messageId l) := by
  induction l with
  | nil => exact .nil
  | cons m rest ih =>
    unfold markReadUpTo
    split
    · refine .cons ?_ ih
      split
      · exact ⟨rfl, rfl, fun _ => rank_le_read m.status⟩
      · exact .refl m
    · exact List.forall₂_same.mpr fun m _ => .refl m

/-- The read receipt writes unguarded, but nothing is above `read`. -/
theorem markRead_advance (v : Vault) (conversation messageId : String) :
    Advance v (markRead v conversation messageId) :=
  .of_updates (markReadUpTo_updates conversation messageId v.messages)

theorem applyControl_advance (v : Vault) (conversation : String) (p : Payload) :
    Advance v (applyControl v conversation p) := by
  unfold applyControl
  split
  · exact markDelivered_advance v conversation p.upToMessageId
  · exact markRead_advance v conversation p.upToMessageId
  · exact .refl v

theorem storeMessage_advance (v : Vault) (conversation id : String) (p : Payload) (o : Outcome) :
    Advance v (storeMessage v conversation id p o) := by
  have hs : sentMessages (storeMessage v conversation id p o) = sentMessages v := by
    simp [sentMessages, storeMessage]
  refine ⟨?_, fun n hn => ⟨n, hs ▸ hn, rfl, le_refl _⟩⟩
  unfold sentIds
  rw [hs]

theorem write_advance {o : Outcome} {id : String} (h : Write o id v w) : Advance v w := by
  cases h with
  | conversation contactId =>
    unfold findOrCreateConversation
    split <;> exact .of_messages rfl
  | profile p => exact .of_messages rfl
  | control conversation p => exact applyControl_advance v conversation p
  | message conversation p => exact storeMessage_advance v conversation id p o
  | receipt p h =>
    unfold queueReceipt at h
    split at h
    · cases h; exact .refl v
    · split at h
      · split at h <;> cases h
        exact .of_messages rfl
      · cases h; exact .refl v
  | attachment p =>
    unfold storeAttachment
    split <;> exact .of_messages rfl
  | seen =>
    unfold markSeen
    split <;> exact .of_messages rfl
  | processed h =>
    obtain ⟨_, rfl⟩ := markProcessed_fresh h
    exact .of_messages rfl

theorem sameMail_advance (h : SameMail v w) : Advance v w := by
  rw [h]
  exact .of_messages rfl

/-- Consuming an envelope never puts a sent message back, on either client. -/
theorem iterate_advance (kind : ClientKind) (v : Vault) (p : Pending) :
    Advance v (iterate kind v p).state :=
  iterated_lift Advance.refl Advance.trans sameMail_advance write_advance
    (iterate_iterated kind v p)

/-- The job's own update is guarded by `status='queued'`. -/
theorem completeJob_advance (p : Packet) : Advance s.vault (completeJob s p).vault := by
  refine .of_map rfl fun m _ => ?_
  split
  · next h => exact ⟨rfl, rfl, fun _ => by simp [h.2, rank]⟩
  · exact .refl m

theorem deleteMessage_advance (messageId : String) :
    Advance v (DirectTorDelivery.deleteMessage messageId v) := by
  have hsub : (sentMessages (DirectTorDelivery.deleteMessage messageId v)).Sublist
      (sentMessages v) := List.filter_sublist.filter _
  exact ⟨hsub.map _, fun n hn => ⟨n, hsub.subset hn, rfl, le_refl _⟩⟩

end Advance

section Flush

variable {v w : Vault} {R : Routing} {now : Nat} {s : Outgoing} {ids : List String}

theorem sendMessageRow_signal (row : OutboxRow) :
    (sendMessageRow R s row).2 = if relayAccepts R row then .goOn else .stop := by
  unfold sendMessageRow sendEnvelope relayAccepts
  cases route R (OutboxRow.packet row) with
  | job => rfl
  | nothing => rfl
  | relay =>
    dsimp only [OutboxRow.packet]
    by_cases h : R.relay row.envelopeId = .ok ∧ R.removes row.envelopeId = true <;> simp [h]

/-- `UPDATE messages SET status='sent' WHERE message_id=?`, if the envelope is accepted. -/
theorem sendMessageRow_messages (row : OutboxRow) :
    (sendMessageRow R s row).1.vault.messages =
      if relayAccepts R row then (markSent [row.messageId] s.vault).messages
      else s.vault.messages := by
  unfold sendMessageRow sendEnvelope relayAccepts
  cases route R (OutboxRow.packet row) with
  | job => exact congrArg Vault.messages (startJob_vault _)
  | nothing => rfl
  | relay =>
    dsimp only [OutboxRow.packet]
    by_cases h : R.relay row.envelopeId = .ok ∧ R.removes row.envelopeId = true
    · simp [h, deleteOutbox]
    · simp [h]

theorem markSent_cons {id : String} (h : w.messages = (markSent [id] v).messages) :
    (markSent ids w).messages = (markSent (id :: ids) v).messages := by
  simp only [markSent, h, List.map_map]
  refine List.map_congr_left fun m _ => ?_
  by_cases hid : m.messageId = id <;> by_cases hmem : m.messageId ∈ ids <;> simp [hid, hmem]

theorem attempt_messages (l : List OutboxRow) :
    (attempt (sendMessageRow R) s l).state.vault.messages =
      (markSent ((l.takeWhile (relayAccepts R)).map OutboxRow.messageId) s.vault).messages := by
  induction l generalizing s with
  | nil => simp [attempt, markSent]
  | cons row rest ih =>
    have hsignal := sendMessageRow_signal (R := R) (s := s) row
    have hmessages := sendMessageRow_messages (R := R) (s := s) row
    unfold attempt
    split
    · next t ht =>
      rw [ht] at hsignal hmessages
      cases hrow : relayAccepts R row with
      | false => simp [hrow] at hsignal
      | true =>
        rw [hrow, if_pos rfl] at hmessages
        rw [List.takeWhile_cons_of_pos hrow, List.map_cons]
        exact ih.trans (markSent_cons hmessages)
    · next t ht =>
      rw [ht] at hsignal hmessages
      cases hrow : relayAccepts R row with
      | true => simp [hrow] at hsignal
      | false => simpa [hrow, markSent] using hmessages
    · next t ht =>
      rw [ht] at hsignal
      cases hrow : relayAccepts R row <;> simp [hrow] at hsignal

theorem flushOutbox_messages : (TorRouting.flushOutbox R now s).state.vault.messages =
    (markSent ((acceptedRows R now s.vault).map OutboxRow.messageId) s.vault).messages :=
  attempt_messages _

theorem sentMessages_markSent : sentMessages (markSent ids v) = (sentMessages v).map (fun m =>
    if m.messageId ∈ ids then { m with status := .sent } else m) := by
  unfold sentMessages markSent
  rw [List.filter_map]
  congr 1
  refine List.filter_congr fun m _ => ?_
  simp only [Function.comp]
  split <;> rfl

theorem sentIds_markSent : sentIds (markSent ids v) = sentIds v := by
  unfold sentIds
  rw [sentMessages_markSent, List.map_map]
  refine List.map_congr_left fun m _ => ?_
  simp only [Function.comp]
  split <;> rfl

theorem markSent_advance (h : ∀ m ∈ sentMessages v, m.messageId ∈ ids →
    m.status ≠ .delivered ∧ m.status ≠ .read) : Advance v (markSent ids v) := by
  refine ⟨by rw [sentIds_markSent], fun n hn => ?_⟩
  rw [sentMessages_markSent] at hn
  obtain ⟨m, hm, rfl⟩ := List.mem_map.mp hn
  refine ⟨m, hm, ?_, ?_⟩
  · split <;> rfl
  · split
    · next hid =>
      have hm := h m hm hid
      cases hstatus : m.status <;> simp_all [rank]
    · exact le_refl _

/-- A message marked sent behind its receipt. -/
theorem markSent_forward (h : Forward v (markSent ids v)) :
    ∀ m ∈ sentMessages v, m.messageId ∈ ids → m.status ≠ .delivered ∧ m.status ≠ .read := by
  intro m hm hid
  have hn : { m with status := .sent } ∈ sentMessages (markSent ids v) := by
    rw [sentMessages_markSent]
    exact List.mem_map.mpr ⟨m, hm, if_pos hid⟩
  have hrank : rank m.status ≤ rank .sent := h m hm _ hn rfl
  constructor <;> intro hstatus <;> rw [hstatus] at hrank <;> revert hrank <;> decide

theorem notOvertaken_iff : (∀ row ∈ acceptedRows R now v, ¬ Overtaken v row) ↔
    ∀ m ∈ sentMessages v, m.messageId ∈ (acceptedRows R now v).map OutboxRow.messageId →
      m.status ≠ .delivered ∧ m.status ≠ .read := by
  constructor
  · intro h m hm hid
    obtain ⟨row, hrow, hid⟩ := List.mem_map.mp hid
    have hnot (hstatus : m.status = .delivered ∨ m.status = .read) : False :=
      h row hrow ⟨m, hm, hid.symm, hstatus⟩
    exact ⟨fun hd => hnot (.inl hd), fun hr => hnot (.inr hr)⟩
  · rintro h row hrow ⟨m, hm, hid, hstatus⟩
    have hm := h m hm (List.mem_map.mpr ⟨row, hrow, hid.symm⟩)
    exact hstatus.elim hm.1 hm.2

theorem flushControls_messages :
    (TorRouting.flushControls R s).state.vault.messages = s.vault.messages := by
  refine attempt_invariant (I := fun t : Outgoing => t.vault.messages = s.vault.messages) ?_ rfl
  intro t row _ h
  unfold sendControlRow
  split
  · split <;> exact h
  · unfold sendEnvelope
    split
    · rw [startJob_vault]; exact h
    · exact h
    · split <;> exact h

end Flush

section Run

variable {kind : ClientKind} {s t u : State} {e : Event} {es : List Event}

/-- What `t` knows of the messages of `s`: each that is left has not fallen behind. -/
structure Since (s t : State) : Prop where
  used : ∀ id ∈ s.used, id ∈ t.used
  status : ∀ n ∈ sentMessages t.client.vault, n.messageId ∈ s.used →
    ∃ m ∈ sentMessages s.client.vault, n.messageId = m.messageId ∧ rank m.status ≤ rank n.status

theorem Since.of_advance (h : Advance s.client.vault t.client.vault) (hused : t.used = s.used) :
    Since s t :=
  ⟨fun id hid => by rw [hused]; exact hid, fun n hn _ => h.status n hn⟩

theorem Since.trans (h : Since s t) (k : Since t u) : Since s u := by
  refine ⟨fun id hid => k.used id (h.used id hid), fun n hn hid => ?_⟩
  obtain ⟨m, hm, hnm, hrank⟩ := k.status n hn (h.used _ hid)
  obtain ⟨l, hl, hml, hrank'⟩ := h.status m hm (hnm ▸ hid)
  exact ⟨l, hl, hnm.trans hml, hrank'.trans hrank⟩

theorem Since.forward (hs : Invariant s) (h : Since s t) :
    Forward s.client.vault t.client.vault := by
  intro m hm n hn hid
  have hused : n.messageId ∈ s.used := hid ▸ hs.used _ (List.mem_map_of_mem hm)
  obtain ⟨l, hl, hnl, hrank⟩ := h.status n hn hused
  have hlm : l = m := List.inj_on_of_nodup_map hs.nodup hl hm (hnl.symm.trans hid)
  exact hlm ▸ hrank

theorem Invariant.of_sublist (h : Invariant s)
    (hids : (sentIds t.client.vault).Sublist (sentIds s.client.vault)) (hused : t.used = s.used) :
    Invariant t :=
  ⟨h.nodup.sublist hids, fun id hid => by rw [hused]; exact h.used id (hids.subset hid)⟩

/-- Every step but the two that write without a guard. -/
theorem step_advance (hsend : ∀ m row, e ≠ .sendMessage m row)
    (hflush : ∀ R now, e ≠ .flushOutbox R now) (he : Enabled s e) :
    Advance s.client.vault (next kind s e).client.vault := by
  cases e with
  | sendMessage m row => exact absurd rfl (hsend m row)
  | flushOutbox R now => exact absurd rfl (hflush R now)
  | flushControls R => exact .of_messages flushControls_messages
  | complete p => exact completeJob_advance p
  | abandon p => exact .refl _
  | restart => exact .refl _
  | consume p => exact iterate_advance kind _ p
  | contacts v => exact sameMail_advance he
  | expire messageId => exact deleteMessage_advance messageId

theorem next_used (hsend : ∀ m row, e ≠ .sendMessage m row) : (next kind s e).used = s.used := by
  cases e with
  | sendMessage m row => exact absurd rfl (hsend m row)
  | _ => rfl

theorem sentMessages_storeSent {v : Vault} {m : Message} {row : OutboxRow}
    (h : m.direction = .sent) : sentMessages (storeSent v m row) = sentMessages v ++ [m] := by
  simp [sentMessages, storeSent, h]

theorem send_invariant {m : Message} {row : OutboxRow} (h : Invariant s)
    (he : Enabled s (.sendMessage m row)) : Invariant (next kind s (.sendMessage m row)) := by
  have hids : sentIds (next kind s (.sendMessage m row)).client.vault =
      sentIds s.client.vault ++ [m.messageId] := by
    unfold sentIds
    rw [← List.map_singleton, ← List.map_append]
    exact congrArg _ (sentMessages_storeSent he.1)
  constructor
  · rw [hids]
    exact List.nodup_append.mpr ⟨h.nodup, List.pairwise_singleton _ _, by
      rintro a ha b hb rfl
      exact he.2.2.2 (List.mem_singleton.mp hb ▸ h.used a ha)⟩
  · rw [hids]
    intro id hid
    rcases List.mem_append.mp hid with hid | hid
    · exact List.mem_cons_of_mem _ (h.used id hid)
    · exact List.mem_singleton.mp hid ▸ List.mem_cons_self

theorem flush_sentMessages {R : Routing} {now : Nat} :
    sentMessages (next kind s (.flushOutbox R now)).client.vault = sentMessages
      (markSent ((acceptedRows R now s.client.vault).map OutboxRow.messageId) s.client.vault) :=
  congrArg (List.filter _) flushOutbox_messages

theorem flush_sentIds {R : Routing} {now : Nat} :
    sentIds (next kind s (.flushOutbox R now)).client.vault = sentIds s.client.vault :=
  (congrArg (List.map _) flush_sentMessages).trans sentIds_markSent

theorem step_preserves_invariant (s : State) (e : Event) (h : Invariant s) (he : Enabled s e) :
    Invariant (next kind s e) := by
  by_cases hsend : ∃ m row, e = .sendMessage m row
  · obtain ⟨m, row, rfl⟩ := hsend
    exact send_invariant h he
  have hsend : ∀ m row, e ≠ .sendMessage m row := fun m row h => hsend ⟨m, row, h⟩
  by_cases hflush : ∃ R now, e = .flushOutbox R now
  · obtain ⟨R, now, rfl⟩ := hflush
    exact h.of_sublist (by rw [flush_sentIds]) rfl
  · exact h.of_sublist
      (step_advance hsend (fun R now h => hflush ⟨R, now, h⟩) he).ids (next_used hsend)

theorem reachable_satisfies_invariant (h : Reachable (system kind) s) : Invariant s :=
  reachable_invariant (fun _ hi => hi) (fun s e hs he => step_preserves_invariant s e hs he) h

theorem flush_forward_iff {R : Routing} {now : Nat} (h : Invariant s) :
    Forward s.client.vault (next kind s (.flushOutbox R now)).client.vault ↔
      NotOvertaken s (.flushOutbox R now) := by
  refine Iff.trans ?_ notOvertaken_iff.symm
  unfold Forward
  rw [flush_sentMessages]
  constructor
  · exact markSent_forward
  · intro hnot
    have hadvance := markSent_advance hnot
    exact Since.forward (t := ⟨⟨markSent _ s.client.vault, []⟩, s.used⟩) h
      (.of_advance hadvance rfl)

theorem step_since (he : Enabled s e) (hnot : NotOvertaken s e) :
    Since s (next kind s e) := by
  by_cases hsend : ∃ m row, e = .sendMessage m row
  · obtain ⟨m, row, rfl⟩ := hsend
    refine ⟨fun id hid => List.mem_cons_of_mem _ hid, fun n hn hid => ?_⟩
    have hn : n ∈ sentMessages s.client.vault ++ [m] := sentMessages_storeSent he.1 ▸ hn
    rcases List.mem_append.mp hn with hn | hn
    · exact ⟨n, hn, rfl, le_refl _⟩
    · exact absurd (List.mem_singleton.mp hn ▸ hid) he.2.2.2
  have hsend : ∀ m row, e ≠ .sendMessage m row := fun m row h => hsend ⟨m, row, h⟩
  by_cases hflush : ∃ R now, e = .flushOutbox R now
  · obtain ⟨R, now, rfl⟩ := hflush
    have hadvance := markSent_advance (notOvertaken_iff.mp hnot)
    exact ⟨fun id hid => hid, fun n hn _ => hadvance.status n (flush_sentMessages ▸ hn)⟩
  · exact .of_advance (step_advance hsend (fun R now h => hflush ⟨R, now, h⟩) he)
      (next_used hsend)

theorem run_since (h : Invariant s) (hx : Execution ((system kind).Within NotOvertaken) s es t) :
    Since s t ∧ Invariant t := by
  induction hx with
  | refl => exact ⟨⟨fun _ hid => hid, fun n hn _ => ⟨n, hn, rfl, le_refl _⟩⟩, h⟩
  | tail _ hu ih =>
    obtain ⟨hsince, ht⟩ := ih
    obtain ⟨he, rfl⟩ := hu
    exact ⟨hsince.trans (step_since he.1 he.2), step_preserves_invariant _ _ ht he.1⟩

/-- A status moves forward along every run in which no pass marks a message sent behind
its receipt, and no step but such a pass moves one back. -/
theorem status_moves_forward_iff_not_overtaken (h : Reachable (system kind) s) :
    (∀ es t, Execution ((system kind).Within NotOvertaken) s es t →
      Forward s.client.vault t.client.vault) ∧
    ∀ e, Enabled s e →
      (Forward s.client.vault (next kind s e).client.vault ↔ NotOvertaken s e) := by
  have hs := reachable_satisfies_invariant h
  refine ⟨fun es t hx => (run_since hs hx).1.forward hs, fun e he => ?_⟩
  by_cases hflush : ∃ R now, e = .flushOutbox R now
  · obtain ⟨R, now, rfl⟩ := hflush
    exact flush_forward_iff hs
  · have hnot : NotOvertaken s e := by
      cases e with
      | flushOutbox R now => exact absurd ⟨R, now, rfl⟩ hflush
      | _ => trivial
    exact iff_of_true ((step_since he hnot).forward hs) hnot

end Run

section Overtaking

/-- What was meant of the status column: no run moves it back. -/
def MovesForward (kind : ClientKind) : Prop :=
  ∀ s es t, Reachable (system kind) s → Execution (system kind) s es t →
    Forward s.client.vault t.client.vault

def bob : Contact := ⟨"bob.1", "bob", none, "ik-bob", some "s", true, false⟩

def start : State where
  client :=
    { vault := { Vault.empty with
        contacts := [bob]
        remoteContacts := [⟨"bob.1", "bob", "bob-device", 1⟩]
        conversations := [⟨"to-bob", "bob.1"⟩] }
      jobs := [] }
  used := []

/-- The relay takes every envelope; `answer` is what the client hears of it. -/
def relayRouting (answer : Reply) : Routing :=
  { mode := .relayOnly, peer := fun _ => false, live := false, prepareRelay := false,
    relay := fun _ => answer, removes := fun _ => true, clock := fun _ => 0 }

def hello : Message := ⟨"m", "to-bob", .sent, "hello", none, .queued, none⟩

def helloRow : OutboxRow := ⟨"e", "m", "bob-device", "AAAA", 0⟩

/-- Bob's delivery receipt for `hello`. -/
def receipt : Pending where
  entry := .object ⟨.num 1 true "1", .str "0123456789abcdef0123456789abcdef" none, .str "AAAA" none,
    .str "bob-device" none⟩
  outcome :=
    { now := 0, bundle := .throws, begins := true
      payload := some ⟨.delivered, "m", "", none, "", none, none, none⟩
      messageId := "", conversationId := "", receipt := none, persists := true, rollsBack := true }

/-- The answer to the first request is lost; the receipt arrives before the retry. -/
def lostAnswer : List Event :=
  [.sendMessage hello helloRow, .flushOutbox (relayRouting .thrown) 0, .consume receipt]

def retry : Event := .flushOutbox (relayRouting .ok) 0

theorem lostAnswer_reachable (kind : ClientKind) :
    Reachable (system kind) ((system kind).replay start lostAnswer) :=
  valid_trace_reachable (reachable_initial ⟨List.nodup_nil, fun _ h => by cases h⟩)
    ⟨⟨rfl, rfl, rfl, List.not_mem_nil⟩, trivial, trivial, trivial⟩

theorem overtaken_not_forward {kind : ClientKind}
    (hrows : acceptedRows (relayRouting .ok) 0
      ((system kind).replay start lostAnswer).client.vault = [helloRow])
    (hsent : sentMessages ((system kind).replay start lostAnswer).client.vault =
      [{ hello with status := .delivered }]) : ¬ MovesForward kind := by
  intro hforward
  have hreach := lostAnswer_reachable kind
  have hretry : Forward ((system kind).replay start lostAnswer).client.vault
      (next kind ((system kind).replay start lostAnswer) retry).client.vault :=
    hforward _ [retry] _ hreach (.tail (.refl _) ⟨trivial, rfl⟩)
  have hnot := (flush_forward_iff (reachable_satisfies_invariant hreach)).mp hretry
  refine hnot helloRow (hrows ▸ List.mem_cons_self) ⟨{ hello with status := .delivered }, ?_⟩
  rw [hsent]
  exact ⟨List.mem_cons_self, rfl, .inl rfl⟩

theorem receipt_overtakes_lost_answer : ¬ MovesForward .desktop ∧ ¬ MovesForward .android :=
  ⟨overtaken_not_forward (by decide) (by decide), overtaken_not_forward (by decide) (by decide)⟩

/-- Without a receipt in between, the retry is fine. -/
theorem retry_without_receipt : Forward
    ((system .desktop).replay start (lostAnswer.take 2)).client.vault
    ((system .desktop).replay start (lostAnswer.take 2 ++ [retry])).client.vault := by
  have hreach : Reachable (system .desktop) ((system .desktop).replay start (lostAnswer.take 2)) :=
    valid_trace_reachable (reachable_initial ⟨List.nodup_nil, fun _ h => by cases h⟩)
      ⟨⟨rfl, rfl, rfl, List.not_mem_nil⟩, trivial, trivial⟩
  refine (status_moves_forward_iff_not_overtaken hreach).1 [retry] _ ?_
  refine .tail (.refl _) ⟨⟨trivial, ?_⟩, rfl⟩
  rintro row - ⟨m, hm, -, hstatus⟩
  have hsent : sentMessages ((system .desktop).replay start (lostAnswer.take 2)).client.vault =
      [hello] := by decide
  rw [hsent, List.mem_singleton] at hm
  subst hm
  rcases hstatus with h | h <;> cases h

end Overtaking

end MessageStatus
