import CryptoPigeon.TransitionSystem
import CryptoPigeon.VaultStore

/-! # What a receipt says about the recipient

The messages of one conversation on its sender's side, their envelopes in transit, the
recipient's commits and the controls it answers with. Envelopes and controls may be lost,
repeated and reordered. `order` and `committed` are history: the ids ever sent in the
conversation, and those of which the recipient ever committed a linked message. -/
namespace ReceiptTruth

open TransitionSystem VaultStore

/-- A control of the recipient: `delivered` names one message, `readReceipt` the newest. -/
inductive Receipt where
  | delivered (upToMessageId : String)
  | readReceipt (upToMessageId : String)
  deriving DecidableEq, Repr

def Receipt.upToMessageId : Receipt → String
  | .delivered id | .readReceipt id => id

/-- An envelope that a transport has taken, with the message id inside its payload. -/
structure Sealed where
  envelopeId : String
  messageId : String
  deriving DecidableEq, Repr

/-- `links` are the recipient's linked messages in rowid order. -/
structure State where
  sender : Vault
  flight : List Sealed
  seen : List String
  links : List String
  receipts : List Receipt
  order : List String
  committed : List String
  deriving DecidableEq, Repr

inductive Event where
  | send (m : Message) (row : OutboxRow)
  | other (m : Message)
  | transmit (row : OutboxRow)
  | answered (row : OutboxRow) (job : Bool)
  | consume (p : Sealed) (commits : Bool)
  | readReceipt
  | apply (r : Receipt)
  | expire (messageId : String)
  | remove (remoteId : String)
  deriving DecidableEq, Repr

/-- `UPDATE messages SET status='sent'`: a Tor job asks for `status='queued'`, a pass of
`flushOutbox` does not. -/
def markSent (job : Bool) (messageId : String) (messages : List Message) : List Message :=
  messages.map fun m =>
    if m.messageId = messageId ∧ (job = true → m.status = .queued) then { m with status := .sent }
    else m

/-- The recipient's transaction: the message, its link, the seen id and the receipt. -/
def commit (p : Sealed) (s : State) : State :=
  { s with
    seen := s.seen ++ [p.envelopeId]
    links := s.links ++ [p.messageId]
    receipts := s.receipts ++ [.delivered p.messageId]
    committed := s.committed ++ [p.messageId] }

def applyReceipt (conversation : String) (v : Vault) : Receipt → Vault
  | .delivered id => VaultStore.markDelivered v conversation id
  | .readReceipt id => VaultStore.markRead v conversation id

def next (conversation : String) (s : State) : Event → State
  | .send m row =>
    { s with
      sender := { s.sender with
        messages := s.sender.messages ++ [m], outbox := s.sender.outbox ++ [row] }
      order := s.order ++ [m.messageId] }
  | .other m => { s with sender := { s.sender with messages := s.sender.messages ++ [m] } }
  | .transmit row => { s with flight := s.flight ++ [⟨row.envelopeId, row.messageId⟩] }
  | .answered row job =>
    { s with sender := { s.sender with
        messages := markSent job row.messageId s.sender.messages
        outbox := s.sender.outbox.filter (fun r => r.envelopeId != row.envelopeId) } }
  | .consume p commits => if p.envelopeId ∉ s.seen ∧ commits = true then commit p s else s
  | .readReceipt =>
    match s.links.getLast? with
    | some id => { s with receipts := s.receipts ++ [.readReceipt id] }
    | none => s
  | .apply r => { s with sender := applyReceipt conversation s.sender r }
  | .expire messageId =>
    { s with sender := { s.sender with
        messages := s.sender.messages.filter (fun m => m.messageId != messageId)
        outbox := s.sender.outbox.filter (fun r => r.messageId != messageId) } }
  | .remove remoteId => { s with links := s.links.filter (fun id => id != remoteId) }

/-- A message id is a fresh UUID. A pass or a job works on rows that it has read, which may
since have left the outbox; a response answers an envelope that was taken; whatever is
consumed or applied has been in transit. -/
def Enabled (conversation : String) (s : State) : Event → Prop
  | .send m row =>
    isSentIn conversation m = true ∧ m.status = .queued ∧ row.messageId = m.messageId ∧
      m.messageId ∉ s.order
  | .other m => isSentIn conversation m = false
  | .transmit row => row.messageId ∈ s.order
  | .answered row _ => ⟨row.envelopeId, row.messageId⟩ ∈ s.flight
  | .consume p _ => p ∈ s.flight
  | .apply r => r ∈ s.receipts
  | _ => True

instance (conversation : String) (s : State) : ∀ e, Decidable (Enabled conversation s e)
  | .send m row => inferInstanceAs (Decidable (isSentIn conversation m = true ∧
      m.status = .queued ∧ row.messageId = m.messageId ∧ m.messageId ∉ s.order))
  | .other m => inferInstanceAs (Decidable (isSentIn conversation m = false))
  | .transmit row => inferInstanceAs (Decidable (row.messageId ∈ s.order))
  | .answered row _ =>
    inferInstanceAs (Decidable ((⟨row.envelopeId, row.messageId⟩ : Sealed) ∈ s.flight))
  | .consume p _ => inferInstanceAs (Decidable (p ∈ s.flight))
  | .apply r => inferInstanceAs (Decidable (r ∈ s.receipts))
  | .readReceipt | .expire _ | .remove _ => inferInstanceAs (Decidable True)

def start : State := ⟨Vault.empty, [], [], [], [], [], []⟩

def system (conversation : String) : System State Event where
  Initial s := s = start
  Enabled := Enabled conversation
  next := next conversation

def sentIds (conversation : String) (messages : List Message) : List String :=
  (messages.filter (isSentIn conversation)).map Message.messageId

/-- The recipient has committed the message, or one sent after it in the conversation. -/
def Reached (s : State) (messageId : String) : Prop :=
  ∃ id ∈ s.committed, messageId = id ∨ [messageId, id].Sublist s.order

/-- What a status shows of a message. -/
structure Truthful (s : State) (m : Message) : Prop where
  delivered : m.status = .delivered → m.messageId ∈ s.committed
  read : m.status = .read → Reached s m.messageId

structure Invariant (conversation : String) (s : State) : Prop where
  rows : (sentIds conversation s.sender.messages).Sublist s.order
  links : ∀ id ∈ s.links, id ∈ s.committed
  receipts : ∀ r ∈ s.receipts, r.upToMessageId ∈ s.committed
  truthful : ∀ m ∈ s.sender.messages, isSentIn conversation m = true → Truthful s m

section Marks

variable {conversation id : String} {l : List Message} {m : Message} {s t : State}

theorem mem_sentIds (hm : m ∈ l) (hs : isSentIn conversation m = true) :
    m.messageId ∈ sentIds conversation l :=
  List.mem_map.mpr ⟨m, List.mem_filter.mpr ⟨hm, hs⟩, rfl⟩

theorem sentIds_cons (conversation : String) (m : Message) (l : List Message) :
    sentIds conversation (m :: l) =
      if isSentIn conversation m then m.messageId :: sentIds conversation l
      else sentIds conversation l := by
  unfold sentIds
  rw [List.filter_cons]
  split <;> rfl

/-- A change of statuses leaves the sent ids as they are. -/
theorem sentIds_map {f : Message → Message} (hid : ∀ m, (f m).messageId = m.messageId)
    (hs : ∀ m, isSentIn conversation (f m) = isSentIn conversation m) (l : List Message) :
    sentIds conversation (l.map f) = sentIds conversation l := by
  induction l with
  | nil => rfl
  | cons m rest ih => rw [List.map_cons, sentIds_cons, sentIds_cons, hs, hid, ih]

theorem markDelivered_row {v : Vault} (h : m ∈ (markDelivered v conversation id).messages) :
    m ∈ v.messages ∨ m.status = .delivered ∧ m.messageId = id := by
  obtain ⟨x, hx, rfl⟩ := List.mem_map.mp h
  split
  · rename_i hm
    exact .inr ⟨rfl, hm.1⟩
  · exact .inl hx

theorem markDelivered_sentIds (v : Vault) :
    sentIds conversation (markDelivered v conversation id).messages =
      sentIds conversation v.messages := by
  apply sentIds_map
  · intro m
    split <;> rfl
  · intro m
    split <;> rfl

theorem markSent_row {job : Bool} (h : m ∈ markSent job id l) : m ∈ l ∨ m.status = .sent := by
  obtain ⟨x, hx, rfl⟩ := List.mem_map.mp h
  split
  · exact .inr rfl
  · exact .inl hx

theorem markSent_sentIds (job : Bool) (id : String) (l : List Message) :
    sentIds conversation (markSent job id l) = sentIds conversation l := by
  apply sentIds_map
  · intro m
    split <;> rfl
  · intro m
    split <;> rfl

/-- A row that is marked read stands at or before the named sent message. -/
theorem markReadUpTo_row (h : m ∈ markReadUpTo conversation id l) :
    m ∈ l ∨ m.status = .read ∧
      (m.messageId = id ∨ [m.messageId, id].Sublist (sentIds conversation l)) := by
  induction l with
  | nil => exact .inl h
  | cons x rest ih =>
    unfold markReadUpTo at h
    split at h
    · rename_i hany
      rcases List.mem_cons.mp h with rfl | hm
      · split
        · rename_i hx
          obtain ⟨y, hy, hyp⟩ := List.any_eq_true.mp hany
          obtain ⟨hys, hyid⟩ := Bool.and_eq_true_iff.mp hyp
          have hyid : y.messageId = id := by simpa using hyid
          refine .inr ⟨rfl, ?_⟩
          rcases List.mem_cons.mp hy with rfl | hy
          · exact .inl hyid
          · refine .inr ?_
            rw [sentIds_cons, if_pos hx]
            exact (List.singleton_sublist.mpr (hyid ▸ mem_sentIds hy hys)).cons_cons _
        · exact .inl (List.mem_cons_self ..)
      · rcases ih hm with hm | ⟨hr, hid⟩
        · exact .inl (List.mem_cons_of_mem _ hm)
        · refine .inr ⟨hr, hid.imp_right fun hs => ?_⟩
          rw [sentIds_cons]
          split
          · exact hs.cons _
          · exact hs
    · exact .inl h

theorem markReadUpTo_sentIds (conversation id : String) (l : List Message) :
    sentIds conversation (markReadUpTo conversation id l) = sentIds conversation l := by
  induction l with
  | nil => rfl
  | cons x rest ih =>
    unfold markReadUpTo
    split
    · rw [sentIds_cons, sentIds_cons, ih]
      by_cases hx : isSentIn conversation x = true
      · have hread : isSentIn conversation { x with status := .read } = true := hx
        rw [if_pos hx, if_pos hx, if_pos hread]
      · rw [if_neg hx, if_neg hx]
    · rfl

theorem expired_sentIds (p : Message → Bool) (l : List Message) :
    (sentIds conversation (l.filter p)).Sublist (sentIds conversation l) :=
  (List.filter_sublist.filter _).map _

end Marks

section Invariants

variable {conversation : String} {s t : State} {m : Message}

theorem Reached.mono {id : String} (h : Reached s id) (hc : s.committed ⊆ t.committed)
    (ho : s.order.Sublist t.order) : Reached t id := by
  obtain ⟨c, hcm, hid⟩ := h
  exact ⟨c, hc hcm, hid.imp_right (fun hs => hs.trans ho)⟩

theorem Truthful.mono (h : Truthful s m) (hc : s.committed ⊆ t.committed)
    (ho : s.order.Sublist t.order) : Truthful t m where
  delivered hd := hc (h.delivered hd)
  read hr := (h.read hr).mono hc ho

/-- The statuses that show nothing of the recipient. -/
theorem Truthful.of_silent (hd : m.status ≠ .delivered) (hr : m.status ≠ .read) :
    Truthful s m where
  delivered h := absurd h hd
  read h := absurd h hr

/-- What the recipient and the history gain leaves the invariant in place. -/
theorem Invariant.grow (h : Invariant conversation s) (hsender : t.sender = s.sender)
    (hl : ∀ id ∈ t.links, id ∈ t.committed)
    (hr : ∀ r ∈ t.receipts, r.upToMessageId ∈ t.committed)
    (hc : s.committed ⊆ t.committed) (ho : t.order = s.order) : Invariant conversation t where
  rows := by rw [hsender, ho]; exact h.rows
  links := hl
  receipts := hr
  truthful m hm hs := (h.truthful m (hsender ▸ hm) hs).mono hc (ho ▸ List.Sublist.refl _)

theorem Invariant.send {row : OutboxRow} (h : Invariant conversation s)
    (he : Enabled conversation s (.send m row)) :
    Invariant conversation (next conversation s (.send m row)) := by
  obtain ⟨hm, hq, -, -⟩ := he
  have happend : s.order.Sublist (s.order ++ [m.messageId]) := List.sublist_append_left ..
  constructor
  · show (sentIds conversation (s.sender.messages ++ [m])).Sublist (s.order ++ [m.messageId])
    have hids : sentIds conversation (s.sender.messages ++ [m]) =
        sentIds conversation s.sender.messages ++ [m.messageId] := by
      simp [sentIds, List.filter_append, hm]
    rw [hids]
    exact h.rows.append (List.Sublist.refl _)
  · exact h.links
  · exact h.receipts
  · intro x hx hs
    rcases List.mem_append.mp hx with hx | hx
    · exact (h.truthful x hx hs).mono (List.Subset.refl _) happend
    · obtain rfl := List.mem_singleton.mp hx
      exact .of_silent (by rw [hq]; decide) (by rw [hq]; decide)

theorem Invariant.other (h : Invariant conversation s) (hm : isSentIn conversation m = false) :
    Invariant conversation (next conversation s (.other m)) := by
  constructor
  · show (sentIds conversation (s.sender.messages ++ [m])).Sublist s.order
    have hids : sentIds conversation (s.sender.messages ++ [m]) =
        sentIds conversation s.sender.messages := by
      simp [sentIds, List.filter_append, hm]
    rw [hids]
    exact h.rows
  · exact h.links
  · exact h.receipts
  · intro x hx hs
    rcases List.mem_append.mp hx with hx | hx
    · have hx := h.truthful x hx hs
      exact ⟨hx.delivered, hx.read⟩
    · obtain rfl := List.mem_singleton.mp hx
      rw [hm] at hs
      cases hs

/-- A sender's step that rewrites statuses or drops rows keeps the invariant when every row
left is an old one or a truthful one. -/
theorem Invariant.rewrite {v : Vault} (h : Invariant conversation s)
    (hids : (sentIds conversation v.messages).Sublist
      (sentIds conversation s.sender.messages))
    (hrows : ∀ m ∈ v.messages, m ∈ s.sender.messages ∨ Truthful s m) :
    Invariant conversation { s with sender := v } where
  rows := hids.trans h.rows
  links := h.links
  receipts := h.receipts
  truthful m hm hs := by
    rcases hrows m hm with hold | ht
    · have ht := h.truthful m hold hs
      exact ⟨ht.delivered, ht.read⟩
    · exact ⟨ht.delivered, ht.read⟩

theorem Invariant.answered (h : Invariant conversation s) (row : OutboxRow) (job : Bool) :
    Invariant conversation (next conversation s (.answered row job)) := by
  refine h.rewrite (by rw [markSent_sentIds]) fun m hm => ?_
  exact (markSent_row hm).imp_right fun hs =>
    .of_silent (by rw [hs]; decide) (by rw [hs]; decide)

theorem Invariant.expire (h : Invariant conversation s) (messageId : String) :
    Invariant conversation (next conversation s (.expire messageId)) :=
  h.rewrite (expired_sentIds _ _) fun _ hm => .inl (List.mem_filter.mp hm).1

theorem Invariant.apply (h : Invariant conversation s) {r : Receipt} (hr : r ∈ s.receipts) :
    Invariant conversation (next conversation s (.apply r)) := by
  have hid := h.receipts r hr
  cases r with
  | delivered id =>
    refine h.rewrite (by rw [applyReceipt, markDelivered_sentIds]) fun m hm => ?_
    refine (markDelivered_row hm).imp_right ?_
    rintro ⟨hd, hm⟩
    refine ⟨fun _ => ?_, fun hr => ?_⟩
    · rw [hm]
      exact hid
    · rw [hd] at hr
      cases hr
  | readReceipt id =>
    refine h.rewrite (by rw [applyReceipt, markRead, markReadUpTo_sentIds]) fun m hm => ?_
    refine (markReadUpTo_row hm).imp_right ?_
    rintro ⟨hread, hpos⟩
    refine ⟨fun hd => ?_, fun _ => ⟨id, hid, ?_⟩⟩
    · rw [hread] at hd
      cases hd
    · exact hpos.imp_right fun hs => hs.trans h.rows

theorem Invariant.consume (h : Invariant conversation s) (p : Sealed) (commits : Bool) :
    Invariant conversation (next conversation s (.consume p commits)) := by
  change Invariant conversation (if _ then commit p s else s)
  split
  · refine h.grow rfl ?_ ?_ (List.subset_append_left ..) rfl
    · intro id hid
      rcases List.mem_append.mp hid with hid | hid
      · exact List.mem_append_left _ (h.links id hid)
      · exact List.mem_append_right _ hid
    · intro r hr
      rcases List.mem_append.mp hr with hr | hr
      · exact List.mem_append_left _ (h.receipts r hr)
      · obtain rfl := List.mem_singleton.mp hr
        exact List.mem_append_right _ (List.mem_singleton.mpr rfl)
  · exact h

theorem Invariant.readReceipt (h : Invariant conversation s) :
    Invariant conversation (next conversation s .readReceipt) := by
  rcases hlast : s.links.getLast? with _ | id
  · have hsame : next conversation s .readReceipt = s := by simp only [next, hlast]
    rw [hsame]
    exact h
  · have hsent : next conversation s .readReceipt =
        { s with receipts := s.receipts ++ [.readReceipt id] } := by simp only [next, hlast]
    rw [hsent]
    refine h.grow rfl h.links (fun r hr => ?_) (List.Subset.refl _) rfl
    rcases List.mem_append.mp hr with hr | hr
    · exact h.receipts r hr
    · obtain rfl := List.mem_singleton.mp hr
      exact h.links id (List.mem_of_getLast? hlast)

theorem Invariant.step (h : Invariant conversation s) {e : Event}
    (he : Enabled conversation s e) : Invariant conversation (next conversation s e) := by
  cases e with
  | send m row => exact h.send he
  | other m => exact h.other he
  | transmit row => exact h.grow rfl h.links h.receipts (List.Subset.refl _) rfl
  | answered row job => exact h.answered row job
  | consume p commits => exact h.consume p commits
  | readReceipt => exact h.readReceipt
  | apply r => exact h.apply he
  | expire messageId => exact h.expire messageId
  | remove remoteId =>
    exact h.grow rfl (fun id hid => h.links id (List.mem_filter.mp hid).1) h.receipts
      (List.Subset.refl _) rfl

theorem start_invariant (conversation : String) : Invariant conversation start where
  rows := List.Sublist.refl _
  links _ h := absurd h List.not_mem_nil
  receipts _ h := absurd h List.not_mem_nil
  truthful _ h := absurd h List.not_mem_nil

theorem reachable_receipts_truthful (h : Reachable (system conversation) s) :
    Invariant conversation s := by
  refine reachable_invariant (fun s hi => ?_) (fun s e hi he => hi.step he) h
  obtain rfl : s = start := hi
  exact start_invariant conversation

end Invariants

def sampleMessage (id : String) : Message :=
  ⟨id, "conversation", .sent, "hello", none, .queued, none⟩

def sampleRow (id : String) : OutboxRow := ⟨"envelope-" ++ id, id, "mailbox", "sealed", 0⟩

/-- The first message stays in the outbox while the second arrives and is read. -/
def overtaken : List Event :=
  [.send (sampleMessage "first") (sampleRow "first"),
    .send (sampleMessage "second") (sampleRow "second"),
    .transmit (sampleRow "second"), .consume ⟨"envelope-second", "second"⟩ true,
    .apply (.delivered "second"), .readReceipt, .apply (.readReceipt "second")]

def afterOvertaken : State := (system "conversation").replay start overtaken

theorem overtaken_reachable : Reachable (system "conversation") afterOvertaken :=
  valid_trace_reachable (reachable_initial rfl)
    (show (system "conversation").Valid start overtaken by
      simp only [System.Valid, overtaken, system]; decide +kernel)

end ReceiptTruth
