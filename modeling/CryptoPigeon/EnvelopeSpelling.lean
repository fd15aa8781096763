import CryptoPigeon.RelayQueue
import CryptoPigeon.TorRouting
import CryptoPigeon.OnionListener

/-! # Copies of one envelope under different spellings of its id

The relay pushes the id as its sender spelled it and lists the row's 32 digits, the Tor inbox
keeps the sender's spelling and a blind dropbox answers with a dashed UUID. The desktop
compares what it reads with `seen_envelope_ids` and the inbox; Android normalises first. -/
namespace EnvelopeSpelling

open TransitionSystem
open RelayQueue (hexToUuid uuidOf)
open ConsumeIncoming (ClientKind normalizeId isEnvelopeId)
open TorRouting (Mode)

/-- `envelopeSchema` accepts the id. -/
def Accepted (id : String) : Prop :=
  (id.length = 32 ∧ OnionListener.hexDigits id = true) ∨ OnionListener.uuidShape id = true

instance (id : String) : Decidable (Accepted id) :=
  inferInstanceAs (Decidable (_ ∨ _))

/-- What the client looks an id up by. -/
def key : ClientKind → String → String
  | .desktop, id => id
  | .android, id => normalizeId id

/-- `id.replace("-","")`. -/
def withoutDashes (id : String) : String := String.ofList (id.toList.filter (fun c => c ≠ '-'))

/-- Where the copies of one envelope wait for a recipient, and what it has consumed.
`committed` and `again` are history: a copy was committed, and one was handed to the ratchet
after that. -/
structure State where
  relay : Bool
  blind : Bool
  pushed : List String
  inbox : List String
  seen : List String
  committed : Bool
  again : Bool
  deriving DecidableEq, Repr

/-- `pass` is one synchronisation: the mode, which copies handed to the ratchet decrypt and
commit, and whether the acknowledgements reach the relay and the blind dropbox. -/
inductive Event where
  | relay (frame : Bool)
  | tor
  | blind
  | pass (mode : Mode) (decrypts : List Bool) (acked blindAcked : Bool)
  | restart
  deriving DecidableEq, Repr

/-- The row that the relay lists, by its digits. -/
def pendingIds (id : String) (s : State) : List String := if s.relay then [uuidOf id] else []

/-- Pushed envelopes come first, then what the pending route answers. -/
def ownBatch (id : String) (mode : Mode) (s : State) : List String :=
  if s.pushed ≠ [] then s.pushed.take 256
  else
    match mode with
    | .relayOnly => pendingIds id s
    | .direct => s.inbox.take 256
    | .hybrid => if s.inbox ≠ [] then s.inbox.take 256 else pendingIds id s

def fetchesBlind (kind : ClientKind) (mode : Mode) (s : State) : Bool :=
  kind = .android && mode ≠ .direct && s.inbox.isEmpty && s.blind

def batch (kind : ClientKind) (id : String) (mode : Mode) (s : State) : List String :=
  ownBatch id mode s ++ if fetchesBlind kind mode s then [hexToUuid (uuidOf id)] else []

/-- One copy: acknowledged if it is known, else handed to the ratchet. -/
def handle (kind : ClientKind) (c : String) (decrypts : Bool) (s : State) : State × List String :=
  if kind = .android ∧ isEnvelopeId (normalizeId c) = false then (s, [])
  else if key kind c ∈ s.seen then (s, [key kind c])
  else
    let handed := { s with again := s.again || s.committed }
    if decrypts then
      ({ handed with seen := s.seen ++ [key kind c], committed := true }, [key kind c])
    else (handed, [])

def consume (kind : ClientKind) : List String → List Bool → State → State × List String
  | [], _, s => (s, [])
  | c :: rest, decrypts, s =>
    let (t, acks) := handle kind c (decrypts.headD false) s
    let (u, more) := consume kind rest decrypts.tail t
    (u, acks ++ more)

def isRow : ClientKind → String → String → Bool
  | .desktop, id, row => row == id
  | .android, id, row => withoutDashes row == id

/-- Acknowledgements delete inbox rows; the ids without a row remain for the relay. -/
def removeDirectAcks (kind : ClientKind) : List String → List String → List String × List String
  | [], inbox => (inbox, [])
  | id :: rest, inbox =>
    if inbox.any (isRow kind id) then
      removeDirectAcks kind rest (inbox.filter (fun row => !isRow kind id row))
    else
      let (left, remaining) := removeDirectAcks kind rest inbox
      (left, id :: remaining)

/-- What the acknowledgements of a pass delete. In relay-only mode the desktop sends them all
to the relay; in direct mode neither client sends any. -/
def acknowledge (kind : ClientKind) (id : String) (mode : Mode) (fetched acked blindAcked : Bool)
    (acks : List String) (s : State) : State :=
  let blindAcks := acks.filter (fun a => fetched && a == uuidOf id)
  let legacy := acks.filter (fun a => !(fetched && a == uuidOf id))
  let (inbox, remaining) :=
    if kind = .desktop ∧ mode = .relayOnly then (s.inbox, legacy)
    else removeDirectAcks kind legacy s.inbox
  { s with
    inbox := inbox
    blind := s.blind && !(blindAcked && !blindAcks.isEmpty)
    relay := s.relay && !(decide (mode ≠ .direct) && acked && remaining.any (fun a => uuidOf a == uuidOf id)) }

/-- The desktop takes 256 pushed envelopes, Android all it has. -/
def taken : ClientKind → State → State
  | .desktop, s => { s with pushed := s.pushed.drop 256 }
  | .android, s => { s with pushed := [] }

def next (kind : ClientKind) (id : String) (s : State) : Event → State
  | .relay frame => { s with relay := true, pushed := if frame then s.pushed ++ [id] else s.pushed }
  | .tor => if id ∈ s.inbox then s else { s with inbox := s.inbox ++ [id] }
  | .blind => { s with blind := true }
  | .restart => { s with pushed := [] }
  | .pass mode decrypts acked blindAcked =>
    let (t, acks) := consume kind (batch kind id mode s) decrypts (taken kind s)
    acknowledge kind id mode (fetchesBlind kind mode s) acked blindAcked acks t

/-- Android's listener takes lower-case ids only, and only Android reads blind dropboxes, whose
schema takes dashed ids. -/
def Enabled (kind : ClientKind) (id : String) (_ : State) : Event → Prop
  | .tor => kind = .android → isEnvelopeId (withoutDashes id) = true
  | .blind => kind = .android ∧ OnionListener.uuidShape id = true
  | _ => True

def empty : State := ⟨false, false, [], [], [], false, false⟩

def system (kind : ClientKind) (id : String) : System State Event where
  Initial s := s = empty
  Enabled := Enabled kind id
  next := next kind id

def load (s : State) : Nat :=
  s.pushed.length + s.inbox.length + s.relay.toNat + s.blind.toNat

/-- A pass in hybrid mode whose acknowledgements arrive and in which nothing decrypts. -/
def drain (kind : ClientKind) (id : String) (s : State) : State :=
  next kind id s (.pass .hybrid [] true true)

/-- No copy is handed to the ratchet after one was committed, and once one is, such passes
empty every queue. -/
def Independent (kind : ClientKind) (id : String) : Prop :=
  ∀ s, Reachable (system kind id) s →
    s.again = false ∧
    (s.committed = true → ∀ n, load s ≤ n → load ((drain kind id)^[n] s) = 0)

/-- A copy that the client looks up as it looks up the sender's spelling. -/
structure IsCopy (kind : ClientKind) (id c : String) : Prop where
  key : key kind c = key kind id
  valid : kind = .android → isEnvelopeId (normalizeId c) = true

/-- The client looks every copy up under one key, which names the relay's row. -/
structure Uniform (kind : ClientKind) (id : String) : Prop where
  own : IsCopy kind id id
  pending : IsCopy kind id (uuidOf id)
  dropbox : kind = .android → IsCopy kind id (hexToUuid (uuidOf id))
  digits : key kind id = uuidOf id
  stable : uuidOf (uuidOf id) = uuidOf id
  row : (kind = .android → isEnvelopeId (withoutDashes id) = true) →
    isRow kind (key kind id) id = true

structure Invariant (kind : ClientKind) (id : String) (s : State) : Prop where
  pushed : ∀ c ∈ s.pushed, c = id
  inbox : ∀ c ∈ s.inbox, c = id
  row : s.inbox ≠ [] → isRow kind (key kind id) id = true
  blind : s.blind = true → kind = .android
  seen : s.committed = true → key kind id ∈ s.seen
  again : s.again = false

section Uniform

variable {kind : ClientKind} {id c : String} {s t : State} {mode : Mode}

theorem batch_copies (hu : Uniform kind id) (h : Invariant kind id s) :
    ∀ c ∈ batch kind id mode s, IsCopy kind id c := by
  have inboxCopies : ∀ c ∈ s.inbox.take 256, IsCopy kind id c := by
    intro c hc
    rw [h.inbox c (List.mem_of_mem_take hc)]
    exact hu.own
  have pendingCopies : ∀ c ∈ pendingIds id s, IsCopy kind id c := by
    intro c hc
    unfold pendingIds at hc
    split at hc
    · rw [List.mem_singleton.mp hc]
      exact hu.pending
    · cases hc
  intro c hc
  rcases List.mem_append.mp hc with own | dropbox
  · unfold ownBatch at own
    split at own
    · rw [h.pushed c (List.mem_of_mem_take own)]
      exact hu.own
    cases mode with
    | relayOnly => exact pendingCopies c own
    | direct => exact inboxCopies c own
    | hybrid =>
      dsimp only at own
      split at own
      · exact inboxCopies c own
      · exact pendingCopies c own
  · split at dropbox
    · rename_i hf
      simp only [fetchesBlind, Bool.and_eq_true] at hf
      rw [List.mem_singleton.mp dropbox]
      exact hu.dropbox (h.blind hf.2)
    · cases dropbox

/-- What handling copies leaves: the queues, and a known key once something is committed. -/
structure Handled (kind : ClientKind) (id : String) (s t : State) : Prop where
  relay : t.relay = s.relay
  blind : t.blind = s.blind
  pushed : t.pushed = s.pushed
  inbox : t.inbox = s.inbox
  seen : t.committed = true → key kind id ∈ t.seen
  again : t.again = false

theorem Handled.trans {u : State} (h : Handled kind id s t) (k : Handled kind id t u) :
    Handled kind id s u :=
  ⟨k.relay.trans h.relay, k.blind.trans h.blind, k.pushed.trans h.pushed, k.inbox.trans h.inbox,
    k.seen, k.again⟩

theorem handle_handled {decrypts : Bool} (hc : IsCopy kind id c)
    (hseen : s.committed = true → key kind id ∈ s.seen) (hagain : s.again = false) :
    Handled kind id s (handle kind c decrypts s).1 := by
  unfold handle
  split
  · exact ⟨rfl, rfl, rfl, rfl, hseen, hagain⟩
  split
  · exact ⟨rfl, rfl, rfl, rfl, hseen, hagain⟩
  rename_i hnew
  have first : s.committed = false := by
    cases hcommitted : s.committed with
    | false => rfl
    | true => exact absurd (hc.key ▸ hseen hcommitted) hnew
  dsimp only
  split
  · exact ⟨rfl, rfl, rfl, rfl, fun _ => by simp [hc.key], by simp [hagain, first]⟩
  · exact ⟨rfl, rfl, rfl, rfl, hseen, by simp [hagain, first]⟩

theorem consume_handled {l : List String} {decrypts : List Bool}
    (hl : ∀ c ∈ l, IsCopy kind id c) (hseen : s.committed = true → key kind id ∈ s.seen)
    (hagain : s.again = false) : Handled kind id s (consume kind l decrypts s).1 := by
  induction l generalizing s decrypts with
  | nil => exact ⟨rfl, rfl, rfl, rfl, hseen, hagain⟩
  | cons c rest ih =>
    have first : Handled kind id s (handle kind c (decrypts.headD false) s).1 :=
      handle_handled (hl c List.mem_cons_self) hseen hagain
    exact first.trans (ih (fun x hx => hl x (List.mem_cons_of_mem c hx)) first.seen first.again)

theorem handle_known {decrypts : Bool} (hc : IsCopy kind id c) (hseen : key kind id ∈ s.seen) :
    handle kind c decrypts s = (s, [key kind id]) := by
  unfold handle
  rw [if_neg, if_pos (hc.key ▸ hseen), hc.key]
  rintro ⟨rfl, hbad⟩
  exact Bool.false_ne_true (hbad.symm.trans (hc.valid rfl))

theorem consume_known {l : List String} {decrypts : List Bool}
    (hl : ∀ c ∈ l, IsCopy kind id c) (hseen : key kind id ∈ s.seen) :
    consume kind l decrypts s = (s, List.replicate l.length (key kind id)) := by
  induction l generalizing decrypts with
  | nil => rfl
  | cons c rest ih =>
    simp only [consume]
    rw [handle_known (hl c List.mem_cons_self) hseen]
    dsimp only
    rw [ih fun x hx => hl x (List.mem_cons_of_mem c hx)]
    rfl

theorem removeDirectAcks_sublist (acks inbox : List String) :
    (removeDirectAcks kind acks inbox).1.Sublist inbox := by
  induction acks generalizing inbox with
  | nil => exact List.Sublist.refl inbox
  | cons a rest ih =>
    unfold removeDirectAcks
    split
    · exact (ih _).trans List.filter_sublist
    · exact ih inbox

theorem acknowledge_inbox (kind : ClientKind) (id : String) (mode : Mode)
    (fetched acked blindAcked : Bool) (acks : List String) (s : State) :
    (acknowledge kind id mode fetched acked blindAcked acks s).inbox.Sublist s.inbox := by
  unfold acknowledge
  dsimp only
  split
  · exact List.Sublist.refl _
  · exact removeDirectAcks_sublist _ _

theorem taken_pushed : (taken kind s).pushed.Sublist s.pushed := by
  cases kind with
  | desktop => exact List.drop_sublist 256 s.pushed
  | android => exact List.nil_sublist s.pushed

theorem taken_same (kind : ClientKind) (s : State) : (taken kind s).relay = s.relay ∧ (taken kind s).blind = s.blind ∧
    (taken kind s).inbox = s.inbox ∧ (taken kind s).seen = s.seen ∧
    (taken kind s).committed = s.committed ∧ (taken kind s).again = s.again := by
  cases kind <;> exact ⟨rfl, rfl, rfl, rfl, rfl, rfl⟩

theorem empty_invariant : Invariant kind id empty where
  pushed _ h := by cases h
  inbox _ h := by cases h
  row h := absurd rfl h
  blind h := by cases h
  seen h := by cases h
  again := rfl

theorem next_invariant (hu : Uniform kind id) (e : Event) (h : Invariant kind id s)
    (he : Enabled kind id s e) : Invariant kind id (next kind id s e) := by
  cases e with
  | relay frame =>
    refine ⟨fun c hc => ?_, h.inbox, h.row, h.blind, h.seen, h.again⟩
    dsimp only [next] at hc
    split at hc
    · rcases List.mem_append.mp hc with old | new
      · exact h.pushed c old
      · exact List.mem_singleton.mp new
    · exact h.pushed c hc
  | tor =>
    dsimp only [next]
    split
    · exact h
    refine ⟨h.pushed, fun c hc => ?_, fun _ => hu.row he, h.blind, h.seen, h.again⟩
    rcases List.mem_append.mp hc with old | new
    · exact h.inbox c old
    · exact List.mem_singleton.mp new
  | blind => exact ⟨h.pushed, h.inbox, h.row, fun _ => he.1, h.seen, h.again⟩
  | restart => exact ⟨fun c hc => (by cases hc), h.inbox, h.row, h.blind, h.seen, h.again⟩
  | pass mode decrypts acked blindAcked =>
    obtain ⟨-, hblind, hinbox, hseen, hcommitted, hagain⟩ := taken_same kind s
    have handled : Handled kind id (taken kind s)
        (consume kind (batch kind id mode s) decrypts (taken kind s)).1 := by
      refine consume_handled (batch_copies hu h) ?_ (hagain.trans h.again)
      rw [hcommitted, hseen]
      exact h.seen
    change Invariant kind id (acknowledge kind id mode (fetchesBlind kind mode s) acked blindAcked
      (consume kind (batch kind id mode s) decrypts (taken kind s)).2
      (consume kind (batch kind id mode s) decrypts (taken kind s)).1)
    generalize consume kind (batch kind id mode s) decrypts (taken kind s) = out at handled ⊢
    have inbox := acknowledge_inbox kind id mode (fetchesBlind kind mode s) acked blindAcked
      out.2 out.1
    rw [handled.inbox, hinbox] at inbox
    refine ⟨fun c hc => h.pushed c (taken_pushed.subset (handled.pushed ▸ hc)),
      fun c hc => h.inbox c (inbox.subset hc), fun hne => h.row fun e => hne ?_, fun hb => ?_,
      handled.seen, handled.again⟩
    · rw [e] at inbox
      exact List.sublist_nil.mp inbox
    · have was : out.1.blind = true := by
        simp only [acknowledge, Bool.and_eq_true] at hb
        exact hb.1
      rw [handled.blind, hblind] at was
      exact h.blind was

theorem reachable_invariant (hu : Uniform kind id) (h : Reachable (system kind id) s) :
    Invariant kind id s := by
  refine TransitionSystem.reachable_invariant (fun s hs => ?_) (fun s e hs he => ?_) h
  · rw [show s = empty from hs]
    exact empty_invariant
  · exact next_invariant hu e hs he

/-- What a draining pass acknowledges once a copy is committed. -/
theorem drain_eq (hu : Uniform kind id) (h : Invariant kind id s) (hc : s.committed = true) :
    drain kind id s = acknowledge kind id .hybrid (fetchesBlind kind .hybrid s) true true
      (List.replicate (batch kind id .hybrid s).length (key kind id)) (taken kind s) := by
  obtain ⟨-, -, -, hseen, -, -⟩ := taken_same kind s
  change acknowledge kind id .hybrid (fetchesBlind kind .hybrid s) true true
    (consume kind (batch kind id .hybrid s) [] (taken kind s)).2
    (consume kind (batch kind id .hybrid s) [] (taken kind s)).1 = _
  rw [consume_known (batch_copies hu h) (hseen ▸ h.seen hc)]

theorem removeDirectAcks_clears {k : String} {n : Nat} {inbox : List String} (hn : 0 < n)
    (h : ∀ row ∈ inbox, isRow kind k row = true) :
    (removeDirectAcks kind (List.replicate n k) inbox).1 = [] := by
  obtain ⟨m, rfl⟩ := Nat.exists_eq_succ_of_ne_zero hn.ne'
  rw [List.replicate_succ]
  unfold removeDirectAcks
  split
  · have none : inbox.filter (fun row => !isRow kind k row) = [] := by
      simpa using h
    rw [none]
    exact List.sublist_nil.mp (removeDirectAcks_sublist _ _)
  · rename_i hany
    have nil : inbox = [] := List.eq_nil_iff_forall_not_mem.mpr fun row hr =>
      hany (List.any_eq_true.mpr ⟨row, hr, h row hr⟩)
    rw [nil]
    exact List.sublist_nil.mp (removeDirectAcks_sublist _ _)

theorem taken_shorter (kind : ClientKind) (h : s.pushed ≠ []) : (taken kind s).pushed.length < s.pushed.length := by
  have positive := List.length_pos_iff.mpr h
  cases kind with
  | desktop => simp only [taken, List.length_drop]; omega
  | android => simpa [taken] using positive

/-- A draining pass adds nothing to any queue. -/
structure Shrinks (s t : State) : Prop where
  pushed : t.pushed.length ≤ s.pushed.length
  inbox : t.inbox.length ≤ s.inbox.length
  relay : t.relay.toNat ≤ s.relay.toNat
  blind : t.blind.toNat ≤ s.blind.toNat

theorem Shrinks.load (h : Shrinks s t) : load t ≤ load s := by
  have := h.pushed
  have := h.inbox
  have := h.relay
  have := h.blind
  unfold EnvelopeSpelling.load
  omega

theorem acknowledge_shrinks (kind : ClientKind) (id : String) (mode : Mode)
    (fetched acked blindAcked : Bool) (acks : List String) (s : State) :
    Shrinks s (acknowledge kind id mode fetched acked blindAcked acks (taken kind s)) := by
  obtain ⟨hrelay, hblind, hinbox, -, -, -⟩ := taken_same kind s
  refine ⟨taken_pushed.length_le, ?_, ?_, ?_⟩
  · have inbox := acknowledge_inbox kind id mode fetched acked blindAcked acks (taken kind s)
    rw [hinbox] at inbox
    exact inbox.length_le
  · rw [← hrelay]
    exact Bool.toNat_le_toNat (Bool.and_le_left _ _)
  · rw [← hblind]
    exact Bool.toNat_le_toNat (Bool.and_le_left _ _)

theorem drain_shrinks (hu : Uniform kind id) (h : Invariant kind id s) (hc : s.committed = true) :
    Shrinks s (drain kind id s) := by
  rw [drain_eq hu h hc]
  exact acknowledge_shrinks kind id _ _ _ _ _ s

/-- The batch is the inbox, and its acknowledgements delete all of it. -/
theorem drain_inbox (hu : Uniform kind id) (h : Invariant kind id s) (hc : s.committed = true)
    (hp : s.pushed = []) (hi : s.inbox ≠ []) : (drain kind id s).inbox = [] := by
  obtain ⟨-, -, hinbox, -, -, -⟩ := taken_same kind s
  have positive := List.length_pos_iff.mpr hi
  have plain : fetchesBlind kind .hybrid s = false := by simp [fetchesBlind, hi]
  have own : batch kind id .hybrid s = s.inbox.take 256 := by
    simp [batch, ownBatch, hp, hi, plain]
  rw [drain_eq hu h hc, plain, own]
  simp only [acknowledge, Bool.false_and, Bool.not_false, List.filter_true, hinbox,
    reduceCtorEq, and_false, if_false]
  refine removeDirectAcks_clears ?_ fun row hrow => ?_
  · rw [List.length_take]
    omega
  · rw [h.inbox row hrow]
    exact h.row hi

theorem drain_blind (hu : Uniform kind id) (h : Invariant kind id s) (hc : s.committed = true)
    (hi : s.inbox = []) (hb : s.blind = true) : (drain kind id s).blind = false := by
  have fetched : fetchesBlind kind .hybrid s = true := by
    simp [fetchesBlind, h.blind hb, hi, hb]
  rw [drain_eq hu h hc, fetched]
  simp [acknowledge, batch, fetched, hu.digits]

theorem drain_relay (hu : Uniform kind id) (h : Invariant kind id s) (hc : s.committed = true)
    (hp : s.pushed = []) (hi : s.inbox = []) (hb : s.blind = false) :
    (drain kind id s).relay = false := by
  obtain ⟨hrelay, -, hinbox, -, -, -⟩ := taken_same kind s
  have plain : fetchesBlind kind .hybrid s = false := by simp [fetchesBlind, hb]
  rw [drain_eq hu h hc, plain]
  cases listed : s.relay with
  | false => simp [acknowledge, hrelay, listed]
  | true =>
    have single : batch kind id .hybrid s = [uuidOf id] := by
      simp [batch, ownBatch, hp, hi, plain, pendingIds, listed]
    rw [single]
    simp [acknowledge, hinbox, hi, removeDirectAcks, hu.digits, hu.stable]

theorem drain_load (hu : Uniform kind id) (h : Invariant kind id s) (hc : s.committed = true)
    (hload : load s ≠ 0) : load (drain kind id s) < load s := by
  have shrinks := drain_shrinks hu h hc
  have pushed := shrinks.pushed
  have inbox := shrinks.inbox
  have relay := shrinks.relay
  have blind := shrinks.blind
  unfold load at hload ⊢
  by_cases hp : s.pushed = []
  swap
  · have less : (drain kind id s).pushed.length < s.pushed.length := by
      rw [drain_eq hu h hc]
      exact taken_shorter kind hp
    omega
  by_cases hi : s.inbox = []
  swap
  · have positive := List.length_pos_iff.mpr hi
    rw [drain_inbox hu h hc hp hi, List.length_nil] at *
    omega
  cases hb : s.blind with
  | true =>
    have gone := drain_blind hu h hc hi hb
    rw [hb] at blind
    rw [gone, Bool.toNat_false, Bool.toNat_true]
    omega
  | false =>
    have gone := drain_relay hu h hc hp hi hb
    cases hs : s.relay with
    | true =>
      rw [hb, Bool.toNat_false] at blind
      rw [gone, Bool.toNat_false, Bool.toNat_true]
      omega
    | false =>
      rw [hp, hi, hb, hs] at hload
      exact absurd rfl hload

theorem drain_committed (hu : Uniform kind id) (h : Invariant kind id s)
    (hc : s.committed = true) : (drain kind id s).committed = true := by
  obtain ⟨-, -, -, -, hcommitted, -⟩ := taken_same kind s
  rw [drain_eq hu h hc]
  exact hcommitted.trans hc

theorem drain_empties (hu : Uniform kind id) {n : Nat} (h : Invariant kind id s)
    (hc : s.committed = true) (hn : load s ≤ n) : load ((drain kind id)^[n] s) = 0 := by
  induction n generalizing s with
  | zero => exact Nat.le_zero.mp hn
  | succ n ih =>
    rw [Function.iterate_succ_apply]
    have next : Invariant kind id (drain kind id s) := next_invariant hu _ h trivial
    refine ih next (drain_committed hu h hc) ?_
    by_cases hload : load s = 0
    · have less := (drain_shrinks hu h hc).load
      omega
    · have less := drain_load hu h hc hload
      omega

theorem independent_of_uniform (hu : Uniform kind id) : Independent kind id := by
  intro s hs
  have h := reachable_invariant hu hs
  exact ⟨h.again, fun hc n hn => drain_empties hu h hc hn⟩

end Uniform

section Spelling

variable {id : String}

def isDigit (c : Char) : Bool := ('0' ≤ c && c ≤ '9') || ('a' ≤ c && c ≤ 'f') || ('A' ≤ c && c ≤ 'F')

def isLowerDigit (c : Char) : Bool := ('a' ≤ c && c ≤ 'f') || ('0' ≤ c && c ≤ '9')

theorem flatten_splitOn (l : List Char) : (l.splitOn '-').flatten = l.filter (fun c => c ≠ '-') := by
  induction l with
  | nil => rfl
  | cons c l ih =>
    rw [List.splitOn, List.splitOnP_cons_eq_if_modifyHead]
    rw [List.splitOn] at ih
    by_cases hc : c = '-'
    · subst hc
      simpa using ih
    · have apart : (c == '-') = false := by simpa using hc
      obtain ⟨g, gs, hg⟩ := List.exists_cons_of_ne_nil (List.splitOnP_ne_nil (· == '-') l)
      rw [hg] at ih ⊢
      simpa [apart, hc] using ih

theorem isDigit_small {c : Char} (h : isDigit c = true) : c.toNat < 128 := by
  simp only [isDigit, Bool.or_eq_true, Bool.and_eq_true, decide_eq_true_eq] at h
  rcases h with (⟨-, h⟩ | ⟨-, h⟩) | ⟨-, h⟩ <;> exact Nat.lt_of_le_of_lt h (by decide)

theorem isDigit_toLower {c : Char} (h : isDigit c = true) : isLowerDigit c.toLower = true := by
  have all : ∀ n < 128, isDigit (Char.ofNat n) = true → isLowerDigit (Char.ofNat n).toLower = true := by
    decide +kernel
  have digit := all c.toNat (isDigit_small h)
  rw [Char.ofNat_toNat] at digit
  exact digit h

theorem isLowerDigit_isDigit {c : Char} (h : isLowerDigit c = true) : isDigit c = true := by
  simp only [isLowerDigit, isDigit, Bool.or_eq_true] at h ⊢
  tauto

theorem isLowerDigit_toLower {c : Char} (h : isLowerDigit c = true) : c.toLower = c := by
  have all : ∀ n < 128, isLowerDigit (Char.ofNat n) = true →
      (Char.ofNat n).toLower = Char.ofNat n := by
    decide +kernel
  have digit := all c.toNat (isDigit_small (isLowerDigit_isDigit h))
  rw [Char.ofNat_toNat] at digit
  exact digit h

theorem filter_dash_self {l : List Char} (h : '-' ∉ l) : l.filter (fun c => c ≠ '-') = l := by
  refine List.filter_eq_self.mpr fun c hc => ?_
  simp only [ne_eq, decide_not, Bool.not_eq_true', decide_eq_false_iff_not]
  rintro rfl
  exact h hc

/-- The digits of an accepted id: 32 of them, whatever the dashes. -/
theorem accepted_digits (h : Accepted id) :
    (id.toList.filter (fun c => c ≠ '-')).length = 32 ∧
    (∀ c ∈ id.toList.filter (fun c => c ≠ '-'), isDigit c = true) ∧
    ('-' ∈ id.toList ∨ id.length = 32) := by
  rcases h with ⟨hlength, hdigits⟩ | h
  · have all : ∀ c ∈ id.toList, isDigit c = true := List.all_eq_true.mp hdigits
    have plain : id.toList.filter (fun c => c ≠ '-') = id.toList :=
      filter_dash_self fun hc => absurd (all _ hc) (by decide)
    rw [plain]
    exact ⟨hlength, all, .inr hlength⟩
  · simp only [OnionListener.uuidShape, Bool.and_eq_true, beq_iff_eq, List.all_eq_true] at h
    obtain ⟨hlengths, hall⟩ := h
    rw [← flatten_splitOn, List.length_flatten, hlengths]
    refine ⟨rfl, fun c hc => ?_, .inl ?_⟩
    · obtain ⟨g, hg, hcg⟩ := List.mem_flatten.mp hc
      have digits := hall g hg
      rw [OnionListener.hexDigits, String.toList_ofList, List.all_eq_true] at digits
      exact digits c hcg
    · by_contra hdash
      have single : id.toList.splitOn '-' = [id.toList] :=
        List.splitOnP_eq_singleton fun c hc => by
          simp only [beq_eq_false_iff_ne]
          rintro rfl
          exact hdash hc
      rw [single] at hlengths
      exact absurd (congrArg List.length hlengths) (by simp)

theorem normalizeId_toList (id : String) : (normalizeId id).toList =
    (id.toList.filter (fun c => c ≠ '-')).map Char.toLower :=
  String.toList_ofList

theorem accepted_isEnvelopeId (h : Accepted id) : isEnvelopeId (normalizeId id) = true := by
  obtain ⟨hlength, hdigits, -⟩ := accepted_digits h
  have size : (normalizeId id).length = 32 := by
    rw [← String.length_toList, normalizeId_toList, List.length_map, hlength]
  rw [isEnvelopeId, size, normalizeId_toList]
  simp only [beq_self_eq_true, Bool.true_and, List.all_map, List.all_eq_true, Function.comp]
  exact fun c hc => isDigit_toLower (hdigits c hc)

theorem isEnvelopeId_digits (h : isEnvelopeId id = true) :
    id.length = 32 ∧ ∀ c ∈ id.toList, isLowerDigit c = true := by
  simpa [isEnvelopeId, isLowerDigit] using h

/-- Lower-case digits without dashes are their own normal form. -/
theorem normalizeId_self (h : isEnvelopeId id = true) : normalizeId id = id := by
  obtain ⟨-, hdigits⟩ := isEnvelopeId_digits h
  rw [← String.toList_inj, normalizeId_toList, List.filter_eq_self.mpr, List.map_congr_left,
    List.map_id']
  · exact fun c hc => isLowerDigit_toLower (hdigits c hc)
  · intro c hc
    simp only [ne_eq, decide_not, Bool.not_eq_true', decide_eq_false_iff_not]
    rintro rfl
    exact absurd (hdigits _ hc) (by decide)

theorem filter_lowerDigits {l : List Char} (h : ∀ c ∈ l, isLowerDigit c = true) :
    l.filter (fun c => c ≠ '-') = l :=
  filter_dash_self fun hc => absurd (h _ hc) (by decide)

/-- Putting dashes into 32 digits and taking them out again. -/
theorem filter_dashed {l : List Char} (h : ∀ c ∈ l, isLowerDigit c = true) (hl : l.length = 32) :
    (l.take 8 ++ '-' :: (l.drop 8).take 4 ++ '-' :: (l.drop 12).take 4 ++ '-' :: (l.drop 16).take 4 ++
      '-' :: (l.drop 20).take 12).filter (fun c => c ≠ '-') = l := by
  have part : ∀ m n, ((l.drop m).take n).filter (fun c => c ≠ '-') = (l.drop m).take n := fun m n =>
    filter_lowerDigits fun c hc => h c (List.mem_of_mem_drop (List.mem_of_mem_take hc))
  have first : (l.take 8).filter (fun c => c ≠ '-') = l.take 8 :=
    filter_lowerDigits fun c hc => h c (List.mem_of_mem_take hc)
  have dash : ∀ r : List Char,
      ('-' :: r).filter (fun c => c ≠ '-') = r.filter (fun c => c ≠ '-') := fun r => rfl
  have last : (l.drop 20).take 12 = l.drop 20 := List.take_of_length_le (by simp [hl])
  rw [List.filter_append, List.filter_append, List.filter_append, List.filter_append, dash, dash,
    dash, dash, part, part, part, part, first, last]
  have glue : ∀ m n, (l.drop m).take n ++ l.drop (m + n) = l.drop m := fun m n => by
    rw [← List.drop_drop, List.take_append_drop]
  calc l.take 8 ++ (l.drop 8).take 4 ++ (l.drop 12).take 4 ++ (l.drop 16).take 4 ++ l.drop 20
      = l.take 8 ++ ((l.drop 8).take 4 ++ ((l.drop 12).take 4 ++ ((l.drop 16).take 4 ++ l.drop 20))) := by
        simp only [List.append_assoc]
    _ = l.take 8 ++ l.drop 8 := by rw [glue 16 4, glue 12 4, glue 8 4]
    _ = l := List.take_append_drop 8 l

/-- The dashes that the relay puts in do not change the normal form. -/
theorem uuidOf_accepted (h : Accepted id) : uuidOf id = normalizeId id := by
  obtain ⟨-, hdigits, hshape⟩ := accepted_digits h
  unfold RelayQueue.uuidOf RelayQueue.uuidToHex RelayQueue.hexToUuid
  by_cases hdash : '-' ∈ id.toList
  · simp only [if_pos hdash]
  have plain : id.toList.filter (fun c => c ≠ '-') = id.toList := filter_dash_self hdash
  rw [plain] at hdigits
  have lower : ∀ c ∈ id.toList.map Char.toLower, isLowerDigit c = true := by
    intro c hc
    obtain ⟨x, hx, rfl⟩ := List.mem_map.mp hc
    exact isDigit_toLower (hdigits x hx)
  have size : (id.toList.map Char.toLower).length = 32 := by
    rw [List.length_map, String.length_toList]
    exact hshape.resolve_left hdash
  have dash : ('-').toLower = '-' := by decide
  simp only [if_neg hdash]
  rw [← String.toList_inj, normalizeId_toList, normalizeId_toList, String.toList_ofList, plain]
  simp only [List.map_append, List.map_cons, List.map_take, List.map_drop, dash]
  rw [filter_dashed lower size, List.map_map]
  refine List.map_congr_left fun c hc => ?_
  exact isLowerDigit_toLower (isDigit_toLower (hdigits c hc))

theorem uniform_android (h : Accepted id) : Uniform .android id := by
  have digits := uuidOf_accepted h
  have valid := accepted_isEnvelopeId h
  have self := normalizeId_self valid
  have canonical : Accepted (normalizeId id) := by
    obtain ⟨hlength, hdigits⟩ := isEnvelopeId_digits valid
    exact .inl ⟨hlength, List.all_eq_true.mpr fun c hc => isLowerDigit_isDigit (hdigits c hc)⟩
  have stable : uuidOf (normalizeId id) = normalizeId id := (uuidOf_accepted canonical).trans self
  have dashed : normalizeId (hexToUuid (normalizeId id)) = normalizeId id := stable
  refine ⟨⟨rfl, fun _ => valid⟩, ⟨?_, fun _ => ?_⟩, fun _ => ⟨?_, fun _ => ?_⟩, digits.symm, ?_,
    fun hrow => ?_⟩
  · rw [digits]
    exact self
  · rw [digits, self]
    exact valid
  · rw [digits]
    exact dashed
  · rw [digits, dashed]
    exact valid
  · rw [digits, stable]
  · -- The listener has let the id in, so its digits are in lower case.
    have lower := normalizeId_self (hrow rfl)
    have same : withoutDashes id = normalizeId id := by
      rw [← lower, ← String.toList_inj, normalizeId_toList, normalizeId_toList, withoutDashes,
        String.toList_ofList, List.filter_filter]
      simp
    simp [isRow, key, same]

theorem uniform_desktop (h : uuidOf id = id) : Uniform .desktop id where
  own := ⟨rfl, fun h => by cases h⟩
  pending := ⟨h, fun h => by cases h⟩
  dropbox h := by cases h
  digits := h.symm
  stable := by rw [h, h]
  row _ := beq_self_eq_true id

/-- A pushed copy commits, its acknowledgement is lost, and the relay lists other digits. -/
theorem desktop_again (h : uuidOf id ≠ id) : ¬Independent .desktop id := by
  intro hind
  have start : Reachable (system .desktop id) empty := reachable_initial rfl
  have sends : (system .desktop id).Enabled empty (.relay true) := trivial
  have sent := reachable_step start sends
  have passes : ∀ s l, (system .desktop id).Enabled s (.pass .hybrid l false false) :=
    fun _ _ => trivial
  have second := reachable_step (reachable_step sent (passes _ [true])) (passes _ [])
  have again := (hind _ second).1
  simp [system, next, batch, ownBatch, pendingIds, fetchesBlind, consume, handle, key, empty, taken,
    acknowledge, removeDirectAcks, h] at again

/-- An id as the phone mints it. -/
def minted : String := "3f2504e0-4f89-41d3-9a0c-0305e82c3301"

end Spelling

end EnvelopeSpelling
