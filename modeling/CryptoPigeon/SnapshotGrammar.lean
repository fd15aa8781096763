import CryptoPigeon.SnapshotCodec

/-! # What the decoder of snapshots accepts

Every part of the parser is shown, from any state, to leave small buffers and files of the stage
only; what it accepts is stated against a grammar of the bytes that it took. -/
namespace SnapshotCodec

open LoopPrograms
open JsonText (base64Value decodeBase64)
open StorageExport (isAttachmentName MAX_FILES)
open SevenOfSeven (Bytes Text)

/-! ## What the decoder may do -/

section Steps

/-- The two kinds of files of a stage. -/
def Confined (path : Text) : Prop :=
  path = databasePath ∨ ∃ name, isAttachmentName name = true ∧ path = attachmentPath name

/-- One name more than is allowed. -/
def mostHeld : Nat := MAX_FILES + 1

/-- Buffers stay small, and only files of the stage are written. -/
def Step (p p' : Parser) : Prop :=
  (p.held ≤ mostHeld → p'.held ≤ mostHeld) ∧
    ∃ ws, p'.log = ws ++ p.log ∧ ∀ w ∈ ws, Confined w.path

theorem Step.refl (p : Parser) : Step p p :=
  ⟨id, [], rfl, fun _ h => absurd h List.not_mem_nil⟩

theorem Step.trans (p q r : Parser) (h : Step p q) (h' : Step q r) : Step p r := by
  obtain ⟨hheld, ws, hlog, hws⟩ := h
  obtain ⟨hheld', ws', hlog', hws'⟩ := h'
  refine ⟨hheld' ∘ hheld, ws' ++ ws, ?_, fun w hw => ?_⟩
  · rw [hlog', hlog, List.append_assoc]
  · rcases List.mem_append.mp hw with h | h
    · exact hws' w h
    · exact hws w h

theorem Step.of_eq {p p' : Parser} (hheld : p'.held = p.held) (hlog : p'.log = p.log) :
    Step p p' :=
  ⟨fun h => hheld ▸ h, [], hlog, fun _ h => absurd h List.not_mem_nil⟩

/-- All runs of a part of the parser. -/
def Spec {α : Type} (x : Reading α) (q : α → Parser → Parser → Prop) : Prop :=
  Holds outOfRounds Step x q

variable {α β γ : Type} {x : Reading α} {q q' : α → Parser → Parser → Prop}

theorem Spec.mono (hx : Spec x q) (h : ∀ a p p', q a p p' → q' a p p') : Spec x q' :=
  Holds.mono hx h

theorem Spec.pure {a : α} (h : ∀ p, q a p p) : Spec (Pure.pure a) q := Holds.pure Step.refl h

theorem Spec.throw {e : String} (h : e ≠ outOfRounds) : Spec (throw e : Reading α) q :=
  Holds.throw Step.refl h

theorem Spec.bind (hx : Spec x q) {f : α → Reading β} {r : α → β → Parser → Parser → Prop}
    (hf : ∀ a, Spec (f a) (r a)) :
    Spec (x >>= f) fun b p p'' => ∃ a p', q a p p' ∧ r a b p' p'' :=
  Holds.bind Step.trans hx hf

/-- The same with what follows read off the first part. -/
theorem Spec.andThen (hx : Spec x q) {f : α → Reading β} {r : β → Parser → Parser → Prop}
    {s : α → β → Parser → Parser → Prop} (hf : ∀ a, Spec (f a) (s a))
    (h : ∀ a b p p' p'', q a p p' → s a b p' p'' → r b p p'') : Spec (x >>= f) r := by
  apply Spec.mono (Spec.bind hx hf)
  rintro b p p'' ⟨a, p', hq, hs⟩
  exact h a b p p' p'' hq hs

theorem Spec.repeatReading {body : β → Reading (β ⊕ γ)} {i : β → Prop}
    {r : β → γ → Parser → Parser → Prop}
    (hbody : ∀ b, i b → Spec (body b) fun next p p' =>
      match next with
      | .inl b' => i b' ∧ p'.unread.length < p.unread.length ∧
          ∀ c p'', r b' c p' p'' → r b c p p''
      | .inr c => r b c p p')
    {b : β} (hb : i b) : Spec (repeatReading body b) (r b) :=
  Holds.repeatLoop Step.trans hbody hb

end Steps

/-! ## What is read, and as what -/

section Grammar

def Space (w : Bytes) : Prop := w.all isSpace = true

/-- Four hexadecimal digits and their value. -/
def HexCode (code : Nat) (e : Bytes) : Prop :=
  ∃ a b c d w x y z, e = [a, b, c, d] ∧ hexDigit a = some w ∧ hexDigit b = some x ∧
    hexDigit c = some y ∧ hexDigit d = some z ∧ code = ((w * 16 + x) * 16 + y) * 16 + z

/-- The spellings of a character: its byte, a letter or four digits after a backslash. -/
inductive Spells : Nat → Bytes → Prop
  | plain {b : UInt8} (h : 32 ≤ b.toNat) (hslash : b ≠ 92) : Spells b.toNat [b]
  | letter {b : UInt8} {code : Nat} (h : escapeLetter b = some code) : Spells code [92, b]
  | digits {code : Nat} {e : Bytes} (h : HexCode code e) : Spells code (92 :: 117 :: e)

inductive Spelled : Text → Bytes → Prop
  | nil : Spelled [] []
  | cons {code : Nat} {e bs : Bytes} {t : Text} (h : Spells code e) (hquote : e.head? ≠ some 34)
      (ht : Spelled t bs) : Spelled (Char.ofNat code :: t) (e ++ bs)

def Quoted (t : Text) (bs : Bytes) : Prop :=
  ∃ w e, bs = w ++ 34 :: (e ++ [34]) ∧ Space w ∧ Spelled t e

/-- Members between braces, with commas between them. -/
inductive Members {α : Type} (member : α → Bytes → Prop) : Bool → List α → Bytes → Prop
  | nil {first : Bool} {w : Bytes} (hw : Space w) : Members member first [] w
  | cons {first : Bool} {w c bs rest : Bytes} {a : α} {as : List α} (hw : Space w)
      (hc : if first then c = [] else ∃ v, Space v ∧ c = v ++ [44]) (ha : member a bs)
      (has : Members member false as rest) : Members member first (a :: as) (w ++ c ++ bs ++ rest)

def Braced (members : Bytes → Prop) (bs : Bytes) : Prop :=
  ∃ w inner v, bs = w ++ 123 :: (inner ++ v ++ [125]) ∧ Space w ∧ members inner ∧ Space v

/-- A name, a colon and a value. -/
def Pair (name : Text) (value : Bytes → Prop) (bs : Bytes) : Prop :=
  ∃ n w v, bs = n ++ (w ++ [58]) ++ v ∧ Quoted name n ∧ Space w ∧ value v

inductive Field where
  | format (d : Decimal)
  | vmk (t : Text)
  | hkdfSalt (t : Text)
  | database (t : Text)
  | files (fs : List (Text × Text))
  deriving DecidableEq, Repr

def Field.key : Field → Text
  | .format _ => "format".toList
  | .vmk _ => "vmk".toList
  | .hkdfSalt _ => "hkdfSalt".toList
  | .database _ => "database".toList
  | .files _ => "files".toList

/-- The values that are accepted and how they are written. -/
def Field.Value : Field → Bytes → Prop
  | .format d, v => d.isOne = true ∧ ∃ w t : Bytes, v = w ++ t ∧ Space w ∧
      parseDecimal (t.map fun b => Char.ofNat b.toNat) = some d
  | .vmk t, v => Quoted t v ∧ ∃ x, decodeBase64 t = some x ∧ x.length = 32
  | .hkdfSalt t, v => Quoted t v ∧ ∃ x, decodeBase64 t = some x ∧ x.length = 16
  | .database t, v => Quoted t v ∧ (decodeBase64 t).isSome
  | .files fs, v => Braced (Members (fun (f : Text × Text) => Pair f.1 (Quoted f.2)) true fs) v ∧
      (fs.map Prod.fst).Nodup ∧ fs.length ≤ MAX_FILES ∧
      ∀ f ∈ fs, isAttachmentName f.1 = true ∧ (decodeBase64 f.2).isSome

/-- A field changes what is returned. -/
def Field.result : Field → Snapshot → Snapshot
  | .vmk t, r => { r with vmk := decodeBase64 t }
  | .hkdfSalt t, r => { r with salt := some t }
  | _, r => r

/-- The files of a member of `files`, and of a field; later ones first. -/
def fileOutput (f : Text × Text) : Text × Bytes := (attachmentPath f.1, (decodeBase64 f.2).getD [])

def Field.outputs : Field → List (Text × Bytes)
  | .database t => [(databasePath, (decodeBase64 t).getD [])]
  | .files fs => (fs.map fileOutput).reverse
  | _ => []

/-- The writes put these files there and touch no others. -/
def Leaves (out : List (Text × Bytes)) (p p' : Parser) : Prop :=
  ∀ path, content p'.log path = (out.lookup path).or (content p.log path)

/-- What is read between two states. -/
def Reads (bs : Bytes) (p p' : Parser) : Prop := p.unread = bs ++ p'.unread

theorem Reads.trans {a b : Bytes} {p q r : Parser} (h : Reads a p q) (h' : Reads b q r) :
    Reads (a ++ b) p r := by
  unfold Reads at h h' ⊢
  rw [h, h', List.append_assoc]

theorem Leaves.nil {p p' : Parser} (h : p'.log = p.log) : Leaves [] p p' := by
  intro path
  rw [h]
  rfl

theorem Leaves.trans {a b : List (Text × Bytes)} {p q r : Parser} (h : Leaves a p q)
    (h' : Leaves b q r) : Leaves (b ++ a) p r := by
  intro path
  rw [h' path, h path, List.lookup_append, Option.or_assoc]

theorem Space.append {v w : Bytes} (hv : Space v) (hw : Space w) : Space (v ++ w) := by
  unfold Space at hv hw ⊢
  rw [List.all_append, hv, hw]
  rfl

end Grammar

/-! ## Every part of the parser -/

section Parts

theorem peek_spec : Spec peek fun b p p' =>
    p'.unread = p.unread ∧ p'.log = p.log ∧ b = p.unread.head? ∧ p'.next = some b := by
  intro p
  obtain ⟨input, broken, next, total, held, log, ended⟩ := p
  cases next with
  | some value =>
    refine ⟨Step.refl _, rfl, rfl, ?_, rfl⟩
    cases value with
    | none =>
      have hinput : input = [] := ended rfl
      simp only [Parser.unread, hinput, List.head?_nil]
    | some b => rfl
  | none =>
    cases input with
    | nil =>
      by_cases hbroken : broken = true
      · simp only [peek, hbroken, if_true]
        exact ⟨Step.refl _, by decide⟩
      · simp only [peek, hbroken, Bool.false_eq_true, if_false]
        exact ⟨Step.of_eq rfl rfl, rfl, trivial, rfl, trivial⟩
    | cons b input =>
      by_cases htotal : MAX_PLAINTEXT < total + 1
      · simp only [peek, htotal, if_true]
        exact ⟨Step.of_eq rfl rfl, by decide⟩
      · simp only [peek, htotal, if_false]
        exact ⟨Step.of_eq rfl rfl, rfl, trivial, rfl, trivial⟩

theorem dropNext_spec : Spec dropNext fun _ p p' => p'.unread = p.input ∧ p'.log = p.log :=
  fun _ => ⟨Step.of_eq rfl rfl, rfl, rfl⟩

/-- Nothing is lost but the byte that was looked at. -/
theorem take_spec : Spec take fun b p p' =>
    Reads b.toList p p' ∧ p'.log = p.log ∧ b = p.unread.head? := by
  refine Spec.andThen peek_spec (fun b => Spec.bind dropNext_spec fun _ => Spec.pure
    (q := fun a p p' => a = b ∧ p' = p) fun p => ⟨rfl, rfl⟩) ?_
  rintro b c p p' p'' ⟨hunread, hlog, hhead, hnext⟩ ⟨-, q, ⟨hinput, hlog'⟩, rfl, rfl⟩
  refine ⟨?_, hlog'.trans hlog, hhead⟩
  unfold Reads
  rw [← hunread, hinput]
  unfold Parser.unread
  rw [hnext]
  cases c <;> rfl

theorem hold_spec {n : Nat} (h : n ≤ mostHeld) :
    Spec (hold n) fun _ p p' => p'.unread = p.unread ∧ p'.log = p.log := by
  intro p
  refine ⟨⟨fun hheld => Nat.max_le.mpr ⟨hheld, h⟩, [], rfl, ?_⟩, rfl, rfl⟩
  exact fun _ hw => absurd hw List.not_mem_nil

theorem write_spec {w : Write} (h : Confined w.path) :
    Spec (write w) fun _ p p' => p'.unread = p.unread ∧ p'.log = w :: p.log := by
  intro p
  refine ⟨⟨id, [w], rfl, fun v hv => ?_⟩, rfl, rfl⟩
  rw [List.mem_singleton.mp hv]
  exact h

theorem peekNonSpace_spec : Spec peekNonSpace fun b p p' =>
    ∃ w, Reads w p p' ∧ Space w ∧ p'.log = p.log ∧ b = p'.unread.head? ∧
      b.any isSpace = false := by
  refine Spec.repeatReading (i := fun _ => True) (r := fun _ b p p' =>
    ∃ w, Reads w p p' ∧ Space w ∧ p'.log = p.log ∧ b = p'.unread.head? ∧
      b.any isSpace = false) (fun _ _ => ?_) trivial
  refine Spec.andThen peek_spec (s := fun b next p p' =>
    match next with
    | .inl _ => b.any isSpace = true ∧ Reads p.unread.head?.toList p p' ∧ p'.log = p.log
    | .inr c => c = b ∧ b.any isSpace = false ∧ p' = p) (fun b => ?_) ?_
  · split
    · rename_i hspace
      refine Spec.andThen take_spec (fun _ => Spec.pure (q := fun a p p' => a = .inl () ∧ p' = p)
        fun p => ⟨rfl, rfl⟩) ?_
      rintro c next p p' p'' ⟨hreads, hlog, rfl⟩ ⟨rfl, rfl⟩
      exact ⟨hspace, hreads, hlog⟩
    · rename_i hspace
      exact Spec.pure fun p => ⟨rfl, Bool.eq_false_iff.mpr hspace, rfl⟩
  · rintro b next p p' p'' ⟨hunread, hlog, hhead, -⟩ h
    cases next with
    | inl _ =>
      obtain ⟨hspace, hreads, hlog'⟩ := h
      obtain ⟨v, rfl⟩ : ∃ v, b = some v := by
        cases b with
        | none => cases hspace
        | some v => exact ⟨v, rfl⟩
      rw [hunread, ← hhead] at hreads
      have hv : Reads [v] p p'' := by
        unfold Reads at hreads ⊢
        rw [← hunread, hreads]
        rfl
      refine ⟨trivial, ?_, ?_⟩
      · rw [hv]
        exact Nat.lt_succ_self _
      · rintro c q ⟨w, hw, hws, hlog'', hc, hcs⟩
        refine ⟨v :: w, hv.trans hw, ?_, by rw [hlog'', hlog', hlog], hc, hcs⟩
        unfold Space at hws ⊢
        rw [List.all_cons, hws, Bool.and_true]
        exact hspace
    | inr c =>
      obtain ⟨rfl, hspace, rfl⟩ := h
      exact ⟨[], hunread.symm, rfl, hlog, by rw [hunread, hhead], hspace⟩

/-- White space and the byte. -/
theorem expect_spec (c : UInt8) : Spec (expect c) fun _ p p' =>
    ∃ w, Reads (w ++ [c]) p p' ∧ Space w ∧ p'.log = p.log := by
  refine Spec.andThen peekNonSpace_spec (s := fun b _ p p' =>
    b = some c ∧ Reads p.unread.head?.toList p p' ∧ p'.log = p.log) (fun b => ?_) ?_
  · split
    · exact Spec.throw (by decide)
    · rename_i hb
      refine Spec.andThen take_spec (fun _ => Spec.pure (q := fun _ p p' => p' = p)
        fun p => rfl) ?_
      rintro d _ p p' p'' ⟨hreads, hlog, rfl⟩ rfl
      exact ⟨not_not.mp hb, hreads, hlog⟩
  · rintro b _ p p' p'' ⟨w, hw, hws, hlog, hhead, -⟩ ⟨rfl, hreads, hlog'⟩
    rw [← hhead] at hreads
    exact ⟨w, hw.trans hreads, hws, hlog'.trans hlog⟩

theorem comma_spec (first : Bool) : Spec (comma first) fun _ p p' =>
    ∃ c, Reads c p p' ∧ (if first then c = [] else ∃ v, Space v ∧ c = v ++ [44]) ∧
      p'.log = p.log := by
  cases first with
  | true => exact Spec.pure fun p => ⟨[], rfl, rfl, rfl⟩
  | false =>
    apply Spec.mono (expect_spec 44)
    rintro _ p p' ⟨w, hreads, hw, hlog⟩
    exact ⟨w ++ [44], hreads, ⟨w, hw, rfl⟩, hlog⟩

/-- A byte that is there and is a digit. -/
theorem escapedCode_spec (n code : Nat) : Spec (escapedCode n code) fun c p p' =>
    ∃ ds : List (UInt8 × Nat), ds.length = n ∧ Reads (ds.map Prod.fst) p p' ∧
      (∀ d ∈ ds, hexDigit d.1 = some d.2) ∧
      c = ds.foldl (fun code d => code * 16 + d.2) code ∧ p'.log = p.log := by
  induction n generalizing code with
  | zero => exact Spec.pure fun p => ⟨[], rfl, rfl, fun _ h => absurd h List.not_mem_nil, rfl, rfl⟩
  | succ n ih =>
    refine Spec.andThen take_spec (s := fun b c p p' => ∃ d ds, b.bind hexDigit = some d ∧
      List.length ds = n ∧ Reads (ds.map Prod.fst) p p' ∧
      (∀ d ∈ ds, hexDigit d.1 = some d.2) ∧
      c = ds.foldl (fun code d => code * 16 + d.2) (code * 16 + d) ∧ p'.log = p.log)
      (fun b => ?_) ?_
    · cases hdigit : b.bind hexDigit with
      | none => exact Spec.throw (by decide)
      | some d =>
        apply Spec.mono (ih (code * 16 + d))
        rintro c p p' ⟨ds, hlen, hreads, hds, hc, hlog⟩
        exact ⟨d, ds, rfl, hlen, hreads, hds, hc, hlog⟩
    · rintro b c p p' p'' ⟨hreads, hlog, -⟩ ⟨d, ds, hdigit, hlen, hreads', hds, hc, hlog'⟩
      obtain ⟨v, rfl, hv⟩ := Option.bind_eq_some_iff.mp hdigit
      refine ⟨(v, d) :: ds, by rw [List.length_cons, hlen], hreads.trans hreads', ?_, hc,
        hlog'.trans hlog⟩
      intro e he
      rcases List.mem_cons.mp he with rfl | he
      · exact hv
      · exact hds e he

theorem hexCode_spec : Spec (escapedCode 4 0) fun code p p' =>
    ∃ e, HexCode code e ∧ Reads e p p' ∧ p'.log = p.log := by
  apply Spec.mono (escapedCode_spec 4 0)
  rintro code p p' ⟨ds, hlen, hreads, hds, hcode, hlog⟩
  obtain ⟨a, b, c, d, rfl⟩ := List.length_eq_four.mp hlen
  refine ⟨_, ⟨a.1, b.1, c.1, d.1, a.2, b.2, c.2, d.2, rfl, hds a (by simp), hds b (by simp),
    hds c (by simp), hds d (by simp), ?_⟩, hreads, hlog⟩
  simp only [hcode, List.foldl_cons, List.foldl_nil, Nat.zero_mul, Nat.zero_add]

/-- Reading goes on where the byte before it was taken. -/
theorem reads_cons {b : UInt8} {e : Bytes} {p q r : Parser} (h : Reads [b] p q)
    (h' : Reads e q r) : Reads (b :: e) p r := h.trans h'

theorem escaped_spec : Spec (do
    let escaped ← take
    match escaped with
    | none => throw "invalid_snapshot_escape"
    | some e =>
      if e = 117 then escapedCode 4 0
      else
        match escapeLetter e with
        | none => throw "invalid_snapshot_escape"
        | some code => return code) fun code p p' =>
    ∃ e, Spells code (92 :: e) ∧ Reads e p p' ∧ p'.log = p.log := by
  refine Spec.andThen take_spec (s := fun b code p p' => ∃ v e, b = some v ∧
    Spells code (92 :: v :: e) ∧ Reads e p p' ∧ p'.log = p.log) (fun b => ?_) ?_
  · cases b with
    | none => exact Spec.throw (by decide)
    | some v =>
      by_cases hu : v = 117
      · simp only [hu, if_true]
        apply Spec.mono hexCode_spec
        rintro code p p' ⟨e, hcode, hreads, hlog⟩
        exact ⟨117, e, rfl, .digits hcode, hreads, hlog⟩
      · simp only [hu, if_false]
        cases hletter : escapeLetter v with
        | none => exact Spec.throw (by decide)
        | some code => exact Spec.pure fun p => ⟨v, [], rfl, .letter hletter, rfl, rfl⟩
  · rintro b code p p' p'' ⟨hreads, hlog, -⟩ ⟨v, e, rfl, hcode, hreads', hlog'⟩
    exact ⟨v :: e, hcode, reads_cons hreads hreads', hlog'.trans hlog⟩

/-- One character in one of its spellings, whose first byte is the one ahead. -/
theorem character_spec : Spec character fun code p p' =>
    ∃ e, Spells code e ∧ Reads e p p' ∧ p'.log = p.log ∧ e.head? = p.unread.head? ∧
      p'.unread.length < p.unread.length := by
  refine Spec.andThen take_spec (s := fun b code p p' => ∃ v e, b = some v ∧
    Spells code (v :: e) ∧ Reads e p p' ∧ p'.log = p.log) (fun b => ?_) ?_
  · cases b with
    | none => exact Spec.throw (by decide)
    | some v =>
      dsimp only
      by_cases hlow : v.toNat < 32
      · simp only [hlow, if_true]
        exact Spec.throw (by decide)
      · simp only [hlow, if_false]
        by_cases hslash : v = 92
        · simp only [hslash, if_true]
          apply Spec.mono escaped_spec
          rintro code p p' ⟨e, hcode, hreads, hlog⟩
          exact ⟨92, e, rfl, hcode, hreads, hlog⟩
        · simp only [hslash, if_false]
          exact Spec.pure fun p =>
            ⟨v, [], rfl, .plain (Nat.not_lt.mp hlow) hslash, rfl, rfl⟩
  · rintro b code p p' p'' ⟨hreads, hlog, hhead⟩ ⟨v, e, rfl, hcode, hreads', hlog'⟩
    have hboth := reads_cons hreads hreads'
    refine ⟨v :: e, hcode, hboth, hlog'.trans hlog, hhead, ?_⟩
    rw [hboth, List.length_append, List.length_cons]
    omega

/-- The rest of a loop that stops at a quote. -/
def UpToQuote (t : Text) (p p' : Parser) : Prop :=
  ∃ bs, Reads bs p p' ∧ Spelled t bs ∧ p'.log = p.log ∧ p'.unread.head? = some 34

theorem UpToQuote.cons {code : Nat} {e : Bytes} {t : Text} {p q r : Parser}
    (hcode : Spells code e) (hreads : Reads e p q) (hlog : q.log = p.log)
    (hhead : e.head? = p.unread.head?) (hquote : p.unread.head? ≠ some 34)
    (h : UpToQuote t q r) : UpToQuote (Char.ofNat code :: t) p r := by
  obtain ⟨bs, hreads', ht, hlog', hend⟩ := h
  exact ⟨e ++ bs, hreads.trans hreads', .cons hcode (hhead ▸ hquote) ht, hlog'.trans hlog, hend⟩

theorem quote_closed {b : Option UInt8} {p q : Parser} (hreads : Reads b.toList p q)
    (hb : b = p.unread.head?) (hend : p.unread.head? = some 34) : Reads [34] p q := by
  rw [hb, hend] at hreads
  exact hreads

theorem string_spec {limit : Nat} (hlimit : limit ≤ mostHeld) :
    Spec (string limit) fun t p p' => ∃ bs, Quoted t bs ∧ Reads bs p p' ∧ p'.log = p.log := by
  have hloop (value : Text) : Spec (repeatReading (stringRound limit) value) fun final p p' =>
      ∃ t, final = value ++ t ∧ UpToQuote t p p' := by
    refine Spec.repeatReading (i := fun _ => True)
      (r := fun value final p p' => ∃ t, final = value ++ t ∧ UpToQuote t p p')
      (fun value _ => ?_) trivial
    refine Spec.andThen peek_spec (s := fun b next p p' =>
      match next with
      | .inl value' => b ≠ some 34 ∧ ∃ code e, value' = value ++ [Char.ofNat code] ∧
          Spells code e ∧ Reads e p p' ∧ p'.log = p.log ∧ e.head? = p.unread.head? ∧
          p'.unread.length < p.unread.length
      | .inr final => b = some 34 ∧ final = value ∧ p' = p) (fun b => ?_) ?_
    · by_cases hquote : b = some 34
      · rw [if_pos hquote]
        exact Spec.pure fun p => ⟨hquote, rfl, rfl⟩
      · rw [if_neg hquote]
        refine Spec.andThen character_spec (s := fun code next p p' =>
          next = .inl (value ++ [Char.ofNat code]) ∧ p'.unread = p.unread ∧ p'.log = p.log)
          (fun code => ?_) ?_
        · by_cases hbad : 127 < code ∨ limit ≤ value.length
          · rw [if_pos hbad]
            exact Spec.throw (by decide)
          · rw [if_neg hbad]
            rw [not_or, Nat.not_le] at hbad
            refine Spec.andThen (hold_spec (n := value.length + 1) (by omega)) (fun _ => Spec.pure
              (q := fun a p p' => a = .inl (value ++ [Char.ofNat code]) ∧ p' = p)
              fun p => ⟨rfl, rfl⟩) ?_
            rintro _ next p p' p'' ⟨hunread, hlog⟩ ⟨rfl, rfl⟩
            exact ⟨rfl, hunread, hlog⟩
        · rintro code next p p' p'' ⟨e, hcode, hreads, hlog, hhead, hless⟩ ⟨rfl, hunread, hlog'⟩
          refine ⟨hquote, code, e, rfl, hcode, ?_, hlog'.trans hlog, hhead, by rwa [hunread]⟩
          unfold Reads at hreads ⊢
          rw [hreads, hunread]
    · rintro b next p p' p'' ⟨hunread, hlog, hhead, -⟩ h
      cases next with
      | inl value' =>
        obtain ⟨hquote, code, e, rfl, hcode, hreads, hlog', hhead', hless⟩ := h
        have hreads' : Reads e p p'' := by
          unfold Reads at hreads ⊢
          rw [← hunread, hreads]
        refine ⟨trivial, by rwa [← hunread], ?_⟩
        rintro final q ⟨t, rfl, ht⟩
        refine ⟨Char.ofNat code :: t, by rw [List.append_assoc, List.singleton_append], ?_⟩
        exact ht.cons hcode hreads' (hlog'.trans hlog) (hunread ▸ hhead') (hhead ▸ hquote)
      | inr final =>
        obtain ⟨rfl, rfl, rfl⟩ := h
        exact ⟨[], by rw [List.append_nil], [], hunread.symm, .nil, hlog, by rw [hunread, hhead]⟩
  refine Spec.andThen (expect_spec 34) (fun _ => Spec.bind (hloop []) fun value =>
    Spec.bind take_spec fun _ => Spec.pure (q := fun a p p' => a = value ∧ p' = p)
      fun p => ⟨rfl, rfl⟩) ?_
  rintro _ t p p' q ⟨w, hopen, hw, hlog⟩
    ⟨value, q₁, ⟨t', rfl, e, hreads, ht, hlog₁, hend⟩, b, q₂, ⟨hclose, hlog₂, hb⟩, rfl, rfl⟩
  refine ⟨w ++ 34 :: (e ++ [34]), ⟨w, e, rfl, hw, ht⟩, ?_,
    hlog₂.trans (hlog₁.trans hlog)⟩
  have hall := (hopen.trans hreads).trans (quote_closed hclose hb hend)
  simpa only [List.append_assoc, List.singleton_append, List.cons_append, List.nil_append]
    using hall

theorem number_spec : Spec number fun d p p' =>
    ∃ w t : Bytes, Space w ∧ parseDecimal (t.map fun b => Char.ofNat b.toNat) = some d ∧
      Reads (w ++ t) p p' ∧ p'.log = p.log := by
  have hloop (text : Text) : Spec (repeatReading numberRound text) fun final p p' =>
      ∃ t : Bytes, final = text ++ t.map (fun b => Char.ofNat b.toNat) ∧ Reads t p p' ∧
        p'.log = p.log := by
    refine Spec.repeatReading (i := fun _ => True) (r := fun text final p p' =>
      ∃ t : Bytes, final = text ++ t.map (fun b => Char.ofNat b.toNat) ∧ Reads t p p' ∧
        p'.log = p.log) (fun text _ => ?_) trivial
    refine Spec.andThen peek_spec (s := fun b next p p' =>
      match next with
      | .inl text' => ∃ v, b = some v ∧ text' = text ++ [Char.ofNat v.toNat] ∧
          Reads p.unread.head?.toList p p' ∧ p'.log = p.log
      | .inr final => final = text ∧ p' = p) (fun b => ?_) ?_
    · cases b with
      | none => exact Spec.pure fun p => ⟨rfl, rfl⟩
      | some v =>
        dsimp only
        by_cases hends : endsNumber v = true
        · rw [if_pos hends]
          exact Spec.pure fun p => ⟨rfl, rfl⟩
        · rw [if_neg hends]
          by_cases hlong : 32 ≤ text.length
          · rw [if_pos hlong]
            exact Spec.throw (by decide)
          · rw [if_neg hlong]
            have hheld : text.length + 1 ≤ mostHeld := by
              have : mostHeld = 10001 := rfl
              omega
            refine Spec.andThen take_spec (fun _ => Spec.bind (hold_spec hheld) fun _ =>
              Spec.pure (q := fun a p p' => a = .inl (text ++ [Char.ofNat v.toNat]) ∧ p' = p)
                fun p => ⟨rfl, rfl⟩) ?_
            rintro c next p p' p'' ⟨hreads, hlog, rfl⟩ ⟨-, q, ⟨hunread, hlog'⟩, rfl, rfl⟩
            refine ⟨v, rfl, rfl, ?_, hlog'.trans hlog⟩
            unfold Reads at hreads ⊢
            rw [hunread]
            exact hreads
    · rintro b next p p' p'' ⟨hunread, hlog, hhead, -⟩ h
      cases next with
      | inl text' =>
        obtain ⟨v, rfl, rfl, hreads, hlog'⟩ := h
        rw [hunread, ← hhead] at hreads
        have hv : Reads [v] p p'' := by
          unfold Reads at hreads ⊢
          rw [← hunread, hreads]
          rfl
        refine ⟨trivial, by rw [hv]; exact Nat.lt_succ_self _, ?_⟩
        rintro final q ⟨t, rfl, ht, hlog''⟩
        refine ⟨v :: t, ?_, hv.trans ht, hlog''.trans (hlog'.trans hlog)⟩
        rw [List.append_assoc, List.singleton_append, List.map_cons]
      | inr final =>
        obtain ⟨rfl, rfl⟩ := h
        exact ⟨[], by rw [List.map_nil, List.append_nil], hunread.symm, hlog⟩
  refine Spec.andThen peekNonSpace_spec (fun _ => Spec.bind (hloop []) fun text =>
    (?_ : Spec _ fun d p p' => parseDecimal text = some d ∧ p' = p)) ?_
  · cases hparsed : parseDecimal text with
    | none => exact Spec.throw (by decide)
    | some d => exact Spec.pure fun p => ⟨rfl, rfl⟩
  · rintro _ d p p' q ⟨w, hreads, hw, hlog, -, -⟩ ⟨text, q', ⟨t, rfl, ht, hlog'⟩, hd, rfl⟩
    exact ⟨w, t, hw, hd, hreads.trans ht, hlog'.trans hlog⟩

theorem writeDecoded_spec {path : Text} (hpath : Confined path) (encoded : Text) :
    Spec (writeDecoded path encoded) fun _ p p' => ∃ bytes, decodeBase64 encoded = some bytes ∧
      p'.unread = p.unread ∧ p'.log = .append path bytes :: p.log := by
  unfold writeDecoded
  cases hdecoded : decodeBase64 encoded with
  | none => exact Spec.throw (by decide)
  | some bytes =>
    apply Spec.mono (write_spec (w := .append path bytes) hpath)
    rintro _ p p' ⟨hunread, hlog⟩
    exact ⟨bytes, rfl, hunread, hlog⟩

end Parts

/-! ## Base64 in blocks -/

section Blocks

theorem sextetBytes_append (a b : List Nat) (ha : a.length % 4 = 0) :
    JsonText.sextetBytes (a ++ b) = JsonText.sextetBytes a ++ JsonText.sextetBytes b := by
  induction a using JsonText.sextetBytes.induct with
  | case1 w x y z r ih =>
    have hr : r.length % 4 = 0 := by
      simp only [List.length_cons] at ha
      omega
    simp only [List.cons_append, JsonText.sextetBytes, ih hr]
  | case2 => simp at ha
  | case3 => simp at ha
  | case4 r h₄ h₃ h₂ =>
    rcases r with _ | ⟨w, _ | ⟨x, _ | ⟨y, _ | ⟨z, r⟩⟩⟩⟩
    · rfl
    · simp at ha
    · exact absurd rfl (h₂ w x)
    · exact absurd rfl (h₃ w x y)
    · exact absurd rfl (h₄ w x y z r)

theorem length_of_mapM {α β : Type} {f : α → Option β} {l : List α} {l' : List β}
    (h : l.mapM f = some l') : l'.length = l.length := by
  induction l generalizing l' with
  | nil =>
    cases h
    rfl
  | cons a l ih =>
    rw [List.mapM_cons] at h
    obtain ⟨b, -, h⟩ := Option.bind_eq_some_iff.mp h
    obtain ⟨bs, hbs, h⟩ := Option.bind_eq_some_iff.mp h
    cases h
    rw [List.length_cons, List.length_cons, ih hbs]

/-- Whole groups of digits in front are decoded by themselves. -/
theorem decodeBase64_append {a b : Text} {x y : Bytes} (hlen : a.length % 4 = 0)
    (hpad : '=' ∉ a) (ha : decodeBase64 a = some x) (hb : decodeBase64 b = some y) :
    decodeBase64 (a ++ b) = some (x ++ y) := by
  have hall : ∀ c ∈ a, (c != '=') = true := fun c hc =>
    bne_iff_ne.mpr fun heq => hpad (heq ▸ hc)
  have htake : (a ++ b).takeWhile (· != '=') = a ++ b.takeWhile (· != '=') :=
    List.takeWhile_append_of_pos hall
  have htake' : a.takeWhile (· != '=') = a := List.takeWhile_eq_self_iff.mpr hall
  have hmod : (a.length + (b.takeWhile (· != '=')).length) % 4 =
      (b.takeWhile (· != '=')).length % 4 := by omega
  have hdrop : (a ++ b).drop (a.length + (b.takeWhile (· != '=')).length) =
      b.drop (b.takeWhile (· != '=')).length :=
    List.drop_length_add_append _
  unfold decodeBase64 at ha hb ⊢
  simp only [htake', List.drop_length] at ha
  simp only [htake, hdrop, List.length_append, hmod]
  simp only at hb
  split at hb
  · rename_i hpadding
    rw [if_pos hpadding]
    split at ha
    · obtain ⟨ds, hds, rfl⟩ := Option.map_eq_some_iff.mp ha
      obtain ⟨es, hes, rfl⟩ := Option.map_eq_some_iff.mp hb
      have hlength : ds.length = a.length := length_of_mapM hds
      rw [List.mapM_append, hds, hes]
      simp only [Option.bind_eq_bind, Option.bind_some, Option.pure_def, Option.map_some]
      rw [sextetBytes_append ds es (by omega)]
    · cases ha
  · cases hb

/-- The blocks that are decoded one after the other. -/
def appended (path : Text) (xs : List Bytes) (log : List Write) : List Write :=
  xs.foldl (fun log x => .append path x :: log) log

theorem content_appended (path q : Text) (xs : List Bytes) (log : List Write) :
    content (appended path xs log) q =
      if path = q then (content log q).map (· ++ xs.flatten) else content log q := by
  induction xs generalizing log with
  | nil =>
    show content log q = _
    split
    · simp only [List.flatten_nil, List.append_nil, Option.map_id']
    · rfl
  | cons x xs ih =>
    show content (appended path xs (.append path x :: log)) q = _
    rw [ih]
    by_cases hq : path = q
    · rw [if_pos hq, if_pos hq, content, if_pos hq, Option.map_map]
      congr 1
      funext old
      simp only [Function.comp_apply, List.flatten_cons, List.append_assoc]
    · rw [if_neg hq, if_neg hq, content, if_neg hq]

/-- What is still read of a base64 string when `encoded` waits to be decoded, until `final` is
left. -/
def Blocks (path encoded final : Text) (p p' : Parser) : Prop :=
  ∃ t bs xs, Reads bs p p' ∧ Spelled t bs ∧ p'.unread.head? = some 34 ∧
    p'.log = appended path xs p.log ∧
    (p.unread.head? = some 34 → t = [] ∧ final = encoded ∧ xs = []) ∧
    ∀ y, decodeBase64 final = some y → decodeBase64 (encoded ++ t) = some (xs.flatten ++ y)

theorem Blocks.done {path encoded : Text} {p : Parser} (h : p.unread.head? = some 34) :
    Blocks path encoded encoded p p := by
  refine ⟨[], [], [], rfl, .nil, h, rfl, fun _ => ⟨rfl, rfl, rfl⟩, fun y hy => ?_⟩
  rw [List.append_nil]
  exact hy

variable {path encoded final : Text} {code : Nat} {e : Bytes} {p q r : Parser}

theorem Blocks.cons (hcode : Spells code e) (hreads : Reads e p q)
    (hhead : e.head? = p.unread.head?) (hquote : p.unread.head? ≠ some 34) (hlog : q.log = p.log)
    (h : Blocks path (encoded ++ [Char.ofNat code]) final q r) : Blocks path encoded final p r := by
  obtain ⟨t, bs, xs, hreads', ht, hend, hlog', -, hdecode⟩ := h
  refine ⟨Char.ofNat code :: t, e ++ bs, xs, hreads.trans hreads',
    .cons hcode (hhead ▸ hquote) ht, hend, by rw [hlog', hlog], fun h => absurd h hquote, ?_⟩
  intro y hy
  have hall := hdecode y hy
  rwa [List.append_assoc, List.singleton_append] at hall

/-- A full block is decoded; with padding in it it was the last. -/
theorem Blocks.flush {x : Bytes} (hcode : Spells code e) (hreads : Reads e p q)
    (hhead : e.head? = p.unread.head?) (hquote : p.unread.head? ≠ some 34)
    (hlog : q.log = .append path x :: p.log)
    (hlen : (encoded ++ [Char.ofNat code]).length % 4 = 0)
    (hx : decodeBase64 (encoded ++ [Char.ofNat code]) = some x)
    (hpad : '=' ∉ encoded ++ [Char.ofNat code] ∨ q.unread.head? = some 34)
    (h : Blocks path [] final q r) : Blocks path encoded final p r := by
  obtain ⟨t, bs, xs, hreads', ht, hend, hlog', hnow, hdecode⟩ := h
  refine ⟨Char.ofNat code :: t, e ++ bs, x :: xs, hreads.trans hreads',
    .cons hcode (hhead ▸ hquote) ht, hend, by rw [hlog', hlog]; rfl,
    fun h => absurd h hquote, ?_⟩
  intro y hy
  have hrest := hdecode y hy
  have hshape : encoded ++ Char.ofNat code :: t = (encoded ++ [Char.ofNat code]) ++ t := by
    rw [List.append_assoc, List.singleton_append]
  rw [hshape, List.flatten_cons, List.append_assoc x]
  rcases hpad with hplain | hlast
  · exact decodeBase64_append hlen hplain hx hrest
  · obtain ⟨rfl, rfl, rfl⟩ := hnow hlast
    have hy' : y = [] := by
      have hnil : decodeBase64 [] = some [] := by decide
      rw [hnil] at hy
      exact (Option.some.inj hy).symm
    rw [hy', List.append_nil, hx, List.flatten_nil, List.append_nil, List.append_nil]

theorem ofNat_ne_pad (h : isBase64Code code = true) (hpad : code ≠ 61) :
    Char.ofNat code ≠ '=' := by
  have hlt : code < 128 := by
    simp only [isBase64Code, Bool.or_eq_true, Bool.and_eq_true, decide_eq_true_eq,
      beq_iff_eq] at h
    omega
  intro heq
  have hnat := congrArg Char.toNat heq
  rw [Char.toNat_ofNat, if_pos (Or.inl (by omega))] at hnat
  exact hpad hnat

/-- A character of a block, which is kept or fills it. -/
theorem parseBase64_round (hpath : Confined path) {padded : Bool}
    (hlen : encoded.length < blockLength) (hplain : padded = false → '=' ∉ encoded) :
    Spec (do
      let code ← character
      if !isBase64Code code || (padded && code != 61) then throw "invalid_snapshot_base64"
      else do
        let padded := padded || code == 61
        let encoded := encoded ++ [Char.ofNat code]
        hold encoded.length
        if encoded.length = blockLength then do
          if padded then do
            let b ← peek
            if b ≠ some 34 then throw "invalid_snapshot_base64"
            else do
              writeDecoded path encoded
              return .inl ([], padded)
          else do
            writeDecoded path encoded
            return .inl ([], padded)
        else return .inl (encoded, padded)) fun (next : (Text × Bool) ⊕ Text) p p' =>
      p.unread.head? ≠ some 34 → match next with
      | .inl b' => (b'.1.length < blockLength ∧ (b'.2 = false → '=' ∉ b'.1)) ∧
          p'.unread.length < p.unread.length ∧
          ∀ final q, Blocks path b'.1 final p' q → Blocks path encoded final p q
      | .inr _ => False := by
  refine Spec.andThen character_spec (s := fun code next p p' =>
    match next with
    | .inl b' => (b'.1.length < blockLength ∧ (b'.2 = false → '=' ∉ b'.1)) ∧
        p'.unread = p.unread ∧
        (b' = (encoded ++ [Char.ofNat code], b'.2) ∧ p'.log = p.log ∨
          b'.1 = [] ∧ (encoded ++ [Char.ofNat code]).length % 4 = 0 ∧
            ('=' ∉ encoded ++ [Char.ofNat code] ∨ p.unread.head? = some 34) ∧
            ∃ x, decodeBase64 (encoded ++ [Char.ofNat code]) = some x ∧
              p'.log = .append path x :: p.log)
    | .inr _ => False) (fun code => ?_) ?_
  · by_cases hbad : (!isBase64Code code || (padded && code != 61)) = true
    · rw [if_pos hbad]
      exact Spec.throw (by decide)
    rw [if_neg hbad]
    rw [Bool.or_eq_true, not_or, Bool.not_eq_true', Bool.not_eq_false] at hbad
    have hnext : (padded || code == 61) = false → '=' ∉ encoded ++ [Char.ofNat code] := by
      intro hunpadded hmem
      rw [Bool.or_eq_false_iff, beq_eq_false_iff_ne] at hunpadded
      rcases List.mem_append.mp hmem with h | h
      · exact hplain hunpadded.1 h
      · exact ofNat_ne_pad hbad.1 hunpadded.2 (List.mem_singleton.mp h).symm
    have hlength : (encoded ++ [Char.ofNat code]).length = encoded.length + 1 := by
      rw [List.length_append, List.length_singleton]
    have hheld : (encoded ++ [Char.ofNat code]).length ≤ mostHeld := by
      have hmost : mostHeld = 10001 := rfl
      have hblock : blockLength = 8192 := rfl
      omega
    refine Spec.andThen (hold_spec hheld) (s := fun _ next p p' =>
      match next with
      | .inl b' => (b'.1.length < blockLength ∧ (b'.2 = false → '=' ∉ b'.1)) ∧
          p'.unread = p.unread ∧
          (b' = (encoded ++ [Char.ofNat code], b'.2) ∧ p'.log = p.log ∨
            b'.1 = [] ∧ (encoded ++ [Char.ofNat code]).length % 4 = 0 ∧
              ('=' ∉ encoded ++ [Char.ofNat code] ∨ p.unread.head? = some 34) ∧
              ∃ x, decodeBase64 (encoded ++ [Char.ofNat code]) = some x ∧
                p'.log = .append path x :: p.log)
      | .inr _ => False) (fun _ => ?_) ?_
    · by_cases hfull : (encoded ++ [Char.ofNat code]).length = blockLength
      · rw [if_pos hfull]
        have hgroups : (encoded ++ [Char.ofNat code]).length % 4 = 0 := by
          rw [hfull]
          rfl
        have hempty : ([] : Text).length < blockLength ∧
            ((padded || code == 61) = false → '=' ∉ ([] : Text)) :=
          ⟨by decide, fun _ => List.not_mem_nil⟩
        by_cases hpadded : (padded || code == 61) = true
        · rw [if_pos hpadded]
          refine Spec.andThen peek_spec (s := fun b next p p' => b = some 34 ∧
            next = .inl ([], padded || code == 61) ∧ ∃ x,
              decodeBase64 (encoded ++ [Char.ofNat code]) = some x ∧ p'.unread = p.unread ∧
              p'.log = .append path x :: p.log) (fun b => ?_) ?_
          · by_cases hb : b ≠ some 34
            · rw [if_pos hb]
              exact Spec.throw (by decide)
            · rw [if_neg hb]
              refine Spec.andThen (writeDecoded_spec hpath _) (fun _ => Spec.pure
                (q := fun a p p' => a = .inl ([], padded || code == 61) ∧ p' = p)
                fun p => ⟨rfl, rfl⟩) ?_
              rintro _ next p p' p'' ⟨x, hx, hunread, hlog⟩ ⟨rfl, rfl⟩
              exact ⟨not_not.mp hb, rfl, x, hx, hunread, hlog⟩
          · rintro b next p p' p'' ⟨hunread, hlog, hhead, -⟩ ⟨rfl, rfl, x, hx, hunread', hlog'⟩
            refine ⟨hempty, hunread'.trans hunread, .inr ⟨rfl, hgroups, .inr hhead.symm, x, hx, ?_⟩⟩
            rw [hlog', hlog]
        · rw [if_neg hpadded]
          refine Spec.andThen (writeDecoded_spec hpath _) (fun _ => Spec.pure
            (q := fun a p p' => a = .inl ([], padded || code == 61) ∧ p' = p)
            fun p => ⟨rfl, rfl⟩) ?_
          rintro _ next p p' p'' ⟨x, hx, hunread, hlog⟩ ⟨rfl, rfl⟩
          exact ⟨hempty, hunread,
            .inr ⟨rfl, hgroups, .inl (hnext (Bool.eq_false_iff.mpr hpadded)), x, hx, hlog⟩⟩
      · rw [if_neg hfull]
        refine Spec.pure fun p => ⟨⟨?_, hnext⟩, rfl, .inl ⟨rfl, rfl⟩⟩
        show (encoded ++ [Char.ofNat code]).length < blockLength
        omega
    · rintro _ next p p' p'' ⟨hunread, hlog⟩ h
      cases next with
      | inr _ => exact h
      | inl b' =>
        obtain ⟨hinv, hunread', hcases⟩ := h
        rw [hunread, hlog] at hcases
        exact ⟨hinv, hunread'.trans hunread, hcases⟩
  · rintro code next p p' p'' ⟨e, hcode, hreads, hlog, hhead, hless⟩ h hquote
    cases next with
    | inr _ => exact h
    | inl b' =>
      obtain ⟨hinv, hunread, hcases⟩ := h
      have hreads' : Reads e p p'' := by
        unfold Reads at hreads ⊢
        rw [hreads, hunread]
      refine ⟨hinv, by rwa [hunread], fun final q hblocks => ?_⟩
      rcases hcases with ⟨hb', hlog'⟩ | ⟨hb', hgroups, hpad, x, hx, hlog'⟩
      · rw [hb'] at hblocks
        exact hblocks.cons hcode hreads' hhead hquote (hlog'.trans hlog)
      · rw [hb'] at hblocks
        rw [hlog] at hlog'
        exact hblocks.flush hcode hreads' hhead hquote hlog' hgroups hx (hunread ▸ hpad)

theorem parseBase64_loop (hpath : Confined path) : Spec (repeatReading
    (base64Round path) ([], false)) fun final p p' =>
    Blocks path [] final p p' := by
  refine Spec.repeatReading
    (i := fun (block : Text × Bool) =>
      block.1.length < blockLength ∧ (block.2 = false → '=' ∉ block.1))
    (r := fun block final p p' => Blocks path block.1 final p p') (fun block hinv => ?_)
    ⟨by decide, fun _ => List.not_mem_nil⟩
  refine Spec.andThen peek_spec (s := fun b next p p' =>
    match next with
    | .inl b' => b ≠ some 34 ∧ (p.unread.head? ≠ some 34 →
        (b'.1.length < blockLength ∧ (b'.2 = false → '=' ∉ b'.1)) ∧
          p'.unread.length < p.unread.length ∧
          ∀ final q, Blocks path b'.1 final p' q → Blocks path block.1 final p q)
    | .inr final => (b = some 34 ∧ final = block.1 ∧ p' = p) ∨
        (b ≠ some 34 ∧ p.unread.head? = some 34)) (fun b => ?_) ?_
  · by_cases hquote : b = some 34
    · rw [if_pos hquote]
      exact Spec.pure fun p => .inl ⟨hquote, rfl, rfl⟩
    · rw [if_neg hquote]
      apply Spec.mono (parseBase64_round hpath hinv.1 hinv.2)
      intro next p p' h
      cases next with
      | inl b' => exact ⟨hquote, h⟩
      | inr _ => exact .inr ⟨hquote, not_not.mp h⟩
  · rintro b next p p' p'' ⟨hunread, hlog, hhead, -⟩ h
    have hstart {final : Text} {encoded : Text} {q : Parser}
        (hblocks : Blocks path encoded final p' q) : Blocks path encoded final p q := by
      obtain ⟨t, bs, xs, hreads, ht, hend, hlog', hnow, hdecode⟩ := hblocks
      refine ⟨t, bs, xs, ?_, ht, hend, by rw [hlog', hlog], hunread ▸ hnow, hdecode⟩
      unfold Reads at hreads ⊢
      rw [← hunread, hreads]
    cases next with
    | inl b' =>
      obtain ⟨hquote, h⟩ := h
      rw [hhead, ← hunread] at hquote
      obtain ⟨hinv', hless, hblocks⟩ := h hquote
      exact ⟨hinv', hunread ▸ hless, fun final q hq => hstart (hblocks final q hq)⟩
    | inr final =>
      rcases h with ⟨hb, rfl, rfl⟩ | ⟨hquote, hp'⟩
      · exact hstart (Blocks.done (by rw [hunread, ← hhead, hb]))
      · rw [hunread, ← hhead] at hp'
        exact absurd hp' hquote

theorem confined_create {path : Text} (hpath : Confined path) :
    Confined (Write.create path).path := hpath

/-- The string is base64, and the file holds what it encodes, however it fell into blocks. -/
theorem parseBase64_spec (hpath : Confined path) : Spec (parseBase64 path) fun _ p p' =>
    ∃ bs t x, Quoted t bs ∧ Reads bs p p' ∧ decodeBase64 t = some x ∧ Leaves [(path, x)] p p' := by
  have hlast (final : Text) : Spec (if final.isEmpty then return () else writeDecoded path final)
      fun _ p p' => ∃ y, decodeBase64 final = some y ∧ p'.unread = p.unread ∧
        ∀ q, content p'.log q =
          if path = q then (content p.log q).map (· ++ y) else content p.log q := by
    by_cases hempty : final.isEmpty = true
    · rw [if_pos hempty, List.isEmpty_iff.mp hempty]
      refine Spec.pure fun p => ⟨[], by decide, rfl, fun q => ?_⟩
      simp only [List.append_nil, Option.map_id', ite_self]
    · rw [if_neg hempty]
      apply Spec.mono (writeDecoded_spec hpath final)
      rintro _ p p' ⟨y, hy, hunread, hlog⟩
      exact ⟨y, hy, hunread, fun q => by rw [hlog, content]⟩
  refine Spec.andThen (expect_spec 34) (fun _ => Spec.bind (write_spec (confined_create hpath))
    fun _ => Spec.bind (parseBase64_loop hpath) fun final => Spec.bind take_spec fun _ =>
      hlast final) ?_
  rintro _ _ p p₁ p₅ ⟨w, hopen, hw, hlog₁⟩ ⟨-, p₂, ⟨hunread₂, hlog₂⟩, final, p₃,
    ⟨t, bs, xs, hreads, ht, hend, hlog₃, -, hdecode⟩, b, p₄, ⟨hclose, hlog₄, hb⟩, y, hy,
    hunread₅, hcontent⟩
  refine ⟨w ++ 34 :: (bs ++ [34]), t, xs.flatten ++ y, ⟨w, bs, rfl, hw, ht⟩, ?_, hdecode y hy, ?_⟩
  · have hclose' := quote_closed hclose hb hend
    unfold Reads at hopen hreads hclose' ⊢
    rw [hopen, ← hunread₂, hreads, hclose', hunread₅]
    simp only [List.append_assoc, List.cons_append, List.nil_append]
  · intro q
    rw [hcontent, hlog₄, hlog₃, content_appended, hlog₂, hlog₁, content]
    by_cases hq : path = q
    · simp only [if_pos hq, Option.map_some, List.nil_append]
      rw [hq, List.lookup_cons_self]
      rfl
    · simp only [if_neg hq]
      rw [List.lookup_cons, beq_eq_false_iff_ne.mpr (Ne.symm hq)]
      rfl

end Blocks

/-! ## Objects -/

section Objects

theorem Reads.eq_left {bs : Bytes} {p q r : Parser} (h : Reads bs p r) (hq : q.unread = p.unread) :
    Reads bs q r := by
  unfold Reads at h ⊢
  rw [hq, h]

theorem Leaves.eq_left {out : List (Text × Bytes)} {p q r : Parser} (h : Leaves out q r)
    (hlog : q.log = p.log) : Leaves out p r := by
  intro path
  rw [h path, hlog]

/-- Something was read. -/
theorem Reads.less {bs : Bytes} {p q : Parser} (h : Reads bs p q) (hne : bs ≠ []) :
    q.unread.length < p.unread.length := by
  rw [h, List.length_append]
  have := List.length_pos_of_ne_nil hne
  omega

theorem Quoted.ne_nil {t : Text} {bs : Bytes} (h : Quoted t bs) : bs ≠ [] := by
  obtain ⟨w, e, rfl, -, -⟩ := h
  exact List.append_ne_nil_of_right_ne_nil w (List.cons_ne_nil _ _)

theorem Pair.ne_nil {name : Text} {value : Bytes → Prop} {bs : Bytes} (h : Pair name value bs) :
    bs ≠ [] := by
  obtain ⟨n, w, v, rfl, hn, -, -⟩ := h
  rw [List.append_assoc]
  exact List.append_ne_nil_of_left_ne_nil hn.ne_nil _

/-- What stands in front of a member. -/
def Comma (first : Bool) (c : Bytes) : Prop :=
  if first then c = [] else ∃ v, Space v ∧ c = v ++ [44]

/-- The members of `files` from here on, after these names. -/
def FilesFrom (names : List Text) (p p' : Parser) : Prop :=
  ∃ fs bs, Members (fun (f : Text × Text) => Pair f.1 (Quoted f.2)) names.isEmpty fs bs ∧
    Reads bs p p' ∧ (names ++ fs.map Prod.fst).Nodup ∧ names.length + fs.length ≤ MAX_FILES ∧
    (∀ f ∈ fs, isAttachmentName f.1 = true ∧ (decodeBase64 f.2).isSome) ∧
    Leaves (fs.map fileOutput).reverse p p'

theorem fileValue_spec (names : List Text) (name : Text) :
    Spec (if !isAttachmentName name || names.contains name || MAX_FILES < names.length + 1 then
        throw "invalid_snapshot_path"
      else do
        expect 58
        parseBase64 (attachmentPath name)
        return .inl (names ++ [name])) fun (next : List Text ⊕ Unit) p p' =>
      next = .inl (names ++ [name]) ∧ isAttachmentName name = true ∧ name ∉ names ∧
        names.length + 1 ≤ MAX_FILES ∧ ∃ w v t x, Reads (w ++ [58] ++ v) p p' ∧ Space w ∧
          Quoted t v ∧ decodeBase64 t = some x ∧ Leaves [(attachmentPath name, x)] p p' := by
  by_cases hbad : (!isAttachmentName name || names.contains name ||
      decide (MAX_FILES < names.length + 1)) = true
  · rw [if_pos hbad]
    exact Spec.throw (by decide)
  · rw [if_neg hbad]
    simp only [Bool.or_eq_true, not_or, Bool.not_eq_true', Bool.not_eq_false, decide_eq_true_eq,
      Nat.not_lt, List.contains_iff_mem] at hbad
    obtain ⟨⟨hname, hnew⟩, hcount⟩ := hbad
    refine Spec.andThen (expect_spec 58) (fun _ => Spec.bind
      (parseBase64_spec (.inr ⟨name, hname, rfl⟩)) fun _ => Spec.pure
        (q := fun a p p' => a = .inl (names ++ [name]) ∧ p' = p) fun p => ⟨rfl, rfl⟩) ?_
    rintro _ next p p' q ⟨w, hcolon, hw, hlog⟩ ⟨-, q', ⟨v, t, x, hv, hreads, hx, hout⟩, rfl, rfl⟩
    exact ⟨rfl, hname, hnew, hcount, w, v, t, x, hcolon.trans hreads, hw, hv, hx,
      hout.eq_left hlog⟩

theorem parseFiles_round {names : List Text} (hnodup : names.Nodup)
    (hcount : names.length ≤ MAX_FILES) :
    Spec (fileRound names) fun (next : List Text ⊕ Unit) p p' =>
      match next with
      | .inl names' => (names'.Nodup ∧ names'.length ≤ MAX_FILES) ∧
          p'.unread.length < p.unread.length ∧
          ∀ (_ : Unit) q, FilesFrom names' p' q → FilesFrom names p q
      | .inr _ => FilesFrom names p p' := by
  have hheld : names.length + 1 ≤ mostHeld := Nat.add_le_add_right hcount 1
  have hlimit : 32 ≤ mostHeld := by decide
  refine Spec.andThen peekNonSpace_spec (s := fun b next p p' =>
    (next = .inr () ∧ p' = p) ∨ ∃ name t x c bs, next = .inl (names ++ [name]) ∧
      isAttachmentName name = true ∧ name ∉ names ∧ names.length + 1 ≤ MAX_FILES ∧
      Comma names.isEmpty c ∧ Pair name (Quoted t) bs ∧ Reads (c ++ bs) p p' ∧
      decodeBase64 t = some x ∧ Leaves [(attachmentPath name, x)] p p') (fun b => ?_) ?_
  · by_cases hclose : b = some 125
    · rw [if_pos hclose]
      exact Spec.pure fun p => .inl ⟨rfl, rfl⟩
    · rw [if_neg hclose]
      refine Spec.andThen (comma_spec names.isEmpty) (fun _ => Spec.bind (string_spec hlimit)
        fun name => Spec.bind (hold_spec hheld) fun _ => fileValue_spec names name) ?_
      rintro _ next p p₁ p₄ ⟨c, hcomma, hc, hlog₁⟩ ⟨name, p₂, ⟨n, hn, hname, hlog₂⟩, -, p₃,
        ⟨hunread₃, hlog₃⟩, rfl, hvalid, hnew, hmax, w, v, t, x, hvalue, hw, hv, hx, hout⟩
      have hlog : p₃.log = p.log := hlog₃.trans (hlog₂.trans hlog₁)
      refine .inr ⟨name, t, x, c, n ++ (w ++ [58]) ++ v, rfl, hvalid, hnew, hmax, hc,
        ⟨n, w, v, rfl, hn, hw, hv⟩, ?_, hx, hout.eq_left hlog⟩
      rw [List.append_assoc n]
      exact hcomma.trans (hname.trans (hvalue.eq_left hunread₃.symm))
  · rintro b next p p' q ⟨w, hspace, hw, hlog, -, -⟩ (⟨rfl, rfl⟩ | ⟨name, t, x, c, bs, rfl, hvalid,
      hnew, hmax, hc, hpair, hreads, hx, hout⟩)
    · refine ⟨[], w, .nil hw, hspace, ?_, hcount, fun f hf => absurd hf List.not_mem_nil,
        Leaves.nil hlog⟩
      rw [List.map_nil, List.append_nil]
      exact hnodup
    · have hall := hspace.trans hreads
      refine ⟨⟨?_, by rw [List.length_append]; exact hmax⟩, hall.less ?_, ?_⟩
      · rw [List.nodup_append_comm]
        exact List.nodup_cons.mpr ⟨hnew, hnodup⟩
      · exact List.append_ne_nil_of_right_ne_nil _
          (List.append_ne_nil_of_right_ne_nil _ hpair.ne_nil)
      · rintro - r ⟨fs, rest, hfs, hrest, hdistinct, hlength, hfiles, hleft⟩
        have hlater : (names ++ [name]).isEmpty = false := by
          cases names <;> rfl
        rw [hlater] at hfs
        have houtput : fileOutput (name, t) = (attachmentPath name, x) := by
          rw [fileOutput, hx, Option.getD_some]
        refine ⟨(name, t) :: fs, w ++ c ++ bs ++ rest, .cons hw hc hpair hfs, ?_, ?_, ?_, ?_, ?_⟩
        · rw [List.append_assoc w]
          exact hall.trans hrest
        · rwa [List.append_assoc, List.singleton_append] at hdistinct
        · rw [List.length_append, List.length_singleton] at hlength
          rw [List.length_cons]
          omega
        · intro f hf
          rcases List.mem_cons.mp hf with rfl | hf
          · exact ⟨hvalid, by rw [hx]; rfl⟩
          · exact hfiles f hf
        · rw [List.map_cons, List.reverse_cons, houtput]
          exact (hout.eq_left hlog).trans hleft

theorem parseFiles_spec : Spec parseFiles fun _ p p' => ∃ fs bs,
    (Field.files fs).Value bs ∧ Reads bs p p' ∧ Leaves (Field.files fs).outputs p p' := by
  have hloop : Spec (repeatReading fileRound []) fun (_ : Unit) p p' => FilesFrom [] p p' := by
    refine Spec.repeatReading
      (i := fun (names : List Text) => names.Nodup ∧ names.length ≤ MAX_FILES)
      (r := fun names (_ : Unit) p p' => FilesFrom names p p') (fun names hinv => ?_)
      ⟨List.nodup_nil, Nat.zero_le _⟩
    apply Spec.mono (parseFiles_round hinv.1 hinv.2)
    intro next p p' h
    cases next <;> exact h
  refine Spec.andThen (expect_spec 123) (fun _ => Spec.bind hloop fun _ => expect_spec 125) ?_
  rintro _ _ p p₁ p₃ ⟨w, hopen, hw, hlog₁⟩ ⟨-, p₂,
    ⟨fs, bs, hfs, hreads, hdistinct, hlength, hfiles, hout⟩, v, hclose, hv, hlog₃⟩
  rw [List.nil_append] at hdistinct
  rw [List.length_nil, Nat.zero_add] at hlength
  refine ⟨fs, w ++ 123 :: (bs ++ v ++ [125]), ⟨⟨w, bs, v, rfl, hw, hfs, hv⟩, hdistinct, hlength,
    hfiles⟩, ?_, fun path => ?_⟩
  · have hall := (hopen.trans hreads).trans hclose
    simpa only [List.append_assoc, List.cons_append, List.nil_append] using hall
  · rw [hlog₃]
    exact hout.eq_left hlog₁ path

theorem parseField_spec (key : Text) (result : Snapshot) :
    Spec (parseField key result) fun result' p p' => ∃ (f : Field) (v : Bytes), f.key = key ∧
      f.Value v ∧ Reads v p p' ∧ result' = f.result result ∧ Leaves f.outputs p p' := by
  unfold parseField
  by_cases hformat : key = "format".toList
  · rw [if_pos hformat]
    refine Spec.andThen number_spec (s := fun d result' p p' =>
      d.isOne = true ∧ result' = result ∧ p' = p) (fun d => ?_) ?_
    · by_cases hone : d.isOne = true
      · rw [if_pos hone]
        exact Spec.pure fun p => ⟨hone, rfl, rfl⟩
      · rw [if_neg hone]
        exact Spec.throw (by decide)
    · rintro d _ p p' q ⟨w, t, hw, hd, hreads, hlog⟩ ⟨hone, rfl, rfl⟩
      exact ⟨.format d, w ++ t, hformat.symm, ⟨hone, w, t, rfl, hw, hd⟩, hreads, rfl,
        Leaves.nil hlog⟩
  rw [if_neg hformat]
  by_cases hvmk : key = "vmk".toList
  · rw [if_pos hvmk]
    refine Spec.andThen (string_spec (by decide)) (s := fun t result' p p' => ∃ x,
      decodeBase64 t = some x ∧ x.length = 32 ∧ result' = { result with vmk := some x } ∧ p' = p)
      (fun t => ?_) ?_
    · cases hdecoded : decodeBase64 t with
      | none => exact Spec.throw (by decide)
      | some x =>
        by_cases hlen : x.length ≠ 32
        · simp only [if_pos hlen]
          exact Spec.throw (by decide)
        · simp only [if_neg hlen]
          exact Spec.pure fun p => ⟨x, rfl, not_not.mp hlen, rfl, rfl⟩
    · rintro t _ p p' q ⟨bs, ht, hreads, hlog⟩ ⟨x, hx, hlen, rfl, rfl⟩
      exact ⟨.vmk t, bs, hvmk.symm, ⟨ht, x, hx, hlen⟩, hreads, by rw [Field.result, hx],
        Leaves.nil hlog⟩
  rw [if_neg hvmk]
  by_cases hsalt : key = "hkdfSalt".toList
  · rw [if_pos hsalt]
    refine Spec.andThen (string_spec (by decide)) (s := fun t result' p p' => ∃ x,
      decodeBase64 t = some x ∧ x.length = 16 ∧ result' = { result with salt := some t } ∧ p' = p)
      (fun t => ?_) ?_
    · cases hdecoded : decodeBase64 t with
      | none => exact Spec.throw (by decide)
      | some x =>
        by_cases hlen : x.length ≠ 16
        · simp only [if_pos hlen]
          exact Spec.throw (by decide)
        · simp only [if_neg hlen]
          exact Spec.pure fun p => ⟨x, rfl, not_not.mp hlen, rfl, rfl⟩
    · rintro t _ p p' q ⟨bs, ht, hreads, hlog⟩ ⟨x, hx, hlen, rfl, rfl⟩
      exact ⟨.hkdfSalt t, bs, hsalt.symm, ⟨ht, x, hx, hlen⟩, hreads, rfl, Leaves.nil hlog⟩
  rw [if_neg hsalt]
  by_cases hdatabase : key = "database".toList
  · rw [if_pos hdatabase]
    refine Spec.andThen (parseBase64_spec (.inl rfl)) (fun _ => Spec.pure
      (q := fun a p p' => a = result ∧ p' = p) fun p => ⟨rfl, rfl⟩) ?_
    rintro _ _ p p' q ⟨bs, t, x, ht, hreads, hx, hout⟩ ⟨rfl, rfl⟩
    refine ⟨.database t, bs, hdatabase.symm, ⟨ht, by rw [hx]; rfl⟩, hreads, rfl, ?_⟩
    rw [Field.outputs, hx]
    exact hout
  rw [if_neg hdatabase]
  by_cases hfiles : key = "files".toList
  · rw [if_pos hfiles]
    refine Spec.andThen parseFiles_spec (fun _ => Spec.pure
      (q := fun a p p' => a = result ∧ p' = p) fun p => ⟨rfl, rfl⟩) ?_
    rintro _ _ p p' q ⟨fs, bs, hvalue, hreads, hout⟩ ⟨rfl, rfl⟩
    exact ⟨.files fs, bs, hfiles.symm, hvalue, hreads, rfl, hout⟩
  rw [if_neg hfiles]
  exact Spec.throw (by decide)

def Field.Written (f : Field) (bs : Bytes) : Prop := Pair f.key f.Value bs

def outputs (fs : List Field) : List (Text × Bytes) := fs.reverse.flatMap Field.outputs

def results (fs : List Field) (result : Snapshot) : Snapshot :=
  fs.foldl (fun result f => f.result result) result

/-- The fields from here on, after these keys. -/
def FieldsFrom (read final : List Text × Snapshot) (p p' : Parser) : Prop :=
  ∃ fs bs, Members Field.Written read.1.isEmpty fs bs ∧ Reads bs p p' ∧
    (read.1 ++ fs.map Field.key).Nodup ∧
    final = (read.1 ++ fs.map Field.key, results fs read.2) ∧ Leaves (outputs fs) p p'

def keys : List Text :=
  ["format".toList, "vmk".toList, "hkdfSalt".toList, "database".toList, "files".toList]

theorem key_mem (f : Field) : f.key ∈ keys := by
  cases f with
  | format d => exact .head _
  | vmk t => exact .tail _ (.head _)
  | hkdfSalt t => exact .tail _ (.tail _ (.head _))
  | database t => exact .tail _ (.tail _ (.tail _ (.head _)))
  | files fs => exact .tail _ (.tail _ (.tail _ (.tail _ (.head _))))

theorem keys_length {fields : List Text} (hnodup : fields.Nodup) (hsub : fields ⊆ keys) :
    fields.length ≤ 5 :=
  (List.subperm_of_subset hnodup hsub).length_le

theorem fieldValue_spec (read : List Text × Snapshot) (key : Text) :
    Spec (if read.1.contains key then throw "duplicate_snapshot_field"
      else do
        expect 58
        let result ← parseField key read.2
        return .inl (read.1 ++ [key], result))
      fun (next : (List Text × Snapshot) ⊕ (List Text × Snapshot)) p p' =>
        ∃ (f : Field) (w v : Bytes), f.key = key ∧ key ∉ read.1 ∧ next = .inl (read.1 ++ [key], f.result read.2) ∧
        Reads (w ++ [58] ++ v) p p' ∧ Space w ∧ f.Value v ∧ Leaves f.outputs p p' := by
  by_cases hbad : read.1.contains key = true
  · rw [if_pos hbad]
    exact Spec.throw (by decide)
  · rw [if_neg hbad]
    rw [List.contains_iff_mem] at hbad
    refine Spec.andThen (expect_spec 58) (fun _ => Spec.bind (parseField_spec key read.2)
      fun result => Spec.pure (q := fun a p p' => a = .inl (read.1 ++ [key], result) ∧ p' = p)
        fun p => ⟨rfl, rfl⟩) ?_
    rintro _ next p p' q ⟨w, hcolon, hw, hlog⟩
      ⟨_, q', ⟨f, v, hkey, hv, hreads, rfl, hout⟩, rfl, rfl⟩
    exact ⟨f, w, v, hkey, hbad, rfl, hcolon.trans hreads, hw, hv, hout.eq_left hlog⟩

theorem parseSnapshot_round {read : List Text × Snapshot} (hnodup : read.1.Nodup)
    (hsub : read.1 ⊆ keys) :
    Spec (fieldRound read)
      fun (next : (List Text × Snapshot) ⊕ (List Text × Snapshot)) p p' =>
      match next with
      | .inl read' => (read'.1.Nodup ∧ read'.1 ⊆ keys) ∧ p'.unread.length < p.unread.length ∧
          ∀ final q, FieldsFrom read' final p' q → FieldsFrom read final p q
      | .inr final => FieldsFrom read final p p' := by
  have hheld : read.1.length + 1 ≤ mostHeld := by
    have hlen := keys_length hnodup hsub
    have hmost : mostHeld = 10001 := rfl
    omega
  refine Spec.andThen peekNonSpace_spec (s := fun b next p p' =>
    (next = .inr read ∧ p' = p) ∨ ∃ (f : Field) (c bs : Bytes),
      next = .inl (read.1 ++ [f.key], f.result read.2) ∧ f.key ∉ read.1 ∧
      Comma read.1.isEmpty c ∧ f.Written bs ∧ Reads (c ++ bs) p p' ∧ Leaves f.outputs p p')
    (fun b => ?_) ?_
  · by_cases hclose : b = some 125
    · rw [if_pos hclose]
      exact Spec.pure fun p => .inl ⟨rfl, rfl⟩
    · rw [if_neg hclose]
      refine Spec.andThen (comma_spec read.1.isEmpty) (fun _ => Spec.bind
        (@string_spec 32 (by decide)) fun key => Spec.bind (hold_spec hheld) fun _ =>
          fieldValue_spec read key) ?_
      rintro _ next p p₁ p₄ ⟨c, hcomma, hc, hlog₁⟩ ⟨_, p₂, ⟨n, hn, hname, hlog₂⟩, -, p₃,
        ⟨hunread₃, hlog₃⟩, f, w, v, rfl, hnew, rfl, hvalue, hw, hv, hout⟩
      have hlog : p₃.log = p.log := hlog₃.trans (hlog₂.trans hlog₁)
      refine .inr ⟨f, c, n ++ (w ++ [58]) ++ v, rfl, hnew, hc, ⟨n, w, v, rfl, hn, hw, hv⟩, ?_,
        hout.eq_left hlog⟩
      rw [List.append_assoc n]
      exact hcomma.trans (hname.trans (hvalue.eq_left hunread₃.symm))
  · rintro b next p p' q ⟨w, hspace, hw, hlog, -, -⟩ (⟨rfl, rfl⟩ | ⟨f, c, bs, rfl, hnew, hc, hf,
      hreads, hout⟩)
    · refine ⟨[], w, .nil hw, hspace, ?_, ?_, Leaves.nil hlog⟩
      · rw [List.map_nil, List.append_nil]
        exact hnodup
      · rw [List.map_nil, List.append_nil]
        rfl
    · have hall := hspace.trans hreads
      refine ⟨⟨?_, ?_⟩, hall.less ?_, ?_⟩
      · rw [List.nodup_append_comm]
        exact List.nodup_cons.mpr ⟨hnew, hnodup⟩
      · refine List.append_subset.mpr ⟨hsub, fun k hk => ?_⟩
        rw [List.mem_singleton.mp hk]
        exact key_mem f
      · exact List.append_ne_nil_of_right_ne_nil _
          (List.append_ne_nil_of_right_ne_nil _ hf.ne_nil)
      · rintro final r ⟨fs, rest, hfs, hrest, hdistinct, rfl, hleft⟩
        have hlater : (read.1 ++ [f.key]).isEmpty = false := by
          cases read.1 <;> rfl
        have hshape : read.1 ++ [f.key] ++ fs.map Field.key =
            read.1 ++ (f :: fs).map Field.key := by
          rw [List.append_assoc, List.singleton_append, List.map_cons]
        simp only [hlater, hshape] at hfs hdistinct ⊢
        refine ⟨f :: fs, w ++ c ++ bs ++ rest, .cons hw hc hf hfs, ?_, hdistinct, rfl, ?_⟩
        · rw [List.append_assoc w]
          exact hall.trans hrest
        · rw [outputs, List.reverse_cons, List.flatMap_append, List.flatMap_singleton]
          exact (hout.eq_left hlog).trans hleft

/-- One object and nothing after it but white space. -/
def Document (fs : List Field) (bs : Bytes) : Prop :=
  ∃ o v, bs = o ++ v ∧ Braced (Members Field.Written true fs) o ∧ Space v

theorem parseSnapshot_spec : Spec parseSnapshot fun result p p' => ∃ fs,
    Document fs p.unread ∧ (fs.map Field.key).Nodup ∧ mandatory ⊆ fs.map Field.key ∧
      result = results fs ⟨none, none⟩ ∧ Leaves (outputs fs) p p' := by
  have hloop : Spec (repeatReading fieldRound ([], ⟨none, none⟩))
      fun final p p' => FieldsFrom ([], ⟨none, none⟩) final p p' := by
    refine Spec.repeatReading
      (i := fun (read : List Text × Snapshot) => read.1.Nodup ∧ read.1 ⊆ keys)
      (r := fun read final p p' => FieldsFrom read final p p') (fun read hinv => ?_)
      ⟨List.nodup_nil, List.nil_subset _⟩
    apply Spec.mono (parseSnapshot_round hinv.1 hinv.2)
    intro next p p' h
    cases next <;> exact h
  have hend (final : List Text × Snapshot) : Spec (do
      expect 125
      let b ← peekNonSpace
      if b ≠ none ∨ !mandatory.all final.1.contains then throw "invalid_snapshot"
      else return final.2) fun result p p' => result = final.2 ∧ mandatory ⊆ final.1 ∧
        ∃ w v, p.unread = w ++ [125] ++ v ∧ Space w ∧ Space v ∧ p'.log = p.log := by
    refine Spec.andThen (expect_spec 125) (fun _ => Spec.bind peekNonSpace_spec fun b =>
      (?_ : Spec _ fun result p p' => b = none ∧ result = final.2 ∧ mandatory ⊆ final.1 ∧
        p' = p)) ?_
    · by_cases hbad : b ≠ none ∨ !mandatory.all final.1.contains
      · rw [if_pos hbad]
        exact Spec.throw (by decide)
      · rw [if_neg hbad]
        rw [not_or, not_not, Bool.not_eq_true, Bool.not_eq_false', List.all_eq_true] at hbad
        exact Spec.pure fun p =>
          ⟨hbad.1, rfl, fun k hk => List.contains_iff_mem.mp (hbad.2 k hk), rfl⟩
    · rintro _ result p p' q ⟨w, hclose, hw, hlog⟩ ⟨b, q', ⟨v, hv, hvs, hlog', hhead, -⟩, rfl,
        rfl, hall, rfl⟩
      have hempty : q.unread = [] := List.head?_eq_none_iff.mp hhead.symm
      refine ⟨rfl, hall, w, v, ?_, hw, hvs, hlog'.trans hlog⟩
      unfold Reads at hclose hv
      rw [hclose, hv, hempty, List.append_nil]
  refine Spec.andThen (expect_spec 123) (fun _ => Spec.bind hloop fun final => hend final) ?_
  rintro _ result p p₁ p₃ ⟨w, hopen, hw, hlog₁⟩ ⟨_, p₂, ⟨fs, bs, hfs, hreads, hdistinct, rfl,
    hout⟩, rfl, hall, v, v', hclose, hv, hv', hlog₃⟩
  refine ⟨fs, ⟨w ++ 123 :: (bs ++ v ++ [125]), v', ?_, ⟨w, bs, v, rfl, hw, hfs, hv⟩, hv'⟩,
    hdistinct, hall, rfl, fun path => ?_⟩
  · unfold Reads at hopen hreads
    rw [hopen, hreads, hclose]
    simp only [List.append_assoc, List.cons_append, List.nil_append]
  · rw [hlog₃]
    exact hout.eq_left hlog₁ path

end Objects

end SnapshotCodec
