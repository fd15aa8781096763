import CryptoPigeon.SnapshotGrammar

/-! # Snapshots are decoded to what was encoded

Text that is written plainly is read by one run of each part of the parser. Both programs write
such text, so what either encodes is recreated in the stage. -/
namespace SnapshotCodec

open LoopPrograms
open JsonText (base64 base64Value decodeBase64 escape)
open StorageExport (isAttachmentName memberJson vmkKey hkdfSaltKey databaseKey filesKey
  closingBraces MAX_FILES)
open SevenOfSeven (Bytes Text)

/-! ## What is written plainly is read -/

section Plain

/-- An unbroken stream within the limit, with these bytes to come and these files written. -/
def Looks (p : Parser) (v : Bytes × List (Text × Bytes)) : Prop :=
  p.broken = false ∧ p.total + p.input.length ≤ MAX_PLAINTEXT ∧ p.unread = v.1 ∧
    ∀ path, content p.log path = v.2.lookup path

/-- One run of a part of the parser. -/
def Run {α : Type} (x : Reading α) (bs : Bytes) (out : List (Text × Bytes)) (a : α) (bs' : Bytes)
    (out' : List (Text × Bytes)) : Prop :=
  Returns Looks x (bs, out) a (bs', out')

variable {α β γ : Type} {x : Reading α} {bs bs' bs'' : Bytes}
  {out out' out'' : List (Text × Bytes)} {a : α}

theorem Run.pure : Run (Pure.pure a) bs out a bs out := Returns.pure

theorem Run.bind {f : α → Reading β} {b : β} (hx : Run x bs out a bs' out')
    (hf : Run (f a) bs' out' b bs'' out'') : Run (x >>= f) bs out b bs'' out'' :=
  Returns.bind hx hf

/-- The rounds of a loop of the parser. -/
def Loop (body : β → Reading (β ⊕ γ)) (b : β) (bs : Bytes) (out : List (Text × Bytes)) (c : γ)
    (bs' : Bytes) (out' : List (Text × Bytes)) : Prop :=
  Rounds Looks body (fun v => v.1.length) b (bs, out) c (bs', out')

theorem Loop.run {body : β → Reading (β ⊕ γ)} {b : β} {c : γ}
    (h : Loop body b bs out c bs' out') : Run (repeatReading body b) bs out c bs' out' :=
  Returns.repeatLoop (fun p v hp => by rw [hp.2.2.1]) h

theorem Loop.last {body : β → Reading (β ⊕ γ)} {b : β} {c : γ}
    (h : Run (body b) bs out (.inr c) bs' out') : Loop body b bs out c bs' out' := Rounds.last h

theorem Loop.next {body : β → Reading (β ⊕ γ)} {b n : β} {c : γ} {v : Bytes}
    {o : List (Text × Bytes)} (h : Run (body b) bs out (.inl n) v o) (hless : v.length < bs.length)
    (hrest : Loop body n v o c bs'' out'') : Loop body b bs out c bs'' out'' :=
  Rounds.next h hless hrest

theorem peek_run : Run peek bs out bs.head? bs out := by
  rintro ⟨input, broken, next, total, held, log, ended⟩ ⟨hbroken, htotal, hunread, hlog⟩
  dsimp only at hbroken htotal hunread hlog
  subst hbroken hunread
  cases next with
  | some value =>
    refine ⟨_, ?_, rfl, htotal, rfl, hlog⟩
    cases value with
    | none =>
      have hinput : input = [] := ended rfl
      simp only [peek, Parser.unread, hinput, List.head?_nil]
    | some b => rfl
  | none =>
    cases input with
    | nil =>
      simp only [peek, Bool.false_eq_true, if_false]
      exact ⟨_, rfl, rfl, htotal, rfl, hlog⟩
    | cons b input =>
      simp only [List.length_cons] at htotal
      have hlimit : ¬ MAX_PLAINTEXT < total + 1 := by omega
      simp only [peek, hlimit, if_false]
      refine ⟨_, rfl, rfl, ?_, rfl, hlog⟩
      dsimp only
      omega

theorem take_run {b : UInt8} : Run take (b :: bs) out (some b) bs out := by
  intro p hp
  have hspec := peek_spec p
  obtain ⟨p', hrun, hp'⟩ := peek_run p hp
  rw [hrun] at hspec
  obtain ⟨-, -, -, -, hnext⟩ := hspec
  have hended : (none : Option (Option UInt8)) = some none → p'.input = [] := by
    intro hnone
    cases hnone
  refine ⟨{ p' with next := none, ended := hended }, ?_, hp'.1, hp'.2.1, ?_, hp'.2.2.2⟩
  · show EStateM.bind peek _ p = _
    simp only [EStateM.bind, hrun]
    rfl
  · have hunread := hp'.2.2.1
    unfold Parser.unread at hunread
    rw [hnext] at hunread
    exact (List.cons.inj hunread).2

theorem hold_run {n : Nat} : Run (hold n) bs out () bs out :=
  fun _ h => ⟨_, rfl, h⟩

theorem create_run {path : Text} :
    Run (write (.create path)) bs out () bs ((path, []) :: out) := by
  rintro p ⟨hbroken, htotal, hunread, hlog⟩
  refine ⟨_, rfl, hbroken, htotal, hunread, fun q => ?_⟩
  rw [content, hlog q, List.lookup_cons]
  by_cases hq : path = q
  · rw [if_pos hq, hq, beq_self_eq_true]
  · rw [if_neg hq, beq_eq_false_iff_ne.mpr (Ne.symm hq)]

theorem append_run {path : Text} {y x : Bytes} :
    Run (write (.append path x)) bs ((path, y) :: out) () bs ((path, y ++ x) :: out) := by
  rintro p ⟨hbroken, htotal, hunread, hlog⟩
  refine ⟨_, rfl, hbroken, htotal, hunread, fun q => ?_⟩
  rw [content, hlog q, List.lookup_cons, List.lookup_cons]
  by_cases hq : path = q
  · rw [if_pos hq, hq, beq_self_eq_true]
    rfl
  · rw [if_neg hq, beq_eq_false_iff_ne.mpr (Ne.symm hq)]

theorem peekNonSpace_run (h : bs.head?.any isSpace = false) :
    Run peekNonSpace bs out bs.head? bs out := by
  apply Loop.run
  apply Loop.last
  refine Run.bind peek_run ?_
  rw [if_neg (by rw [h]; exact Bool.false_ne_true)]
  exact Run.pure

theorem expect_run {c : UInt8} (h : isSpace c = false) :
    Run (expect c) (c :: bs) out () bs out := by
  refine Run.bind (peekNonSpace_run (by simpa using h)) ?_
  rw [if_neg (by simp)]
  exact Run.bind take_run Run.pure

/-- A character that stands for itself in a string. -/
def isPlain (c : Char) : Bool :=
  32 ≤ c.toNat && c.toNat < 128 && c.toNat != 34 && c.toNat != 92

def byteOf (c : Char) : UInt8 := c.toNat.toUInt8

def ascii (t : Text) : Bytes := t.map byteOf

theorem byteOf_toNat {c : Char} (h : c.toNat < 128) : (byteOf c).toNat = c.toNat := by
  rw [byteOf, Nat.toUInt8_eq, UInt8.toNat_ofNat', Nat.mod_eq_of_lt (by omega)]

theorem isPlain_iff {c : Char} :
    isPlain c = true ↔ 32 ≤ c.toNat ∧ c.toNat < 128 ∧ c.toNat ≠ 34 ∧ c.toNat ≠ 92 := by
  simp only [isPlain, Bool.and_eq_true, decide_eq_true_eq, bne_iff_ne]
  tauto

theorem byteOf_ne {c : Char} (h : isPlain c = true) : byteOf c ≠ 34 ∧ byteOf c ≠ 92 := by
  obtain ⟨-, hlt, hquote, hslash⟩ := isPlain_iff.mp h
  refine ⟨fun heq => hquote ?_, fun heq => hslash ?_⟩
  · rw [← byteOf_toNat hlt, heq]
    rfl
  · rw [← byteOf_toNat hlt, heq]
    rfl

theorem character_run {c : Char} (h : isPlain c = true) :
    Run character (byteOf c :: bs) out c.toNat bs out := by
  obtain ⟨hlow, hlt, -, -⟩ := isPlain_iff.mp h
  have hnat := byteOf_toNat hlt
  refine Run.bind take_run ?_
  dsimp only
  rw [if_neg (by omega), if_neg (byteOf_ne h).2, hnat]
  exact Run.pure

theorem string_run {limit : Nat} {t : Text} (hplain : t.all isPlain = true)
    (hlimit : t.length ≤ limit) :
    Run (string limit) (34 :: (ascii t ++ 34 :: bs)) out t bs out := by
  have hloop (done rest : Text) (hrest : rest.all isPlain = true)
      (hlen : done.length + rest.length ≤ limit) :
      Loop (stringRound limit) done (ascii rest ++ 34 :: bs) out
        (done ++ rest) (34 :: bs) out := by
    induction rest generalizing done with
    | nil =>
      apply Loop.last
      refine Run.bind peek_run ?_
      rw [List.append_nil]
      exact Run.pure
    | cons c rest ih =>
      rw [List.all_cons, Bool.and_eq_true] at hrest
      rw [List.length_cons] at hlen
      obtain ⟨-, hlt, -, -⟩ := isPlain_iff.mp hrest.1
      have hshape : done ++ c :: rest = (done ++ [c]) ++ rest := by
        rw [List.append_assoc, List.singleton_append]
      rw [hshape]
      refine Loop.next ?_ ?_ (ih (done ++ [c]) hrest.2 ?_)
      · refine Run.bind peek_run ?_
        have hhead : (ascii (c :: rest) ++ 34 :: bs).head? = some (byteOf c) := rfl
        rw [hhead, if_neg fun heq => (byteOf_ne hrest.1).1 (Option.some.inj heq)]
        refine Run.bind (character_run hrest.1) ?_
        rw [if_neg (by omega), Char.ofNat_toNat]
        exact Run.bind hold_run Run.pure
      · simp only [ascii, List.map_cons, List.cons_append, List.length_cons, List.length_append]
        omega
      · rw [List.length_append, List.length_singleton]
        omega
  refine Run.bind (expect_run (by decide)) (Run.bind (Loop.run (hloop [] t hplain ?_))
    (Run.bind take_run Run.pure))
  rwa [List.length_nil, Nat.zero_add]

theorem number_run {b : UInt8} (h : endsNumber b = true) :
    Run number (49 :: b :: bs) out ⟨false, 1, 0⟩ (b :: bs) out := by
  have hloop : Loop numberRound [] (49 :: b :: bs) out ['1'] (b :: bs) out := by
    refine Loop.next (n := ['1']) (v := b :: bs) (o := out) ?_ (by simp) (Loop.last ?_)
    · exact Run.bind peek_run (Run.bind take_run (Run.bind hold_run Run.pure))
    · refine Run.bind peek_run ?_
      dsimp only [List.head?_cons]
      rw [if_pos h]
      exact Run.pure
  have hdigit : (49 :: b :: bs).head?.any isSpace = false := by
    show isSpace 49 = false
    decide
  refine Run.bind (peekNonSpace_run hdigit) (Run.bind (Loop.run hloop) ?_)
  have hparsed : parseDecimal ['1'] = some ⟨false, 1, 0⟩ := by decide +kernel
  rw [hparsed]
  exact Run.pure

end Plain

/-! ## Base64 that is read -/

section Base64

theorem decodeBase64_shape {t : Text} {z : Bytes} (h : decodeBase64 t = some z) :
    ∃ digits padding, t = digits ++ padding ∧ '=' ∉ digits ∧
      (digits.length % 4, padding) ∈
        [(0, []), (2, []), (3, []), (2, ['=', '=']), (3, ['='])] ∧
      ∃ values, digits.mapM base64Value = some values := by
  refine ⟨t.takeWhile (· != '='), t.drop (t.takeWhile (· != '=')).length, ?_, ?_, ?_⟩
  · have hfront := List.prefix_iff_eq_take.mp (List.takeWhile_prefix (l := t) (· != '='))
    conv_lhs => rw [← List.take_append_drop (t.takeWhile (· != '=')).length t, ← hfront]
  · intro hmem
    have hne := List.mem_takeWhile_imp hmem
    simp at hne
  · unfold decodeBase64 at h
    simp only at h
    split at h
    · rename_i hpadding
      obtain ⟨values, hvalues, -⟩ := Option.map_eq_some_iff.mp h
      exact ⟨hpadding, values, hvalues⟩
    · cases h

theorem padding_pads {n : Nat} {padding : Text} (h : (n, padding) ∈
    [(0, []), (2, []), (3, []), (2, ['=', '=']), (3, ['='])]) :
    (∀ c ∈ padding, c = '=') ∧ (padding = [] ∨ n + padding.length = 4) ∧ padding.length ≤ 2 := by
  simp only [List.mem_cons, Prod.mk.injEq, List.not_mem_nil, or_false] at h
  rcases h with ⟨rfl, rfl⟩ | ⟨rfl, rfl⟩ | ⟨rfl, rfl⟩ | ⟨rfl, rfl⟩ | ⟨rfl, rfl⟩ <;> simp

theorem mem_of_mapM {α β : Type} {f : α → Option β} {l : List α} {l' : List β}
    (h : l.mapM f = some l') : ∀ a ∈ l, (f a).isSome = true := by
  induction l generalizing l' with
  | nil => exact fun _ h => absurd h List.not_mem_nil
  | cons b l ih =>
    rw [List.mapM_cons] at h
    obtain ⟨v, hv, h⟩ := Option.bind_eq_some_iff.mp h
    obtain ⟨vs, hvs, -⟩ := Option.bind_eq_some_iff.mp h
    intro a ha
    rcases List.mem_cons.mp ha with rfl | ha
    · rw [hv]
      rfl
    · exact ih hvs a ha

/-- A digit or padding. -/
theorem base64Value_code {c : Char} (h : (base64Value c).isSome = true ∨ c = '=') :
    isBase64Code c.toNat = true := by
  have hle (a b : Char) : a ≤ b ↔ a.toNat ≤ b.toNat := UInt32.le_iff_toNat_le
  simp only [isBase64Code, Bool.or_eq_true, Bool.and_eq_true, decide_eq_true_eq, beq_iff_eq]
  rcases h with h | rfl
  · simp only [base64Value, hle, Char.reduceToNat] at h
    split at h
    · omega
    split at h
    · omega
    split at h
    · omega
    split at h
    · rename_i heq
      rw [heq]
      decide
    split at h
    · rename_i heq
      rw [heq]
      decide
    · cases h
  · decide

theorem isPlain_code {c : Char} (h : isBase64Code c.toNat = true) : isPlain c = true := by
  rw [isPlain_iff]
  simp only [isBase64Code, Bool.or_eq_true, Bool.and_eq_true, decide_eq_true_eq, beq_iff_eq] at h
  omega

theorem decodeBase64_codes {t : Text} {z : Bytes} (h : decodeBase64 t = some z) {c : Char}
    (hc : c ∈ t) : isBase64Code c.toNat = true := by
  obtain ⟨digits, padding, rfl, -, hpadding, values, hvalues⟩ := decodeBase64_shape h
  rcases List.mem_append.mp hc with hc | hc
  · exact base64Value_code (.inl (mem_of_mapM hvalues c hc))
  · exact base64Value_code (.inr ((padding_pads hpadding).1 c hc))

/-- Nothing but padding comes after padding, and nothing at all after a whole group. -/
theorem decodeBase64_padded {a b : Text} {z : Bytes} (h : decodeBase64 (a ++ b) = some z)
    (ha : '=' ∈ a) : (∀ c ∈ b, c = '=') ∧ (a.length % 4 = 0 → b = []) := by
  obtain ⟨digits, padding, heq, hdigits, hpadding, -⟩ := decodeBase64_shape h
  obtain ⟨hpads, hlength, -⟩ := padding_pads hpadding
  have hlong : digits.length < a.length := by
    by_contra hshort
    have hfront : a <+: digits :=
      List.prefix_of_prefix_length_le (List.prefix_append a b) (heq ▸ List.prefix_append _ _)
        (Nat.not_lt.mp hshort)
    exact hdigits (hfront.subset ha)
  have hdrop : b = padding.drop (a.length - digits.length) := by
    have hboth := congrArg (List.drop a.length) heq
    rwa [List.drop_left, List.drop_append, List.drop_eq_nil_of_le (Nat.le_of_lt hlong),
      List.nil_append] at hboth
  refine ⟨fun c hc => hpads c (List.mem_of_mem_drop (hdrop ▸ hc)), fun hgroups => ?_⟩
  have hb := congrArg List.length hdrop
  rw [List.length_drop] at hb
  have htotal := congrArg List.length heq
  rw [List.length_append, List.length_append] at htotal
  apply List.eq_nil_of_length_eq_zero
  rcases hlength with hnil | hfour
  · rw [hnil, List.length_nil] at hb
    omega
  · omega

theorem decodeBase64_split {a b : Text} {z : Bytes} (hlen : a.length % 4 = 0) (hpad : '=' ∉ a)
    (h : decodeBase64 (a ++ b) = some z) :
    ∃ x y, decodeBase64 a = some x ∧ decodeBase64 b = some y ∧ z = x ++ y := by
  have hall : ∀ c ∈ a, (c != '=') = true := fun c hc =>
    bne_iff_ne.mpr fun heq => hpad (heq ▸ hc)
  have htake : (a ++ b).takeWhile (· != '=') = a ++ b.takeWhile (· != '=') :=
    List.takeWhile_append_of_pos hall
  have htake' : a.takeWhile (· != '=') = a := List.takeWhile_eq_self_iff.mpr hall
  have hmod : (a.length + (b.takeWhile (· != '=')).length) % 4 =
      (b.takeWhile (· != '=')).length % 4 := by omega
  have hdrop : (a ++ b).drop (a.length + (b.takeWhile (· != '=')).length) =
      b.drop (b.takeWhile (· != '=')).length :=
    List.drop_length_add_append _
  unfold decodeBase64 at h ⊢
  simp only [htake, hdrop, List.length_append, hmod] at h
  simp only [htake', List.drop_length, hlen]
  split at h
  · rename_i hpadding
    obtain ⟨values, hvalues, rfl⟩ := Option.map_eq_some_iff.mp h
    rw [List.mapM_append] at hvalues
    obtain ⟨ds, hds, hvalues⟩ := Option.bind_eq_some_iff.mp hvalues
    obtain ⟨es, hes, hvalues⟩ := Option.bind_eq_some_iff.mp hvalues
    cases hvalues
    refine ⟨JsonText.sextetBytes ds, JsonText.sextetBytes es, ?_, ?_, ?_⟩
    · rw [if_pos (by simp), hds]
      rfl
    · rw [if_pos hpadding, hes]
      rfl
    · exact sextetBytes_append ds es (by rw [length_of_mapM hds, hlen])
  · cases h

variable {bs : Bytes} {out : List (Text × Bytes)}

theorem writeDecoded_run {path encoded : Text} {y x : Bytes} (h : decodeBase64 encoded = some x) :
    Run (writeDecoded path encoded) bs ((path, y) :: out) () bs ((path, y ++ x) :: out) := by
  unfold writeDecoded
  rw [h]
  exact append_run

/-- The loop over a string of base64: what the blocks wrote and what is left to be decoded. -/
theorem parseBase64_rounds (path : Text) (rest encoded : Text) (padded : Bool) (y z : Bytes)
    (hpadded : padded = true ↔ '=' ∈ encoded) (hlen : encoded.length < blockLength)
    (hz : decodeBase64 (encoded ++ rest) = some z) :
    ∃ final f x, Loop (base64Round path) (encoded, padded) (ascii rest ++ 34 :: bs)
        ((path, y) :: out) final (34 :: bs) ((path, y ++ x) :: out) ∧
      decodeBase64 final = some f ∧ z = x ++ f := by
  induction rest generalizing encoded padded y z with
  | nil =>
    rw [List.append_nil] at hz
    refine ⟨encoded, z, [], ?_, hz, rfl⟩
    rw [List.append_nil]
    exact Loop.last (Run.bind peek_run Run.pure)
  | cons c rest ih =>
    have hcode : isBase64Code c.toNat = true :=
      decodeBase64_codes hz (List.mem_append_right _ List.mem_cons_self)
    have hplain := isPlain_code hcode
    have hpad : (c.toNat == 61) = true ↔ c = '=' := by
      rw [beq_iff_eq]
      constructor
      · intro h
        rw [← Char.ofNat_toNat c, h]
      · rintro rfl
        rfl
    have hguard : (!isBase64Code c.toNat || (padded && c.toNat != 61)) = false := by
      rw [hcode, Bool.not_true, Bool.false_or, Bool.and_eq_false_iff]
      by_cases h : padded = true
      · right
        have hc := (decodeBase64_padded hz (hpadded.mp h)).1 c List.mem_cons_self
        rw [bne, hpad.mpr hc]
        rfl
      · exact .inl (Bool.eq_false_iff.mpr h)
    have hnext : (padded || c.toNat == 61) = true ↔ '=' ∈ encoded ++ [c] := by
      rw [Bool.or_eq_true, hpadded, hpad, List.mem_append, List.mem_singleton, eq_comm (a := c)]
    have hshape : encoded ++ c :: rest = (encoded ++ [c]) ++ rest := by
      rw [List.append_assoc, List.singleton_append]
    have hlength : (encoded ++ [c]).length = encoded.length + 1 := by
      rw [List.length_append, List.length_singleton]
    have hless : (ascii rest ++ 34 :: bs).length < (ascii (c :: rest) ++ 34 :: bs).length := by
      simp only [ascii, List.length_append, List.length_map, List.length_cons]
      omega
    have hhead : (ascii (c :: rest) ++ 34 :: bs).head? = some (byteOf c) := rfl
    rw [hshape] at hz
    by_cases hfull : (encoded ++ [c]).length = blockLength
    · have hgroups : (encoded ++ [c]).length % 4 = 0 := by
        rw [hfull]
        rfl
      by_cases hlast : (padded || c.toNat == 61) = true
      · obtain rfl := (decodeBase64_padded hz (hnext.mp hlast)).2 hgroups
        rw [List.append_nil] at hz
        refine ⟨[], [], z, Loop.next (n := ([], padded || c.toNat == 61)) ?_ hless
          (Loop.last (Run.bind peek_run Run.pure)), by decide, by rw [List.append_nil]⟩
        refine Run.bind peek_run ?_
        rw [hhead, if_neg fun heq => (byteOf_ne hplain).1 (Option.some.inj heq)]
        refine Run.bind (character_run hplain) ?_
        simp only [hguard, Bool.false_eq_true, if_false, Char.ofNat_toNat, hfull, if_true, hlast]
        refine Run.bind hold_run (Run.bind peek_run ?_)
        rw [if_neg fun hne => hne rfl]
        exact Run.bind (writeDecoded_run hz) Run.pure
      · obtain ⟨x, v, hx, hv, rfl⟩ := decodeBase64_split hgroups (fun h => hlast (hnext.mpr h)) hz
        have hempty : (padded || c.toNat == 61) = true ↔ '=' ∈ ([] : Text) :=
          ⟨fun h => absurd h hlast, fun h => absurd h List.not_mem_nil⟩
        obtain ⟨final, f, x', hloop, hf, rfl⟩ :=
          ih [] (padded || c.toNat == 61) (y ++ x) v hempty (by decide) hv
        refine ⟨final, f, x ++ x', ?_, hf, by rw [List.append_assoc]⟩
        rw [← List.append_assoc]
        refine Loop.next (n := ([], padded || c.toNat == 61)) ?_ hless hloop
        refine Run.bind peek_run ?_
        rw [hhead, if_neg fun heq => (byteOf_ne hplain).1 (Option.some.inj heq)]
        refine Run.bind (character_run hplain) ?_
        simp only [hguard, Bool.false_eq_true, if_false, Char.ofNat_toNat, hfull, if_true, hlast]
        exact Run.bind hold_run (Run.bind (writeDecoded_run hx) Run.pure)
    · obtain ⟨final, f, x, hloop, hf, rfl⟩ :=
        ih (encoded ++ [c]) (padded || c.toNat == 61) y z hnext (by omega) hz
      refine ⟨final, f, x, Loop.next (n := (encoded ++ [c], padded || c.toNat == 61)) ?_ hless
        hloop, hf, rfl⟩
      refine Run.bind peek_run ?_
      rw [hhead, if_neg fun heq => (byteOf_ne hplain).1 (Option.some.inj heq)]
      refine Run.bind (character_run hplain) ?_
      simp only [hguard, Bool.false_eq_true, if_false, Char.ofNat_toNat, hfull]
      exact Run.bind hold_run Run.pure

theorem parseBase64_run {path t : Text} {z : Bytes} (h : decodeBase64 t = some z) :
    Run (parseBase64 path) (34 :: (ascii t ++ 34 :: bs)) out () bs ((path, z) :: out) := by
  have hstart : false = true ↔ '=' ∈ ([] : Text) :=
    ⟨fun h => absurd h Bool.false_ne_true, fun h => absurd h List.not_mem_nil⟩
  obtain ⟨final, f, x, hloop, hf, rfl⟩ :=
    @parseBase64_rounds bs out path t [] false [] z hstart (by decide) h
  refine Run.bind (expect_run (by decide)) (Run.bind create_run (Run.bind (Loop.run hloop)
    (Run.bind take_run ?_)))
  by_cases hempty : final.isEmpty = true
  · rw [List.isEmpty_iff.mp hempty] at hf ⊢
    have hnil : decodeBase64 [] = some [] := by decide
    rw [hnil] at hf
    rw [← Option.some.inj hf, List.append_nil]
    exact Run.pure
  · rw [if_neg hempty]
    have hrun : Run (writeDecoded path final) bs ((path, [] ++ x) :: out) () bs
        ((path, [] ++ x ++ f) :: out) := writeDecoded_run hf
    exact hrun

end Base64

/-! ## Snapshots that are read -/

section Documents

variable {bs : Bytes} {out out' : List (Text × Bytes)}

theorem comma_run {first : Bool} :
    Run (comma first) ((if first then [] else [44]) ++ bs) out () bs out := by
  cases first with
  | true => exact Run.pure
  | false => exact expect_run (by decide)

theorem isAttachmentName_plain {name : Text} (h : isAttachmentName name = true) :
    name.all isPlain = true ∧ name.length = 32 := by
  rw [isAttachmentName, Bool.and_eq_true, beq_iff_eq, List.all_eq_true] at h
  refine ⟨List.all_eq_true.mpr fun c hc => ?_, h.1⟩
  have hle (a b : Char) : a ≤ b ↔ a.toNat ≤ b.toNat := UInt32.le_iff_toNat_le
  have hdigit := h.2 c hc
  simp only [Bool.or_eq_true, Bool.and_eq_true, decide_eq_true_eq, hle, Char.reduceToNat] at hdigit
  rw [isPlain_iff]
  omega

/-- A name and its base64, as they are written. -/
def memberBytes (f : Text × Text) (bs : Bytes) : Bytes :=
  34 :: (ascii f.1 ++ 34 :: 58 :: 34 :: (ascii f.2 ++ 34 :: bs))

/-- The members of `files` with their commas. -/
def joined : Bool → List (Text × Text) → Bytes → Bytes
  | _, [], bs => bs
  | first, f :: fs, bs => (if first then [] else [44]) ++ memberBytes f (joined false fs bs)

theorem memberBytes_less (first : Bool) (f : Text × Text) :
    bs.length < ((if first then [] else [44]) ++ memberBytes f bs).length := by
  simp only [memberBytes, List.length_append, List.length_cons]
  omega

theorem joined_head (first : Bool) (fs : List (Text × Text)) :
    (joined first fs (125 :: bs)).head?.any isSpace = false := by
  cases fs with
  | nil => exact (by decide : isSpace 125 = false)
  | cons f fs =>
    cases first with
    | true => exact (by decide : isSpace 34 = false)
    | false => exact (by decide : isSpace 44 = false)

theorem joined_open {first : Bool} {f : Text × Text} {fs : List (Text × Text)} :
    (joined first (f :: fs) bs).head? ≠ some 125 := by
  cases first with
  | true => exact (by decide : (some 34 : Option UInt8) ≠ some 125)
  | false => exact (by decide : (some 44 : Option UInt8) ≠ some 125)

/-- What `files` may hold, after these names. -/
structure Acceptable (names : List Text) (fs : List (Text × Text)) : Prop where
  distinct : (names ++ fs.map Prod.fst).Nodup
  count : names.length + fs.length ≤ MAX_FILES
  named : ∀ f ∈ fs, isAttachmentName f.1 = true
  decoded : ∀ f ∈ fs, (decodeBase64 f.2).isSome = true

theorem Acceptable.tail {names : List Text} {f : Text × Text} {fs : List (Text × Text)}
    (h : Acceptable names (f :: fs)) : Acceptable (names ++ [f.1]) fs := by
  refine ⟨?_, ?_, fun g hg => h.named g (List.mem_cons_of_mem f hg),
    fun g hg => h.decoded g (List.mem_cons_of_mem f hg)⟩
  · rw [List.append_assoc, List.singleton_append]
    exact h.distinct
  · have hcount := h.count
    rw [List.length_cons] at hcount
    rw [List.length_append, List.length_singleton]
    omega

theorem parseFiles_rounds (fs : List (Text × Text)) (names : List Text)
    (h : Acceptable names fs) : Loop fileRound names (joined names.isEmpty fs (125 :: bs)) out ()
      (125 :: bs) ((fs.map fileOutput).reverse ++ out) := by
  induction fs generalizing names out with
  | nil =>
    apply Loop.last
    exact Run.bind (peekNonSpace_run (joined_head _ _)) Run.pure
  | cons f fs ih =>
    have hname := h.named f List.mem_cons_self
    obtain ⟨hplain, hlength⟩ := isAttachmentName_plain hname
    obtain ⟨x, hx⟩ := Option.isSome_iff_exists.mp (h.decoded f List.mem_cons_self)
    have hnew : f.1 ∉ names := fun hmem =>
      (List.nodup_append.mp h.distinct).2.2 f.1 hmem f.1 List.mem_cons_self rfl
    have hcount := h.count
    rw [List.length_cons] at hcount
    have hguard : (!isAttachmentName f.1 || names.contains f.1 ||
        decide (MAX_FILES < names.length + 1)) = false := by
      have hcontains : names.contains f.1 = false := by
        rw [← Bool.not_eq_true, List.contains_iff_mem]
        exact hnew
      have hroom : ¬ MAX_FILES < names.length + 1 := by omega
      rw [hname, hcontains, decide_eq_false hroom]
      rfl
    have hlater : (names ++ [f.1]).isEmpty = false := by
      cases names <;> rfl
    have hrest := @ih ((attachmentPath f.1, x) :: out) (names ++ [f.1]) h.tail
    have houtput : fileOutput f = (attachmentPath f.1, x) := by
      rw [fileOutput, hx, Option.getD_some]
    rw [hlater] at hrest
    rw [List.map_cons, List.reverse_cons, houtput, List.append_assoc, List.singleton_append]
    refine Loop.next ?_ (memberBytes_less names.isEmpty f) hrest
    refine Run.bind (peekNonSpace_run (joined_head _ _)) ?_
    rw [if_neg joined_open]
    refine Run.bind comma_run (Run.bind (string_run hplain (Nat.le_of_eq hlength))
      (Run.bind hold_run ?_))
    rw [if_neg (by rw [hguard]; exact Bool.false_ne_true)]
    exact Run.bind (expect_run (by decide)) (Run.bind (parseBase64_run hx) Run.pure)

theorem parseFiles_run {fs : List (Text × Text)} (h : Acceptable [] fs) :
    Run parseFiles (123 :: joined true fs (125 :: bs)) out () bs
      ((fs.map fileOutput).reverse ++ out) :=
  Run.bind (expect_run (by decide)) (Run.bind (Loop.run (parseFiles_rounds fs [] h))
    (expect_run (by decide)))

/-- A field name with its colon. -/
def nameBytes (key : Text) (bs : Bytes) : Bytes := 34 :: (ascii key ++ 34 :: 58 :: bs)

def textBytes (t : Text) (bs : Bytes) : Bytes := 34 :: (ascii t ++ 34 :: bs)

/-- A field whose value is read. -/
theorem field_round {keys : List Text} {r r' : Snapshot} {key : Text} {value rest : Bytes}
    (hkey : key.all isPlain = true) (hlength : key.length ≤ 32)
    (hnew : keys.contains key = false)
    (hvalue : Run (parseField key r) value out r' rest out') :
    Run (fieldRound (keys, r)) ((if keys.isEmpty then [] else [44]) ++ nameBytes key value) out
      (.inl (keys ++ [key], r')) rest out' := by
  have hhead : ((if keys.isEmpty then [] else [44]) ++ nameBytes key value).head? =
      some (if keys.isEmpty then 34 else 44) := by
    cases keys.isEmpty <;> rfl
  have hspace : (some (if keys.isEmpty then 34 else 44) : Option UInt8).any isSpace = false := by
    cases keys.isEmpty <;> decide
  have hopen : (some (if keys.isEmpty then 34 else 44) : Option UInt8) ≠ some 125 := by
    cases keys.isEmpty <;> decide
  refine Run.bind (peekNonSpace_run (by rw [hhead]; exact hspace)) ?_
  rw [hhead, if_neg hopen]
  refine Run.bind comma_run (Run.bind (string_run hkey hlength) (Run.bind hold_run ?_))
  rw [if_neg (by rw [hnew]; exact Bool.false_ne_true)]
  exact Run.bind (expect_run (by decide)) (Run.bind hvalue Run.pure)

/-- The field in front of the others. -/
theorem field_next (keys : List Text) (key : Text) {r r' : Snapshot} {value rest bs : Bytes}
    {final : List Text × Snapshot} {out'' : List (Text × Bytes)}
    (hkey : key.all isPlain = true) (hlength : key.length ≤ 32)
    (hnew : keys.contains key = false)
    (hvalue : Run (parseField key r) value out r' rest out') (hless : rest.length ≤ value.length)
    (hrest : Loop fieldRound (keys ++ [key], r') rest out' final bs out'') :
    Loop fieldRound (keys, r) ((if keys.isEmpty then [] else [44]) ++ nameBytes key value) out
      final bs out'' := by
  refine Loop.next (field_round hkey hlength hnew hvalue) ?_ hrest
  simp only [nameBytes, List.length_append, List.length_cons]
  omega

theorem textBytes_less {t : Text} : bs.length ≤ (textBytes t bs).length := by
  simp only [textBytes, List.length_append, List.length_cons]
  omega

theorem joined_less (first : Bool) (fs : List (Text × Text)) :
    bs.length ≤ (joined first fs bs).length := by
  induction fs generalizing first with
  | nil => exact Nat.le_refl _
  | cons f fs ih => exact (ih false).trans (Nat.le_of_lt (memberBytes_less first f))

theorem format_run {r : Snapshot} :
    Run (parseField "format".toList r) (49 :: 44 :: bs) out r (44 :: bs) out := by
  rw [parseField, if_pos rfl]
  exact Run.bind (number_run (by decide)) Run.pure

theorem decoded_plain {t : Text} {x : Bytes} (h : decodeBase64 t = some x) :
    t.all isPlain = true :=
  List.all_eq_true.mpr fun _ hc => isPlain_code (decodeBase64_codes h hc)

theorem vmk_run {r : Snapshot} {t : Text} {x : Bytes} (hx : decodeBase64 t = some x)
    (hlen : x.length = 32) (ht : t.length ≤ 44) :
    Run (parseField "vmk".toList r) (34 :: (ascii t ++ 34 :: bs)) out { r with vmk := some x }
      bs out := by
  rw [parseField, if_neg (by decide), if_pos rfl]
  refine Run.bind (string_run (decoded_plain hx) ht) ?_
  simp only [hx]
  rw [if_neg (not_not.mpr hlen)]
  exact Run.pure

theorem hkdfSalt_run {r : Snapshot} {t : Text} {x : Bytes} (hx : decodeBase64 t = some x)
    (hlen : x.length = 16) (ht : t.length ≤ 24) :
    Run (parseField "hkdfSalt".toList r) (34 :: (ascii t ++ 34 :: bs)) out { r with salt := some t }
      bs out := by
  rw [parseField, if_neg (by decide), if_neg (by decide), if_pos rfl]
  refine Run.bind (string_run (decoded_plain hx) ht) ?_
  simp only [hx]
  rw [if_neg (not_not.mpr hlen)]
  exact Run.pure

theorem database_run {r : Snapshot} {t : Text} {x : Bytes} (hx : decodeBase64 t = some x) :
    Run (parseField "database".toList r) (34 :: (ascii t ++ 34 :: bs)) out r bs
      ((databasePath, x) :: out) := by
  rw [parseField, if_neg (by decide), if_neg (by decide), if_neg (by decide), if_pos rfl]
  exact Run.bind (parseBase64_run hx) Run.pure

theorem files_run {r : Snapshot} {fs : List (Text × Text)} (h : Acceptable [] fs) :
    Run (parseField "files".toList r) (123 :: joined true fs (125 :: bs)) out r bs
      ((fs.map fileOutput).reverse ++ out) := by
  rw [parseField, if_neg (by decide), if_neg (by decide), if_neg (by decide),
    if_neg (by decide), if_pos rfl]
  exact Run.bind (parseFiles_run h) Run.pure

/-- The digits of a base64 text of `n` bytes. -/
theorem sextetBytes_length (ds : List Nat) :
    (JsonText.sextetBytes ds).length = ds.length * 3 / 4 := by
  induction ds using JsonText.sextetBytes.induct with
  | case1 a b c d r ih =>
    simp only [JsonText.sextetBytes, List.length_cons, ih]
    omega
  | case2 a b c => simp [JsonText.sextetBytes]
  | case3 a b => simp [JsonText.sextetBytes]
  | case4 r h₄ h₃ h₂ =>
    rcases r with _ | ⟨w, _ | ⟨x, _ | ⟨y, _ | ⟨z, r⟩⟩⟩⟩
    · rfl
    · simp [JsonText.sextetBytes]
    · exact absurd rfl (h₂ w x)
    · exact absurd rfl (h₃ w x y)
    · exact absurd rfl (h₄ w x y z r)

/-- Digits and padding fill no more than the groups of four. -/
theorem groups_length {digits padding : Nat} (hmod : digits % 4 ≠ 1)
    (hpadding : padding = 0 ∨ digits % 4 + padding = 4) (hmost : padding ≤ 2) :
    digits + padding ≤ (digits * 3 / 4 + 2) / 3 * 4 := by
  obtain ⟨k, r, hr, rfl⟩ : ∃ k r, r < 4 ∧ digits = 4 * k + r :=
    ⟨digits / 4, digits % 4, Nat.mod_lt _ (by decide), (Nat.div_add_mod digits 4).symm⟩
  have hrest : (4 * k + r) % 4 = r := by omega
  rw [hrest] at hmod hpadding
  interval_cases r
  · omega
  · exact absurd rfl hmod
  · omega
  · omega

theorem decodeBase64_length {t : Text} {x : Bytes} (h : decodeBase64 t = some x) :
    t.length ≤ (x.length + 2) / 3 * 4 := by
  have hdigits : ∃ ds : List Nat, ds.length = (t.takeWhile (· != '=')).length ∧
      JsonText.sextetBytes ds = x ∧ ((t.takeWhile (· != '=')).length % 4,
        t.drop (t.takeWhile (· != '=')).length) ∈
          [(0, []), (2, []), (3, []), (2, ['=', '=']), (3, ['='])] := by
    unfold decodeBase64 at h
    simp only at h
    split at h
    · rename_i hpadding
      obtain ⟨ds, hds, hx⟩ := Option.map_eq_some_iff.mp h
      exact ⟨ds, length_of_mapM hds, hx, hpadding⟩
    · cases h
  obtain ⟨ds, hlen, rfl, hpadding⟩ := hdigits
  obtain ⟨-, hpads, hmost⟩ := padding_pads hpadding
  have hdrop : (t.drop (t.takeWhile (· != '=')).length).length =
      t.length - (t.takeWhile (· != '=')).length := List.length_drop
  have hmod : (t.takeWhile (· != '=')).length % 4 ≠ 1 := by
    intro hone
    rw [hone] at hpadding
    simp at hpadding
  have hfront := (List.takeWhile_prefix (l := t) (· != '=')).length_le
  have hgroups := @groups_length _ (t.length - (t.takeWhile (· != '=')).length) hmod (by
    rcases hpads with hnil | hfour
    · rw [hnil, List.length_nil] at hdrop
      exact .inl hdrop.symm
    · rw [hdrop] at hfour
      exact .inr hfour)
  rw [sextetBytes_length, hlen]
  omega

end Documents

/-! ## The JSON of a snapshot -/

section Json

open StorageExport (Snapshot.json)

variable {bs : Bytes} {out : List (Text × Bytes)}

theorem ascii_append (s t : Text) : ascii (s ++ t) = ascii s ++ ascii t := List.map_append

theorem ascii_cons (c : Char) (t : Text) : ascii (c :: t) = byteOf c :: ascii t := rfl

/-- Members in front of which there is a comma. -/
def commaMembers (fs : List (Text × Text)) : Text := fs.flatMap fun f => ',' :: memberJson f

theorem intercalate_members (f : Text × Text) (fs : List (Text × Text)) :
    [','].intercalate ((f :: fs).map memberJson) = memberJson f ++ commaMembers fs := by
  induction fs generalizing f with
  | nil => rw [List.map_singleton, List.intercalate_singleton, commaMembers, List.flatMap_nil,
      List.append_nil]
  | cons g fs ih =>
    rw [List.map_cons, List.map_cons, List.intercalate_cons_cons, ← List.map_cons, ih g,
      commaMembers, commaMembers, List.flatMap_cons, List.append_assoc, List.singleton_append,
      List.cons_append]

theorem ascii_memberJson (f : Text × Text) : ascii (memberJson f) ++ bs = memberBytes f bs := by
  have hquote : byteOf '"' = 34 := rfl
  have hcolon : byteOf ':' = 58 := rfl
  have hnil : ascii [] = [] := rfl
  simp only [memberJson, memberBytes, ascii_append, ascii_cons, hquote, hcolon, hnil,
    List.append_assoc, List.cons_append, List.nil_append]

theorem ascii_commaMembers (fs : List (Text × Text)) :
    ascii (commaMembers fs) ++ bs = joined false fs bs := by
  induction fs with
  | nil => rfl
  | cons f fs ih =>
    have hcomma : byteOf ',' = 44 := rfl
    rw [commaMembers, List.flatMap_cons, ascii_append, ascii_cons, hcomma, List.append_assoc,
      List.cons_append, ascii_memberJson]
    show 44 :: memberBytes f (ascii (commaMembers fs) ++ bs) = _
    rw [ih]
    rfl

theorem ascii_members (fs : List (Text × Text)) :
    ascii ([','].intercalate (fs.map memberJson)) ++ bs = joined true fs bs := by
  cases fs with
  | nil => rfl
  | cons f fs =>
    rw [intercalate_members, ascii_append, List.append_assoc, ascii_commaMembers, ascii_memberJson]
    rfl

theorem ascii_json (s : StorageExport.Snapshot) : ascii s.json =
    123 :: nameBytes "format".toList (49 :: 44 :: nameBytes "vmk".toList (textBytes s.vmk
      (44 :: nameBytes "hkdfSalt".toList (textBytes s.hkdfSalt
        (44 :: nameBytes "database".toList (textBytes s.database
          (44 :: nameBytes "files".toList (123 :: joined true s.files (125 :: [125]))))))))) := by
  have hvmk : ascii vmkKey = 123 :: nameBytes "format".toList (49 :: 44 ::
      nameBytes "vmk".toList [34]) := by decide
  have hsalt : ascii hkdfSaltKey = 34 :: 44 :: nameBytes "hkdfSalt".toList [34] := by decide
  have hdatabase : ascii databaseKey = 34 :: 44 :: nameBytes "database".toList [34] := by decide
  have hfiles : ascii filesKey = 34 :: 44 :: nameBytes "files".toList [123] := by decide
  have hclose : ascii closingBraces = [125, 125] := by decide
  simp only [StorageExport.Snapshot.json, ascii_append, hvmk, hsalt, hdatabase, hfiles, hclose,
    List.append_assoc, ascii_members, nameBytes, textBytes, List.cons_append, List.nil_append]

/-- The desktop's JSON, and that of Android, is read back. -/
theorem parseSnapshot_run (s : StorageExport.Snapshot) {vmk salt database : Bytes}
    (hvmk : decodeBase64 s.vmk = some vmk) (hvmkLength : vmk.length = 32)
    (hsalt : decodeBase64 s.hkdfSalt = some salt) (hsaltLength : salt.length = 16)
    (hdatabase : decodeBase64 s.database = some database) (hfiles : Acceptable [] s.files) :
    Run parseSnapshot (ascii s.json) [] ⟨some vmk, some s.hkdfSalt⟩ []
      ((s.files.map fileOutput).reverse ++ [(databasePath, database)]) := by
  have hvmkText : s.vmk.length ≤ 44 := by
    have := decodeBase64_length hvmk
    omega
  have hsaltText : s.hkdfSalt.length ≤ 24 := by
    have := decodeBase64_length hsalt
    omega
  have hend : Loop fieldRound (keys, ⟨some vmk, some s.hkdfSalt⟩) [125]
      ((s.files.map fileOutput).reverse ++ [(databasePath, database)])
      (keys, ⟨some vmk, some s.hkdfSalt⟩) [125]
      ((s.files.map fileOutput).reverse ++ [(databasePath, database)]) :=
    Loop.last (Run.bind (peekNonSpace_run (by decide)) Run.pure)
  have hfrom₅ := field_next mandatory "files".toList (by decide) (by decide) (by decide)
    (files_run hfiles) (by
      have := @joined_less (125 :: [125]) true s.files
      simp only [List.length_cons, List.length_nil] at this ⊢
      omega) hend
  have hfrom₄ := field_next ["format".toList, "vmk".toList, "hkdfSalt".toList] "database".toList
    (by decide) (by decide) (by decide) (database_run hdatabase) textBytes_less hfrom₅
  have hfrom₃ := field_next ["format".toList, "vmk".toList] "hkdfSalt".toList (by decide)
    (by decide) (by decide) (hkdfSalt_run (r := ⟨some vmk, none⟩) hsalt hsaltLength hsaltText)
    textBytes_less hfrom₄
  have hfrom₂ := field_next ["format".toList] "vmk".toList (by decide) (by decide) (by decide)
    (vmk_run (r := ⟨none, none⟩) hvmk hvmkLength hvmkText) textBytes_less hfrom₃
  have hfrom₁ := field_next [] "format".toList (by decide) (by decide) (by decide)
    (format_run (r := ⟨none, none⟩)) (by simp) hfrom₂
  simp only [mandatory, List.isEmpty_nil, List.isEmpty_cons, if_true, Bool.false_eq_true, if_false,
    List.nil_append, List.cons_append] at hfrom₁
  have hall : Run (repeatReading fieldRound ([], ⟨none, none⟩)) _ [] _ _ _ := Loop.run hfrom₁
  rw [ascii_json]
  refine Run.bind (expect_run (by decide)) (Run.bind hall
    (Run.bind (expect_run (by decide)) (Run.bind (peekNonSpace_run rfl) ?_)))
  rw [if_neg (by decide)]
  exact Run.pure

end Json

/-! ## What is encoded is read -/

section RoundTrip

theorem escape_plain {c : Char} (h : isPlain c = true) : escape c = [c] := by
  obtain ⟨hlow, -, hquote, hslash⟩ := isPlain_iff.mp h
  have hne (d : Char) (hd : c.toNat ≠ d.toNat) : c ≠ d := fun heq => hd (congrArg Char.toNat heq)
  rw [escape, if_neg (hne '"' hquote), if_neg (hne '\\' hslash), if_neg (by omega),
    if_neg (by omega), if_neg (by omega), if_neg (by omega), if_neg (by omega), if_neg (by omega)]

theorem quote_plain {t : Text} (h : t.all isPlain = true) : quote t = '"' :: (t ++ ['"']) := by
  have hflat : t.flatMap escape = t := by
    induction t with
    | nil => rfl
    | cons c t ih =>
      rw [List.all_cons, Bool.and_eq_true] at h
      rw [List.flatMap_cons, escape_plain h.1, ih h.2, List.singleton_append]
  rw [quote, hflat]

theorem base64_plain (x : Bytes) : (base64 x).all isPlain = true :=
  decoded_plain (JsonText.decodeBase64_base64 x)

/-- The members that `encode` writes. -/
def exported (entries : List Entry) : List (Text × Text) :=
  (entries.filter fun e => isAttachmentName e.name).map fun e => (e.name, base64 e.content)

def membersText : Bool → List (Text × Text) → Text
  | true, f :: fs => memberJson f ++ commaMembers fs
  | true, [] => []
  | false, fs => commaMembers fs

theorem membersText_true (fs : List (Text × Text)) :
    membersText true fs = [','].intercalate (fs.map memberJson) := by
  cases fs with
  | nil => rfl
  | cons f fs => rw [membersText, intercalate_members]

theorem limited_ok {json json' : Text} (h : limited json = .ok json') :
    json' = json ∧ (utf8 json).length ≤ MAX_PLAINTEXT := by
  unfold limited at h
  split at h
  · cases h
  · rename_i hlimit
    exact ⟨(Except.ok.inj h).symm, Nat.not_lt.mp hlimit⟩

theorem encodeFiles_ok {entries : List Entry} {count : Nat} {json json' : Text}
    (hcount : count ≤ MAX_FILES) (h : encodeFiles entries count json = .ok json') :
    json' = json ++ membersText (count == 0) (exported entries) ∧
      count + (exported entries).length ≤ MAX_FILES := by
  induction entries generalizing count json with
  | nil =>
    rw [encodeFiles] at h
    rw [← Except.ok.inj h]
    refine ⟨?_, hcount⟩
    cases count == 0 <;> exact (List.append_nil json).symm
  | cons file rest ih =>
    rw [encodeFiles] at h
    by_cases hname : isAttachmentName file.name = true
    · rw [if_neg (by rw [hname]; decide)] at h
      split at h
      · cases h
      split at h
      · cases h
      rename_i hroom
      split at h
      · cases h
      rename_i next hnext
      obtain ⟨hwritten, -⟩ := limited_ok hnext
      obtain ⟨hrest, hlength⟩ := ih (by omega) h
      have hexported : exported (file :: rest) =
          (file.name, base64 file.content) :: exported rest := by
        simp only [exported, List.filter_cons, hname, if_true, List.map_cons]
      have hlater : (count + 1 == 0) = false := rfl
      rw [hexported]
      refine ⟨?_, by rw [List.length_cons]; omega⟩
      rw [hrest, hwritten, quote_plain (isAttachmentName_plain hname).1, hlater]
      by_cases hfirst : count = 0
      · simp only [hfirst, if_true, beq_self_eq_true, membersText, memberJson, List.append_assoc,
          List.nil_append, List.cons_append]
      · have hcomma : (count == 0) = false := beq_eq_false_iff_ne.mpr hfirst
        simp only [hfirst, if_false, hcomma, membersText, commaMembers, List.flatMap_cons,
          memberJson, List.append_assoc, List.nil_append, List.cons_append]
    · rw [if_pos (by rw [Bool.eq_false_iff.mpr hname]; decide)] at h
      have hexported : exported (file :: rest) = exported rest := by
        simp only [exported, List.filter_cons, hname, Bool.false_eq_true, if_false]
      rw [hexported]
      exact ih hcount h

/-- The state as the desktop writes it. -/
def snapshotOf (database vmk : Bytes) (hkdfSalt : Text) (files : List (Text × Text)) :
    StorageExport.Snapshot := ⟨base64 vmk, hkdfSalt, base64 database, files⟩

theorem bind_ok {α β : Type} {x : Except String α} {f : α → Except String β} {b : β}
    (h : x >>= f = .ok b) : ∃ a, x = .ok a ∧ f a = .ok b := by
  cases x with
  | error e => cases h
  | ok a => exact ⟨a, rfl, h⟩

theorem recut (a v b s c d f : Text) :
    a ++ '"' :: (v ++ ['"']) ++ b ++ '"' :: (s ++ ['"']) ++ c ++ d ++ f =
      a ++ ['"'] ++ v ++ '"' :: (b ++ ['"']) ++ s ++ '"' :: c ++ d ++ f := by
  simp only [List.append_assoc, List.cons_append, List.nil_append]

/-- The pieces of the two texts are cut in different places. -/
theorem opening_plain {database vmk : Bytes} {hkdfSalt : Text}
    (hsalt : hkdfSalt.all isPlain = true) : opening database vmk hkdfSalt =
      vmkKey ++ base64 vmk ++ hkdfSaltKey ++ hkdfSalt ++ databaseKey ++ base64 database ++
        filesKey := by
  have hvmk : "\x7b\"format\":1,\"vmk\":".toList ++ ['"'] = vmkKey := by decide
  have hsaltKey : '"' :: (",\"hkdfSalt\":".toList ++ ['"']) = hkdfSaltKey := by decide
  have hdatabase : '"' :: ",\"database\":\"".toList = databaseKey := by decide
  unfold opening
  rw [← hvmk, ← hsaltKey, ← hdatabase, ← recut, ← quote_plain (base64_plain vmk),
    ← quote_plain hsalt]

/-- Both programs write one JSON. -/
theorem encodeJson_ok {database vmk : Bytes} {attachments : Directory} {hkdfSalt json : Text}
    (hsalt : hkdfSalt.all isPlain = true)
    (h : encodeJson database attachments vmk hkdfSalt = .ok json) :
    json = (snapshotOf database vmk hkdfSalt (exported attachments.entries)).json ∧
      (utf8 json).length ≤ MAX_PLAINTEXT ∧ (exported attachments.entries).length ≤ MAX_FILES := by
  obtain ⟨start, hstart, h⟩ := bind_ok h
  obtain ⟨files, hfiles, h⟩ := bind_ok h
  obtain ⟨rfl, -⟩ := limited_ok hstart
  obtain ⟨rfl, hcount⟩ := encodeFiles_ok (Nat.zero_le _) hfiles
  obtain ⟨rfl, hlimit⟩ := limited_ok h
  refine ⟨?_, hlimit, by omega⟩
  have hfirst : membersText (0 == 0) (exported attachments.entries) =
      [','].intercalate ((exported attachments.entries).map memberJson) := membersText_true _
  rw [hfirst, opening_plain hsalt, snapshotOf, StorageExport.Snapshot.json]

end RoundTrip

/-! ## The codec -/

section Codec

def isAscii (c : Char) : Bool := c.toNat < 128

theorem utf8_ascii {t : Text} (h : t.all isAscii = true) : utf8 t = ascii t := by
  induction t with
  | nil => rfl
  | cons c t ih =>
    rw [List.all_cons, Bool.and_eq_true] at h
    have hlt : c.toNat < 128 := by
      have := h.1
      simpa [isAscii] using this
    have hsmall : c.val.toNat ≤ 127 := Nat.le_of_lt_succ hlt
    have hone : String.utf8EncodeChar c = [byteOf c] := by
      unfold String.utf8EncodeChar
      simp only [hsmall, if_true]
      rfl
    rw [utf8, List.flatMap_cons, hone, List.singleton_append]
    show byteOf c :: utf8 t = _
    rw [ih h.2]
    rfl

theorem plain_ascii {t : Text} (h : t.all isPlain = true) : t.all isAscii = true :=
  List.all_eq_true.mpr fun c hc =>
    decide_eq_true (isPlain_iff.mp (List.all_eq_true.mp h c hc)).2.1

theorem memberJson_ascii {f : Text × Text} (hname : f.1.all isPlain = true)
    (htext : f.2.all isPlain = true) : (memberJson f).all isAscii = true := by
  have hquote : isAscii '"' = true := rfl
  have hcolon : isAscii ':' = true := rfl
  simp only [memberJson, List.all_append, List.all_cons, List.all_nil, plain_ascii hname,
    plain_ascii htext, hquote, hcolon, Bool.and_true]

theorem commaMembers_ascii {fs : List (Text × Text)}
    (h : ∀ f ∈ fs, (memberJson f).all isAscii = true) : (commaMembers fs).all isAscii = true := by
  rw [commaMembers, List.all_flatMap, List.all_eq_true]
  intro f hf
  rw [List.all_cons, h f hf]
  rfl

theorem members_ascii {fs : List (Text × Text)}
    (h : ∀ f ∈ fs, (memberJson f).all isAscii = true) :
    ([','].intercalate (fs.map memberJson)).all isAscii = true := by
  cases fs with
  | nil => rfl
  | cons f fs =>
    rw [intercalate_members, List.all_append, h f List.mem_cons_self,
      commaMembers_ascii fun g hg => h g (List.mem_cons_of_mem f hg)]
    rfl

theorem json_ascii {database vmk : Bytes} {hkdfSalt : Text} {fs : List (Text × Text)}
    (hsalt : hkdfSalt.all isPlain = true)
    (hfs : ∀ f ∈ fs, f.1.all isPlain = true ∧ f.2.all isPlain = true) :
    (snapshotOf database vmk hkdfSalt fs).json.all isAscii = true := by
  have hvmk : vmkKey.all isAscii = true := by decide
  have hsaltKey : hkdfSaltKey.all isAscii = true := by decide
  have hdatabase : databaseKey.all isAscii = true := by decide
  have hfiles : filesKey.all isAscii = true := by decide
  have hclose : closingBraces.all isAscii = true := by decide
  have hmembers := members_ascii fun f hf => memberJson_ascii (hfs f hf).1 (hfs f hf).2
  simp only [StorageExport.Snapshot.json, snapshotOf, List.all_append, hvmk, hsaltKey, hdatabase,
    hfiles, hclose, hmembers, plain_ascii hsalt, plain_ascii (base64_plain vmk),
    plain_ascii (base64_plain database), Bool.and_true]

theorem members_length (fs : List (Text × Text)) :
    ([','].intercalate (fs.map memberJson)).length =
      (fs.map fun f => (memberJson f).length + 1).sum - 1 := by
  cases fs with
  | nil => rfl
  | cons f fs =>
    have hcommas : (commaMembers fs).length = (fs.map fun f => (memberJson f).length + 1).sum := by
      rw [commaMembers, List.length_flatMap]
      rfl
    rw [intercalate_members, List.length_append, hcommas, List.map_cons, List.sum_cons]
    omega

/-- The order of the files does not change the length. -/
theorem json_length_perm {database vmk : Bytes} {hkdfSalt : Text} {fs gs : List (Text × Text)}
    (h : fs.Perm gs) : (snapshotOf database vmk hkdfSalt fs).json.length =
      (snapshotOf database vmk hkdfSalt gs).json.length := by
  rw [StorageExport.json_length, StorageExport.json_length]
  simp only [snapshotOf, members_length, (h.map fun f => (memberJson f).length + 1).sum_eq]

/-- The stage has the database and the files, and nothing else. -/
def Recreated (r : EStateM.Result String Parser Snapshot) (database : Bytes)
    (attachments : Directory) (vmk : Bytes) (hkdfSalt : Text) : Prop :=
  ∃ p, r = .ok ⟨some vmk, some hkdfSalt⟩ p ∧ content p.log databasePath = some database ∧
    (∀ e ∈ attachments.entries, isAttachmentName e.name = true →
      content p.log (attachmentPath e.name) = some e.content) ∧
    ∀ path, (content p.log path).isSome = true → path = databasePath ∨
      ∃ e ∈ attachments.entries, isAttachmentName e.name = true ∧ path = attachmentPath e.name

theorem ne_of_head {a b t : Text} {c d : Char} (ha : a.head? = some c) (hb : b.head? = some d)
    (hcd : c ≠ d) : a ++ t ≠ b := by
  rintro rfl
  rw [List.head?_append, ha] at hb
  exact hcd (Option.some.inj hb)

theorem attachmentPath_ne (name : Text) : attachmentPath name ≠ databasePath :=
  ne_of_head (c := 'a') (d := 'd') (by decide) (by decide) (by decide)

theorem lookup_of_mem {α β : Type} [BEq α] [LawfulBEq α] {l : List (α × β)} {k : α} {v : β}
    (hnodup : (l.map Prod.fst).Nodup) (h : (k, v) ∈ l) : l.lookup k = some v := by
  induction l with
  | nil => exact absurd h List.not_mem_nil
  | cons x l ih =>
    rw [List.map_cons, List.nodup_cons] at hnodup
    rcases List.mem_cons.mp h with rfl | h
    · exact List.lookup_cons_self
    · have hne : (k == x.1) = false := by
        rw [beq_eq_false_iff_ne]
        rintro rfl
        exact hnodup.1 (List.mem_map.mpr ⟨_, h, rfl⟩)
      rw [List.lookup_cons, hne]
      exact ih hnodup.2 h

theorem mem_of_lookup {α β : Type} [BEq α] [LawfulBEq α] {l : List (α × β)} {k : α} {v : β}
    (h : l.lookup k = some v) : (k, v) ∈ l := by
  induction l with
  | nil => cases h
  | cons x l ih =>
    rw [List.lookup_cons] at h
    by_cases hx : k = x.1
    · rw [beq_iff_eq.mpr hx] at h
      cases h
      rw [hx]
      exact List.mem_cons_self
    · rw [beq_eq_false_iff_ne.mpr hx] at h
      exact List.mem_cons_of_mem x (ih h)

theorem mem_exported {entries : List Entry} {f : Text × Text} : f ∈ exported entries ↔
    ∃ e ∈ entries, isAttachmentName e.name = true ∧ f = (e.name, base64 e.content) := by
  simp only [exported, List.mem_map, List.mem_filter]
  constructor
  · rintro ⟨e, ⟨he, hname⟩, rfl⟩
    exact ⟨e, he, hname, rfl⟩
  · rintro ⟨e, he, hname, rfl⟩
    exact ⟨e, ⟨he, hname⟩, rfl⟩

theorem exported_nodup (attachments : Directory) :
    ((exported attachments.entries).map Prod.fst).Nodup := by
  rw [exported, List.map_map]
  exact (List.filter_sublist.map Entry.name).nodup attachments.distinct

/-- Any order of the files, from either program, is read into the same stage. -/
theorem decode_recreates {gunzip : Bytes → Option Inflated} {database vmk : Bytes}
    {attachments : Directory} {hkdfSalt : Text} {salt z : Bytes} {fs : List (Text × Text)}
    (hvmk : vmk.length = 32) (hsalt : decodeBase64 hkdfSalt = some salt)
    (hlength : salt.length = 16) (hfs : fs.Perm (exported attachments.entries))
    (hcount : (exported attachments.entries).length ≤ MAX_FILES)
    (hlimit : (ascii (snapshotOf database vmk hkdfSalt fs).json).length ≤ MAX_PLAINTEXT)
    (hz : gunzip z = some ⟨ascii (snapshotOf database vmk hkdfSalt fs).json, false⟩) :
    Recreated (decode gunzip z) database attachments vmk hkdfSalt := by
  have hnodup : (fs.map Prod.fst).Nodup :=
    (hfs.map Prod.fst).nodup_iff.mpr (exported_nodup attachments)
  have hmem {f : Text × Text} : f ∈ fs ↔ ∃ e ∈ attachments.entries,
      isAttachmentName e.name = true ∧ f = (e.name, base64 e.content) := by
    rw [hfs.mem_iff, mem_exported]
  have hacceptable : Acceptable [] fs := by
    refine ⟨hnodup, by rw [List.length_nil, Nat.zero_add, hfs.length_eq]; exact hcount, ?_, ?_⟩
    · intro f hf
      obtain ⟨e, -, hname, rfl⟩ := hmem.mp hf
      exact hname
    · intro f hf
      obtain ⟨e, -, -, rfl⟩ := hmem.mp hf
      rw [JsonText.decodeBase64_base64]
      rfl
  obtain ⟨p, hrun, -, -, -, hcontent⟩ := parseSnapshot_run (snapshotOf database vmk hkdfSalt fs)
    (JsonText.decodeBase64_base64 vmk) hvmk hsalt hlength (JsonText.decodeBase64_base64 database)
    hacceptable (Inflated.parser ⟨ascii (snapshotOf database vmk hkdfSalt fs).json, false⟩)
    ⟨rfl, by rw [Inflated.parser, Nat.zero_add]; exact hlimit, rfl, fun _ => rfl⟩
  have houtput (e : Entry) : fileOutput (e.name, base64 e.content) =
      (attachmentPath e.name, e.content) := by
    rw [fileOutput, JsonText.decodeBase64_base64, Option.getD_some]
  have hkeys :
      (((fs.map fileOutput).reverse ++ [(databasePath, database)]).map Prod.fst).Nodup := by
    rw [List.map_append, List.map_reverse, List.map_map, List.map_singleton, List.nodup_append]
    refine ⟨List.nodup_reverse.mpr ?_, List.nodup_singleton _, ?_⟩
    · have hpaths : fs.map (Prod.fst ∘ fileOutput) = (fs.map Prod.fst).map attachmentPath := by
        rw [List.map_map]
        rfl
      rw [hpaths]
      exact hnodup.map fun a b h => List.append_cancel_left h
    · intro a ha b hb
      obtain ⟨f, -, rfl⟩ := List.mem_map.mp (List.mem_reverse.mp ha)
      rw [List.mem_singleton.mp hb]
      exact attachmentPath_ne f.1
  refine ⟨p, ?_, ?_, ?_, ?_⟩
  · rw [decode, hz]
    exact hrun
  · rw [hcontent]
    exact lookup_of_mem hkeys (List.mem_append_right _ (List.mem_singleton_self _))
  · intro e he hname
    rw [hcontent]
    apply lookup_of_mem hkeys
    apply List.mem_append_left
    rw [List.mem_reverse, List.mem_map]
    exact ⟨_, hmem.mpr ⟨e, he, hname, rfl⟩, houtput e⟩
  · intro path hpath
    rw [hcontent] at hpath
    obtain ⟨x, hx⟩ := Option.isSome_iff_exists.mp hpath
    rcases List.mem_append.mp (mem_of_lookup hx) with h | h
    · obtain ⟨f, hf, heq⟩ := List.mem_map.mp (List.mem_reverse.mp h)
      obtain ⟨e, he, hname, rfl⟩ := hmem.mp hf
      rw [houtput] at heq
      exact .inr ⟨e, he, hname, (congrArg Prod.fst heq).symm⟩
    · exact .inl (congrArg Prod.fst (List.mem_singleton.mp h))

/-- What is left of a decoder, whether it returns or throws. -/
def Harmless (p : Parser) : Prop := p.held ≤ mostHeld ∧ ∀ w ∈ p.log, Confined w.path

/-- The bytes are a document, each field of which is there once and has the value returned. -/
def Accepted (bs : Bytes) (result : Snapshot) (p : Parser) : Prop :=
  ∃ fs, Document fs bs ∧ (fs.map Field.key).Nodup ∧ mandatory ⊆ fs.map Field.key ∧
    result = results fs ⟨none, none⟩ ∧ ∀ path, content p.log path = (outputs fs).lookup path

theorem harmless_of_step {z : Inflated} {p : Parser} (h : Step z.parser p) : Harmless p := by
  obtain ⟨hheld, ws, hlog, hws⟩ := h
  refine ⟨hheld (Nat.zero_le _), fun w hw => hws w ?_⟩
  have hstart : z.parser.log = [] := rfl
  rwa [hlog, hstart, List.append_nil] at hw

theorem decode_all (gunzip : Bytes → Option Inflated) (z : Bytes) :
    match decode gunzip z with
    | .ok result p => Harmless p ∧ ∃ i, gunzip z = some i ∧ Accepted i.bytes result p
    | .error e p => Harmless p ∧ e ≠ outOfRounds := by
  cases hz : gunzip z with
  | none =>
    simp only [decode, hz]
    exact ⟨⟨Nat.zero_le _, fun _ h => absurd h List.not_mem_nil⟩, by decide⟩
  | some i =>
    have hspec := parseSnapshot_spec i.parser
    simp only [decode, hz]
    cases hrun : parseSnapshot i.parser with
    | error e p =>
      rw [hrun] at hspec
      exact ⟨harmless_of_step hspec.1, hspec.2⟩
    | ok result p =>
      rw [hrun] at hspec
      obtain ⟨hstep, fs, hdocument, hnodup, hall, hresult, hleaves⟩ := hspec
      refine ⟨harmless_of_step hstep, i, rfl, fs, hdocument, hnodup, hall, hresult, fun path => ?_⟩
      rw [hleaves path]
      exact Option.or_none

def stored (x : Bytes) : Option Inflated := some ⟨x, false⟩

def noAttachments : Directory := ⟨[], List.nodup_nil⟩

def someKey : Bytes := List.replicate 32 7

def someSalt : Text := base64 (List.replicate 16 9)

/-- A database in base64 whose last digit has bits left over. -/
def sloppy : StorageExport.Snapshot := ⟨base64 someKey, someSalt, "QR==".toList, []⟩

end Codec

end SnapshotCodec
