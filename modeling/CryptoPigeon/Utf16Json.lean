import CryptoPigeon.JsonText
import CryptoPigeon.LoginSignature

/-! # JSON texts of UTF-16 strings

How strings of UTF-16 units, integers and arrays of them are written as JSON, what a reader makes
of such a text, and when its UTF-8 determines it. A writer is any function that spells the units
one by one; the reader does not depend on which escapes it prefers. -/
namespace Utf16Json

open LoginSignature (Text isHigh isLow utf8 encode encode_unit encode_pair utf8_ascii utf8_other)

/-- No surrogate without its other half. -/
inductive WellFormed : Text → Prop
  | nil : WellFormed []
  | unit {u : UInt16} {s : Text} : isHigh u = false → isLow u = false → WellFormed s →
      WellFormed (u :: s)
  | pair {u v : UInt16} {s : Text} : isHigh u = true → isLow v = true → WellFormed s →
      WellFormed (u :: v :: s)

section Bytes

variable {lone lone' : Nat} {s t : Text} {u v : UInt16}

theorem WellFormed.append (hs : WellFormed s) (ht : WellFormed t) : WellFormed (s ++ t) := by
  induction hs with
  | nil => exact ht
  | unit hhigh hlow _ ih => exact .unit hhigh hlow ih
  | pair hhigh hlow _ ih => exact .pair hhigh hlow ih

/-- ASCII has no surrogates. -/
theorem wellFormed_ascii (h : ∀ u ∈ s, u.toNat < 128) : WellFormed s := by
  induction s with
  | nil => exact .nil
  | cons u s ih =>
    obtain ⟨hhigh, hlow⟩ := LoginSignature.ascii_not_surrogate (h u List.mem_cons_self)
    exact .unit hhigh hlow (ih fun v hv => h v (List.mem_cons_of_mem u hv))

/-- Only a surrogate without its other half shows how such ones are written. -/
theorem encode_eq (h : WellFormed s) : encode lone s = encode lone' s := by
  induction h with
  | nil => rfl
  | unit hhigh hlow _ ih => rw [encode_unit hhigh hlow, encode_unit hhigh hlow, ih]
  | pair hhigh hlow _ ih => rw [encode_pair hhigh hlow, encode_pair hhigh hlow, ih]

/-- The code point at the front of a UTF-8 text. -/
def readPoint : List Nat → Option (Nat × List Nat)
  | [] => none
  | a :: r =>
    if a < 0x80 then some (a, r)
    else if a < 0xE0 then
      match r with
      | b :: r => some ((a - 0xC0) * 64 + (b - 0x80), r)
      | _ => none
    else if a < 0xF0 then
      match r with
      | b :: c :: r => some ((a - 0xE0) * 4096 + (b - 0x80) * 64 + (c - 0x80), r)
      | _ => none
    else
      match r with
      | b :: c :: d :: r =>
        some ((a - 0xF0) * 262144 + (b - 0x80) * 4096 + (c - 0x80) * 64 + (d - 0x80), r)
      | _ => none

theorem readPoint_utf8 {n : Nat} (r : List Nat) :
    readPoint (utf8 n ++ r) = some (n, r) := by
  unfold utf8
  split
  · rename_i h
    simp only [List.cons_append, List.nil_append, readPoint, if_pos h]
  · split
    · have h₁ : ¬0xC0 + n / 64 < 0x80 := by omega
      have h₂ : 0xC0 + n / 64 < 0xE0 := by omega
      simp only [List.cons_append, List.nil_append, readPoint, if_neg h₁, if_pos h₂]
      have join : (0xC0 + n / 64 - 0xC0) * 64 + (0x80 + n % 64 - 0x80) = n := by omega
      rw [join]
    · split
      · have h₁ : ¬0xE0 + n / 4096 < 0x80 := by omega
        have h₂ : ¬0xE0 + n / 4096 < 0xE0 := by omega
        have h₃ : 0xE0 + n / 4096 < 0xF0 := by omega
        simp only [List.cons_append, List.nil_append, readPoint, if_neg h₁, if_neg h₂, if_pos h₃]
        have join : (0xE0 + n / 4096 - 0xE0) * 4096 + (0x80 + n / 64 % 64 - 0x80) * 64 +
            (0x80 + n % 64 - 0x80) = n := by omega
        rw [join]
      · have h₁ : ¬0xF0 + n / 262144 < 0x80 := by omega
        have h₂ : ¬0xF0 + n / 262144 < 0xE0 := by omega
        have h₃ : ¬0xF0 + n / 262144 < 0xF0 := by omega
        simp only [List.cons_append, List.nil_append, readPoint, if_neg h₁, if_neg h₂, if_neg h₃]
        have join : (0xF0 + n / 262144 - 0xF0) * 262144 + (0x80 + n / 4096 % 64 - 0x80) * 4096 +
            (0x80 + n / 64 % 64 - 0x80) * 64 + (0x80 + n % 64 - 0x80) = n := by omega
        rw [join]

/-- The code points are a prefix code. -/
theorem utf8_append_inj {m n : Nat} {r r' : List Nat} (h : utf8 m ++ r = utf8 n ++ r') :
    m = n ∧ r = r' := by
  have hread := congrArg readPoint h
  rw [readPoint_utf8, readPoint_utf8] at hread
  exact Prod.mk.injEq .. ▸ Option.some.inj hread

theorem utf8_ne_nil (n : Nat) : utf8 n ≠ [] := by
  unfold utf8
  split
  · exact List.cons_ne_nil _ _
  · split
    · exact List.cons_ne_nil _ _
    · split <;> exact List.cons_ne_nil _ _

/-- A pair of surrogates is a code point that no single unit has. -/
theorem pair_point {u v u' v' : UInt16} (hu : isHigh u = true) (hv : isLow v = true)
    (hu' : isHigh u' = true) (hv' : isLow v' = true)
    (h : 0x10000 + (u.toNat - 0xD800) * 0x400 + (v.toNat - 0xDC00) =
      0x10000 + (u'.toNat - 0xD800) * 0x400 + (v'.toNat - 0xDC00)) : u = u' ∧ v = v' := by
  simp only [isHigh, isLow, Bool.and_eq_true, decide_eq_true_eq] at hu hv hu' hv'
  constructor
  · exact UInt16.toNat_inj.mp (by omega)
  · exact UInt16.toNat_inj.mp (by omega)

theorem encode_inj (hs : WellFormed s) (ht : WellFormed t)
    (h : encode lone s = encode lone' t) : s = t := by
  induction hs generalizing t with
  | nil =>
    cases ht with
    | nil => rfl
    | unit hhigh hlow _ =>
      rw [encode_unit hhigh hlow] at h
      exact absurd (List.append_eq_nil_iff.mp h.symm).1 (utf8_ne_nil _)
    | pair hhigh hlow _ =>
      rw [encode_pair hhigh hlow] at h
      exact absurd (List.append_eq_nil_iff.mp h.symm).1 (utf8_ne_nil _)
  | @unit u s hhigh hlow _ ih =>
    rw [encode_unit hhigh hlow] at h
    have hu := u.toNat_lt
    cases ht with
    | nil => exact absurd (List.append_eq_nil_iff.mp h).1 (utf8_ne_nil _)
    | unit hhigh' hlow' ht' =>
      rw [encode_unit hhigh' hlow'] at h
      obtain ⟨hpoint, hrest⟩ := utf8_append_inj h
      rw [UInt16.toNat_inj.mp hpoint, ih ht' hrest]
    | pair hhigh' hlow' _ =>
      rw [encode_pair hhigh' hlow'] at h
      have hpoint := (utf8_append_inj h).1
      omega
  | @pair u v s hhigh hlow _ ih =>
    rw [encode_pair hhigh hlow] at h
    cases ht with
    | nil => exact absurd (List.append_eq_nil_iff.mp h).1 (utf8_ne_nil _)
    | @unit u' _ hhigh' hlow' _ =>
      rw [encode_unit hhigh' hlow'] at h
      have hu' := u'.toNat_lt
      have hpoint := (utf8_append_inj h).1
      omega
    | pair hhigh' hlow' ht' =>
      rw [encode_pair hhigh' hlow'] at h
      obtain ⟨hpoint, hrest⟩ := utf8_append_inj h
      obtain ⟨rfl, rfl⟩ := pair_point hhigh hlow hhigh' hlow' hpoint
      rw [ih ht' hrest]

end Bytes

/-! ## Strings -/

section Strings

def hexUnit (n : Nat) : UInt16 := if n < 10 then (48 + n).toUInt16 else (87 + n).toUInt16

def hexUnitValue (u : UInt16) : Option Nat :=
  if 48 ≤ u.toNat ∧ u.toNat ≤ 57 then some (u.toNat - 48)
  else if 97 ≤ u.toNat ∧ u.toNat ≤ 102 then some (u.toNat - 87)
  else none

/-- Four hexadecimal digits after `\\u`. -/
def unicodeEscape (u : UInt16) : Text :=
  [92, 117, hexUnit (u.toNat / 4096), hexUnit (u.toNat / 256 % 16), hexUnit (u.toNat / 16 % 16),
    hexUnit (u.toNat % 16)]

/-- The letter of the short escapes, by the unit it stands for. -/
def shortEscape (u : UInt16) : Option UInt16 :=
  if u = 34 then some 34
  else if u = 92 then some 92
  else if u = 8 then some 98
  else if u = 12 then some 102
  else if u = 10 then some 110
  else if u = 13 then some 114
  else if u = 9 then some 116
  else none

/-- A unit that is no surrogate. -/
def escapeUnit (u : UInt16) : Text :=
  match shortEscape u with
  | some c => [92, c]
  | none => if u.toNat < 32 then unicodeEscape u else [u]

/-- Between the quotes that `JSON.stringify` writes. -/
def stringifyUnits : Text → Text
  | [] => []
  | u :: rest =>
    if isHigh u then
      match rest with
      | [] => unicodeEscape u
      | v :: rest' =>
        if isLow v then u :: v :: stringifyUnits rest'
        else unicodeEscape u ++ stringifyUnits (v :: rest')
    else if isLow u then unicodeEscape u ++ stringifyUnits rest
    else escapeUnit u ++ stringifyUnits rest

def quoted (s : Text) : Text := 34 :: (s ++ [34])

/-- `JSON.stringify` of a string. -/
def stringify (s : Text) : Text := quoted (stringifyUnits s)

/-- `JSONStringer` of `org.json` escapes a slash, and no surrogate. -/
def orgEscape (u : UInt16) : Text :=
  if u = 47 then [92, 47] else escapeUnit u

def orgQuote (s : Text) : Text := quoted (s.flatMap orgEscape)

/-! ### Reading -/

def longEscape (a b c d : UInt16) : Option UInt16 := do
  let a ← hexUnitValue a
  let b ← hexUnitValue b
  let c ← hexUnitValue c
  let d ← hexUnitValue d
  some (a * 4096 + b * 256 + c * 16 + d).toUInt16

def unescapeLetter (c : UInt16) : Option UInt16 :=
  if c = 34 ∨ c = 92 ∨ c = 47 then some c
  else if c = 98 then some 8
  else if c = 102 then some 12
  else if c = 110 then some 10
  else if c = 114 then some 13
  else if c = 116 then some 9
  else none

/-- One unit of a string, up to the quote that ends it. -/
def readUnit : Text → Option (UInt16 × Text)
  | [] => none
  | u :: r =>
    if u = 34 then none
    else if u = 92 then
      match r with
      | 117 :: a :: b :: c :: d :: r => (longEscape a b c d).map (·, r)
      | c :: r => (unescapeLetter c).map (·, r)
      | [] => none
    else some (u, r)

/-- `e` is a way to write `u`. -/
def Spells (u : UInt16) (e : Text) : Prop := ∀ r, readUnit (e ++ r) = some (u, r)

/-- A text that is read unit by unit. -/
inductive Spelled : Text → Text → Prop
  | nil : Spelled [] []
  | cons {u : UInt16} {s e w : Text} : Spells u e → Spelled s w → Spelled (u :: s) (e ++ w)

variable {u v : UInt16} {s t w w' r r' : Text}

theorem Spelled.append (h : Spelled s w) (h' : Spelled t w') : Spelled (s ++ t) (w ++ w') := by
  induction h with
  | nil => exact h'
  | cons he _ ih =>
    rw [List.append_assoc]
    exact .cons he ih

/-- The text says where it ends and what was written. -/
theorem spelled_inj (hs : Spelled s w) (ht : Spelled t w') (h : w ++ 34 :: r = w' ++ 34 :: r') :
    s = t ∧ r = r' := by
  induction hs generalizing t w' with
  | nil =>
    cases ht with
    | nil => exact ⟨rfl, (List.cons.inj h).2⟩
    | cons he _ =>
      have hread := congrArg readUnit h
      rw [List.append_assoc, he] at hread
      cases hread
  | cons he _ ih =>
    cases ht with
    | nil =>
      have hread := congrArg readUnit h
      rw [List.append_assoc, he] at hread
      cases hread
    | cons he' ht' =>
      have hread := congrArg readUnit h
      rw [List.append_assoc, List.append_assoc, he, he'] at hread
      obtain ⟨rfl, hrest⟩ := Prod.mk.injEq .. ▸ Option.some.inj hread
      obtain ⟨rfl, hr⟩ := ih ht' hrest
      exact ⟨rfl, hr⟩

theorem hexUnitValue_hexUnit {n : Nat} (h : n < 16) : hexUnitValue (hexUnit n) = some n := by
  have all : ∀ n < 16, hexUnitValue (hexUnit n) = some n := by decide
  exact all n h

theorem spells_unicode (u : UInt16) : Spells u (unicodeEscape u) := by
  intro r
  have hu := u.toNat_lt
  have join : u.toNat / 4096 * 4096 + u.toNat / 256 % 16 * 256 + u.toNat / 16 % 16 * 16 +
      u.toNat % 16 = u.toNat := by omega
  have hread : longEscape (hexUnit (u.toNat / 4096)) (hexUnit (u.toNat / 256 % 16))
      (hexUnit (u.toNat / 16 % 16)) (hexUnit (u.toNat % 16)) = some u := by
    unfold longEscape
    rw [hexUnitValue_hexUnit (by omega), hexUnitValue_hexUnit (by omega),
      hexUnitValue_hexUnit (by omega), hexUnitValue_hexUnit (by omega)]
    simp only [Option.bind_eq_bind, Option.bind_some, join, Nat.toUInt16_eq, UInt16.ofNat_toNat]
  simp only [unicodeEscape, List.cons_append, List.nil_append, readUnit, hread, Option.map_some]
  rfl

theorem spells_raw (hquote : u ≠ 34) (hslash : u ≠ 92) : Spells u [u] := by
  intro r
  simp only [List.cons_append, List.nil_append, readUnit, if_neg hquote, if_neg hslash]

theorem spells_short {c : UInt16} (h : unescapeLetter c = some u) : Spells u [92, c] := by
  intro r
  have hc : c ≠ 117 := by
    rintro rfl
    have hnone : unescapeLetter 117 = none := by decide
    rw [hnone] at h
    cases h
  have hquote : (92 : UInt16) ≠ 34 := by decide
  simp only [List.cons_append, List.nil_append, readUnit, if_neg hquote, if_true]
  split
  · rename_i heq
    exact absurd (List.cons.inj heq).1 hc
  · rename_i heq
    obtain ⟨rfl, rfl⟩ := List.cons.inj heq
    rw [h]
    rfl
  · rename_i heq
    cases heq

theorem unescape_shortEscape {c : UInt16} (h : shortEscape u = some c) :
    unescapeLetter c = some u := by
  unfold shortEscape at h
  split_ifs at h <;> cases h <;> subst_vars <;> decide

theorem spells_escapeUnit (u : UInt16) : Spells u (escapeUnit u) := by
  unfold escapeUnit
  split
  · rename_i c hc
    exact spells_short (unescape_shortEscape hc)
  · rename_i hnone
    split
    · exact spells_unicode u
    · refine spells_raw ?_ ?_
      · rintro rfl
        exact absurd hnone (by decide)
      · rintro rfl
        exact absurd hnone (by decide)

/-- A surrogate is written as it is. -/
theorem spells_surrogate (h : isHigh u = true ∨ isLow u = true) : Spells u [u] := by
  refine spells_raw ?_ ?_
  · rintro rfl
    exact absurd h (by decide)
  · rintro rfl
    exact absurd h (by decide)

theorem spelled_stringify (s : Text) : Spelled s (stringifyUnits s) := by
  fun_induction stringifyUnits s with
  | case1 => exact .nil
  | case2 u _ =>
    have h := Spelled.cons (spells_unicode u) .nil
    rwa [List.append_nil] at h
  | case3 u hhigh v rest' hlow ih =>
    exact .cons (spells_surrogate (.inl hhigh)) (.cons (spells_surrogate (.inr hlow)) ih)
  | case4 u _ v rest' _ ih => exact .cons (spells_unicode u) ih
  | case5 u rest _ _ ih => exact .cons (spells_unicode u) ih
  | case6 u rest _ _ ih => exact .cons (spells_escapeUnit u) ih

theorem spells_orgEscape (u : UInt16) : Spells u (orgEscape u) := by
  unfold orgEscape
  split
  · rename_i h
    exact spells_short (by rw [h]; decide)
  · exact spells_escapeUnit u

theorem spelled_orgQuote (s : Text) : Spelled s (s.flatMap orgEscape) := by
  induction s with
  | nil => exact .nil
  | cons u s ih => exact .cons (spells_orgEscape u) ih

/-- A quoted string says where it ends. -/
theorem quoted_append_inj (hs : Spelled s w) (ht : Spelled t w')
    (h : quoted w ++ r = quoted w' ++ r') : s = t ∧ r = r' := by
  simp only [quoted, List.cons_append, List.append_assoc, List.nil_append, List.cons.injEq,
    true_and] at h
  exact spelled_inj hs ht h

theorem stringify_append_inj (h : stringify s ++ r = stringify t ++ r') : s = t ∧ r = r' :=
  quoted_append_inj (spelled_stringify s) (spelled_stringify t) h

theorem orgQuote_append_inj (h : orgQuote s ++ r = orgQuote t ++ r') : s = t ∧ r = r' :=
  quoted_append_inj (spelled_orgQuote s) (spelled_orgQuote t) h

/-! ### Surrogates -/

theorem hexUnit_ascii {n : Nat} (h : n < 16) : (hexUnit n).toNat < 128 := by
  have all : ∀ n < 16, (hexUnit n).toNat < 128 := by decide
  exact all n h

theorem unicodeEscape_ascii (u : UInt16) : ∀ v ∈ unicodeEscape u, v.toNat < 128 := by
  have hu := u.toNat_lt
  intro v hv
  simp only [unicodeEscape, List.mem_cons, List.not_mem_nil, or_false] at hv
  rcases hv with rfl | rfl | rfl | rfl | rfl | rfl
  · decide
  · decide
  · exact hexUnit_ascii (by omega)
  · exact hexUnit_ascii (by omega)
  · exact hexUnit_ascii (by omega)
  · exact hexUnit_ascii (by omega)

theorem shortEscape_ascii {c : UInt16} (h : shortEscape u = some c) : c.toNat < 128 := by
  unfold shortEscape at h
  split_ifs at h <;> cases h <;> decide

theorem escapeUnit_wellFormed (hhigh : isHigh u = false) (hlow : isLow u = false) :
    WellFormed (escapeUnit u) := by
  unfold escapeUnit
  split
  · rename_i c hc
    refine wellFormed_ascii fun v hv => ?_
    rcases List.mem_cons.mp hv with rfl | hv
    · decide
    · rw [List.mem_singleton.mp hv]
      exact shortEscape_ascii hc
  · split
    · exact wellFormed_ascii (unicodeEscape_ascii u)
    · exact .unit hhigh hlow .nil

theorem stringifyUnits_wellFormed (s : Text) : WellFormed (stringifyUnits s) := by
  fun_induction stringifyUnits s with
  | case1 => exact .nil
  | case2 u _ => exact wellFormed_ascii (unicodeEscape_ascii u)
  | case3 u hhigh v rest' hlow ih => exact .pair hhigh hlow ih
  | case4 u _ v rest' _ ih => exact (wellFormed_ascii (unicodeEscape_ascii u)).append ih
  | case5 u rest _ _ ih => exact (wellFormed_ascii (unicodeEscape_ascii u)).append ih
  | case6 u rest hhigh hlow ih =>
    exact (escapeUnit_wellFormed (by simpa using hhigh) (by simpa using hlow)).append ih

theorem quoted_wellFormed (h : WellFormed w) : WellFormed (quoted w) :=
  .unit (by decide) (by decide) (h.append (.unit (by decide) (by decide) .nil))

/-- What `JSON.stringify` writes has no unpaired surrogate. -/
theorem stringify_wellFormed (s : Text) : WellFormed (stringify s) :=
  quoted_wellFormed (stringifyUnits_wellFormed s)

/-- Without unpaired surrogates nothing needs the long escape but control characters. -/
theorem stringifyUnits_flatMap (h : WellFormed s) : stringifyUnits s = s.flatMap escapeUnit := by
  have raw {u : UInt16} (h : isHigh u = true ∨ isLow u = true) : escapeUnit u = [u] := by
    have hshort : shortEscape u = none := by
      unfold shortEscape
      split_ifs <;> first | rfl | (subst_vars; exact absurd h (by decide))
    unfold escapeUnit
    rw [hshort]
    dsimp only
    rw [if_neg]
    simp only [isHigh, isLow, Bool.and_eq_true, decide_eq_true_eq] at h
    omega
  induction h with
  | nil => rfl
  | unit hhigh hlow _ ih =>
    rw [stringifyUnits.eq_def]
    simp only [hhigh, hlow, Bool.false_eq_true, if_false, ih, List.flatMap_cons]
  | pair hhigh hlow _ ih =>
    rw [stringifyUnits.eq_def]
    simp only [hhigh, hlow, if_true, ih, List.flatMap_cons, raw (.inl hhigh), raw (.inr hlow),
      List.cons_append, List.nil_append]

end Strings

/-! ## Arrays -/

section Arrays

/-- A way to write strings that is read back unit by unit. -/
structure Writer where
  units : Text → Text
  spelled : ∀ s, Spelled s (units s)

def Writer.quote (W : Writer) (s : Text) : Text := quoted (W.units s)

/-- `JSON.stringify` -/
def Writer.stringify : Writer := ⟨stringifyUnits, spelled_stringify⟩

/-- `org.json` -/
def Writer.orgJson : Writer := ⟨fun s => s.flatMap orgEscape, spelled_orgQuote⟩

inductive Scalar where
  | str (s : Text)
  | int (n : Int)
  | bool (b : Bool)
  | null
  deriving DecidableEq, Repr

def ascii (s : List Char) : Text := s.map fun c => c.toNat.toUInt16

def decimal (n : Int) : Text := ascii n.repr.toList

/-- `true` and `false` -/
def boolWord (b : Bool) : Text := if b then [116, 114, 117, 101] else [102, 97, 108, 115, 101]

/-- `null` -/
def nullWord : Text := [110, 117, 108, 108]

def Scalar.write (W : Writer) : Scalar → Text
  | .str s => W.quote s
  | .int n => decimal n
  | .bool b => boolWord b
  | .null => nullWord

def items (W : Writer) : List Scalar → Text
  | [] => []
  | [f] => f.write W
  | f :: fs => f.write W ++ 44 :: items W fs

def array (W : Writer) (fs : List Scalar) : Text := 91 :: (items W fs ++ [93])

/-- The UTF-8 of an array. -/
def arrayBytes (W : Writer) (lone : Nat) (fs : List Scalar) : List Nat := encode lone (array W fs)

variable {W : Writer} {f g : Scalar} {fs gs : List Scalar} {r r' : Text}

def isDecimal (u : UInt16) : Bool := (48 ≤ u.toNat && u.toNat ≤ 57) || u == 45

theorem ascii_inj {a b : List Char} (ha : ∀ c ∈ a, c.toNat < 128) (hb : ∀ c ∈ b, c.toNat < 128)
    (h : ascii a = ascii b) : a = b := by
  induction a generalizing b with
  | nil =>
    cases b with
    | nil => rfl
    | cons y b => cases h
  | cons x a ih =>
    cases b with
    | nil => cases h
    | cons y b =>
      obtain ⟨hx, hrest⟩ := List.cons.inj h
      have hx' := ha x List.mem_cons_self
      have hy' := hb y List.mem_cons_self
      have hxy : x.toNat = y.toNat := by
        have := congrArg UInt16.toNat hx
        simp only [Nat.toUInt16_eq, UInt16.toNat_ofNat'] at this
        omega
      rw [Char.toNat_inj.mp hxy, ih (fun c hc => ha c (List.mem_cons_of_mem _ hc))
        (fun c hc => hb c (List.mem_cons_of_mem _ hc)) hrest]

theorem repr_chars {n : Int} {c : Char} (h : c ∈ n.repr.toList) : c.isDigit = true ∨ c = '-' := by
  have digits {m : Nat} {c : Char} (hm : c ∈ m.repr.toList) : c.isDigit = true := by
    rw [Nat.repr_eq_ofList_toDigits, String.toList_ofList] at hm
    exact Nat.isDigit_of_mem_toDigits (by decide) (by decide) hm
  rw [Int.repr_eq_if] at h
  split at h
  · exact .inl (digits h)
  · rw [String.toList_append] at h
    rcases List.mem_append.mp h with h | h
    · exact .inr (by simpa using h)
    · exact .inl (digits h)

theorem digit_range {c : Char} (h : c.isDigit = true) : 48 ≤ c.toNat ∧ c.toNat ≤ 57 := by
  simp only [Char.isDigit, Bool.and_eq_true, decide_eq_true_eq] at h
  exact h

theorem repr_ascii (n : Int) : ∀ c ∈ n.repr.toList, c.toNat < 128 := by
  intro c hc
  rcases repr_chars hc with h | rfl
  · have := digit_range h
    omega
  · decide

theorem decimal_units {n : Int} {u : UInt16} (h : u ∈ decimal n) : isDecimal u = true := by
  obtain ⟨c, hc, rfl⟩ := List.mem_map.mp h
  rcases repr_chars hc with hd | rfl
  · have hrange := digit_range hd
    have hnat : (c.toNat.toUInt16).toNat = c.toNat := by
      simp only [Nat.toUInt16_eq, UInt16.toNat_ofNat']
      omega
    simp [isDecimal, hnat, hrange]
  · decide

theorem decimal_ne_nil (n : Int) : decimal n ≠ [] := by
  unfold decimal ascii
  rw [ne_eq, List.map_eq_nil_iff, Int.repr_eq_if]
  split
  · simp
  · simp [Nat.repr_eq_ofList_toDigits]

/-- A decimal number ends at the first unit that cannot be in one. -/
theorem decimal_append_inj {m n : Int} (hr : ∀ u ∈ r.head?, isDecimal u = false)
    (hr' : ∀ u ∈ r'.head?, isDecimal u = false) (h : decimal m ++ r = decimal n ++ r') :
    m = n ∧ r = r' := by
  have front {k : Int} {w : Text} (hw : ∀ u ∈ w.head?, isDecimal u = false) :
      (decimal k ++ w).takeWhile isDecimal = decimal k := by
    rw [List.takeWhile_append_of_pos fun u hu => decimal_units hu]
    cases w with
    | nil => simp
    | cons u w => simp [hw u (by simp)]
  have hdecimal : decimal m = decimal n := by
    have htake := congrArg (List.takeWhile isDecimal) h
    rwa [front hr, front hr'] at htake
  have hrepr := String.toList_inj.mp (ascii_inj (repr_ascii m) (repr_ascii n) hdecimal)
  refine ⟨Int.repr_injective hrepr, ?_⟩
  rw [hdecimal] at h
  exact List.append_cancel_left h

def Scalar.kind : Scalar → Nat
  | .str _ => 0
  | .int _ => 1
  | .bool true => 2
  | .bool false => 3
  | .null => 4

def kindOf (u : UInt16) : Nat :=
  if isDecimal u then 1
  else if u = 34 then 0
  else if u = 116 then 2
  else if u = 102 then 3
  else if u = 110 then 4
  else 5

theorem kind_le (f : Scalar) : f.kind ≤ 4 := by
  cases f with
  | bool b => cases b <;> decide
  | _ => simp [Scalar.kind]

/-- The first unit of a scalar tells what it is. -/
theorem write_kind (f : Scalar) : ∃ u w, f.write W = u :: w ∧ kindOf u = f.kind := by
  cases f with
  | str s => exact ⟨34, _, rfl, rfl⟩
  | int n =>
    cases h : decimal n with
    | nil => exact absurd h (decimal_ne_nil n)
    | cons u w =>
      refine ⟨u, w, h, ?_⟩
      rw [kindOf, if_pos (decimal_units (n := n) (by rw [h]; exact List.mem_cons_self))]
      rfl
  | bool b =>
    cases b with
    | true => exact ⟨116, _, rfl, rfl⟩
    | false => exact ⟨102, _, rfl, rfl⟩
  | null => exact ⟨110, _, rfl, rfl⟩

/-- What follows an item of an array. -/
def Ends (r : Text) : Prop := ∃ u w, r = u :: w ∧ (u = 44 ∨ u = 93)

theorem Ends.not_decimal (h : Ends r) : ∀ u ∈ r.head?, isDecimal u = false := by
  obtain ⟨u, w, rfl, rfl | rfl⟩ := h
  · intro u hu
    cases hu
    decide
  · intro u hu
    cases hu
    decide

theorem write_append_inj (hr : Ends r) (hr' : Ends r') (h : f.write W ++ r = g.write W ++ r') :
    f = g ∧ r = r' := by
  have hkind : f.kind = g.kind := by
    obtain ⟨u, w, hu, huf⟩ := write_kind (W := W) f
    obtain ⟨v, w', hv, hvg⟩ := write_kind (W := W) g
    rw [hu, hv] at h
    rw [← huf, ← hvg, (List.cons.inj h).1]
  cases f with
  | str s =>
    cases g with
    | str t =>
      obtain ⟨rfl, hrest⟩ := quoted_append_inj (W.spelled s) (W.spelled t) h
      exact ⟨rfl, hrest⟩
    | int n => cases hkind
    | bool b => cases b <;> cases hkind
    | null => cases hkind
  | int m =>
    cases g with
    | str t => cases hkind
    | int n =>
      obtain ⟨rfl, hrest⟩ := decimal_append_inj hr.not_decimal hr'.not_decimal h
      exact ⟨rfl, hrest⟩
    | bool b => cases b <;> cases hkind
    | null => cases hkind
  | bool b =>
    cases g with
    | str t => cases b <;> cases hkind
    | int n => cases b <;> cases hkind
    | bool b' =>
      have hb : b = b' := by cases b <;> cases b' <;> first | rfl | cases hkind
      subst hb
      exact ⟨rfl, List.append_cancel_left h⟩
    | null => cases b <;> cases hkind
  | null =>
    cases g with
    | str t => cases hkind
    | int n => cases hkind
    | bool b => cases b <;> cases hkind
    | null => exact ⟨rfl, List.append_cancel_left h⟩

theorem write_ne_close (f : Scalar) (w : Text) : f.write W ++ r ≠ 93 :: w := by
  obtain ⟨u, w', hu, hkind⟩ := write_kind (W := W) f
  rw [hu]
  intro h
  obtain ⟨rfl, -⟩ := List.cons.inj h
  have hclose : kindOf 93 = 5 := rfl
  have := kind_le f
  omega

theorem items_ends (fs : List Scalar) (f : Scalar) :
    ∃ r, items W (f :: fs) ++ [93] = f.write W ++ r ∧ Ends r ∧
      r = (if fs = [] then [93] else 44 :: (items W fs ++ [93])) := by
  cases fs with
  | nil => exact ⟨[93], rfl, ⟨93, [], rfl, .inr rfl⟩, rfl⟩
  | cons g fs =>
    refine ⟨44 :: (items W (g :: fs) ++ [93]), ?_, ⟨44, _, rfl, .inl rfl⟩, by simp⟩
    simp only [items, List.append_assoc, List.cons_append]

theorem items_inj (h : items W fs ++ [93] = items W gs ++ [93]) : fs = gs := by
  induction fs generalizing gs with
  | nil =>
    cases gs with
    | nil => rfl
    | cons g gs =>
      obtain ⟨r, hitems, -, -⟩ := items_ends (W := W) gs g
      rw [hitems] at h
      exact absurd h.symm (write_ne_close g [])
  | cons f fs ih =>
    obtain ⟨r, hf, hr, hfs⟩ := items_ends (W := W) fs f
    cases gs with
    | nil =>
      rw [hf] at h
      exact absurd h (write_ne_close f [])
    | cons g gs =>
      obtain ⟨r', hg, hr', hgs⟩ := items_ends (W := W) gs g
      rw [hf, hg] at h
      obtain ⟨rfl, hrest⟩ := write_append_inj hr hr' h
      rw [hfs, hgs] at hrest
      by_cases hfs' : fs = []
      · by_cases hgs' : gs = []
        · rw [hfs', hgs']
        · rw [if_pos hfs', if_neg hgs'] at hrest
          cases hrest
      · by_cases hgs' : gs = []
        · rw [if_neg hfs', if_pos hgs'] at hrest
          cases hrest
        · rw [if_neg hfs', if_neg hgs'] at hrest
          rw [ih (List.cons.inj hrest).2]

theorem array_inj (h : array W fs = array W gs) : fs = gs := items_inj (List.cons.inj h).2

theorem items_wellFormed (h : ∀ f ∈ fs, WellFormed (f.write W)) : WellFormed (items W fs) := by
  induction fs with
  | nil => exact .nil
  | cons f fs ih =>
    cases fs with
    | nil => exact h f List.mem_cons_self
    | cons g fs =>
      refine (h f List.mem_cons_self).append (.unit (by decide) (by decide) (ih ?_))
      exact fun g hg => h g (List.mem_cons_of_mem f hg)

theorem array_wellFormed (h : ∀ f ∈ fs, WellFormed (f.write W)) : WellFormed (array W fs) :=
  .unit (by decide) (by decide) ((items_wellFormed h).append (.unit (by decide) (by decide) .nil))

theorem decimal_wellFormed (n : Int) : WellFormed (decimal n) := by
  refine wellFormed_ascii fun u hu => ?_
  have hd := decimal_units hu
  simp only [isDecimal, Bool.or_eq_true, Bool.and_eq_true, decide_eq_true_eq, beq_iff_eq] at hd
  rcases hd with hd | rfl
  · omega
  · decide

theorem boolWord_units (b : Bool) : ∀ u ∈ boolWord b, u.toNat < 128 ∧ u ≠ 47 := by
  cases b <;> simp [boolWord]

theorem nullWord_units : ∀ u ∈ nullWord, u.toNat < 128 ∧ u ≠ 47 := by simp [nullWord]

theorem write_wellFormed (h : ∀ s, f = .str s → WellFormed (W.quote s)) :
    WellFormed (f.write W) := by
  cases f with
  | str s => exact h s rfl
  | int n => exact decimal_wellFormed n
  | bool b => exact wellFormed_ascii fun u hu => (boolWord_units b u hu).1
  | null => exact wellFormed_ascii fun u hu => (nullWord_units u hu).1

theorem stringify_array_wellFormed (fs : List Scalar) : WellFormed (array .stringify fs) :=
  array_wellFormed fun _ _ => write_wellFormed fun s _ => stringify_wellFormed s

/-- The bytes of an array that `JSON.stringify` wrote determine its items. -/
theorem stringify_bytes_inj {lone lone' : Nat}
    (h : arrayBytes .stringify lone fs = arrayBytes .stringify lone' gs) : fs = gs :=
  array_inj (encode_inj (stringify_array_wellFormed fs) (stringify_array_wellFormed gs) h)

end Arrays

/-! ## Slashes -/

section Slashes

variable {u : UInt16} {r w w' x x' : Text}

/-- `replace("\\/", "/")`: the matches are taken from the left and do not overlap. -/
def replaceSlash : Text → Text
  | [] => []
  | [u] => [u]
  | u :: v :: r => if u = 92 ∧ v = 47 then 47 :: replaceSlash r else u :: replaceSlash (v :: r)

theorem replaceSlash_cons (h : u ≠ 92 ∨ r.head? ≠ some 47) :
    replaceSlash (u :: r) = u :: replaceSlash r := by
  cases r with
  | nil => rfl
  | cons v r =>
    rw [replaceSlash, if_neg]
    rintro ⟨hu, hv⟩
    rcases h with h | h
    · exact h hu
    · exact h (congrArg some hv)

/-- A piece of text that is changed by itself, whatever follows but a slash. -/
structure Passes (w w' : Text) : Prop where
  head : w.head? ≠ some 47
  pass : ∀ r, r.head? ≠ some 47 → replaceSlash (w ++ r) = w' ++ replaceSlash r

theorem passes_nil : Passes [] [] := ⟨by decide, fun _ _ => rfl⟩

theorem Passes.append (h : Passes w w') (h' : Passes x x') : Passes (w ++ x) (w' ++ x') := by
  have head {r : Text} (hr : r.head? ≠ some 47) : (x ++ r).head? ≠ some 47 := by
    cases x with
    | nil => exact hr
    | cons u x => exact h'.head
  constructor
  · cases w with
    | nil => exact h'.head
    | cons u w => exact h.head
  · intro r hr
    rw [List.append_assoc, h.pass _ (head hr), h'.pass r hr, List.append_assoc]

theorem passes_unit (h : u ≠ 47) : Passes [u] [u] := by
  refine ⟨fun hu => h (Option.some.inj hu), fun r hr => ?_⟩
  exact replaceSlash_cons (.inr hr)

theorem passes_units (h : ∀ u ∈ w, u ≠ 47) : Passes w w := by
  induction w with
  | nil => exact passes_nil
  | cons u w ih =>
    exact (passes_unit (h u List.mem_cons_self)).append
      (ih fun v hv => h v (List.mem_cons_of_mem u hv))

theorem escapeUnit_no_slash (h : u ≠ 47) : ∀ v ∈ escapeUnit u, v ≠ 47 := by
  intro v hv
  unfold escapeUnit at hv
  split at hv
  · rename_i c hc
    have hslash : c ≠ 47 := by
      rintro rfl
      exact h (Option.some.inj ((unescape_shortEscape hc).symm.trans (by decide)))
    rcases List.mem_cons.mp hv with rfl | hv
    · decide
    · rw [List.mem_singleton.mp hv]
      exact hslash
  · split at hv
    · have hdigit : ∀ n < 16, hexUnit n ≠ 47 := by decide
      have hu := u.toNat_lt
      simp only [unicodeEscape, List.mem_cons, List.not_mem_nil, or_false] at hv
      rcases hv with rfl | rfl | rfl | rfl | rfl | rfl
      · decide
      · decide
      · exact hdigit _ (by omega)
      · exact hdigit _ (by omega)
      · exact hdigit _ (by omega)
      · exact hdigit _ (by omega)
    · rw [List.mem_singleton.mp hv]
      exact h

/-- Each slash of the text is one that was escaped. -/
theorem passes_orgEscape (u : UInt16) : Passes (orgEscape u) (escapeUnit u) := by
  unfold orgEscape
  split
  · rename_i h
    subst h
    refine ⟨by decide, fun r hr => ?_⟩
    rfl
  · rename_i h
    exact passes_units (escapeUnit_no_slash h)

theorem passes_flatMap (s : Text) : Passes (s.flatMap orgEscape) (s.flatMap escapeUnit) := by
  induction s with
  | nil => exact passes_nil
  | cons u s ih => exact (passes_orgEscape u).append ih

theorem passes_quote {s : Text} (h : WellFormed s) :
    Passes (Writer.orgJson.quote s) (Writer.stringify.quote s) := by
  have hbody := passes_flatMap s
  rw [← stringifyUnits_flatMap h] at hbody
  exact (passes_unit (u := 34) (by decide)).append (hbody.append (passes_unit (by decide)))

variable {f : Scalar} {fs : List Scalar}

theorem passes_write (h : ∀ s, f = .str s → WellFormed s) :
    Passes (f.write .orgJson) (f.write .stringify) := by
  cases f with
  | str s => exact passes_quote (h s rfl)
  | int n =>
    refine passes_units fun u hu => ?_
    rintro rfl
    exact absurd (decimal_units hu) (by decide)
  | bool b => exact passes_units fun u hu => (boolWord_units b u hu).2
  | null => exact passes_units fun u hu => (nullWord_units u hu).2

theorem passes_items (h : ∀ s, .str s ∈ fs → WellFormed s) :
    Passes (items .orgJson fs) (items .stringify fs) := by
  induction fs with
  | nil => exact passes_nil
  | cons f fs ih =>
    have hf : Passes (f.write .orgJson) (f.write .stringify) := by
      refine passes_write fun s hs => h s ?_
      rw [← hs]
      exact List.mem_cons_self
    cases fs with
    | nil => exact hf
    | cons g fs =>
      have hrest := ih fun s hs => h s (List.mem_cons_of_mem f hs)
      exact hf.append ((passes_unit (u := 44) (by decide)).append hrest)

/-- Taking the escapes of the slashes back makes the text of `org.json` that of
`JSON.stringify`. -/
theorem replaceSlash_array (h : ∀ s, .str s ∈ fs → WellFormed s) :
    replaceSlash (array .orgJson fs) = array .stringify fs := by
  have hpass := (passes_unit (u := 91) (by decide)).append
    ((passes_items h).append (passes_unit (u := 93) (by decide)))
  have := hpass.pass [] (by decide)
  rwa [List.append_nil, replaceSlash, List.append_nil] at this

end Slashes

end Utf16Json
