import CryptoPigeon.Utf16Json

/-! # Reading JSON arrays

A reader of the UTF-8 of an array. Whatever a writer's preferred escapes, it gives back the items
that were written. -/
namespace JsonArrays

open LoginSignature (Text encode encode_pair encode_unit isHigh isLow utf8)
open Utf16Json

/-! ## UTF-8 -/

section Points

variable {lone rounds : Nat} {s : Text}

/-- One unit, or a pair of surrogates. -/
def unitsOf (n : Nat) : Text :=
  if n < 0x10000 then [n.toUInt16]
  else [(0xD800 + (n - 0x10000) / 0x400).toUInt16, (0xDC00 + (n - 0x10000) % 0x400).toUInt16]

def readUnits : Nat → List Nat → Text
  | 0, _ => []
  | rounds + 1, bytes =>
    match readPoint bytes with
    | some (n, rest) => unitsOf n ++ readUnits rounds rest
    | none => []

theorem unitsOf_unit (u : UInt16) : unitsOf u.toNat = [u] := by
  rw [unitsOf, if_pos u.toNat_lt, Nat.toUInt16_eq, UInt16.ofNat_toNat]

theorem unitsOf_pair {u v : UInt16} (hu : isHigh u = true) (hv : isLow v = true) :
    unitsOf (0x10000 + (u.toNat - 0xD800) * 0x400 + (v.toNat - 0xDC00)) = [u, v] := by
  simp only [isHigh, isLow, Bool.and_eq_true, decide_eq_true_eq] at hu hv
  have hlarge : ¬0x10000 + (u.toNat - 0xD800) * 0x400 + (v.toNat - 0xDC00) < 0x10000 := by omega
  have hhigh : 0xD800 + (0x10000 + (u.toNat - 0xD800) * 0x400 + (v.toNat - 0xDC00) - 0x10000) /
      0x400 = u.toNat := by omega
  have hlow : 0xDC00 + (0x10000 + (u.toNat - 0xD800) * 0x400 + (v.toNat - 0xDC00) - 0x10000) %
      0x400 = v.toNat := by omega
  rw [unitsOf, if_neg hlarge, hhigh, hlow, Nat.toUInt16_eq, Nat.toUInt16_eq, UInt16.ofNat_toNat,
    UInt16.ofNat_toNat]

/-- Every code point takes a byte, and so as many rounds as bytes are enough. -/
theorem readUnits_utf8 {n : Nat} {r : List Nat} (h : (utf8 n ++ r).length ≤ rounds) :
    ∃ left, r.length ≤ left ∧ readUnits rounds (utf8 n ++ r) = unitsOf n ++ readUnits left r := by
  have hpos := List.length_pos_iff.mpr (utf8_ne_nil n)
  rw [List.length_append] at h
  cases rounds with
  | zero => omega
  | succ left =>
    refine ⟨left, by omega, ?_⟩
    rw [readUnits, readPoint_utf8]

theorem readUnits_encode (hs : WellFormed s) (h : (encode lone s).length ≤ rounds) :
    readUnits rounds (encode lone s) = s := by
  induction hs generalizing rounds with
  | nil => cases rounds <;> rfl
  | @unit u s hhigh hlow _ ih =>
    rw [encode_unit hhigh hlow] at h ⊢
    obtain ⟨left, hleft, hread⟩ := readUnits_utf8 h
    rw [hread, unitsOf_unit, ih hleft]
    rfl
  | @pair u v s hhigh hlow _ ih =>
    rw [encode_pair hhigh hlow] at h ⊢
    obtain ⟨left, hleft, hread⟩ := readUnits_utf8 h
    rw [hread, unitsOf_pair hhigh hlow, ih hleft]
    rfl

end Points

/-! ## Items -/

section Items

variable {s w r : Text} {rounds : Nat} {W : Writer} {f : Scalar} {fs : List Scalar}

/-- The units up to the quote, and what follows it. -/
def readString : Nat → Text → Option (Text × Text)
  | 0, _ => none
  | rounds + 1, t =>
    match readUnit t with
    | some (u, rest) => (readString rounds rest).map fun p => (u :: p.1, p.2)
    | none => if t.head? = some 34 then some ([], t.tail) else none

theorem spells_ne_nil {u : UInt16} {e : Text} (h : Spells u e) : e ≠ [] := by
  rintro rfl
  cases h []

theorem spelled_length_le (h : Spelled s w) : s.length ≤ w.length := by
  induction h with
  | nil => exact Nat.le_refl 0
  | cons he _ ih =>
    have hpos := List.length_pos_iff.mpr (spells_ne_nil he)
    rw [List.length_append, List.length_cons]
    omega

theorem readString_spelled (h : Spelled s w) (hrounds : s.length < rounds) :
    readString rounds (w ++ 34 :: r) = some (s, r) := by
  induction h generalizing rounds with
  | nil =>
    cases rounds with
    | zero => cases hrounds
    | succ rounds => rfl
  | @cons u s e w he _ ih =>
    cases rounds with
    | zero => cases hrounds
    | succ rounds =>
      have hrest := ih (Nat.lt_of_succ_lt_succ hrounds)
      rw [readString, List.append_assoc, he]
      simp only [hrest, Option.map_some]

def digitsValue (t : Text) : Nat := t.foldl (fun n u => 10 * n + (u.toNat - 48)) 0

def readInt (t : Text) : Int :=
  if t.head? = some 45 then -(digitsValue t.tail : Int) else digitsValue t

theorem digitsValue_repr (n : Nat) : digitsValue (ascii n.repr.toList) = n := by
  have hdigits : ∀ c ∈ Nat.toDigits 10 n, c.toNat.toUInt16.toNat = c.toNat := by
    intro c hc
    have hrange := digit_range (Nat.isDigit_of_mem_toDigits (by decide) (by decide) hc)
    rw [Nat.toUInt16_eq, UInt16.toNat_ofNat', Nat.mod_eq_of_lt (by omega)]
  rw [Nat.repr_eq_ofList_toDigits, String.toList_ofList, digitsValue, ascii, List.foldl_map]
  have hfold : (Nat.toDigits 10 n).foldl (fun m c => 10 * m + (c.toNat.toUInt16.toNat - 48)) 0 =
      Nat.ofDigitChars 10 (Nat.toDigits 10 n) 0 := by
    rw [Nat.ofDigitChars_eq_foldl]
    exact List.foldl_ext _ _ 0 fun m c hc => by rw [hdigits c hc]; rfl
  rw [hfold, Nat.ofDigitChars_ten_toDigits]

theorem readInt_decimal (n : Int) : readInt (decimal n) = n := by
  rw [decimal, Int.repr_eq_if]
  split
  · next hpos =>
    have hhead : (ascii n.toNat.repr.toList).head? ≠ some 45 := by
      intro h
      obtain ⟨c, hc, hcode⟩ := List.mem_map.mp (List.mem_of_head? h)
      rw [Nat.repr_eq_ofList_toDigits, String.toList_ofList] at hc
      have hrange := digit_range (Nat.isDigit_of_mem_toDigits (by decide) (by decide) hc)
      have hnat := congrArg UInt16.toNat hcode
      rw [Nat.toUInt16_eq, UInt16.toNat_ofNat', Nat.mod_eq_of_lt (by omega)] at hnat
      change c.toNat = 45 at hnat
      omega
    rw [readInt, if_neg hhead, digitsValue_repr]
    omega
  · next hneg =>
    have hminus : ascii ("-" ++ (-n).toNat.repr).toList = 45 :: ascii (-n).toNat.repr.toList := by
      rw [String.toList_append]
      rfl
    rw [hminus, readInt, List.head?_cons, if_pos rfl, List.tail_cons, digitsValue_repr]
    omega

def readScalar (t : Text) : Option (Scalar × Text) :=
  if t.head? = some 34 then (readString t.length t.tail).map fun p => (.str p.1, p.2)
  else if t.head?.any isDecimal then
    some (.int (readInt (t.takeWhile isDecimal)), t.dropWhile isDecimal)
  else if t.take 4 = boolWord true then some (.bool true, t.drop 4)
  else if t.take 5 = boolWord false then some (.bool false, t.drop 5)
  else if t.take 4 = nullWord then some (.null, t.drop 4)
  else none

theorem readScalar_quote (s : Text) : readScalar (W.quote s ++ r) = some (.str s, r) := by
  have hspelled := W.spelled s
  have hlen := spelled_length_le hspelled
  have hread : readString (W.quote s ++ r).length (W.units s ++ 34 :: r) = some (s, r) := by
    refine readString_spelled hspelled ?_
    simp only [Writer.quote, quoted, List.length_append, List.length_cons]
    omega
  have hwhole : W.quote s ++ r = 34 :: (W.units s ++ 34 :: r) := by
    simp [Writer.quote, quoted]
  rw [readScalar, hwhole, List.head?_cons, if_pos rfl, List.tail_cons, ← hwhole, hread]
  rfl

theorem readScalar_decimal (n : Int) (hr : ∀ u ∈ r.head?, isDecimal u = false) :
    readScalar (decimal n ++ r) = some (.int n, r) := by
  have hunits : ∀ u ∈ decimal n, isDecimal u = true := fun u hu => decimal_units hu
  have htake : (decimal n ++ r).takeWhile isDecimal = decimal n := by
    rw [List.takeWhile_append_of_pos hunits]
    cases r with
    | nil => simp
    | cons u r => simp [hr u (by simp)]
  have hdrop : (decimal n ++ r).dropWhile isDecimal = r := by
    rw [List.dropWhile_append_of_pos hunits]
    cases r with
    | nil => rfl
    | cons u r => simp [hr u (by simp)]
  cases hdecimal : decimal n with
  | nil => exact absurd hdecimal (decimal_ne_nil n)
  | cons u w =>
    have hu : isDecimal u = true := hunits u (by rw [hdecimal]; exact List.mem_cons_self)
    have hquote : ¬some u = some (34 : UInt16) := by
      intro h
      rw [Option.some.inj h] at hu
      exact absurd hu (by decide)
    rw [readScalar, ← hdecimal, htake, hdrop, readInt_decimal, hdecimal, List.cons_append,
      List.head?_cons, if_neg hquote, Option.any_some, hu, if_pos rfl]

/-- An item is read up to what follows it. -/
theorem readScalar_write (hr : Ends r) : readScalar (f.write W ++ r) = some (f, r) := by
  cases f with
  | str s => exact readScalar_quote s
  | int n => exact readScalar_decimal n hr.not_decimal
  | bool b => cases b <;> rfl
  | null => rfl

def readItems : Nat → Text → Option (List Scalar)
  | 0, _ => none
  | rounds + 1, t =>
    match readScalar t with
    | some (f, rest) =>
      if rest = [93] then some [f]
      else if rest.head? = some 44 then (readItems rounds rest.tail).map (f :: ·)
      else none
    | none => none

/-- The items of an array. -/
def readArray (t : Text) : Option (List Scalar) :=
  if t = [91, 93] then some []
  else if t.head? = some 91 then readItems t.length t.tail
  else none

theorem readItems_items (hne : fs ≠ []) (h : fs.length ≤ rounds) :
    readItems rounds (items W fs ++ [93]) = some fs := by
  induction fs generalizing rounds with
  | nil => exact absurd rfl hne
  | cons f fs ih =>
    cases rounds with
    | zero => cases h
    | succ rounds =>
      obtain ⟨r, hitems, hr, hrest⟩ := items_ends (W := W) fs f
      rw [readItems, hitems, readScalar_write hr]
      by_cases hfs : fs = []
      · rw [if_pos hfs] at hrest
        simp only [hrest, hfs, if_true]
      · rw [if_neg hfs] at hrest
        have hread := ih hfs (Nat.le_of_succ_le_succ h)
        have hmore : ¬44 :: (items W fs ++ [93]) = ([93] : Text) := by
          intro heq
          cases (List.cons.inj heq).1
        simp only [hrest, if_neg hmore, List.head?_cons, if_true, List.tail_cons, hread,
          Option.map_some]

theorem length_le_items (fs : List Scalar) : fs.length ≤ (items W fs).length + 1 := by
  induction fs with
  | nil => exact Nat.zero_le _
  | cons f fs ih =>
    cases fs with
    | nil => exact Nat.le_add_left 1 _
    | cons g fs =>
      rw [items]
      · simp only [List.length_append, List.length_cons] at ih ⊢
        omega
      · exact List.cons_ne_nil g fs

theorem readArray_array (fs : List Scalar) : readArray (array W fs) = some fs := by
  by_cases hfs : fs = []
  · rw [hfs]
    rfl
  · have hne : ¬array W fs = [91, 93] := by
      intro h
      obtain ⟨f, fs', rfl⟩ := List.exists_cons_of_ne_nil hfs
      obtain ⟨r, hitems, -, -⟩ := items_ends (W := W) fs' f
      have hclose := (List.cons.inj h).2
      rw [hitems] at hclose
      exact write_ne_close f [] hclose
    have hlen := length_le_items (W := W) fs
    rw [readArray, if_neg hne, array, List.head?_cons, if_pos rfl, List.tail_cons]
    refine readItems_items hfs ?_
    simp only [List.length_cons, List.length_append, List.length_nil]
    omega

end Items

/-- The items of an array, from its UTF-8. -/
def readBytes (bytes : List Nat) : Option (List Scalar) :=
  readArray (readUnits bytes.length bytes)

/-- What a writer has written is read back, where it leaves no surrogate alone. -/
theorem readBytes_arrayBytes {W : Writer} {lone : Nat} {fs : List Scalar}
    (h : WellFormed (array W fs)) : readBytes (arrayBytes W lone fs) = some fs := by
  rw [readBytes, arrayBytes, readUnits_encode h (Nat.le_refl _), readArray_array]

end JsonArrays
