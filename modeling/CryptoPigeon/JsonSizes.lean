import CryptoPigeon.Utf16Json

/-! # The bytes of a JSON text

A JSON value is written without blanks. How many bytes of UTF-8 its text fills is a sum over its
strings, its bare words and the signs between them, whichever writer spells the strings. -/
namespace JsonSizes

open LoginSignature (Text isHigh isLow utf8 encode encode_unit encode_pair encode_last encode_broken
  encode_low)
open Utf16Json

section Bytes

variable {lone : Nat} {s t : Text} {u : UInt16}

theorem utf8_ascii_length {n : Nat} (h : n < 128) : (utf8 n).length = 1 := by
  rw [utf8, if_pos h]
  rfl

theorem encode_ascii_cons (hu : u.toNat < 128) :
    (encode lone (u :: t)).length = 1 + (encode lone t).length := by
  obtain ⟨hhigh, hlow⟩ := LoginSignature.ascii_not_surrogate hu
  rw [encode_unit hhigh hlow, List.length_append, utf8_ascii_length hu]

/-- A text is read by pairs, and surrogates without their other half stand alone. -/
theorem unit_induction {P : Text → Prop} (nil : P []) (last : ∀ v, isHigh v = true → P [v])
    (pair : ∀ v w s, isHigh v = true → isLow w = true → P s → P (v :: w :: s))
    (broken : ∀ v w s, isHigh v = true → isLow w = false → P (w :: s) → P (v :: w :: s))
    (low : ∀ v s, isHigh v = false → isLow v = true → P s → P (v :: s))
    (unit : ∀ v s, isHigh v = false → isLow v = false → P s → P (v :: s)) : ∀ s, P s
  | [] => nil
  | [v] =>
    if hv : isHigh v = true then last v hv
    else if hw : isLow v = true then low v [] (by simpa using hv) hw nil
    else unit v [] (by simpa using hv) (by simpa using hw) nil
  | v :: w :: s =>
    have ih := unit_induction nil last pair broken low unit s
    have ihw := unit_induction nil last pair broken low unit (w :: s)
    if hv : isHigh v = true then
      if hw : isLow w = true then pair v w s hv hw ih
      else broken v w s hv (by simpa using hw) ihw
    else if hw : isLow v = true then low v (w :: s) (by simpa using hv) hw ihw
    else unit v (w :: s) (by simpa using hv) (by simpa using hw) ihw

/-- A sign of ASCII parts the bytes of what stands on its two sides. -/
theorem encode_sep_length (hu : u.toNat < 128) (s t : Text) :
    (encode lone (s ++ u :: t)).length = (encode lone s).length + 1 + (encode lone t).length := by
  obtain ⟨hhigh, hlow⟩ := LoginSignature.ascii_not_surrogate hu
  induction s using unit_induction with
  | nil =>
    rw [List.nil_append, encode_ascii_cons hu, encode, List.length_nil]
  | last v hv =>
    rw [List.cons_append, List.nil_append, encode_broken hv hlow, encode_last hv,
      List.length_append, encode_ascii_cons hu]
    omega
  | pair v w s hv hw ih =>
    rw [List.cons_append, List.cons_append, encode_pair hv hw, encode_pair hv hw, List.length_append,
      List.length_append, ih]
    omega
  | broken v w s hv hw ih =>
    rw [List.cons_append, List.cons_append, encode_broken hv hw, encode_broken hv hw,
      List.length_append, List.length_append, ← List.cons_append, ih]
    omega
  | low v s hv hw ih =>
    rw [List.cons_append, encode_low hv hw, encode_low hv hw, List.length_append,
      List.length_append, ih]
    omega
  | unit v s hv hw ih =>
    rw [List.cons_append, encode_unit hv hw, encode_unit hv hw, List.length_append,
      List.length_append, ih]
    omega

/-- ASCII fills a byte for each unit. -/
theorem encode_ascii_length (h : ∀ u ∈ s, u.toNat < 128) : (encode lone s).length = s.length := by
  induction s with
  | nil => rfl
  | cons u s ih =>
    rw [encode_ascii_cons (h u List.mem_cons_self), ih fun v hv => h v (List.mem_cons_of_mem u hv),
      List.length_cons, Nat.add_comm]

end Bytes

/-! ## Values -/

/-- A JSON value; numbers, truth values and `null` are bare words. -/
inductive Json where
  | str (s : Text)
  | bare (t : Text)
  | arr (vs : List Json)
  | obj (ms : List (Text × Json))

mutual

def Json.text (W : Writer) : Json → Text
  | .str s => W.quote s
  | .bare t => t
  | .arr vs => 91 :: (valuesText W vs ++ [93])
  | .obj ms => 123 :: (membersText W ms ++ [125])

def valuesText (W : Writer) : List Json → Text
  | [] => []
  | [v] => v.text W
  | v :: vs => v.text W ++ 44 :: valuesText W vs

def membersText (W : Writer) : List (Text × Json) → Text
  | [] => []
  | [(name, v)] => W.quote name ++ 58 :: v.text W
  | (name, v) :: ms => W.quote name ++ 58 :: (v.text W ++ 44 :: membersText W ms)

end

/-- The bytes of a string between its quotes. -/
def written (W : Writer) (lone : Nat) (s : Text) : Nat := (encode lone (W.quote s)).length

mutual

/-- The bytes of a value. -/
def Json.size (W : Writer) (lone : Nat) : Json → Nat
  | .str s => written W lone s
  | .bare t => (encode lone t).length
  | .arr vs => 2 + valuesSize W lone vs
  | .obj ms => 2 + membersSize W lone ms

def valuesSize (W : Writer) (lone : Nat) : List Json → Nat
  | [] => 0
  | [v] => v.size W lone
  | v :: vs => v.size W lone + 1 + valuesSize W lone vs

def membersSize (W : Writer) (lone : Nat) : List (Text × Json) → Nat
  | [] => 0
  | [(name, v)] => written W lone name + 1 + v.size W lone
  | (name, v) :: ms => written W lone name + 1 + v.size W lone + 1 + membersSize W lone ms

end

section Sizes

variable {W : Writer} {lone : Nat} {s t : Text}

/-- A text between two signs of ASCII. -/
theorem enclosed_length {u v : UInt16} (hu : u.toNat < 128) (hv : v.toNat < 128) (t : Text) :
    (encode lone (u :: (t ++ [v]))).length = 2 + (encode lone t).length := by
  rw [encode_ascii_cons hu, encode_sep_length hv, encode, List.length_nil]
  omega

mutual

theorem text_size : ∀ v : Json, (encode lone (v.text W)).length = v.size W lone
  | .str s => by
    rw [Json.text, Json.size, written]
  | .bare t => by
    rw [Json.text, Json.size]
  | .arr vs => by
    rw [Json.text, Json.size, enclosed_length (by decide) (by decide), valuesText_size vs]
  | .obj ms => by
    rw [Json.text, Json.size, enclosed_length (by decide) (by decide), membersText_size ms]

theorem valuesText_size :
    ∀ vs : List Json, (encode lone (valuesText W vs)).length = valuesSize W lone vs
  | [] => by
    rw [valuesText, valuesSize, encode, List.length_nil]
  | [v] => by
    rw [valuesText, valuesSize, text_size v]
  | v :: w :: vs => by
    rw [valuesText, valuesSize, encode_sep_length (by decide), text_size v,
      valuesText_size (w :: vs)]
    · exact List.cons_ne_nil w vs
    · exact List.cons_ne_nil w vs

theorem membersText_size :
    ∀ ms : List (Text × Json), (encode lone (membersText W ms)).length = membersSize W lone ms
  | [] => by
    rw [membersText, membersSize, encode, List.length_nil]
  | [(name, v)] => by
    rw [membersText, membersSize, encode_sep_length (by decide), text_size v, written]
  | (name, v) :: m :: ms => by
    rw [membersText, membersSize, encode_sep_length (by decide), encode_sep_length (by decide),
      text_size v, membersText_size (m :: ms), written]
    · omega
    · exact List.cons_ne_nil m ms
    · exact List.cons_ne_nil m ms

end

theorem membersSize_cons {name : Text} {v : Json} {ms : List (Text × Json)} (h : ms ≠ []) :
    membersSize W lone ((name, v) :: ms) =
      written W lone name + 1 + v.size W lone + 1 + membersSize W lone ms := by
  rw [membersSize]
  exact h

end Sizes

/-! ## Strings without escapes -/

section Plain

variable {lone : Nat} {s : Text} {u : UInt16}

/-- Printable ASCII but for the quote and the backslash. -/
def isPlain (u : UInt16) : Bool := 32 ≤ u.toNat && u.toNat < 128 && u != 34 && u != 92

theorem isPlain_ascii (h : isPlain u = true) : u.toNat < 128 := by
  simp only [isPlain, Bool.and_eq_true, decide_eq_true_eq] at h
  exact h.1.1.2

theorem escapeUnit_plain (h : isPlain u = true) : escapeUnit u = [u] := by
  simp only [isPlain, Bool.and_eq_true, decide_eq_true_eq, bne_iff_ne] at h
  obtain ⟨⟨⟨hlow, -⟩, hquote⟩, hslash⟩ := h
  have hne {n : Nat} (hn : n < 32) : u ≠ n.toUInt16 := by
    rintro rfl
    rw [Nat.toUInt16, UInt16.toNat_ofNat', Nat.mod_eq_of_lt (by omega)] at hlow
    omega
  have h8 : u ≠ 8 := hne (n := 8) (by decide)
  have h9 : u ≠ 9 := hne (n := 9) (by decide)
  have h10 : u ≠ 10 := hne (n := 10) (by decide)
  have h12 : u ≠ 12 := hne (n := 12) (by decide)
  have h13 : u ≠ 13 := hne (n := 13) (by decide)
  have hshort : shortEscape u = none := by
    simp only [shortEscape, if_neg hquote, if_neg hslash, if_neg h8, if_neg h9, if_neg h10,
      if_neg h12, if_neg h13]
  rw [escapeUnit, hshort]
  exact if_neg (by omega)

theorem stringifyUnits_plain (h : ∀ u ∈ s, isPlain u = true) : stringifyUnits s = s := by
  have hflat : s.flatMap escapeUnit = s := by
    rw [List.flatMap_congr (g := fun u => [u]) fun u hu => escapeUnit_plain (h u hu)]
    simp
  rw [stringifyUnits_flatMap (wellFormed_ascii fun u hu => isPlain_ascii (h u hu)), hflat]

theorem written_stringify (hs : s.all isPlain = true) :
    written .stringify lone s = s.length + 2 := by
  have h := List.all_eq_true.mp hs
  have hquote : Writer.quote .stringify s = 34 :: (s ++ [34]) := by
    rw [Writer.quote, Writer.stringify]
    simp only [quoted, stringifyUnits_plain h]
  rw [written, hquote, enclosed_length (by decide) (by decide),
    encode_ascii_length fun u hu => isPlain_ascii (h u hu), Nat.add_comm]

/-- `org.json` takes two bytes for a slash. -/
theorem written_orgJson (hs : s.all isPlain = true) :
    written .orgJson lone s = s.length + s.count 47 + 2 := by
  have h := List.all_eq_true.mp hs
  have hquote : Writer.quote .orgJson s = 34 :: (s.flatMap orgEscape ++ [34]) := rfl
  have hunit : ∀ u ∈ s, orgEscape u = if u = 47 then [92, 47] else [u] := by
    intro u hu
    rw [orgEscape, escapeUnit_plain (h u hu)]
  have hlength : (encode lone (s.flatMap orgEscape)).length = s.length + s.count 47 := by
    rw [encode_ascii_length]
    · clear hquote hs
      induction s with
      | nil => rfl
      | cons u s ih =>
        have hrest := ih (fun v hv => h v (List.mem_cons_of_mem u hv))
          fun v hv => hunit v (List.mem_cons_of_mem u hv)
        rw [List.flatMap_cons, List.length_append, hrest, hunit u List.mem_cons_self,
          List.length_cons, List.count_cons]
        by_cases hu : u = 47
        · simp only [hu, if_true, List.length_cons, List.length_nil, beq_self_eq_true]
          omega
        · simp only [hu, if_false, List.length_cons, List.length_nil, beq_iff_eq]
          omega
    · intro v hv
      obtain ⟨u, hu, hv⟩ := List.mem_flatMap.mp hv
      rw [hunit u hu] at hv
      split at hv
      · simp only [List.mem_cons, List.not_mem_nil, or_false] at hv
        rcases hv with rfl | rfl <;> decide
      · cases List.mem_singleton.mp hv
        exact isPlain_ascii (h v hu)
  rw [written, hquote, enclosed_length (by decide) (by decide), hlength, Nat.add_comm]

end Plain

end JsonSizes
