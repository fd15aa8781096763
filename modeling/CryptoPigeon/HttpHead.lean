import Mathlib

/-! # Heads of HTTP messages on a byte stream

A head is a line and then fields, one a line, up to an empty line. `\r` is dropped wherever it
stands, the end of the stream ends a line, and bytes above ASCII are read as U+FFFD. Lines and
heads are bounded; a name may occur once, in whatever case. -/
namespace HttpHead

abbrev Bytes := List UInt8

abbrev Text := List Char

/-- Names in lower case, with their values. -/
abbrev Fields := List (Text × Text)

inductive Fault where
  | lineTooLarge
  | headTooLarge
  | invalidField
  | duplicateField
  deriving DecidableEq, Repr

def charOf (b : UInt8) : Char := if b < 128 then Char.ofNat b.toNat else '\uFFFD'

def byteOf (c : Char) : UInt8 := if c.toNat < 128 then UInt8.ofNat c.toNat else 63

def decode (bytes : Bytes) : Text := bytes.map charOf

def encode (text : Text) : Bytes := text.map byteOf

/-- The bytes of a line with one more. -/
def keep (taken : Bytes) (b : UInt8) : Bytes := if b = 13 then taken else taken ++ [b]

/-- A line and what comes after it; no line at the end of the stream. -/
def line (cap : Nat) (taken : Bytes) : Bytes → Except Fault (Option Text × Bytes)
  | [] => .ok (if taken = [] then none else some (decode taken), [])
  | b :: rest =>
    if b = 10 then .ok (some (decode taken), rest)
    else if cap < (keep taken b).length then .error .lineTooLarge
    else line cap (keep taken b) rest

def blank (c : Char) : Bool := c.toNat ≤ 32

/-- A text without the blanks and control characters around it. -/
def strip (text : Text) : Text := (text.dropWhile blank).rdropWhile blank

def lower (text : Text) : Text := text.map Char.toLower

/-- One more field of a head, whose lines have taken `total` characters with this one. -/
def addField (limit total : Nat) (fields : Fields) (text : Text) : Except Fault Fields :=
  let name := text.takeWhile (· ≠ ':')
  if limit < total then .error .headTooLarge
  else if name = [] ∨ name.length = text.length then .error .invalidField
  else if (fields.map Prod.fst).contains (lower name) then .error .duplicateField
  else .ok (fields ++ [(lower name, strip (text.drop (name.length + 1)))])

/-- A line that is not empty has taken something from the stream. -/
theorem line_shorter {cap : Nat} {taken bytes rest : Bytes} {text : Text}
    (h : line cap taken bytes = .ok (some text, rest)) :
    rest.length < bytes.length ∨ bytes = [] ∧ taken ≠ [] := by
  induction bytes generalizing taken with
  | nil =>
    refine .inr ⟨rfl, fun htaken => ?_⟩
    simp [line, htaken] at h
  | cons b bytes ih =>
    simp only [line] at h
    split at h
    · simp only [Except.ok.injEq, Prod.mk.injEq] at h
      simp [h.2]
    · split at h
      · cases h
      · rcases ih h with hlt | ⟨rfl, -⟩
        · exact .inl (Nat.lt_succ_of_lt hlt)
        · simp only [line] at h
          split at h <;> simp_all

/-- The fields of a head and what comes after it. -/
def fields (cap limit total : Nat) (taken : Fields) (bytes : Bytes) :
    Except Fault (Fields × Bytes) :=
  match _h : line cap [] bytes with
  | .error fault => .error fault
  | .ok (none, rest) => .ok (taken, rest)
  | .ok (some text, rest) =>
    if text = [] then .ok (taken, rest)
    else
      match addField limit (total + text.length) taken text with
      | .error fault => .error fault
      | .ok more => fields cap limit (total + text.length) more rest
termination_by bytes.length
decreasing_by
  rcases line_shorter _h with hlt | ⟨-, hne⟩
  · exact hlt
  · exact absurd rfl hne

/-- The first line, the fields, and what comes after the head. -/
def head (cap limit : Nat) (bytes : Bytes) : Option (Text × Fields × Bytes) :=
  match line cap [] bytes with
  | .ok (some first, rest) =>
    match fields cap limit 0 [] rest with
    | .ok (found, rest) => some (first, found, rest)
    | .error _ => none
  | _ => none

/-- `length` bytes, if the stream has them. -/
def take (length : Nat) (bytes : Bytes) : Option (Bytes × Bytes) :=
  if length ≤ bytes.length then some (bytes.take length, bytes.drop length) else none

/-- The parts between single separators, without empty ones at the end. -/
def split (separator : Char) (text : Text) : List Text :=
  if text = [] then [[]] else (text.splitOn separator).rdropWhile (· = [])

def unsigned : Text → Text
  | '-' :: rest => rest
  | '+' :: rest => rest
  | text => text

/-- A decimal number of 32 bits, with a sign or without. -/
def parseInt (text : Text) : Option Int :=
  let n : Int := Nat.ofDigitChars 10 (unsigned text) 0
  let signed := if text.head? = some '-' then -n else n
  if unsigned text ≠ [] ∧ (unsigned text).all Char.isDigit ∧ -2 ^ 31 ≤ signed ∧ signed < 2 ^ 31 then
    some signed
  else none

/-! ## What is written is read -/

/-- ASCII that does not end a line. -/
def plain (c : Char) : Bool := c.toNat < 128 && c != '\r' && c != '\n'

/-- ASCII that is seen. -/
def graphic (c : Char) : Bool := 33 ≤ c.toNat && c.toNat ≤ 126

/-- A field that can be written. -/
structure Field where
  name : Text
  value : Text
  named : name ≠ []
  name_plain : ∀ c ∈ name, plain c = true ∧ c ≠ ':'
  value_plain : ∀ c ∈ value, plain c = true
  stripped : strip value = value

def Field.text (f : Field) : Text := f.name ++ ':' :: ' ' :: f.value

def Field.read (f : Field) : Text × Text := (lower f.name, f.value)

def writeLine (text : Text) : Bytes := encode text ++ [13, 10]

def writeFields (fs : List Field) : Bytes := fs.flatMap (fun f => writeLine f.text) ++ [13, 10]

def writeHead (ws : List Text) (fs : List Field) : Bytes :=
  writeLine ([' '].intercalate ws) ++ writeFields fs

section Line

variable {cap : Nat} {text : Text} {taken rest bytes : Bytes}

theorem charOf_byteOf {c : Char} (h : c.toNat < 128) : charOf (byteOf c) = c := by
  have hval : (UInt8.ofNat c.toNat).toNat = c.toNat := by
    rw [UInt8.toNat_ofNat']
    omega
  have hlt : UInt8.ofNat c.toNat < 128 := by
    rw [UInt8.lt_iff_toNat_lt, hval]
    exact h
  rw [byteOf, if_pos h, charOf, if_pos hlt, hval, Char.ofNat_toNat]

theorem plain_byteOf {c : Char} (h : plain c = true) :
    charOf (byteOf c) = c ∧ byteOf c ≠ 10 ∧ byteOf c ≠ 13 := by
  simp only [plain, Bool.and_eq_true, decide_eq_true_eq, bne_iff_ne] at h
  obtain ⟨⟨hascii, hcr⟩, hlf⟩ := h
  have hback := charOf_byteOf hascii
  refine ⟨hback, fun heq => hlf ?_, fun heq => hcr ?_⟩ <;> rw [← hback, heq] <;> rfl

theorem line_write (h : ∀ c ∈ text, plain c = true) (hcap : taken.length + text.length ≤ cap) :
    line cap taken (writeLine text ++ rest) = .ok (some (decode taken ++ text), rest) := by
  induction text generalizing taken with
  | nil =>
    have hroom : ¬cap < taken.length := Nat.not_lt.mpr (by simpa using hcap)
    simp [writeLine, encode, line, keep, hroom]
  | cons c text ih =>
    obtain ⟨hback, hlf, hcr⟩ := plain_byteOf (h c List.mem_cons_self)
    have hroom : (taken ++ [byteOf c]).length + text.length ≤ cap := by
      simp only [List.length_append, List.length_cons, List.length_nil] at hcap ⊢
      omega
    have hrest := ih (fun d hd => h d (List.mem_cons_of_mem _ hd)) hroom
    have hfits : ¬cap < (taken ++ [byteOf c]).length := by omega
    simp only [writeLine, encode, List.map_cons, List.cons_append, line, keep, hlf, hcr, if_false,
      hfits]
    simpa [writeLine, encode, decode, hback] using hrest

theorem plain_of_graphic {c : Char} (h : graphic c = true) : plain c = true := by
  simp only [graphic, Bool.and_eq_true, decide_eq_true_eq] at h
  simp only [plain, Bool.and_eq_true, decide_eq_true_eq, bne_iff_ne]
  refine ⟨⟨by omega, fun heq => ?_⟩, fun heq => ?_⟩
  · exact absurd (heq ▸ h.1) (by decide)
  · exact absurd (heq ▸ h.1) (by decide)

theorem not_blank_of_graphic {c : Char} (h : graphic c = true) : blank c = false := by
  simp only [graphic, Bool.and_eq_true, decide_eq_true_eq] at h
  simp only [blank, decide_eq_false_iff_not]
  omega

theorem strip_graphic {text : Text} (h : ∀ c ∈ text, graphic c = true) : strip text = text := by
  have hfront : text.dropWhile blank = text := by
    cases text with
    | nil => rfl
    | cons c text =>
      rw [List.dropWhile_cons_of_neg]
      simp [not_blank_of_graphic (h c List.mem_cons_self)]
  rw [strip, hfront, List.rdropWhile_eq_self_iff]
  intro hne
  simp [not_blank_of_graphic (h _ (List.getLast_mem hne))]

/-- A field whose value has no blanks. -/
def Field.word (name value : Text)
    (hname : (!name.isEmpty && name.all fun c => plain c && c != ':') = true)
    (hvalue : ∀ c ∈ value, graphic c = true) : Field where
  name := name
  value := value
  named := by
    rintro rfl
    simp at hname
  name_plain := by
    simpa using (Bool.and_eq_true_iff.mp hname).2
  value_plain c hc := plain_of_graphic (hvalue c hc)
  stripped := strip_graphic hvalue

theorem mem_intercalate {ws : List Text} {c : Char} (h : c ∈ [' '].intercalate ws) :
    c = ' ' ∨ ∃ w ∈ ws, c ∈ w := by
  induction ws with
  | nil => simp at h
  | cons w ws ih =>
    cases ws with
    | nil => exact .inr ⟨w, by simp, by simpa using h⟩
    | cons v ws =>
      rw [List.intercalate_cons_cons, List.append_assoc, List.mem_append, List.mem_append] at h
      rcases h with hw | hblank | hrest
      · exact .inr ⟨w, by simp, hw⟩
      · exact .inl (by simpa using hblank)
      · rcases ih hrest with hc | ⟨u, hu, hc⟩
        · exact .inl hc
        · exact .inr ⟨u, List.mem_cons_of_mem _ hu, hc⟩

theorem all_graphic {ws : List Text} (h : (ws.all fun w => w.all graphic) = true) :
    ∀ w ∈ ws, ∀ c ∈ w, graphic c = true :=
  fun w hw => List.all_eq_true.mp (List.all_eq_true.mp h w hw)

/-- A field that is always the same. -/
def Field.fixed (name value : String)
    (h : ((!name.toList.isEmpty && name.toList.all fun c => plain c && c != ':') &&
      value.toList.all graphic) = true) : Field :=
  .word name.toList value.toList (Bool.and_eq_true_iff.mp h).1
    (List.all_eq_true.mp (Bool.and_eq_true_iff.mp h).2)

/-- Words of seen characters, the last of which is not empty, are told apart. -/
theorem split_words {ws : List Text} (hwords : ∀ w ∈ ws, ∀ c ∈ w, graphic c = true)
    (hne : ws ≠ []) (hlast : ws.getLast hne ≠ []) : split ' ' ([' '].intercalate ws) = ws := by
  have hblank : ∀ w ∈ ws, ' ' ∉ w := fun w hw hc => absurd (hwords w hw ' ' hc) (by decide)
  have hsome : [' '].intercalate ws ≠ [] := by
    intro hempty
    have hparts := List.splitOn_intercalate ' ' hblank hne
    rw [hempty, List.splitOn_nil] at hparts
    subst hparts
    exact hlast rfl
  rw [split, if_neg hsome, List.splitOn_intercalate ' ' hblank hne, List.rdropWhile_eq_self_iff]
  intro _
  simpa using hlast

end Line

section Fields

variable {cap limit total : Nat} {taken : Fields} {bytes rest : Bytes}

theorem strip_blank (value : Text) : strip (' ' :: value) = strip value := by
  simp [strip, blank]

theorem Field.plain_text (f : Field) : ∀ c ∈ f.text, plain c = true := by
  intro c hc
  rcases List.mem_append.mp hc with hc | hc
  · exact (f.name_plain c hc).1
  · rcases List.mem_cons.mp hc with rfl | hc
    · decide
    · rcases List.mem_cons.mp hc with rfl | hc
      · decide
      · exact f.value_plain c hc

theorem Field.takeWhile_text (f : Field) : f.text.takeWhile (· ≠ ':') = f.name := by
  have hname : ∀ c ∈ f.name, decide (c ≠ ':') = true :=
    fun c hc => decide_eq_true (f.name_plain c hc).2
  rw [Field.text, List.takeWhile_append_of_pos hname]
  simp

theorem addField_write (f : Field) (hlimit : total ≤ limit)
    (hnew : lower f.name ∉ taken.map Prod.fst) :
    addField limit total taken f.text = .ok (taken ++ [f.read]) := by
  have hlength : f.name.length ≠ f.text.length := by
    simp [Field.text]
  have hdrop : f.text.drop (f.name.length + 1) = ' ' :: f.value := by
    rw [Field.text, ← List.drop_drop, List.drop_left]
    rfl
  simp only [addField, f.takeWhile_text, if_neg (Nat.not_lt.mpr hlimit), f.named, hlength,
    or_self, if_false, List.contains_iff_mem, if_neg hnew, hdrop, strip_blank, f.stripped,
    Field.read]

theorem fields_eq : fields cap limit total taken bytes = match line cap [] bytes with
    | .error fault => .error fault
    | .ok (none, rest) => .ok (taken, rest)
    | .ok (some text, rest) =>
      if text = [] then .ok (taken, rest)
      else match addField limit (total + text.length) taken text with
        | .error fault => .error fault
        | .ok more => fields cap limit (total + text.length) more rest := by
  rw [fields]
  split <;> simp_all

theorem fields_more {text : Text} {more : Fields}
    (h : line cap [] bytes = .ok (some text, rest)) (hne : text ≠ [])
    (hadd : addField limit (total + text.length) taken text = .ok more) :
    fields cap limit total taken bytes = fields cap limit (total + text.length) more rest := by
  rw [fields_eq, h]
  simp [hne, hadd]

/-- Fields within the bounds, of different names, are read back, and nothing after them. -/
theorem fields_write (fs : List Field) (hcap : ∀ f ∈ fs, f.text.length ≤ cap)
    (hlimit : total + (fs.map fun f => f.text.length).sum ≤ limit)
    (hdistinct : (taken.map Prod.fst ++ fs.map fun f => lower f.name).Nodup) :
    fields cap limit total taken (writeFields fs ++ rest) =
      .ok (taken ++ fs.map Field.read, rest) := by
  induction fs generalizing total taken with
  | nil =>
    have hline : line cap [] (writeLine [] ++ rest) = .ok (some [], rest) :=
      line_write (by simp) (by simp)
    have hwrite : writeFields [] ++ rest = writeLine [] ++ rest := rfl
    rw [hwrite, fields_eq, hline]
    simp
  | cons f fs ih =>
    simp only [List.map_cons, List.sum_cons] at hlimit
    have hline : line cap [] (writeLine f.text ++ (writeFields fs ++ rest)) =
        .ok (some f.text, writeFields fs ++ rest) :=
      line_write f.plain_text (by simpa using hcap f List.mem_cons_self)
    have hnew : lower f.name ∉ taken.map Prod.fst := fun hmem =>
      (List.nodup_append.mp hdistinct).2.2 _ hmem _ (by simp) rfl
    have hadd : addField limit (total + f.text.length) taken f.text = .ok (taken ++ [f.read]) :=
      addField_write f (by omega) hnew
    have hne : f.text ≠ [] := by simp [Field.text]
    have hrest : fields cap limit (total + f.text.length) (taken ++ [f.read])
        (writeFields fs ++ rest) = .ok (taken ++ [f.read] ++ fs.map Field.read, rest) :=
      ih (fun g hg => hcap g (List.mem_cons_of_mem _ hg)) (by omega)
        (by simpa [Field.read] using hdistinct)
    have hwrite : writeFields (f :: fs) ++ rest = writeLine f.text ++ (writeFields fs ++ rest) := by
      simp [writeFields]
    rw [hwrite, fields_more hline hne hadd, hrest]
    simp

theorem text_short {fs : List Field} (h : (fs.map fun f => f.text.length).sum ≤ cap) :
    ∀ f ∈ fs, f.text.length ≤ cap := fun _ hf =>
  (List.single_le_sum (by simp) _ (List.mem_map_of_mem hf)).trans h

theorem head_write {ws : List Text} {fs : List Field}
    (hwords : ∀ w ∈ ws, ∀ c ∈ w, graphic c = true) (hfirst : ([' '].intercalate ws).length ≤ cap)
    (hcap : ∀ f ∈ fs, f.text.length ≤ cap) (hlimit : (fs.map fun f => f.text.length).sum ≤ limit)
    (hdistinct : (fs.map fun f => lower f.name).Nodup) :
    head cap limit (writeHead ws fs ++ rest) =
      some ([' '].intercalate ws, fs.map Field.read, rest) := by
  have hplain : ∀ c ∈ [' '].intercalate ws, plain c = true := by
    intro c hc
    rcases mem_intercalate hc with rfl | ⟨w, hw, hcw⟩
    · decide
    · exact plain_of_graphic (hwords w hw c hcw)
  have hfirst : line cap [] (writeLine ([' '].intercalate ws) ++ (writeFields fs ++ rest)) =
      .ok (some ([' '].intercalate ws), writeFields fs ++ rest) :=
    line_write hplain (by simpa using hfirst)
  have hfields : fields cap limit 0 [] (writeFields fs ++ rest) = .ok (fs.map Field.read, rest) :=
    fields_write fs hcap (by simpa using hlimit) (by simpa using hdistinct)
  rw [writeHead, List.append_assoc, head, hfirst]
  simp only [hfields]

end Fields

theorem digits_all (n : Nat) : (Nat.toDigits 10 n).all Char.isDigit = true :=
  List.all_eq_true.mpr fun _ hc => Nat.isDigit_of_mem_toDigits (by decide) (by decide) hc

/-- A text that begins with a digit has no sign. -/
theorem unsigned_digits {text : Text} (h : text.all Char.isDigit = true) :
    unsigned text = text ∧ text.head? ≠ some '-' := by
  cases text with
  | nil => exact ⟨rfl, by simp⟩
  | cons c text =>
    rw [List.all_cons, Bool.and_eq_true] at h
    have hminus : c ≠ '-' := fun heq => absurd (heq ▸ h.1) (by decide)
    have hplus : c ≠ '+' := fun heq => absurd (heq ▸ h.1) (by decide)
    refine ⟨?_, by simpa using hminus⟩
    unfold unsigned
    split <;> simp_all

theorem parseInt_digits {n : Nat} (h : n < 2 ^ 31) :
    parseInt (Nat.toDigits 10 n) = some (n : Int) := by
  obtain ⟨hunsigned, hhead⟩ := unsigned_digits (digits_all n)
  have hbounds : -2 ^ 31 ≤ (n : Int) ∧ (n : Int) < 2 ^ 31 := by omega
  simp only [parseInt, hunsigned, if_neg hhead, Nat.ofDigitChars_ten_toDigits, digits_all]
  rw [if_pos ⟨Nat.toDigits_ne_nil, trivial, hbounds⟩]

end HttpHead
