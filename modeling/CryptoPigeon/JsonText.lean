import Mathlib

/-! # Texts that are signed: JSON strings, integers and base64

Each writer is injective, also in front of further text where the writer ends itself, so
that a text composed of several fields determines them. -/
namespace JsonText

def hexDigit (n : Nat) : Char :=
  if n < 10 then Char.ofNat (48 + n) else Char.ofNat (87 + n)

/-- How `JSON.stringify` writes one character of a string. -/
def escape (c : Char) : List Char :=
  if c = '"' then ['\\', '"']
  else if c = '\\' then ['\\', '\\']
  else if c.toNat = 8 then ['\\', 'b']
  else if c.toNat = 9 then ['\\', 't']
  else if c.toNat = 10 then ['\\', 'n']
  else if c.toNat = 12 then ['\\', 'f']
  else if c.toNat = 13 then ['\\', 'r']
  else if c.toNat < 32 then ['\\', 'u', '0', '0', hexDigit (c.toNat / 16), hexDigit (c.toNat % 16)]
  else [c]

def quote (s : String) : List Char := '"' :: (s.toList.flatMap escape ++ ['"'])

/-- What a JSON reader makes of the text after one character. -/
def unescape : List Char → Option (Nat × List Char)
  | '\\' :: 'b' :: r => some (8, r)
  | '\\' :: 't' :: r => some (9, r)
  | '\\' :: 'n' :: r => some (10, r)
  | '\\' :: 'f' :: r => some (12, r)
  | '\\' :: 'r' :: r => some (13, r)
  | '\\' :: 'u' :: '0' :: '0' :: a :: b :: r =>
    ((List.range 16).find? (fun n => hexDigit n == a)).bind fun x =>
      ((List.range 16).find? (fun n => hexDigit n == b)).map fun y => (16 * x + y, r)
  | '\\' :: c :: r => some (c.toNat, r)
  | '"' :: _ => none
  | c :: r => some (c.toNat, r)
  | [] => none

theorem hexDigit_read (n : Nat) (h : n < 16) :
    (List.range 16).find? (fun m => hexDigit m == hexDigit n) = some n := by
  have all : ∀ n < 16, (List.range 16).find? (fun m => hexDigit m == hexDigit n) = some n := by
    decide
  exact all n h

theorem unescape_escape (c : Char) (r : List Char) :
    unescape (escape c ++ r) = some (c.toNat, r) := by
  unfold escape
  split_ifs with h₁ h₂ h₃ h₄ h₅ h₆ h₇ h₈
  · subst h₁
    rfl
  · subst h₂
    rfl
  all_goals try simp [unescape, *]
  · rw [hexDigit_read _ (by omega), hexDigit_read _ (Nat.mod_lt _ (by decide))]
    simp [Nat.div_add_mod]

theorem unescape_quote (r : List Char) : unescape ('"' :: r) = none := rfl

theorem escape_append_inj {c c' : Char} {r r' : List Char}
    (h : escape c ++ r = escape c' ++ r') : c = c' ∧ r = r' := by
  have read := congrArg unescape h
  rw [unescape_escape, unescape_escape, Option.some.injEq, Prod.mk.injEq] at read
  exact ⟨Char.toNat_inj.mp read.1, read.2⟩

theorem flatMap_escape_inj {s t r r' : List Char}
    (h : s.flatMap escape ++ '"' :: r = t.flatMap escape ++ '"' :: r') : s = t ∧ r = r' := by
  induction s generalizing t with
  | nil =>
    cases t with
    | nil => exact ⟨rfl, by simpa using h⟩
    | cons c t =>
      have read := congrArg unescape h
      rw [List.flatMap_cons, List.append_assoc, unescape_escape] at read
      exact absurd read (by simp [unescape_quote])
  | cons c s ih =>
    cases t with
    | nil =>
      have read := congrArg unescape h
      rw [List.flatMap_cons, List.append_assoc, unescape_escape] at read
      exact absurd read (by simp [unescape_quote])
    | cons c' t =>
      rw [List.flatMap_cons, List.flatMap_cons, List.append_assoc, List.append_assoc] at h
      obtain ⟨rfl, hr⟩ := escape_append_inj h
      obtain ⟨rfl, rfl⟩ := ih hr
      exact ⟨rfl, rfl⟩

/-- A quoted string ends itself. -/
theorem quote_append_inj {s t : String} {r r' : List Char}
    (h : quote s ++ r = quote t ++ r') : s = t ∧ r = r' := by
  have inner : s.toList.flatMap escape ++ '"' :: r = t.toList.flatMap escape ++ '"' :: r' := by
    simpa [quote] using h
  obtain ⟨hs, hr⟩ := flatMap_escape_inj inner
  exact ⟨String.toList_inj.mp hs, hr⟩

theorem comma_notMem_repr (n : Int) : ',' ∉ n.repr.toList := by
  intro h
  rw [Int.repr_eq_if] at h
  have digits : ∀ m : Nat, ',' ∉ m.repr.toList := by
    intro m hm
    rw [Nat.repr_eq_ofList_toDigits, String.toList_ofList] at hm
    exact absurd (Nat.isDigit_of_mem_toDigits (by decide) (by decide) hm) (by decide)
  split at h
  · exact digits _ (by simpa using h)
  · exact digits _ (by simpa using h)

theorem append_comma_inj {a b r r' : List Char} (ha : ',' ∉ a) (hb : ',' ∉ b)
    (h : a ++ ',' :: r = b ++ ',' :: r') : a = b ∧ r = r' := by
  induction a generalizing b with
  | nil =>
    cases b with
    | nil => exact ⟨rfl, by simpa using h⟩
    | cons y b =>
      have first : ',' = y := (List.cons.inj h).1
      exact absurd (first ▸ List.mem_cons_self) hb
  | cons x a ih =>
    cases b with
    | nil =>
      have first : x = ',' := (List.cons.inj h).1
      exact absurd (first ▸ List.mem_cons_self) ha
    | cons y b =>
      obtain ⟨rfl, rest⟩ := List.cons.inj h
      obtain ⟨rfl, rfl⟩ := ih (fun k => ha (List.mem_cons_of_mem _ k))
        (fun k => hb (List.mem_cons_of_mem _ k)) rest
      exact ⟨rfl, rfl⟩

/-- A decimal number ends at the comma after it. -/
theorem repr_append_inj {m n : Int} {r r' : List Char}
    (h : m.repr.toList ++ ',' :: r = n.repr.toList ++ ',' :: r') : m = n ∧ r = r' := by
  obtain ⟨hm, hr⟩ := append_comma_inj (comma_notMem_repr m) (comma_notMem_repr n) h
  exact ⟨Int.repr_injective (String.toList_inj.mp hm), hr⟩

def base64Digit (n : Nat) : Char :=
  if n < 26 then Char.ofNat (65 + n)
  else if n < 52 then Char.ofNat (71 + n)
  else if n < 62 then Char.ofNat (n - 4)
  else if n = 62 then '+'
  else '/'

/-- `toString('base64')` of a buffer: four digits for three bytes, the last group padded. -/
def base64 : List UInt8 → List Char
  | [] => []
  | [a] => [base64Digit (a.toNat / 4), base64Digit (a.toNat % 4 * 16), '=', '=']
  | [a, b] =>
    [base64Digit (a.toNat / 4), base64Digit (a.toNat % 4 * 16 + b.toNat / 16),
      base64Digit (b.toNat % 16 * 4), '=']
  | a :: b :: c :: r =>
    base64Digit (a.toNat / 4) :: base64Digit (a.toNat % 4 * 16 + b.toNat / 16) ::
      base64Digit (b.toNat % 16 * 4 + c.toNat / 64) :: base64Digit (c.toNat % 64) :: base64 r

/-- The number of a base64 digit. -/
def base64Value (c : Char) : Option Nat :=
  if 'A' ≤ c ∧ c ≤ 'Z' then some (c.toNat - 65)
  else if 'a' ≤ c ∧ c ≤ 'z' then some (c.toNat - 71)
  else if '0' ≤ c ∧ c ≤ '9' then some (c.toNat + 4)
  else if c = '+' then some 62
  else if c = '/' then some 63
  else none

theorem base64Value_digit {n : Nat} (h : n < 64) : base64Value (base64Digit n) = some n := by
  have all : ∀ n < 64, base64Value (base64Digit n) = some n := by decide +kernel
  exact all n h

theorem base64Digit_inj {m n : Nat} (hm : m < 64) (hn : n < 64)
    (h : base64Digit m = base64Digit n) : m = n := by
  have hvalue : base64Value (base64Digit m) = base64Value (base64Digit n) := by rw [h]
  rw [base64Value_digit hm, base64Value_digit hn] at hvalue
  exact Option.some.inj hvalue

theorem base64Digit_ne_pad {n : Nat} (h : n < 64) : base64Digit n ≠ '=' := by
  have all : ∀ n < 64, base64Digit n ≠ '=' := by decide +kernel
  exact all n h

theorem base64_inj {x y : List UInt8} (h : base64 x = base64 y) : x = y := by
  induction x using base64.induct generalizing y with
  | case1 =>
    match y with
    | [] => rfl
    | [_] => cases h
    | [_, _] => cases h
    | _ :: _ :: _ :: _ => cases h
  | case2 a =>
    have la := a.toNat_lt
    match y with
    | [] => cases h
    | [a'] =>
      have la' := a'.toNat_lt
      simp only [base64, List.cons.injEq, and_true] at h
      have h₁ := base64Digit_inj (by omega) (by omega) h.1
      have h₂ := base64Digit_inj (by omega) (by omega) h.2
      have ea : a = a' := UInt8.toNat_inj.mp (by omega)
      rw [ea]
    | [_, b'] =>
      simp only [base64, List.cons.injEq, and_true] at h
      have lb' := b'.toNat_lt
      exact absurd h.2.2.symm (base64Digit_ne_pad (by omega))
    | _ :: b' :: c' :: _ =>
      simp only [base64, List.cons.injEq] at h
      have lb' := b'.toNat_lt
      have lc' := c'.toNat_lt
      exact absurd h.2.2.1.symm (base64Digit_ne_pad (by omega))
  | case3 a b =>
    have la := a.toNat_lt
    have lb := b.toNat_lt
    match y with
    | [] => cases h
    | [_] =>
      simp only [base64, List.cons.injEq, and_true] at h
      exact absurd h.2.2 (base64Digit_ne_pad (by omega))
    | [a', b'] =>
      have la' := a'.toNat_lt
      have lb' := b'.toNat_lt
      simp only [base64, List.cons.injEq, and_true] at h
      have h₁ := base64Digit_inj (by omega) (by omega) h.1
      have h₂ := base64Digit_inj (by omega) (by omega) h.2.1
      have h₃ := base64Digit_inj (by omega) (by omega) h.2.2
      have ea : a = a' := UInt8.toNat_inj.mp (by omega)
      have eb : b = b' := UInt8.toNat_inj.mp (by omega)
      rw [ea, eb]
    | _ :: _ :: c' :: _ =>
      simp only [base64, List.cons.injEq] at h
      have lc' := c'.toNat_lt
      exact absurd h.2.2.2.1.symm (base64Digit_ne_pad (by omega))
  | case4 a b c r ih =>
    have la := a.toNat_lt
    have lb := b.toNat_lt
    have lc := c.toNat_lt
    match y with
    | [] => cases h
    | [_] =>
      simp only [base64, List.cons.injEq] at h
      exact absurd h.2.2.1 (base64Digit_ne_pad (by omega))
    | [_, _] =>
      simp only [base64, List.cons.injEq] at h
      exact absurd h.2.2.2.1 (base64Digit_ne_pad (by omega))
    | a' :: b' :: c' :: r' =>
      have la' := a'.toNat_lt
      have lb' := b'.toNat_lt
      have lc' := c'.toNat_lt
      simp only [base64, List.cons.injEq] at h
      obtain ⟨h₁, h₂, h₃, h₄, hr⟩ := h
      have k₁ := base64Digit_inj (by omega) (by omega) h₁
      have k₂ := base64Digit_inj (by omega) (by omega) h₂
      have k₃ := base64Digit_inj (by omega) (by omega) h₃
      have k₄ := base64Digit_inj (by omega) (by omega) h₄
      have ea : a = a' := UInt8.toNat_inj.mp (by omega)
      have eb : b = b' := UInt8.toNat_inj.mp (by omega)
      have ec : c = c' := UInt8.toNat_inj.mp (by omega)
      rw [ea, eb, ec, ih hr]

/-- The bytes of digits of six bits; bits left over are dropped. -/
def sextetBytes : List Nat → List UInt8
  | a :: b :: c :: d :: r =>
    UInt8.ofNat (a * 4 + b / 16) :: UInt8.ofNat (b % 16 * 16 + c / 4) ::
      UInt8.ofNat (c % 4 * 64 + d) :: sextetBytes r
  | [a, b, c] => [UInt8.ofNat (a * 4 + b / 16), UInt8.ofNat (b % 16 * 16 + c / 4)]
  | [a, b] => [UInt8.ofNat (a * 4 + b / 16)]
  | _ => []

def lenientValue (c : Char) : Option Nat :=
  if c = '-' then some 62 else if c = '_' then some 63 else base64Value c

/-- `Buffer.from(text, 'base64')`: padding ends the text, the digits of the URL alphabet are
read too, other characters are passed over. -/
def bufferFromBase64 (t : List Char) : List UInt8 :=
  sextetBytes ((t.takeWhile (· != '=')).filterMap lenientValue)

/-- `Base64.getDecoder().decode(text)`: every character is a digit up to the padding, which is
complete or left out. -/
def decodeBase64 (t : List Char) : Option (List UInt8) :=
  let digits := t.takeWhile (· != '=')
  let padding := t.drop digits.length
  if (digits.length % 4, padding) ∈
      [(0, []), (2, []), (3, []), (2, ['=', '=']), (3, ['='])] then
    (digits.mapM base64Value).map sextetBytes
  else none

theorem lenientValue_digit {n : Nat} (h : n < 64) : lenientValue (base64Digit n) = some n := by
  have all : ∀ n < 64, lenientValue (base64Digit n) = some n := by decide +kernel
  exact all n h

/-- A base64 text is a row of digits, from which the bytes come back, and its padding. -/
theorem base64_digits (x : List UInt8) : ∃ ds : List Nat, ∃ padding : List Char,
    base64 x = ds.map base64Digit ++ padding ∧ (∀ d ∈ ds, d < 64) ∧ sextetBytes ds = x ∧
    (ds.length % 4, padding) ∈ [(0, []), (2, ['=', '=']), (3, ['='])] := by
  induction x using base64.induct with
  | case1 => exact ⟨[], [], rfl, by simp, rfl, by simp⟩
  | case2 a =>
    have la := a.toNat_lt
    refine ⟨[a.toNat / 4, a.toNat % 4 * 16], ['=', '='], rfl, ?_, ?_, by simp⟩
    · simp only [List.mem_cons, List.not_mem_nil, or_false, forall_eq_or_imp, forall_eq]
      omega
    · have ha : a.toNat / 4 * 4 + a.toNat % 4 * 16 / 16 = a.toNat := by omega
      simp only [sextetBytes, ha, UInt8.ofNat_toNat]
  | case3 a b =>
    have la := a.toNat_lt
    have lb := b.toNat_lt
    refine ⟨[a.toNat / 4, a.toNat % 4 * 16 + b.toNat / 16, b.toNat % 16 * 4], ['='], rfl, ?_, ?_,
      by simp⟩
    · simp only [List.mem_cons, List.not_mem_nil, or_false, forall_eq_or_imp, forall_eq]
      omega
    · have ha : a.toNat / 4 * 4 + (a.toNat % 4 * 16 + b.toNat / 16) / 16 = a.toNat := by omega
      have hb : (a.toNat % 4 * 16 + b.toNat / 16) % 16 * 16 + b.toNat % 16 * 4 / 4 = b.toNat := by
        omega
      simp only [sextetBytes, ha, hb, UInt8.ofNat_toNat]
  | case4 a b c r ih =>
    obtain ⟨ds, padding, hds, hlt, hr, hp⟩ := ih
    have la := a.toNat_lt
    have lb := b.toNat_lt
    have lc := c.toNat_lt
    refine ⟨a.toNat / 4 :: (a.toNat % 4 * 16 + b.toNat / 16) ::
      (b.toNat % 16 * 4 + c.toNat / 64) :: c.toNat % 64 :: ds, padding, ?_, ?_, ?_, ?_⟩
    · simp [base64, hds]
    · intro d hd
      simp only [List.mem_cons] at hd
      rcases hd with rfl | rfl | rfl | rfl | hd
      · omega
      · omega
      · omega
      · omega
      · exact hlt d hd
    · have ha : a.toNat / 4 * 4 + (a.toNat % 4 * 16 + b.toNat / 16) / 16 = a.toNat := by omega
      have hb : (a.toNat % 4 * 16 + b.toNat / 16) % 16 * 16 +
          (b.toNat % 16 * 4 + c.toNat / 64) / 4 = b.toNat := by omega
      have hc : (b.toNat % 16 * 4 + c.toNat / 64) % 4 * 64 + c.toNat % 64 = c.toNat := by omega
      simp only [sextetBytes, ha, hb, hc, UInt8.ofNat_toNat, hr]
    · have hmod : (ds.length + 1 + 1 + 1 + 1) % 4 = ds.length % 4 := by omega
      simpa only [List.length_cons, hmod] using hp

/-- Reading stops at the padding. -/
theorem takeWhile_digits {ds : List Nat} {padding : List Char} (hds : ∀ d ∈ ds, d < 64)
    (hp : padding = [] ∨ padding = ['='] ∨ padding = ['=', '=']) :
    (ds.map base64Digit ++ padding).takeWhile (· != '=') = ds.map base64Digit := by
  have all : ∀ c ∈ ds.map base64Digit, (c != '=') = true := by
    intro c hc
    obtain ⟨d, hd, rfl⟩ := List.mem_map.mp hc
    simpa using base64Digit_ne_pad (hds d hd)
  rw [List.takeWhile_append_of_pos all]
  rcases hp with rfl | rfl | rfl <;> simp

theorem bufferFromBase64_base64 (x : List UInt8) : bufferFromBase64 (base64 x) = x := by
  obtain ⟨ds, padding, hx, hlt, hds, hp⟩ := base64_digits x
  have hpad : padding = [] ∨ padding = ['='] ∨ padding = ['=', '='] := by
    simp only [List.mem_cons, Prod.mk.injEq, List.not_mem_nil, or_false] at hp
    tauto
  have hread : ∀ d ∈ ds, (lenientValue ∘ base64Digit) d = some d :=
    fun d hd => lenientValue_digit (hlt d hd)
  rw [bufferFromBase64, hx, takeWhile_digits hlt hpad, List.filterMap_map,
    List.filterMap_congr hread, List.filterMap_some, hds]

theorem decodeBase64_base64 (x : List UInt8) : decodeBase64 (base64 x) = some x := by
  obtain ⟨ds, padding, hx, hlt, hds, hp⟩ := base64_digits x
  have hpad : padding = [] ∨ padding = ['='] ∨ padding = ['=', '='] := by
    simp only [List.mem_cons, Prod.mk.injEq, List.not_mem_nil, or_false] at hp
    tauto
  have hread : (ds.map base64Digit).mapM base64Value = some ds := by
    clear hx hds hp
    induction ds with
    | nil => rfl
    | cons d ds ih =>
      have rest := ih fun e he => hlt e (List.mem_cons_of_mem _ he)
      simp [base64Value_digit (hlt d List.mem_cons_self), rest]
  have hdrop : (ds.map base64Digit ++ padding).drop (ds.map base64Digit).length = padding := by
    simp
  have hlegal : ((ds.map base64Digit).length % 4, padding) ∈
      [(0, []), (2, []), (3, []), (2, ['=', '=']), (3, ['='])] := by
    rw [List.length_map]
    simp only [List.mem_cons, List.not_mem_nil, or_false] at hp ⊢
    tauto
  simp only [decodeBase64, hx, takeWhile_digits hlt hpad, hdrop]
  rw [if_pos hlegal, hread, Option.map_some, hds]

/-- Four characters for three bytes. -/
theorem base64_length (x : List UInt8) : (base64 x).length = (x.length + 2) / 3 * 4 := by
  induction x using base64.induct with
  | case1 => rfl
  | case2 a => simp [base64]
  | case3 a b => simp [base64]
  | case4 a b c r ih =>
    simp only [base64, List.length_cons, ih]
    omega

/-- `Crypto.hex` and `toString('hex')`. -/
def hex (x : List UInt8) : List Char :=
  x.flatMap fun b => [hexDigit (b.toNat / 16), hexDigit (b.toNat % 16)]

def hexValue (c : Char) : Option Nat :=
  if '0' ≤ c ∧ c ≤ '9' then some (c.toNat - 48)
  else if 'a' ≤ c ∧ c ≤ 'f' then some (c.toNat - 87)
  else if 'A' ≤ c ∧ c ≤ 'F' then some (c.toNat - 55)
  else none

/-- `Crypto.unhex`: pairs of hexadecimal digits of either case. -/
def unhex : List Char → Option (List UInt8)
  | [] => some []
  | [_] => none
  | a :: b :: r => do
    let high ← hexValue a
    let low ← hexValue b
    let rest ← unhex r
    some (UInt8.ofNat (16 * high + low) :: rest)

theorem hexValue_digit {n : Nat} (h : n < 16) : hexValue (hexDigit n) = some n := by
  have all : ∀ n < 16, hexValue (hexDigit n) = some n := by decide
  exact all n h

theorem unhex_hex (x : List UInt8) : unhex (hex x) = some x := by
  induction x with
  | nil => rfl
  | cons b x ih =>
    have hb := b.toNat_lt
    have join : 16 * (b.toNat / 16) + b.toNat % 16 = b.toNat := Nat.div_add_mod _ _
    have shape : hex (b :: x) = hexDigit (b.toNat / 16) :: hexDigit (b.toNat % 16) :: hex x := rfl
    rw [shape, unhex, hexValue_digit (show b.toNat / 16 < 16 by omega),
      hexValue_digit (show b.toNat % 16 < 16 by omega), ih]
    simp only [Option.bind_eq_bind, Option.bind_some, join, UInt8.ofNat_toNat]

end JsonText
