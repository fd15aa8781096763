import CryptoPigeon.AttachmentManifests
import CryptoPigeon.SevenOfSeven
import CryptoPigeon.Utf16Json

/-! # The origins of relays

A relay is named by an origin. Both clients demand HTTPS unless the host belongs to the local
network, and both decide that from how the host is spelled. The URL parsers are parameters; a
host is what they make of it, a name, four decimal octets or the inside of brackets. -/
namespace RelayOrigins

open AttachmentManifests (isHex matchesEach_nil matchesEach_cons)
open SevenOfSeven (Text)
open Utf16Json (ascii)

def lower (t : Text) : Text := t.map Char.toLower

/-- One of the four decimal parts of an address. -/
structure Octet where
  digits : Text
  nonempty : digits ≠ []
  decimal : ∀ c ∈ digits, c.isDigit = true

def Octet.value (o : Octet) : Nat := o.digits.foldl (fun n c => 10 * n + (c.toNat - 48)) 0

def dotted (a b c d : Octet) : Text :=
  a.digits ++ '.' :: (b.digits ++ '.' :: (c.digits ++ '.' :: d.digits))

/-- A host that is not an address and is not spelled like one. -/
structure DomainName where
  chars : Text
  delimited : ∀ c ∈ chars, c ≠ ':' ∧ c ≠ '['
  named : ∀ a b c d, chars ≠ dotted a b c d

def hexValue (c : Char) : Nat :=
  if c.isDigit then c.toNat - 48 else c.toLower.toNat - 87

/-- The first sixteen bits of an address, which may be left out. -/
structure Hextet where
  digits : Text
  short : digits.length ≤ 4
  hex : ∀ c ∈ digits, isHex c = true

def Hextet.value (g : Hextet) : Nat := g.digits.foldl (fun n c => 16 * n + hexValue c) 0

inductive Host where
  | name (n : DomainName)
  | ipv4 (a b c d : Octet)
  | ipv6 (first : Hextet) (rest : Text)

def Host.text : Host → Text
  | .name n => n.chars
  | .ipv4 a b c d => dotted a b c d
  | .ipv6 first rest => '[' :: (first.digits ++ ':' :: (rest ++ [']']))

/-- `localhost`, a loopback address, or an address in 10/8, 172.16/12, 192.168/16 or fc00::/7. -/
def Host.IsLocal : Host → Prop
  | .name n => lower n.chars = "localhost".toList
  | .ipv4 a b _ _ => a.value = 127 ∨ a.value = 10 ∨
      (a.value = 172 ∧ 16 ≤ b.value ∧ b.value ≤ 31) ∨ (a.value = 192 ∧ b.value = 168)
  | .ipv6 first rest => (first.digits = [] ∧ rest = ":1".toList) ∨
      (0xFC00 ≤ first.value ∧ first.value ≤ 0xFDFF)

/-! ## The tests of both clients -/

/-- The front of a regular expression that is one class after another. -/
def startsEach : List (Char → Bool) → Text → Bool
  | [], _ => true
  | _ :: _, [] => false
  | p :: ps, c :: cs => p c && startsEach ps cs

def literal (t : Text) : List (Char → Bool) := t.map fun d c => c == d

/-- `/^10\./`, `/^192\.168\./` and `/^172\.(?:1[6-9]|2\d|3[01])\./` -/
def privatePatterns : List (List (Char → Bool)) :=
  [literal "10.".toList, literal "192.168.".toList,
    literal "172.1".toList ++ [fun c => '6' ≤ c && c ≤ '9', (· == '.')],
    literal "172.2".toList ++ [Char.isDigit, (· == '.')],
    literal "172.3".toList ++ [fun c => c == '0' || c == '1', (· == '.')]]

def beginsPrivate (t : Text) : Bool := privatePatterns.any (startsEach · t)

/-- `f[cd][a-f0-9]{2}:`, ignoring case -/
def uniquePattern : List (Char → Bool) :=
  [fun c => c.toLower == 'f', fun c => c.toLower == 'c' || c.toLower == 'd', isHex, isHex,
    (· == ':')]

def localHostname (hostname : Text) : Bool :=
  ["127.0.0.1".toList, "[::1]".toList, "localhost".toList].contains hostname ||
    beginsPrivate hostname || startsEach ((· == '[') :: uniquePattern) hostname

/-- `local` of the Android constructor, where the bracket may be missing. -/
def localHost (host : Text) : Bool :=
  lower host == "localhost".toList || host == "127.0.0.1".toList || host == "[::1]".toList ||
    host == "::1".toList || beginsPrivate host ||
    startsEach ((· == '[') :: uniquePattern) host || startsEach uniquePattern host

/-! ## Spelling -/

theorem toLower_eq_iff {c d : Char} (hd : d.isAlpha = false) : c.toLower = d ↔ c = d := by
  constructor
  · rintro rfl
    rw [Char.isAlpha_toLower_eq_isAlpha] at hd
    have hupper : ¬ c.isUpper := by
      simp only [Char.isAlpha, Bool.or_eq_false_iff] at hd
      simp [hd.1]
    exact (Char.toLower_eq_of_not_isUpper hupper).symm
  · rintro rfl
    apply Char.toLower_eq_of_not_isUpper
    simp only [Char.isAlpha, Bool.or_eq_false_iff] at hd
    simp [hd.1]

@[simp] theorem lower_lower (t : Text) : lower (lower t) = lower t := by simp [lower]

def letterless (t : Text) : Bool := t.all fun c => !c.isAlpha

/-- Case does not matter to a text without letters. -/
theorem lower_eq_iff {p t : Text} (hp : letterless p = true) : lower t = p ↔ t = p := by
  induction p generalizing t with
  | nil => simp [lower]
  | cons d p ih =>
    simp only [letterless, List.all_cons, Bool.and_eq_true, Bool.not_eq_true'] at hp
    cases t with
    | nil => simp [lower]
    | cons c t =>
      have rest := ih (t := t) hp.2
      simp only [lower, List.map_cons, List.cons.injEq] at rest ⊢
      rw [toLower_eq_iff hp.1, rest]

/-- A class that does not tell a letter from its lower case. -/
def Caseless (p : Char → Bool) : Prop := ∀ c : Char, p c.toLower = p c

theorem startsEach_lower {ps : List (Char → Bool)} {t : Text} (hps : ∀ p ∈ ps, Caseless p) :
    startsEach ps (lower t) = startsEach ps t := by
  induction ps generalizing t with
  | nil => rfl
  | cons p ps ih =>
    cases t with
    | nil => rfl
    | cons c t =>
      have rest := ih (t := t) fun q hq => hps q (List.mem_cons_of_mem p hq)
      simp only [lower, List.map_cons, startsEach] at rest ⊢
      rw [hps p List.mem_cons_self c, rest]

theorem caseless_char {d : Char} (hd : d.isAlpha = false) : Caseless (· == d) := by
  intro c
  rw [Bool.eq_iff_iff, beq_iff_eq, beq_iff_eq, toLower_eq_iff hd]

theorem caseless_literal {t : Text} (ht : letterless t = true) :
    ∀ p ∈ literal t, Caseless p := by
  intro p hp
  obtain ⟨d, hd, rfl⟩ := List.mem_map.mp hp
  apply caseless_char
  simpa using List.all_eq_true.mp ht d hd

/-- A class without letters. -/
theorem caseless_of_nonalpha {p : Char → Bool} (hp : ∀ c, p c = true → c.isAlpha = false) :
    Caseless p := by
  intro c
  by_cases hupper : c.isUpper
  · have halpha : c.isAlpha = true := by simp [Char.isAlpha, hupper]
    have first : p c = false := by
      by_contra hc
      rw [hp c (by simpa using hc)] at halpha
      exact absurd halpha (by decide)
    have second : p c.toLower = false := by
      by_contra hc
      have := hp c.toLower (by simpa using hc)
      rw [Char.isAlpha_toLower_eq_isAlpha, halpha] at this
      exact absurd this (by decide)
    rw [first, second]
  · rw [Char.toLower_eq_of_not_isUpper hupper]

theorem caseless_isHex : Caseless isHex := by
  intro c
  by_cases hupper : c.isUpper
  · have all : ∀ n < 128, isHex (Char.ofNat n).toLower = isHex (Char.ofNat n) := by decide
    have small : c.toNat < 128 := by
      simp only [Char.isUpper, decide_eq_true_eq, ge_iff_le,
        UInt32.le_iff_toNat_le] at hupper
      have := hupper.2
      simp only [Char.reduceVal, UInt32.reduceToNat, Char.toNat_val] at this
      omega
    simpa using all c.toNat small
  · rw [Char.toLower_eq_of_not_isUpper hupper]

theorem isDigit_nonalpha {c : Char} (h : c.isDigit = true) : c.isAlpha = false := by
  simp only [Char.isDigit, Bool.and_eq_true, decide_eq_true_eq, ge_iff_le,
    UInt32.le_iff_toNat_le] at h
  simp only [Char.isAlpha, Char.isUpper, Char.isLower, Bool.or_eq_false_iff, Bool.and_eq_false_iff,
    decide_eq_false_iff_not, ge_iff_le, UInt32.le_iff_toNat_le]
  have := h.2
  simp only [Char.reduceVal, UInt32.reduceToNat, Char.toNat_val] at this ⊢
  omega

theorem privatePatterns_caseless : ∀ ps ∈ privatePatterns, ∀ p ∈ ps, Caseless p := by
  have six : Caseless fun c => decide ('6' ≤ c) && decide (c ≤ '9') := by
    apply caseless_of_nonalpha
    intro c hc
    simp only [Bool.and_eq_true, decide_eq_true_eq, Char.le_def, UInt32.le_iff_toNat_le] at hc
    apply isDigit_nonalpha
    simp only [Char.isDigit, Bool.and_eq_true, decide_eq_true_eq, ge_iff_le,
      UInt32.le_iff_toNat_le]
    simp only [Char.reduceVal, UInt32.reduceToNat, Char.toNat_val] at hc ⊢
    omega
  have digit : Caseless Char.isDigit := caseless_of_nonalpha fun c hc => isDigit_nonalpha hc
  have zero : Caseless fun c => c == '0' || c == '1' := by
    apply caseless_of_nonalpha
    intro c hc
    simp only [Bool.or_eq_true, beq_iff_eq] at hc
    rcases hc with rfl | rfl <;> decide
  have dot : Caseless (· == '.') := caseless_char (by decide)
  intro ps hps p hp
  simp only [privatePatterns, List.mem_cons, List.not_mem_nil, or_false] at hps
  rcases hps with rfl | rfl | rfl | rfl | rfl
  · exact caseless_literal (by decide) p hp
  · exact caseless_literal (by decide) p hp
  all_goals
    simp only [List.mem_append, List.mem_cons, List.not_mem_nil, or_false] at hp
    rcases hp with hp | rfl | rfl
    · exact caseless_literal (by decide) p hp
    · assumption
    · exact dot

theorem uniquePattern_caseless : ∀ p ∈ uniquePattern, Caseless p := by
  intro p hp
  simp only [uniquePattern, List.mem_cons, List.not_mem_nil, or_false] at hp
  rcases hp with rfl | rfl | rfl | rfl | rfl
  · intro c
    simp
  · intro c
    simp
  · exact caseless_isHex
  · exact caseless_isHex
  · exact caseless_char (by decide)

theorem beginsPrivate_lower (t : Text) : beginsPrivate (lower t) = beginsPrivate t := by
  simp only [beginsPrivate]
  rw [Bool.eq_iff_iff, List.any_eq_true, List.any_eq_true]
  refine exists_congr fun ps => and_congr_right fun hps => ?_
  rw [startsEach_lower (privatePatterns_caseless ps hps)]

theorem uniqueLiteral_lower (t : Text) :
    startsEach ((· == '[') :: uniquePattern) (lower t) =
      startsEach ((· == '[') :: uniquePattern) t := by
  apply startsEach_lower
  intro p hp
  rcases List.mem_cons.mp hp with rfl | hp
  · exact caseless_char (by decide)
  · exact uniquePattern_caseless p hp

theorem localHost_lower (t : Text) : localHost (lower t) = localHost t := by
  have literal {p : Text} (hp : letterless p = true) : (lower t == p) = (t == p) := by
    rw [Bool.eq_iff_iff, beq_iff_eq, beq_iff_eq, lower_eq_iff hp]
  simp only [localHost, lower_lower]
  rw [literal (p := "127.0.0.1".toList) (by decide),
    literal (p := "[::1]".toList) (by decide),
    literal (p := "::1".toList) (by decide), beginsPrivate_lower,
    uniqueLiteral_lower, startsEach_lower uniquePattern_caseless]

/-! ## What the tests tell of an address -/

/-- A pattern that stops at a separator matches all that stands before it. -/
theorem startsEach_before {ps qs : List (Char → Bool)} {t r : Text} {sep : Char}
    (hps : ∀ p ∈ ps, p sep = false) (ht : sep ∉ t)
    (h : startsEach (ps ++ (· == sep) :: qs) (t ++ sep :: r) = true) :
    AttachmentManifests.matchesEach ps t = true ∧ startsEach qs r = true := by
  induction ps generalizing t with
  | nil =>
    cases t with
    | nil =>
      simp only [List.nil_append, startsEach, Bool.and_eq_true] at h
      exact ⟨rfl, h.2⟩
    | cons c t =>
      simp only [List.nil_append, List.cons_append, startsEach, Bool.and_eq_true,
        beq_iff_eq] at h
      exact absurd (h.1 ▸ List.mem_cons_self) ht
  | cons p ps ih =>
    cases t with
    | nil =>
      simp only [List.nil_append, List.cons_append, startsEach, Bool.and_eq_true,
        hps p List.mem_cons_self, Bool.false_eq_true, false_and] at h
    | cons c t =>
      simp only [List.cons_append, startsEach, Bool.and_eq_true] at h
      obtain ⟨hrest, hqs⟩ := ih (fun q hq => hps q (List.mem_cons_of_mem p hq))
        (fun hm => ht (List.mem_cons_of_mem c hm)) h.2
      exact ⟨by simp only [AttachmentManifests.matchesEach, h.1, hrest, Bool.and_self], hqs⟩

theorem matchesEach_literal {p t : Text} (h : AttachmentManifests.matchesEach (literal p) t = true) :
    t = p := by
  induction p generalizing t with
  | nil => exact matchesEach_nil h
  | cons d p ih =>
    obtain ⟨c, r, rfl, hc, hr⟩ := matchesEach_cons h
    rw [eq_of_beq hc, ih hr]

theorem append_inj_sep {a b r s : Text} {sep : Char} (ha : sep ∉ a) (hb : sep ∉ b)
    (h : a ++ sep :: r = b ++ sep :: s) : a = b ∧ r = s := by
  induction a generalizing b with
  | nil =>
    cases b with
    | nil => exact ⟨rfl, (List.cons.inj h).2⟩
    | cons y b => exact absurd ((List.cons.inj h).1 ▸ List.mem_cons_self) hb
  | cons x a ih =>
    cases b with
    | nil => exact absurd ((List.cons.inj h).1 ▸ List.mem_cons_self) ha
    | cons y b =>
      obtain ⟨hxy, hrest⟩ := List.cons.inj h
      obtain ⟨hab, hrs⟩ := ih (fun hm => ha (List.mem_cons_of_mem x hm))
        (fun hm => hb (List.mem_cons_of_mem y hm)) hrest
      exact ⟨by rw [hxy, hab], hrs⟩

theorem Octet.dot_notMem (o : Octet) : '.' ∉ o.digits := fun h => by
  have := o.decimal '.' h
  revert this
  decide

theorem Hextet.colon_notMem (g : Hextet) : ':' ∉ g.digits := fun h => by
  have := g.hex ':' h
  revert this
  decide

theorem isDigit_value {c : Char} (h : c.isDigit = true) : c.toNat - 48 ≤ 9 := by
  simp only [Char.isDigit, Bool.and_eq_true, decide_eq_true_eq, ge_iff_le,
    UInt32.le_iff_toNat_le, Char.reduceVal, UInt32.reduceToNat, Char.toNat_val] at h
  omega

/-- An address that begins like a private one is private. -/
theorem beginsPrivate_ipv4 {a b c d : Octet} (h : beginsPrivate (dotted a b c d) = true) :
    (Host.ipv4 a b c d).IsLocal := by
  obtain ⟨ps, hps, hstart⟩ := List.any_eq_true.mp h
  simp only [privatePatterns, List.mem_cons, List.not_mem_nil, or_false] at hps
  have apart (front : Text) (qs : List (Char → Bool)) (hfront : ∀ p ∈ literal front, p '.' = false)
      (hs : startsEach (literal front ++ (· == '.') :: qs) (dotted a b c d) = true) :
      a.digits = front ∧ startsEach qs (b.digits ++ '.' :: (c.digits ++ '.' :: d.digits)) = true := by
    obtain ⟨ha, hrest⟩ := startsEach_before hfront a.dot_notMem hs
    exact ⟨matchesEach_literal ha, hrest⟩
  have second {x : Char} {p : Char → Bool} (hx : ('.' == x) = false) (hp : p '.' = false)
      (hs : startsEach (literal ['1', '7', '2'] ++ (· == '.') :: ([(· == x), p] ++ [(· == '.')]))
        (dotted a b c d) = true) :
      a.value = 172 ∧ ∃ y, b.value = 10 * (x.toNat - 48) + (y.toNat - 48) ∧ p y = true := by
    obtain ⟨ha, hrest⟩ := apart _ _ (by simp [literal]) hs
    obtain ⟨hb, -⟩ := startsEach_before (by simp [hx, hp]) b.dot_notMem hrest
    refine ⟨by simp [Octet.value, ha], ?_⟩
    obtain ⟨u, r, hdigits, hu, hr⟩ := matchesEach_cons hb
    obtain ⟨y, r, rfl, hy, hnil⟩ := matchesEach_cons hr
    have hnil : r = [] := matchesEach_nil hnil
    rw [beq_iff_eq.mp hu, hnil] at hdigits
    exact ⟨y, by simp [Octet.value, hdigits], hy⟩
  rcases hps with rfl | rfl | rfl | rfl | rfl
  · obtain ⟨ha, -⟩ := apart ['1', '0'] [] (by simp [literal]) hstart
    exact .inr (.inl (by simp [Octet.value, ha]))
  · obtain ⟨ha, hrest⟩ := apart ['1', '9', '2'] (literal ['1', '6', '8'] ++ [(· == '.')])
      (by simp [literal]) hstart
    obtain ⟨hb, -⟩ := startsEach_before (by simp [literal]) b.dot_notMem hrest
    have hb := matchesEach_literal hb
    exact .inr (.inr (.inr (by simp [Octet.value, ha, hb])))
  · obtain ⟨ha, y, hb, hy⟩ := second (x := '1') (by decide) (by decide) hstart
    simp only [Bool.and_eq_true, decide_eq_true_eq, Char.le_def, UInt32.le_iff_toNat_le,
      Char.reduceVal, UInt32.reduceToNat, Char.toNat_val] at hy
    refine .inr (.inr (.inl ⟨ha, ?_, ?_⟩)) <;> rw [hb] <;> simp only [Char.reduceToNat] <;> omega
  · obtain ⟨ha, y, hb, hy⟩ := second (x := '2') (by decide) (by decide) hstart
    have := isDigit_value hy
    refine .inr (.inr (.inl ⟨ha, ?_, ?_⟩)) <;> rw [hb] <;> simp only [Char.reduceToNat] <;> omega
  · obtain ⟨ha, y, hb, hy⟩ := second (x := '3') (by decide) (by decide) hstart
    simp only [Bool.or_eq_true, beq_iff_eq] at hy
    refine .inr (.inr (.inl ⟨ha, ?_, ?_⟩)) <;> rcases hy with rfl | rfl <;> rw [hb] <;> decide

theorem hexValue_lt {c : Char} (h : isHex c = true) : hexValue c < 16 := by
  have all : ∀ n < 128, isHex (Char.ofNat n) = true → hexValue (Char.ofNat n) < 16 := by
    decide
  have small : c.toNat < 128 := by
    simp only [isHex, AttachmentManifests.isLowerHex, Bool.or_eq_true, Bool.and_eq_true,
      decide_eq_true_eq, Char.le_def, UInt32.le_iff_toNat_le, Char.reduceVal, UInt32.reduceToNat,
      Char.toNat_val] at h
    omega
  simpa using all c.toNat small (by simpa using h)

theorem toLower_cases {c d : Char} (h : c.toLower = d) : c = d ∨ c = d.toUpper := by
  by_cases hupper : c.isUpper
  · right
    rw [← h, Char.toUpper_toLower_eq_toUpper]
    exact (Char.toUpper_eq_of_not_isLower (Char.not_isLower_of_isUpper hupper)).symm
  · left
    rw [← h, Char.toLower_eq_of_not_isUpper hupper]

/-- An address that begins with `fc` or `fd` and two more digits belongs to fc00::/7. -/
theorem unique_value {first : Hextet} {rest : Text}
    (h : startsEach uniquePattern (first.digits ++ ':' :: rest) = true) :
    0xFC00 ≤ first.value ∧ first.value ≤ 0xFDFF := by
  have hpattern : uniquePattern = [fun c => c.toLower == 'f',
      fun c => c.toLower == 'c' || c.toLower == 'd', isHex, isHex] ++ (· == ':') :: [] := rfl
  rw [hpattern] at h
  obtain ⟨hall, -⟩ := startsEach_before
    (by simp only [List.mem_cons, List.not_mem_nil, or_false, forall_eq_or_imp, forall_eq]; decide)
    first.colon_notMem h
  obtain ⟨f, r, hdigits, hf, hr⟩ := matchesEach_cons hall
  obtain ⟨c, r, rfl, hc, hr⟩ := matchesEach_cons hr
  obtain ⟨x, r, rfl, hx, hr⟩ := matchesEach_cons hr
  obtain ⟨y, r, rfl, hy, hnil⟩ := matchesEach_cons hr
  have hnil : r = [] := matchesEach_nil hnil
  have hx := hexValue_lt hx
  have hy := hexValue_lt hy
  have hf : hexValue f = 15 := by
    rcases toLower_cases (beq_iff_eq.mp hf) with rfl | rfl <;> decide
  have hc : hexValue c = 12 ∨ hexValue c = 13 := by
    simp only [Bool.or_eq_true, beq_iff_eq] at hc
    rcases hc with hc | hc
    · exact .inl (by rcases toLower_cases hc with rfl | rfl <;> decide)
    · exact .inr (by rcases toLower_cases hc with rfl | rfl <;> decide)
  simp only [Hextet.value, hdigits, hnil, List.foldl_cons, List.foldl_nil]
  omega

/-- A name that is spelled like the front of a private address. -/
def Host.LooksPrivate : Host → Prop
  | .name n => beginsPrivate n.chars = true
  | _ => False

theorem startsEach_mem {ps : List (Char → Bool)} {t : Text} {sep : Char}
    (hsep : (· == sep) ∈ ps) (h : startsEach ps t = true) : sep ∈ t := by
  induction ps generalizing t with
  | nil => cases hsep
  | cons p ps ih =>
    cases t with
    | nil => cases h
    | cons c t =>
      simp only [startsEach, Bool.and_eq_true] at h
      rcases List.mem_cons.mp hsep with rfl | hsep
      · rw [beq_iff_eq.mp h.1]
        exact List.mem_cons_self
      · exact List.mem_cons_of_mem c (ih hsep h.2)

theorem mem_dotted {a b c d : Octet} {x : Char} (h : x ∈ dotted a b c d) :
    x.isDigit = true ∨ x = '.' := by
  simp only [dotted, List.mem_append, List.mem_cons] at h
  rcases h with h | h | h | h | h | h | h
  · exact .inl (a.decimal x h)
  · exact .inr h
  · exact .inl (b.decimal x h)
  · exact .inr h
  · exact .inl (c.decimal x h)
  · exact .inr h
  · exact .inl (d.decimal x h)

theorem letterless_dotted (a b c d : Octet) : letterless (dotted a b c d) = true := by
  refine List.all_eq_true.mpr fun x hx => ?_
  rcases mem_dotted hx with hdigit | rfl
  · simp [isDigit_nonalpha hdigit]
  · decide

theorem dot_mem_dotted (a b c d : Octet) : '.' ∈ dotted a b c d := by
  simp [dotted]

/-- Only an address in brackets has a colon or a bracket. -/
theorem bracketed {h : Host} {x : Char} (hx : x = ':' ∨ x = '[') (hm : x ∈ h.text) :
    ∃ first rest, h = .ipv6 first rest := by
  cases h with
  | name n =>
    obtain ⟨hcolon, hbracket⟩ := n.delimited x hm
    exact absurd hx (by simp [hcolon, hbracket])
  | ipv4 a b c d =>
    rcases mem_dotted hm with hdigit | rfl
    · rcases hx with rfl | rfl <;> exact absurd hdigit (by decide)
    · exact absurd hx (by decide)
  | ipv6 first rest => exact ⟨first, rest, rfl⟩

/-- An address has its brackets. -/
theorem unbracketed_false (h : Host) :
    (h.text == "::1".toList) = false ∧ startsEach uniquePattern h.text = false := by
  constructor
  · rw [beq_eq_false_iff_ne]
    intro heq
    obtain ⟨first, rest, rfl⟩ := bracketed (h := h) (.inl rfl) (by rw [heq]; simp)
    simp [Host.text] at heq
  · by_contra htrue
    rw [Bool.not_eq_false] at htrue
    obtain ⟨first, rest, rfl⟩ := bracketed (h := h) (.inl rfl)
      (startsEach_mem (by simp [uniquePattern]) htrue)
    simp only [Host.text, uniquePattern, startsEach, Bool.and_eq_true] at htrue
    exact absurd htrue.1 (by decide)

theorem letterless_eq {p t : Text} (hp : letterless p = true) : (lower t == p) = (t == p) := by
  rw [Bool.eq_iff_iff, beq_iff_eq, beq_iff_eq, lower_eq_iff hp]

/-- Both clients exempt the same hosts from HTTPS. -/
theorem localHostname_lower (h : Host) : localHostname (lower h.text) = localHost h.text := by
  obtain ⟨hbare, hunique⟩ := unbracketed_false h
  simp only [localHostname, localHost, List.contains_cons, List.contains_nil, hbare, hunique,
    Bool.or_false]
  rw [letterless_eq (p := "127.0.0.1".toList) (by decide),
    letterless_eq (p := "[::1]".toList) (by decide), beginsPrivate_lower,
    uniqueLiteral_lower]
  cases lower h.text == "localhost".toList <;> simp

theorem localHost_of_localHostname {t : Text} (h : localHostname t = true) :
    localHost t = true := by
  simp only [localHostname, List.contains_cons, List.contains_nil, Bool.or_false, Bool.or_eq_true,
    beq_iff_eq] at h
  simp only [localHost, Bool.or_eq_true, beq_iff_eq]
  obtain (((h | h | h) | h) | h) := h
  · simp [h]
  · simp [h]
  · exact .inl (.inl (.inl (.inl (.inl (.inl (by rw [h]; decide))))))
  · simp [h]
  · simp [h]

/-- What passes the test is local or a name that looks private. -/
theorem localHost_sound {h : Host} (hlocal : localHost h.text = true) :
    h.IsLocal ∨ h.LooksPrivate := by
  obtain ⟨hbare, hunique⟩ := unbracketed_false h
  simp only [localHost, hbare, hunique, Bool.or_false, Bool.or_eq_true, beq_iff_eq] at hlocal
  obtain ((((hname | hv4) | hv6) | hprivate) | hliteral) := hlocal
  · cases h with
    | name n => exact .inl hname
    | ipv4 a b c d =>
      have hdot : '.' ∈ lower (dotted a b c d) :=
        List.mem_map.mpr ⟨'.', dot_mem_dotted a b c d, by decide⟩
      rw [show lower (dotted a b c d) = "localhost".toList from hname] at hdot
      simp at hdot
    | ipv6 first rest => simp [Host.text, lower] at hname
  · cases h with
    | name n => exact absurd hv4 (n.named ⟨['1', '2', '7'], by simp, by simp⟩ ⟨['0'], by simp, by simp⟩
        ⟨['0'], by simp, by simp⟩ ⟨['1'], by simp, by simp⟩)
    | ipv4 a b c d =>
      have ha : a.digits = ['1', '2', '7'] :=
        (append_inj_sep (b := ['1', '2', '7']) (s := ['0', '.', '0', '.', '1']) a.dot_notMem
          (by decide) hv4).1
      exact .inl (.inl (by simp [Octet.value, ha]))
    | ipv6 first rest => simp [Host.text] at hv4
  · obtain ⟨first, rest, rfl⟩ := bracketed (h := h) (.inr rfl) (by rw [hv6]; simp)
    obtain ⟨hfirst, hrest⟩ := append_inj_sep (b := []) (s := [':', '1', ']'])
      first.colon_notMem (by simp) (List.cons.inj hv6).2
    refine .inl (.inl ⟨hfirst, ?_⟩)
    exact List.append_cancel_right hrest
  · cases h with
    | name n => exact .inr hprivate
    | ipv4 a b c d => exact .inl (beginsPrivate_ipv4 hprivate)
    | ipv6 first rest => 
      obtain ⟨ps, hps, hstart⟩ := List.any_eq_true.mp hprivate
      simp only [privatePatterns, List.mem_cons, List.not_mem_nil, or_false] at hps
      rcases hps with rfl | rfl | rfl | rfl | rfl <;> simp [Host.text, literal, startsEach] at hstart
  · obtain ⟨first, rest, rfl⟩ := bracketed (h := h) (.inr rfl) (startsEach_mem List.mem_cons_self hliteral)
    simp only [Host.text, startsEach, Bool.and_eq_true] at hliteral
    exact .inl (.inr (unique_value hliteral.2))

theorem lower_dotted (a b c d : Octet) : lower (dotted a b c d) = dotted a b c d :=
  (lower_eq_iff (letterless_dotted a b c d)).mpr rfl

/-- The host in lower case. -/
def Host.lower : Host → Host
  | .name n => .name
      { chars := RelayOrigins.lower n.chars
        delimited := fun c hc => by
          obtain ⟨d, hd, rfl⟩ := List.mem_map.mp hc
          rw [Ne, Ne, toLower_eq_iff (by decide), toLower_eq_iff (by decide)]
          exact n.delimited d hd
        named := fun a b c d h => by
          apply n.named a b c d
          apply (lower_eq_iff ?_).mp h
          exact letterless_dotted a b c d }
  | .ipv4 a b c d => .ipv4 a b c d
  | .ipv6 first rest => .ipv6
      { digits := RelayOrigins.lower first.digits
        short := by simpa [RelayOrigins.lower] using first.short
        hex := fun c hc => by
          obtain ⟨d, hd, rfl⟩ := List.mem_map.mp hc
          rw [caseless_isHex]
          exact first.hex d hd }
      (RelayOrigins.lower rest)

theorem Host.lower_text (h : Host) : h.lower.text = RelayOrigins.lower h.text := by
  cases h with
  | name n => rfl
  | ipv4 a b c d => exact (lower_dotted a b c d).symm
  | ipv6 first rest =>
    simp only [Host.lower, Host.text, RelayOrigins.lower, List.map_cons, List.map_append,
      List.map_nil]
    rfl

theorem Host.looksPrivate_lower {h : Host} : h.lower.LooksPrivate ↔ h.LooksPrivate := by
  cases h with
  | name n => simp only [Host.lower, Host.LooksPrivate, beginsPrivate_lower]
  | ipv4 a b c d => exact Iff.rfl
  | ipv6 first rest => exact Iff.rfl

/-! ## The origins of the desktop -/

/-- What `new URL` leaves. -/
structure Url where
  protocol : Text
  username : Text
  password : Text
  host : Host
  port : Text
  pathname : Text
  search : Text
  hash : Text

def Url.hostname (u : Url) : Text := u.host.text

/-- `url.origin` where the scheme has one. -/
def Url.origin (u : Url) : Text :=
  u.protocol ++ "//".toList ++ u.hostname ++ if u.port = [] then [] else ':' :: u.port

/-- Nothing beside the origin. -/
def Url.bare (u : Url) : Url :=
  { u with username := [], password := [], pathname := ['/'], search := [], hash := [] }

abbrev UrlParser := LoginSignature.Text → Option Url

def Special (protocol : Text) : Prop := protocol = "https:".toList ∨ protocol = "http:".toList

/-- An origin is read as what it was written from. -/
def UrlParser.Lawful (parse : UrlParser) : Prop :=
  ∀ value url, parse value = some url → Special url.protocol →
    parse (ascii url.origin) = some url.bare

def normalizeRelayUrl (parse : UrlParser) (value : LoginSignature.Text) (allowLocalHttp : Bool) :
    Except String Text :=
  match parse value with
  | none => .error "Invalid URL"
  | some url =>
    if (url.protocol ≠ "https:".toList ∧
          ¬ (allowLocalHttp = true ∧ localHostname url.hostname = true ∧
            url.protocol = "http:".toList)) ∨
        url.username ≠ [] ∨ url.password ≠ [] ∨ url.pathname ≠ ['/'] ∨ url.search ≠ [] ∨
        url.hash ≠ [] then .error "RELAY_REQUIRES_HTTPS_ORIGIN"
    else .ok url.origin

theorem lower_localhost {t : Text} (h : lower t = "localhost".toList) : beginsPrivate t = false := by
  rw [← beginsPrivate_lower, h]
  decide

/-- `localhost` does not look private. -/
theorem looksPrivate_not_local {h : Host} (hlooks : h.LooksPrivate) : ¬ h.IsLocal := by
  intro hlocal
  cases h with
  | name n => exact absurd hlooks (by rw [Host.LooksPrivate, lower_localhost hlocal]; decide)
  | ipv4 a b c d => exact hlooks
  | ipv6 first rest => exact hlooks

variable {parse : UrlParser} {value : LoginSignature.Text} {allow : Bool} {origin : Text}

/-- HTTPS or the local network, nothing beside the origin, and the same origin again. -/
def UrlParser.Confined (parse : UrlParser) (allow : Bool) (origin : Text) : Prop :=
  ∃ url, parse (ascii origin) = some url ∧
    (url.protocol = "https:".toList ∨ url.host.IsLocal) ∧
    url.username = [] ∧ url.password = [] ∧ url.pathname = ['/'] ∧ url.search = [] ∧ url.hash = [] ∧
    normalizeRelayUrl parse (ascii origin) allow = .ok origin

theorem normalizeRelayUrl_cases (h : normalizeRelayUrl parse value allow = .ok origin) :
    ∃ url, parse value = some url ∧ origin = url.origin ∧
      (url.protocol = "https:".toList ∨ (allow = true ∧ localHostname url.hostname = true ∧
        url.protocol = "http:".toList)) := by
  simp only [normalizeRelayUrl] at h
  split at h
  · cases h
  · rename_i url hparse
    split at h
    · cases h
    · rename_i hcond
      refine ⟨url, hparse, (Except.ok.inj h).symm, ?_⟩
      by_contra hprotocol
      exact hcond (.inl (not_or.mp hprotocol))

/-- An origin is accepted like the value that it was taken from. -/
theorem normalizeRelayUrl_origin (hlawful : parse.Lawful)
    (h : normalizeRelayUrl parse value allow = .ok origin) {url : Url}
    (hparse : parse value = some url) :
    parse (ascii origin) = some url.bare ∧
      normalizeRelayUrl parse (ascii origin) allow = .ok origin := by
  obtain ⟨url', hparse', rfl, hprotocol⟩ := normalizeRelayUrl_cases h
  rw [hparse] at hparse'
  cases hparse'
  have again := hlawful value url hparse (hprotocol.imp id fun h => h.2.2)
  refine ⟨again, ?_⟩
  simp only [normalizeRelayUrl, again]
  have hsame : url.bare.origin = url.origin := rfl
  rw [if_neg, hsame]
  rintro (hbad | hbad | hbad | hbad | hbad | hbad)
  · exact not_or.mpr hbad hprotocol
  all_goals exact hbad rfl

theorem normalizeRelayUrl_confined_iff (hlawful : parse.Lawful) {url : Url}
    (hparse : parse value = some url) (h : normalizeRelayUrl parse value allow = .ok origin) :
    parse.Confined allow origin ↔ url.protocol = "https:".toList ∨ ¬ url.host.LooksPrivate := by
  obtain ⟨hread, hagain⟩ := normalizeRelayUrl_origin hlawful h hparse
  constructor
  · rintro ⟨url', hurl', hprotocol | hlocal, -⟩ <;> rw [hread] at hurl' <;> cases hurl'
    · exact .inl hprotocol
    · exact .inr fun hlooks => looksPrivate_not_local hlooks hlocal
  · intro hcond
    refine ⟨url.bare, hread, ?_, rfl, rfl, rfl, rfl, rfl, hagain⟩
    obtain ⟨url', hurl', -, hprotocol⟩ := normalizeRelayUrl_cases h
    rw [hparse] at hurl'
    cases hurl'
    rcases hprotocol with hprotocol | ⟨-, hlocal, -⟩
    · exact .inl hprotocol
    · refine hcond.imp id fun hnot => ?_
      exact (localHost_sound (localHost_of_localHostname hlocal)).resolve_right hnot

/-! ## The origins on Android -/

/-- `java.net.URI`. -/
structure Uri where
  scheme : Option Text
  userInfo : Option Text
  host : Option Host
  port : Option Nat
  path : Text
  rawQuery : Option Text
  rawFragment : Option Text

abbrev UriParser := LoginSignature.Text → Option Uri

/-- What the constructor of seven arguments writes from a scheme, a host and a port. -/
def uriText (scheme host : Text) (port : Option Nat) : Text :=
  scheme ++ "://".toList ++ host ++
    match port with
    | none => []
    | some n => ':' :: n.repr.toList

/-- An origin in lower case is read as what it was written from. -/
def UriParser.Lawful (parse : UriParser) : Prop :=
  ∀ value uri scheme host, parse value = some uri → uri.scheme = some scheme →
    uri.host = some host →
    parse (ascii (uriText (lower scheme) (lower host.text) uri.port)) =
      some ⟨some (lower scheme), none, some host.lower, uri.port, [], none, none⟩

def relayTransport (parse : UriParser) (value : LoginSignature.Text) (allowDebugLoopback : Bool) :
    Except String Text :=
  match parse value with
  | none => .error "RELAY_REQUIRES_HTTPS_ORIGIN"
  | some uri =>
    match uri.host with
    | none => .error "RELAY_REQUIRES_HTTPS_ORIGIN"
    | some host =>
      let scheme := lower (uri.scheme.getD [])
      if uri.userInfo ≠ none ∨ uri.rawQuery ≠ none ∨ uri.rawFragment ≠ none ∨
          (uri.path ≠ [] ∧ uri.path ≠ ['/']) ∨
          (scheme ≠ "https".toList ∧
            ¬ (allowDebugLoopback = true ∧ localHost host.text = true ∧
              scheme = "http".toList)) then
        .error "RELAY_REQUIRES_HTTPS_ORIGIN"
      else
        let origin := uriText scheme (lower host.text) uri.port
        -- The constructor reads what it has written.
        match parse (ascii origin) with
        | none => .error "RELAY_REQUIRES_HTTPS_ORIGIN"
        | some _ => .ok origin


variable {parseUri : UriParser}

/-- HTTPS or the local network, nothing beside the origin, and the same origin again. -/
def UriParser.Confined (parse : UriParser) (allow : Bool) (origin : Text) : Prop :=
  ∃ uri host, parse (ascii origin) = some uri ∧ uri.host = some host ∧
    (uri.scheme = some "https".toList ∨ host.IsLocal) ∧
    uri.userInfo = none ∧ uri.path = [] ∧ uri.rawQuery = none ∧ uri.rawFragment = none ∧
    relayTransport parse (ascii origin) allow = .ok origin

/-- The part of the constructor's condition that depends on the scheme and the host. -/
def Admitted (allow : Bool) (scheme : Text) (host : Host) : Prop :=
  lower scheme = "https".toList ∨
    (allow = true ∧ localHost host.text = true ∧ lower scheme = "http".toList)

theorem relayTransport_cases (h : relayTransport parseUri value allow = .ok origin) :
    ∃ uri scheme host, parseUri value = some uri ∧ uri.scheme = some scheme ∧
      uri.host = some host ∧ origin = uriText (lower scheme) (lower host.text) uri.port ∧
      Admitted allow scheme host := by
  simp only [relayTransport] at h
  split at h
  · cases h
  · rename_i uri hparse
    split at h
    · cases h
    · rename_i host hhost
      split at h
      · cases h
      · rename_i hcond
        split at h
        · cases h
        · have hadmitted : Admitted allow (uri.scheme.getD []) host := by
            by_contra hscheme
            exact hcond (.inr (.inr (.inr (.inr (not_or.mp hscheme)))))
          cases hscheme : uri.scheme with
          | none =>
            rw [hscheme] at hadmitted
            rcases hadmitted with h | h
            · exact absurd h (by simp [lower])
            · exact absurd h.2.2 (by simp [lower])
          | some scheme =>
            rw [hscheme] at h hadmitted
            exact ⟨uri, scheme, host, hparse, hscheme, hhost, (Except.ok.inj h).symm, hadmitted⟩

/-- What the constructor has written is accepted again. -/
theorem relayTransport_origin (hlawful : parseUri.Lawful)
    (h : relayTransport parseUri value allow = .ok origin) {uri : Uri} {scheme : Text} {host : Host}
    (hparse : parseUri value = some uri) (hscheme : uri.scheme = some scheme)
    (hhost : uri.host = some host) :
    parseUri (ascii origin) =
        some ⟨some (lower scheme), none, some host.lower, uri.port, [], none, none⟩ ∧
      relayTransport parseUri (ascii origin) allow = .ok origin := by
  obtain ⟨uri', scheme', host', hparse', hscheme', hhost', rfl, hadmitted⟩ :=
    relayTransport_cases h
  rw [hparse] at hparse'
  cases hparse'
  rw [hscheme] at hscheme'
  cases hscheme'
  rw [hhost] at hhost'
  cases hhost'
  have again := hlawful value uri scheme host hparse hscheme hhost
  refine ⟨again, ?_⟩
  simp only [relayTransport, again, Option.getD_some, lower_lower, Host.lower_text]
  rw [if_neg]
  rintro (hbad | hbad | hbad | hbad | hbad)
  · exact hbad rfl
  · exact hbad rfl
  · exact hbad rfl
  · exact hbad.1 rfl
  · rw [localHost_lower] at hbad
    exact not_or.mpr hbad hadmitted

theorem relayTransport_confined_iff (hlawful : parseUri.Lawful) {uri : Uri} {scheme : Text}
    {host : Host} (hparse : parseUri value = some uri) (hscheme : uri.scheme = some scheme)
    (hhost : uri.host = some host) (h : relayTransport parseUri value allow = .ok origin) :
    parseUri.Confined allow origin ↔ lower scheme = "https".toList ∨ ¬ host.LooksPrivate := by
  obtain ⟨hread, hagain⟩ := relayTransport_origin hlawful h hparse hscheme hhost
  constructor
  · rintro ⟨uri', host', hurl', hhost', hprotocol | hlocal, -⟩ <;> rw [hread] at hurl' <;>
      cases hurl' <;> cases hhost'
    · exact .inl (Option.some.inj hprotocol)
    · exact .inr fun hlooks => looksPrivate_not_local (Host.looksPrivate_lower.mpr hlooks) hlocal
  · intro hcond
    refine ⟨_, host.lower, hread, rfl, ?_, rfl, rfl, rfl, rfl, hagain⟩
    obtain ⟨uri', scheme', host', hparse', hscheme', hhost', -, hadmitted⟩ :=
      relayTransport_cases hagain
    rw [hread] at hparse'
    cases hparse'
    cases hscheme'
    cases hhost'
    rw [Admitted, lower_lower] at hadmitted
    rcases hadmitted with hprotocol | ⟨-, hlocal, -⟩
    · exact .inl (congrArg some hprotocol)
    · refine hcond.imp (congrArg some) fun hnot => ?_
      exact (localHost_sound hlocal).resolve_right (Host.looksPrivate_lower.not.mpr hnot)

/-- A relay's origin leaves the local network without HTTPS exactly when its host is a name that
is spelled like a private address; both clients exempt the same hosts. -/
theorem origins_confined_iff (hurl : parse.Lawful) (huri : parseUri.Lawful) :
    (∀ value url allow origin, parse value = some url →
      normalizeRelayUrl parse value allow = .ok origin →
      (parse.Confined allow origin ↔
        url.protocol = "https:".toList ∨ ¬ url.host.LooksPrivate)) ∧
    (∀ value uri scheme host allow origin, parseUri value = some uri → uri.scheme = some scheme →
      uri.host = some host → relayTransport parseUri value allow = .ok origin →
      (parseUri.Confined allow origin ↔ lower scheme = "https".toList ∨ ¬ host.LooksPrivate)) ∧
    ∀ h : Host, localHostname (lower h.text) = localHost h.text :=
  ⟨fun _ _ _ _ hparse h => normalizeRelayUrl_confined_iff hurl hparse h,
    fun _ _ _ _ _ _ hparse hscheme hhost h =>
      relayTransport_confined_iff huri hparse hscheme hhost h,
    localHostname_lower⟩

/-- A parser that knows one origin. -/
def onlyUrl (url : Url) : UrlParser := fun value =>
  if value = ascii url.origin then some url.bare else none

theorem onlyUrl_lawful (url : Url) : (onlyUrl url).Lawful := by
  intro value url' hparse _
  simp only [onlyUrl] at hparse
  split at hparse
  · cases hparse
    exact if_pos rfl
  · cases hparse

theorem Host.lower_lower (h : Host) : h.lower.lower = h.lower := by
  cases h <;> simp [Host.lower]

def onlyUri (scheme : Text) (host : Host) (port : Option Nat) : UriParser := fun value =>
  if value = ascii (uriText (lower scheme) (lower host.text) port) then
    some ⟨some (lower scheme), none, some host.lower, port, [], none, none⟩
  else none

theorem onlyUri_lawful (scheme : Text) (host : Host) (port : Option Nat) :
    (onlyUri scheme host port).Lawful := by
  intro value uri scheme' host' hparse hscheme hhost
  simp only [onlyUri] at hparse
  split at hparse
  · cases hparse
    cases hscheme
    cases hhost
    simp only [onlyUri, Host.lower_text, Host.lower_lower, lower_lower, if_true]
  · cases hparse

/-- `192.168.1.20` -/
def station : Host :=
  .ipv4 ⟨['1', '9', '2'], by simp, by simp⟩ ⟨['1', '6', '8'], by simp, by simp⟩
    ⟨['1'], by simp, by simp⟩ ⟨['2', '0'], by simp, by simp⟩

theorem station_confined :
    let url : Url := ⟨"http:".toList, [], [], station, "8443".toList, ['/'], [], []⟩
    (onlyUrl url).Confined true url.origin ∧
      (onlyUri "http".toList station (some 8443)).Confined true url.origin := by
  intro url
  obtain ⟨hdesktop, handroid, -⟩ := origins_confined_iff (onlyUrl_lawful url)
    (onlyUri_lawful "http".toList station (some 8443))
  have hread : ascii url.origin =
      ascii (uriText (lower "http".toList) (lower station.text) (some 8443)) := by
    decide
  constructor
  · refine (hdesktop (ascii url.origin) url true url.origin (if_pos rfl) ?_).mpr (.inr id)
    simp only [normalizeRelayUrl, onlyUrl, if_true]
    decide
  · refine (handroid (ascii url.origin) _ _ _ true url.origin (if_pos hread) rfl rfl ?_).mpr (.inr id)
    simp only [relayTransport, onlyUri, hread, if_true]
    decide

/-- A name of the public network. -/
def evil : Host := .name
  { chars := "10.evil.com".toList
    delimited := by simp
    named := fun a b c d h => by
      have he : 'e' ∈ dotted a b c d := h ▸ by simp
      exact absurd (mem_dotted he) (by decide) }

theorem evil_accepted :
    (¬ ∀ (parse : UrlParser) value origin, parse.Lawful →
      normalizeRelayUrl parse value true = .ok origin → parse.Confined true origin) ∧
    ¬ ∀ (parse : UriParser) value origin, parse.Lawful →
      relayTransport parse value true = .ok origin → parse.Confined true origin := by
  have hlooks : evil.LooksPrivate := by
    simp only [evil, Host.LooksPrivate]
    decide
  constructor
  · intro hall
    let url : Url := ⟨"http:".toList, [], [], evil, [], ['/'], [], []⟩
    have hok : normalizeRelayUrl (onlyUrl url) (ascii url.origin) true = .ok url.origin := by
      simp only [normalizeRelayUrl, onlyUrl, if_true]
      decide
    have hread : onlyUrl url (ascii url.origin) = some url := if_pos rfl
    have := (normalizeRelayUrl_confined_iff (onlyUrl_lawful url) hread hok).mp
      (hall _ _ _ (onlyUrl_lawful url) hok)
    exact this.elim (fun h => absurd h (by decide)) fun h => h hlooks
  · intro hall
    have hlower : evil.lower.LooksPrivate := Host.looksPrivate_lower.mpr hlooks
    have hok : relayTransport (onlyUri "http".toList evil none) (ascii "http://10.evil.com".toList)
        true = .ok "http://10.evil.com".toList := by
      have hread : ascii "http://10.evil.com".toList =
          ascii (uriText (lower "http".toList) (lower evil.text) none) := by decide
      simp only [relayTransport, onlyUri, hread, if_true]
      decide
    have := (relayTransport_confined_iff (onlyUri_lawful _ evil none)
      (if_pos (by decide)) rfl rfl hok).mp (hall _ _ _ (onlyUri_lawful _ evil none) hok)
    exact this.elim (fun h => absurd h (by decide)) fun h => h hlower

end RelayOrigins
