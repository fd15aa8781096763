import Mathlib.Data.List.Basic
import Mathlib.Tactic.Linarith

/-! # What a login signature is bound to

A client signs its device id, the challenge and the authority of its relay, written one
after the other; the relay verifies the same text with its own challenge and host name.
Strings are UTF-16 here, since the challenge is whatever text the relay returns. -/
namespace LoginSignature

abbrev Text := List UInt16

/-- UTF-8 of one code point. -/
def utf8 (n : Nat) : List Nat :=
  if n < 0x80 then [n]
  else if n < 0x800 then [0xC0 + n / 64, 0x80 + n % 64]
  else if n < 0x10000 then [0xE0 + n / 4096, 0x80 + n / 64 % 64, 0x80 + n % 64]
  else [0xF0 + n / 262144, 0x80 + n / 4096 % 64, 0x80 + n / 64 % 64, 0x80 + n % 64]

def isHigh (u : UInt16) : Bool := 0xD800 ≤ u.toNat && u.toNat < 0xDC00

def isLow (u : UInt16) : Bool := 0xDC00 ≤ u.toNat && u.toNat < 0xE000

/-- A surrogate that is not one of a pair is written as `lone`. -/
def encode (lone : Nat) : Text → List Nat
  | [] => []
  | u :: rest =>
    if isHigh u then
      match rest with
      | [] => utf8 lone
      | v :: rest' =>
        if isLow v then
          utf8 (0x10000 + (u.toNat - 0xD800) * 0x400 + (v.toNat - 0xDC00)) ++ encode lone rest'
        else utf8 lone ++ encode lone (v :: rest')
    else if isLow u then utf8 lone ++ encode lone rest
    else utf8 u.toNat ++ encode lone rest

inductive Client where
  | desktop
  | android
  deriving DecidableEq, Repr

/-- `Buffer.from` writes a replacement character, `String.getBytes` a question mark. -/
def Client.lone : Client → Nat
  | .desktop => 0xFFFD
  | .android => 63

/-- What `authenticateFresh` and `authenticate` sign. -/
def signed (client : Client) (deviceId challenge host : Text) : List Nat :=
  encode client.lone (deviceId ++ challenge ++ host)

def isHexDigit (u : UInt16) : Bool :=
  (48 ≤ u.toNat && u.toNat ≤ 57) || (97 ≤ u.toNat && u.toNat ≤ 102)

/-- `crypto.randomBytes(32).toString('hex')`. -/
def IsChallenge (c : Text) : Prop := c.length = 64 ∧ c.all isHexDigit

instance (c : Text) : Decidable (IsChallenge c) :=
  inferInstanceAs (Decidable (c.length = 64 ∧ c.all isHexDigit))

/-- What `POST /api/auth/respond` verifies at a relay of this name. -/
def verified (deviceId challenge host : Text) : List Nat :=
  encode Client.desktop.lone (deviceId ++ challenge ++ host)

/-- A device id and an authority are ASCII text without a question mark. -/
def Plain (s : Text) : Prop := ∀ u ∈ s, u.toNat < 128 ∧ u.toNat ≠ 63

/-- A signature for the relay at `h` is good at `h'` only if it is the same relay and the same
challenge. -/
def Bound (client : Client) (deviceId h h' challenge : Text) : Prop :=
  ∀ c', IsChallenge c' → signed client deviceId challenge h = verified deviceId c' h' →
    h = h' ∧ challenge = c'

/-- What is signed after the id reads as another challenge followed by the name of the other
relay. -/
def ReadsAs (h h' challenge : Text) : Prop :=
  IsChallenge ((challenge ++ h).take 64) ∧ (challenge ++ h).drop 64 = h'

section Encoding

variable {lone : Nat} {s t : Text}

theorem utf8_ascii {n : Nat} (h : n < 128) : utf8 n = [n] := if_pos h

/-- Any other code point begins with a byte that no ASCII text has. -/
theorem utf8_other {n : Nat} (h : ¬n < 128) : ∃ b l, utf8 n = b :: l ∧ 128 ≤ b := by
  unfold utf8
  rw [if_neg h]
  split
  · exact ⟨_, _, rfl, by omega⟩
  · split <;> exact ⟨_, _, rfl, by omega⟩

theorem ascii_not_surrogate {u : UInt16} (h : u.toNat < 128) : isHigh u = false ∧ isLow u = false := by
  constructor
  · simp only [isHigh, Bool.and_eq_false_iff, decide_eq_false_iff_not]
    omega
  · simp only [isLow, Bool.and_eq_false_iff, decide_eq_false_iff_not]
    omega

theorem encode_unit {u : UInt16} (hhigh : isHigh u = false) (hlow : isLow u = false) :
    encode lone (u :: s) = utf8 u.toNat ++ encode lone s := by
  rw [encode.eq_def]
  simp only [hhigh, hlow, Bool.false_eq_true, if_false]

theorem encode_pair {u v : UInt16} (hhigh : isHigh u = true) (hlow : isLow v = true) :
    encode lone (u :: v :: s) =
      utf8 (0x10000 + (u.toNat - 0xD800) * 0x400 + (v.toNat - 0xDC00)) ++ encode lone s := by
  rw [encode.eq_def]
  simp only [hhigh, hlow, if_true]

/-- A first half at the end of a text. -/
theorem encode_last {u : UInt16} (hhigh : isHigh u = true) : encode lone [u] = utf8 lone := by
  rw [encode.eq_def]
  simp only [hhigh, if_true]

/-- A first half that no second half follows. -/
theorem encode_broken {u v : UInt16} (hhigh : isHigh u = true) (hlow : isLow v = false) :
    encode lone (u :: v :: s) = utf8 lone ++ encode lone (v :: s) := by
  rw [encode.eq_def]
  simp only [hhigh, hlow, if_true, Bool.false_eq_true, if_false]

/-- A second half that follows no first half. -/
theorem encode_low {u : UInt16} (hhigh : isHigh u = false) (hlow : isLow u = true) :
    encode lone (u :: s) = utf8 lone ++ encode lone s := by
  rw [encode.eq_def]
  simp only [hhigh, hlow, if_true, Bool.false_eq_true, if_false]

theorem encode_ascii {u : UInt16} (h : u.toNat < 128) : encode lone (u :: s) = u.toNat :: encode lone s := by
  obtain ⟨hhigh, hlow⟩ := ascii_not_surrogate h
  rw [encode_unit hhigh hlow, utf8_ascii h, List.singleton_append]

theorem Plain.tail {u : UInt16} (h : Plain (u :: s)) : Plain s :=
  fun v hv => h v (List.mem_cons_of_mem u hv)

theorem Plain.append (hs : Plain s) (ht : Plain t) : Plain (s ++ t) :=
  fun u hu => (List.mem_append.mp hu).elim (hs u) (ht u)

theorem encode_plain (h : Plain s) : encode lone s = s.map UInt16.toNat := by
  induction s with
  | nil => rfl
  | cons u s ih =>
    rw [encode_ascii (h u List.mem_cons_self).1, ih h.tail]
    rfl

/-- What is written for a lone surrogate does not occur in plain text. -/
def Marks (lone : Nat) : Prop := ∃ b l, utf8 lone = b :: l ∧ (128 ≤ b ∨ b = 63)

theorem Client.marks (client : Client) : Marks client.lone := by
  cases client with
  | desktop => exact ⟨_, _, rfl, .inl (by decide)⟩
  | android => exact ⟨_, _, rfl, .inr rfl⟩

/-- A first byte that no plain text has. -/
theorem plain_ne {b : Nat} {l m : List Nat} (hb : 128 ≤ b ∨ b = 63) (ht : Plain t) :
    (b :: l) ++ m ≠ t.map UInt16.toNat := by
  intro heq
  cases t with
  | nil => cases heq
  | cons v t =>
    obtain ⟨hlt, hne⟩ := ht v List.mem_cons_self
    have hhead : b = v.toNat := (List.cons.inj heq).1
    omega

/-- A text that is written like plain text is that text. -/
theorem encode_inj (hlone : Marks lone) (ht : Plain t) (h : encode lone s = t.map UInt16.toNat) :
    s = t := by
  obtain ⟨b, l, hb, hmark⟩ := hlone
  induction s generalizing t with
  | nil =>
    cases t with
    | nil => rfl
    | cons v t => cases h
  | cons u s ih =>
    rw [encode.eq_def] at h
    dsimp only at h
    split at h
    · next hhigh =>
      split at h
      · rw [hb, ← List.append_nil (b :: l)] at h
        exact absurd h (plain_ne hmark ht)
      · split at h
        · obtain ⟨c, m, hc, hge⟩ := utf8_other (n := 0x10000 + (u.toNat - 0xD800) * 0x400 + _) (by omega)
          rw [hc] at h
          exact absurd h (plain_ne (.inl hge) ht)
        · rw [hb] at h
          exact absurd h (plain_ne hmark ht)
    · split at h
      · rw [hb] at h
        exact absurd h (plain_ne hmark ht)
      · by_cases hascii : u.toNat < 128
        · rw [utf8_ascii hascii] at h
          cases t with
          | nil => cases h
          | cons v t =>
            obtain ⟨hhead, htail⟩ := List.cons.inj h
            rw [UInt16.toNat_inj.mp hhead, ih ht.tail htail]
        · obtain ⟨c, m, hc, hge⟩ := utf8_other hascii
          rw [hc] at h
          exact absurd h (plain_ne (.inl hge) ht)

theorem IsChallenge.plain {c : Text} (h : IsChallenge c) : Plain c := by
  intro u hu
  have hdigit := List.all_eq_true.mp h.2 u hu
  simp only [isHexDigit, Bool.or_eq_true, Bool.and_eq_true, decide_eq_true_eq] at hdigit
  omega

/-- Both sides speak of the same text. -/
theorem signed_eq_verified_iff {client : Client} {deviceId h h' c c' : Text} (hid : Plain deviceId)
    (hhost : Plain h') (hc : IsChallenge c') :
    signed client deviceId c h = verified deviceId c' h' ↔ c ++ h = c' ++ h' := by
  have hplain : Plain (deviceId ++ c' ++ h') := (hid.append hc.plain).append hhost
  constructor
  · intro heq
    unfold signed verified at heq
    rw [encode_plain hplain] at heq
    have hsame := encode_inj client.marks hplain heq
    rw [List.append_assoc, List.append_assoc] at hsame
    exact List.append_cancel_left hsame
  · intro hsame
    have htext : deviceId ++ c ++ h = deviceId ++ c' ++ h' := by
      rw [List.append_assoc, hsame, List.append_assoc]
    unfold signed verified
    rw [htext, encode_plain hplain, encode_plain hplain]

end Encoding

/-- A challenge of 64 characters binds the signature to the host; another one does unless the
text reads as a challenge of the other relay. -/
theorem login_bound_iff (client : Client) {deviceId h' : Text} (hid : Plain deviceId)
    (hhost : Plain h') (h c : Text) :
    Bound client deviceId h h' c ↔ c.length = 64 ∨ ¬ReadsAs h h' c := by
  constructor
  · intro hbound
    refine or_iff_not_imp_right.mpr fun hreads => ?_
    obtain ⟨hchallenge, hrest⟩ := not_not.mp hreads
    have hsplit : c ++ h = (c ++ h).take 64 ++ h' := by
      rw [← hrest, List.take_append_drop]
    obtain ⟨-, hsame⟩ := hbound _ hchallenge
      ((signed_eq_verified_iff hid hhost hchallenge).mpr hsplit)
    rw [hsame]
    exact hchallenge.1
  · intro hcond c' hc heq
    have htext := (signed_eq_verified_iff hid hhost hc).mp heq
    rcases hcond with hlength | hreads
    · obtain ⟨hchallenge, hhosts⟩ := List.append_inj htext (hlength.trans hc.1.symm)
      exact ⟨hhosts, hchallenge⟩
    · refine absurd ⟨?_, ?_⟩ hreads
      · rw [htext, List.take_left' hc.1]
        exact hc
      · rw [htext, List.drop_left' hc.1]

section Hosts

def text (s : String) : Text := s.toList.map fun c => c.toNat.toUInt16

instance (s : Text) : Decidable (Plain s) :=
  List.decidableBAll (fun u : UInt16 => u.toNat < 128 ∧ u.toNat ≠ 63) s

def phone : Text := text "6f1c1b3e-52a7-4c55-9d0e-1f2a3b4c5d6e"

/-- A challenge that `myrelay.com` has issued. -/
def issued : Text := List.replicate 64 97

theorem issued_bound : Bound .desktop phone (text "relay.com") (text "myrelay.com") issued :=
  (login_bound_iff .desktop (by decide +kernel) (by decide +kernel) _ _).mpr (.inl (by decide))

/-- `relay.com` returns it with two more letters. -/
theorem lengthened_not_bound :
    ¬Bound .desktop phone (text "relay.com") (text "myrelay.com") (issued ++ text "my") ∧
      ¬Bound .android phone (text "relay.com") (text "myrelay.com") (issued ++ text "my") := by
  have hid : Plain phone := by decide +kernel
  have hhost : Plain (text "myrelay.com") := by decide +kernel
  have hissued : IsChallenge issued := by decide +kernel
  have htext : issued ++ text "my" ++ text "relay.com" = issued ++ text "myrelay.com" := by
    decide +kernel
  have hne : text "relay.com" ≠ text "myrelay.com" := by decide +kernel
  exact ⟨fun h => hne (h issued hissued ((signed_eq_verified_iff hid hhost hissued).mpr htext)).1,
    fun h => hne (h issued hissued ((signed_eq_verified_iff hid hhost hissued).mpr htext)).1⟩

end Hosts

end LoginSignature
