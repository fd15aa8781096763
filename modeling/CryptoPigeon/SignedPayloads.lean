import CryptoPigeon.Utf16Json

/-! # What the two clients sign

The payload of a backup is quoted by hand in `VaultWire` and by `JSON.stringify` on the desktop.
An onion request is an array of `org.json` whose escaped slashes are taken back, and again
`JSON.stringify` on the desktop. Strings are UTF-16, the payloads are their UTF-8. -/
namespace SignedPayloads

open JsonText (base64)
open LoginSignature
open Utf16Json

/-! ## Quoting by hand -/

/-- A surrogate whose other half does not stand next to it. -/
def unpaired (before : Option UInt16) (c : UInt16) (after : Option UInt16) : Bool :=
  (isHigh c || isLow c) && !(isHigh c && after.any isLow) && !(isLow c && before.any isHigh)

def quoteUnit (before : Option UInt16) (c : UInt16) (after : Option UInt16) : Text :=
  match shortEscape c with
  | some e => [92, e]
  | none => if c.toNat < 32 || unpaired before c after then unicodeEscape c else [c]

/-- The loop, with the unit that stands before. -/
def quoteUnits (before : Option UInt16) : Text → Text
  | [] => []
  | c :: rest => quoteUnit before c rest.head? ++ quoteUnits (some c) rest

/-- `VaultWire.quote` -/
def quote (value : Text) : Text := quoted (quoteUnits none value)

section Quote

variable {before after : Option UInt16} {c : UInt16} {s : Text}

/-- No pair is cut in two here. -/
def Cut (before : Option UInt16) (s : Text) : Prop :=
  before.any isHigh = false ∨ s.head?.any isLow = false

theorem high_not_low (h : isHigh c = true) : isLow c = false := by
  simp only [isHigh, isLow, Bool.and_eq_true, decide_eq_true_eq, Bool.and_eq_false_iff,
    decide_eq_false_iff_not] at h ⊢
  omega

theorem quoteUnit_surrogate (h : isHigh c = true ∨ isLow c = true) :
    quoteUnit before c after = if unpaired before c after then unicodeEscape c else [c] := by
  have hlarge : 0xD800 ≤ c.toNat := by
    simp only [isHigh, isLow, Bool.and_eq_true, decide_eq_true_eq] at h
    omega
  have hshort : shortEscape c = none := by
    unfold shortEscape
    repeat rw [if_neg (by rintro rfl; exact absurd hlarge (by decide))]
  have hsmall : ¬c.toNat < 32 := by omega
  simp only [quoteUnit, hshort, hsmall, decide_false, Bool.false_or]

theorem quoteUnit_plain (hhigh : isHigh c = false) (hlow : isLow c = false) :
    quoteUnit before c after = escapeUnit c := by
  have hpaired : unpaired before c after = false := by simp [unpaired, hhigh, hlow]
  unfold quoteUnit escapeUnit
  cases shortEscape c with
  | some e => simp only
  | none => simp only [hpaired, Bool.or_false, decide_eq_true_eq]

/-- Looking around a surrogate is as good as reading the pairs from the left. -/
theorem quoteUnits_eq (h : Cut before s) : quoteUnits before s = stringifyUnits s := by
  induction s using stringifyUnits.induct generalizing before with
  | case1 => rfl
  | case2 u hhigh =>
    have hfree : unpaired before u none = true := by
      simp [unpaired, hhigh, high_not_low hhigh]
    rw [stringifyUnits.eq_def]
    simp only [quoteUnits, List.head?_nil, quoteUnit_surrogate (.inl hhigh), hfree, hhigh, if_true,
      List.append_nil]
  | case3 u hhigh v rest hlow ih =>
    have hpair : unpaired before u (some v) = false := by simp [unpaired, hhigh, hlow]
    have hpair' : unpaired (some u) v rest.head? = false := by simp [unpaired, hhigh, hlow]
    have hcut : Cut (some v) rest := .inl (by
      cases hv : isHigh v with
      | false => simp [hv]
      | true => exact absurd hlow (by simp [high_not_low hv]))
    rw [stringifyUnits.eq_def]
    simp only [quoteUnits, List.head?_cons, quoteUnit_surrogate (.inl hhigh),
      quoteUnit_surrogate (.inr hlow), hpair, hpair', Bool.false_eq_true, if_false, hhigh, hlow,
      if_true, ih hcut, List.cons_append, List.nil_append]
  | case4 u hhigh v rest hlow ih =>
    have hfree : unpaired before u (some v) = true := by
      simp [unpaired, hhigh, high_not_low hhigh, hlow]
    have hcut : Cut (some u) (v :: rest) := .inr (by simp [hlow])
    rw [stringifyUnits.eq_def]
    simp only [quoteUnits.eq_2 before, List.head?_cons, quoteUnit_surrogate (.inl hhigh), hfree,
      hhigh, hlow, if_true, Bool.false_eq_true, if_false, ih hcut]
  | case5 u rest hhigh hlow ih =>
    have hbefore : before.any isHigh = false := by
      rcases h with h | h
      · exact h
      · simp [hlow] at h
    have hfree : unpaired before u rest.head? = true := by
      simp [unpaired, hhigh, hlow, hbefore]
    have hcut : Cut (some u) rest := .inl (by simp [hhigh])
    rw [stringifyUnits.eq_def]
    simp only [quoteUnits, quoteUnit_surrogate (.inr hlow), hfree, hhigh, hlow, if_true,
      Bool.false_eq_true, if_false, ih hcut]
  | case6 u rest hhigh hlow ih =>
    have hcut : Cut (some u) rest := .inl (by simp [hhigh])
    rw [stringifyUnits.eq_def]
    simp only [quoteUnits, quoteUnit_plain (by simpa using hhigh) (by simpa using hlow), hhigh,
      hlow, Bool.false_eq_true, if_false, ih hcut]

theorem quote_eq_stringify (s : Text) : quote s = stringify s := by
  unfold quote stringify
  rw [quoteUnits_eq (.inl rfl)]

end Quote

/-! ## The payload of a backup -/

/-- What is uploaded, less its signature. -/
structure PutBody where
  lookupToken : Text
  version : Nat
  nonce : Text
  ciphertext : Text
  updatedAt : Text
  fragment7Shard : Text
  writerPublicKey : Text
  deviceId : Option Text
  instanceHash : Option Text
  deviceSignature : Option Text
  claim : Option Bool
  deriving DecidableEq, Repr

def backupTag : Text := text "cp-backup-write-v1"

def orNull : Option Text → Scalar
  | none => .null
  | some s => .str s

def PutBody.fields (b : PutBody) : List Scalar :=
  [.str backupTag, .str b.lookupToken, .int b.version, .str b.nonce, .str b.ciphertext,
    .str b.updatedAt, .str b.fragment7Shard, .str b.writerPublicKey, orNull b.deviceId,
    orNull b.instanceHash, orNull b.deviceSignature, .bool (b.claim.getD false)]

def backupSigningPayload (b : PutBody) : List Nat :=
  arrayBytes .stringify Client.desktop.lone b.fields

/-- The strings after the version, in their order. -/
def PutBody.strings (b : PutBody) : List (Option Text) :=
  [some b.nonce, some b.ciphertext, some b.updatedAt, some b.fragment7Shard,
    some b.writerPublicKey, b.deviceId, b.instanceHash, b.deviceSignature]

/-- `VaultWire.signingPayload` -/
def signingPayload (b : PutBody) : List Nat :=
  encode Client.android.lone <|
    (91 :: 34 :: (backupTag ++ [34, 44])) ++ quote b.lookupToken ++ 44 :: decimal b.version ++
      b.strings.flatMap (fun s => 44 :: s.elim nullWord quote) ++
      44 :: boolWord (b.claim.getD false) ++ [93]

theorem write_orNull (s : Option Text) : (orNull s).write .stringify = s.elim nullWord quote := by
  cases s with
  | none => rfl
  | some s => exact (quote_eq_stringify s).symm

theorem signingPayload_eq (b : PutBody) : signingPayload b = backupSigningPayload b := by
  have htag : Scalar.write .stringify (.str backupTag) = 34 :: (backupTag ++ [34]) := by
    decide +kernel
  have hstr (s : Text) : Scalar.write .stringify (.str s) = quote s := (quote_eq_stringify s).symm
  have hclient : encode Client.desktop.lone (array .stringify b.fields) =
      encode Client.android.lone (array .stringify b.fields) :=
    encode_eq (stringify_array_wellFormed b.fields)
  unfold backupSigningPayload arrayBytes
  rw [hclient]
  unfold signingPayload
  refine congrArg (encode _) ?_
  simp only [array, PutBody.fields, items, PutBody.strings, htag, hstr, write_orNull,
    Scalar.write.eq_2, Scalar.write.eq_3, List.flatMap_cons, List.flatMap_nil, Option.elim_some,
    List.cons_append, List.append_assoc, List.nil_append, List.append_nil]

/-- The body as it is signed: without a claim it claims nothing. -/
def PutBody.settled (b : PutBody) : PutBody := { b with claim := some (b.claim.getD false) }

theorem orNull_inj {s t : Option Text} (h : orNull s = orNull t) : s = t := by
  cases s <;> cases t
  · rfl
  · cases h
  · cases h
  · rw [Scalar.str.inj h]

theorem backupSigningPayload_inj {a b : PutBody}
    (h : backupSigningPayload a = backupSigningPayload b) : a.settled = b.settled := by
  have hfields := stringify_bytes_inj h
  simp only [PutBody.fields, List.cons.injEq, Scalar.str.injEq, Scalar.int.injEq,
    Scalar.bool.injEq, Nat.cast_inj, true_and, and_true] at hfields
  obtain ⟨h1, h2, h3, h4, h5, h6, h7, h8, h9, h10, h11⟩ := hfields
  simp only [PutBody.settled, PutBody.mk.injEq, Option.some.injEq]
  exact ⟨h1, h2, h3, h4, h5, h6, h7, orNull_inj h8, orNull_inj h9, orNull_inj h10, h11⟩

/-! ## The payload of an onion request -/

structure Request where
  sender : Text
  time : Int
  nonce : Text
  method : Text
  path : Text
  body : Text
  deriving DecidableEq, Repr

def onionTag : Text := text "cp-onion-request-v1"

def onionFields (sender : Text) (time : Int) (nonce method path body : Text) : List Scalar :=
  [.str onionTag, .str sender, .int time, .str nonce, .str method, .str path, .str body]

/-- The body is given in base64. -/
def p2pSigningBytes (sender : Text) (time : Int) (nonce method path body : Text) : List Nat :=
  arrayBytes .stringify Client.desktop.lone (onionFields sender time nonce method path body)

/-- The base64 of the UTF-8 of a body. -/
def bodyBase64 (client : Client) (body : Text) : Text :=
  ascii (base64 ((encode client.lone body).map Nat.toUInt8))

def signingBytes (device : Text) (time : Int) (nonce method path body : Text) : List Nat :=
  encode Client.android.lone <| replaceSlash <| array .orgJson <|
    onionFields device time nonce method path (bodyBase64 .android body)

/-- The same request on the two clients. -/
def desktopBytes (r : Request) : List Nat :=
  p2pSigningBytes r.sender r.time r.nonce r.method r.path (bodyBase64 .desktop r.body)

def androidBytes (r : Request) : List Nat :=
  signingBytes r.sender r.time r.nonce r.method r.path r.body

/-- No string of the request has half a pair. -/
structure Request.WellFormed (r : Request) : Prop where
  sender : Utf16Json.WellFormed r.sender
  nonce : Utf16Json.WellFormed r.nonce
  method : Utf16Json.WellFormed r.method
  path : Utf16Json.WellFormed r.path
  body : Utf16Json.WellFormed r.body

def IsPrintable (s : Text) : Prop := ∀ u ∈ s, 32 ≤ u.toNat ∧ u.toNat < 127

theorem IsPrintable.wellFormed {s : Text} (h : IsPrintable s) : Utf16Json.WellFormed s :=
  wellFormed_ascii fun u hu => by
    have := h u hu
    omega

theorem base64_ascii {x : List UInt8} {c : Char} (h : c ∈ base64 x) : c.toNat < 128 := by
  have digit : ∀ n < 64, (JsonText.base64Digit n).toNat < 128 := by decide +kernel
  obtain ⟨ds, padding, heq, hds, -, hpadding⟩ := JsonText.base64_digits x
  rw [heq, List.mem_append, List.mem_map] at h
  rcases h with ⟨d, hd, rfl⟩ | h
  · exact digit d (hds d hd)
  · simp only [List.mem_cons, Prod.mk.injEq, List.not_mem_nil, or_false] at hpadding
    have hpad : c = '=' := by
      rcases hpadding with ⟨-, rfl⟩ | ⟨-, rfl⟩ | ⟨-, rfl⟩
      · cases h
      · simpa using h
      · simpa using h
    rw [hpad]
    decide

theorem ascii_wellFormed {s : List Char} (h : ∀ c ∈ s, c.toNat < 128) :
    Utf16Json.WellFormed (ascii s) := by
  refine wellFormed_ascii fun u hu => ?_
  obtain ⟨c, hc, rfl⟩ := List.mem_map.mp hu
  have hlt := h c hc
  rw [Nat.toUInt16, UInt16.toNat_ofNat', Nat.mod_eq_of_lt (by omega)]
  exact hlt

theorem bodyBase64_wellFormed (client : Client) (body : Text) :
    Utf16Json.WellFormed (bodyBase64 client body) :=
  ascii_wellFormed fun _ => base64_ascii

theorem androidBytes_eq {r : Request} (h : r.WellFormed) : androidBytes r = desktopBytes r := by
  have htag : Plain onionTag := by decide
  have hbody : bodyBase64 .android r.body = bodyBase64 .desktop r.body := by
    unfold bodyBase64
    rw [encode_eq h.body]
  have hall : ∀ s, Scalar.str s ∈ onionFields r.sender r.time r.nonce r.method r.path
      (bodyBase64 .desktop r.body) → Utf16Json.WellFormed s := by
    intro s hs
    simp only [onionFields, List.mem_cons, Scalar.str.injEq, reduceCtorEq, List.not_mem_nil,
      or_false, false_or] at hs
    rcases hs with rfl | rfl | rfl | rfl | rfl | rfl
    · exact wellFormed_ascii fun u hu => (htag u hu).1
    · exact h.sender
    · exact h.nonce
    · exact h.method
    · exact h.path
    · exact bodyBase64_wellFormed _ _
  unfold androidBytes signingBytes desktopBytes p2pSigningBytes arrayBytes
  rw [hbody, replaceSlash_array hall]
  exact encode_eq (stringify_array_wellFormed _)

theorem p2pSigningBytes_inj {sender sender' nonce nonce' method method' path path' body body' : Text}
    {time time' : Int} (h : p2pSigningBytes sender time nonce method path body =
      p2pSigningBytes sender' time' nonce' method' path' body') :
    sender = sender' ∧ time = time' ∧ nonce = nonce' ∧ method = method' ∧ path = path' ∧
      body = body' := by
  have hfields := stringify_bytes_inj h
  simpa only [onionFields, List.cons.injEq, Scalar.str.injEq, Scalar.int.injEq, true_and,
    and_true] using hfields

/-- Both clients sign the same bytes for a backup, and for a request in well formed strings; what
is signed determines the fields. -/
theorem signed_alike (s : Text) (b : PutBody) (r : Request) :
    quote s = stringify s ∧ signingPayload b = backupSigningPayload b ∧
      (r.WellFormed → androidBytes r = desktopBytes r) ∧
      (∀ b', backupSigningPayload b = backupSigningPayload b' → b.settled = b'.settled) ∧
      (∀ r' : Request, p2pSigningBytes r.sender r.time r.nonce r.method r.path r.body =
        p2pSigningBytes r'.sender r'.time r'.nonce r'.method r'.path r'.body → r = r') := by
  refine ⟨quote_eq_stringify s, signingPayload_eq b, androidBytes_eq,
    fun _ => backupSigningPayload_inj, ?_⟩
  intro r' h
  obtain ⟨h1, h2, h3, h4, h5, h6⟩ := p2pSigningBytes_inj h
  cases r
  cases r'
  simp_all

def envelopeRequest : Request :=
  ⟨text "phone", 1700000000000, text "00ff", text "POST", text "/p2p/v1/envelopes",
    text "\x7b\x7d"⟩

theorem envelope_signed_alike : androidBytes envelopeRequest = desktopBytes envelopeRequest := by
  have plain {s : Text} (h : Plain s) : Utf16Json.WellFormed s :=
    wellFormed_ascii fun u hu => (h u hu).1
  have hwell : envelopeRequest.WellFormed :=
    ⟨plain (by decide), plain (by decide), plain (by decide), plain (by decide),
      plain (by decide)⟩
  exact (signed_alike [] ⟨[], 1, [], [], [], [], [], none, none, none, none⟩
    envelopeRequest).2.2.1 hwell

/-- A sender that is half a pair. -/
def halfSender : Request := ⟨[0xD800], 0, [], [], [], []⟩

theorem half_sender_signed_otherwise : ¬∀ r : Request, IsPrintable r.path →
    Utf16Json.WellFormed r.body → androidBytes r = desktopBytes r := by
  intro h
  have hsame := h halfSender (by simp [IsPrintable, halfSender]) .nil
  revert hsame
  decide +kernel

end SignedPayloads
