import CryptoPigeon.ServerlessInvites

/-! # Reading serverless invites

What either client makes of a URI that a client has written, and what a text has shown when one
of them returns an invite. -/
namespace ServerlessInvites

open AttachmentManifests (isUuid)
open JsonText (base64 bufferFromBase64)
open LoginSignature (Client Text encode isHigh isLow text)
open SigningContexts (ServerlessInvite SignedPrekey canonical inviteSigningBytes
  inviteSigningBytes_inj inviteTag)
open JsonSizes (isPlain)
open Utf16Json (Scalar Writer WellFormed arrayBytes ascii)

/-! ## Reading what a client has written -/

section Reading

variable {L : Libraries} {v : ServerlessInvite} {data sig t : Text} {c signature : Bytes}
  {x : List Nat}

theorem items_plain (h : Schema v) : ∀ s, .str s ∈ v.items → s.all isPlain = true := by
  obtain ⟨-, hkey, hsig⟩ := signedSchema_spec h.signedPrekey
  obtain ⟨-, hpqKey, hpqSig⟩ := signedSchema_spec h.pqLastResortPrekey
  have htag : inviteTag.all isPlain = true := rfl
  intro s hs
  simp only [ServerlessInvite.items, List.mem_cons, Scalar.str.injEq, reduceCtorEq, false_or,
    List.not_mem_nil, or_false] at hs
  rcases hs with rfl | rfl | rfl | rfl | rfl | rfl | rfl | rfl | rfl | rfl | rfl | rfl
  · exact htag
  · exact (spelt_publicUid h.publicUid).plain
  · exact (spelt_username h.username).plain
  · exact (spelt_onion h.onion).plain
  · exact (spelt_uuid h.userId).plain
  · exact (spelt_uuid h.deviceId).plain
  · exact (spelt_b64 h.deviceAuthPublicKey).plain
  · exact (spelt_b64 h.identityPublicKey).plain
  · exact (spelt_b64 hkey).plain
  · exact (spelt_b64 hsig).plain
  · exact (spelt_b64 hpqKey).plain
  · exact (spelt_b64 hpqSig).plain

theorem canonical_schema (h : Schema v) : canonical v = inviteSigningBytes v :=
  canonical_eq fun s hs => plain_wellFormed (items_plain h s hs)

/-- An invite that has been signed and deflated. -/
structure Sealed (L : Libraries) (v : ServerlessInvite) (c signature : Bytes) : Prop where
  deflated : Deflated L c (inviteSigningBytes v)
  size : signature.length = 64
  type : L.keyType (decoded v.deviceAuthPublicKey) = some "ed25519"
  desktop : L.verify (decoded v.deviceAuthPublicKey) (inviteSigningBytes v) signature = true
  android : edVerifySpki L (decoded v.deviceAuthPublicKey) (inviteSigningBytes v) signature = true

theorem isUrlDigit_ascii {u : UInt16} (h : isUrlDigit u = true) : u.toNat < 128 := by
  simp only [isUrlDigit, Bool.or_eq_true, Bool.and_eq_true, decide_eq_true_eq, beq_iff_eq] at h
  rcases h with (((h | h) | h) | rfl) | rfl
  · omega
  · omega
  · omega
  · decide
  · decide

/-- In a URI of ASCII every unit is a byte. -/
theorem inviteUri_bytes (lone : Nat) (c signature : Bytes) :
    (encode lone (inviteUri (base64url c) (base64url signature))).length =
      (inviteUri (base64url c) (base64url signature)).length := by
  have digit (y : Bytes) : ∀ u ∈ base64url y, u.toNat < 128 := fun u hu =>
    isUrlDigit_ascii (List.all_eq_true.mp (base64url_units y) u hu)
  have hfront : (text "pigeon://invite?v=2&data=").all (fun u => decide (u.toNat < 128)) := rfl
  have hsig : (text "&sig=").all (fun u => decide (u.toNat < 128)) := rfl
  apply JsonSizes.encode_ascii_length
  intro u hu
  simp only [inviteUri, List.mem_append] at hu
  rcases hu with ((hu | hu) | hu) | hu
  · exact of_decide_eq_true (List.all_eq_true.mp hfront u hu)
  · exact digit c u hu
  · exact of_decide_eq_true (List.all_eq_true.mp hsig u hu)
  · exact digit signature u hu

theorem items_ascii {fs : List Scalar} {W : Writer}
    (h : ∀ f ∈ fs, ∀ u ∈ f.write W, u.toNat < 128) :
    ∀ u ∈ Utf16Json.items W fs, u.toNat < 128 := by
  induction fs with
  | nil =>
    intro u hu
    cases hu
  | cons f fs ih =>
    have hf := h f List.mem_cons_self
    have hfs := ih fun g hg => h g (List.mem_cons_of_mem f hg)
    cases fs with
    | nil => exact hf
    | cons g fs =>
      intro u hu
      rw [Utf16Json.items, List.mem_append, List.mem_cons] at hu
      · rcases hu with hu | rfl | hu
        · exact hf u hu
        · decide
        · exact hfs u hu
      · exact List.cons_ne_nil g fs

/-- The signed bytes are ASCII. -/
theorem signed_ascii (h : Schema v) : ∀ b ∈ inviteSigningBytes v, b < 128 := by
  have hwrite : ∀ f ∈ v.items, ∀ u ∈ f.write .stringify, u.toNat < 128 := by
    intro f hf u hu
    cases f with
    | str s =>
      have hplain := items_plain h s hf
      have hunits := JsonSizes.stringifyUnits_plain (List.all_eq_true.mp hplain)
      change u ∈ Utf16Json.quoted (Utf16Json.stringifyUnits s) at hu
      rw [hunits, Utf16Json.quoted, List.mem_cons, List.mem_append, List.mem_singleton] at hu
      rcases hu with rfl | hu | rfl
      · decide
      · exact JsonSizes.isPlain_ascii (List.all_eq_true.mp hplain u hu)
      · decide
    | int n =>
      have hdecimal := Utf16Json.decimal_units hu
      simp only [Utf16Json.isDecimal, Bool.or_eq_true, Bool.and_eq_true, decide_eq_true_eq,
        beq_iff_eq] at hdecimal
      rcases hdecimal with hdigit | rfl
      · omega
      · decide
    | bool b => exact (Utf16Json.boolWord_units b u hu).1
    | null => exact (Utf16Json.nullWord_units u hu).1
  have harray : ∀ u ∈ Utf16Json.array .stringify v.items, u.toNat < 128 := by
    intro u hu
    rw [Utf16Json.array, List.mem_cons, List.mem_append, List.mem_singleton] at hu
    rcases hu with rfl | hu | rfl
    · decide
    · exact items_ascii hwrite u hu
    · decide
  have hencode : encode Client.desktop.lone (Utf16Json.array .stringify v.items ++ []) =
      (Utf16Json.array .stringify v.items).map UInt16.toNat ++ encode Client.desktop.lone [] :=
    SigningContexts.encode_front harray
  rw [List.append_nil] at hencode
  intro b hb
  rw [inviteSigningBytes, arrayBytes, hencode, encode, List.append_nil] at hb
  obtain ⟨u, hu, rfl⟩ := List.mem_map.mp hb
  exact harray u hu

/-- A URI as `URL` reads it. -/
def writtenUrl (data sig : Text) : Url :=
  ⟨text "pigeon:", text "invite", [], [], [], [], [],
    [(text "v", text "2"), (text "data", data), (text "sig", sig)]⟩

theorem names_differ : (text "data" == text "v") = false ∧ (text "sig" == text "v") = false ∧
    (text "sig" == text "data") = false := ⟨rfl, rfl, rfl⟩

theorem writtenUrl_get (data sig : Text) : (writtenUrl data sig).get "v" = some (text "2") ∧
    (writtenUrl data sig).get "data" = some data ∧ (writtenUrl data sig).get "sig" = some sig := by
  obtain ⟨hdata, hsig, hboth⟩ := names_differ
  refine ⟨?_, ?_, ?_⟩
  · simp only [Url.get, writtenUrl, List.lookup, beq_self_eq_true]
  · simp only [Url.get, writtenUrl, List.lookup, hdata, beq_self_eq_true]
  · simp only [Url.get, writtenUrl, List.lookup, hsig, hboth, beq_self_eq_true]

theorem writtenUrl_isInvite (data sig : Text) : (writtenUrl data sig).isInvite = true := by
  have hkeys : (writtenUrl data sig).keys = text "data,sig,v" := by
    change [44].intercalate ([text "v", text "data", text "sig"].insertionSort (· ≤ ·)) = _
    decide
  rw [Url.isInvite, (writtenUrl_get data sig).1, hkeys]
  simp only [writtenUrl, beq_self_eq_true, List.isEmpty_nil, Bool.and_self]

theorem readItems_items (v : ServerlessInvite) : readItems (v.items.map valueOf) = some v := rfl

theorem desktop_reads (hL : Documented L) (hv : Schema v) (hs : Sealed L v c signature)
    (hurl : L.url t = some (writtenUrl (base64url c) (base64url signature)))
    (hlen : t.length ≤ 4096) : parseServerlessInvite L t = .ok v := by
  have hdata := base64url_isData (hL.deflated_ne_nil _ _ hs.deflated)
  have hsig := base64url_isSig hs.size
  obtain ⟨-, hgetData, hgetSig⟩ := writtenUrl_get (base64url c) (base64url signature)
  have hraw : L.inflateRawSync 8192 (decoded (base64url c)) = some (inviteSigningBytes v) := by
    rw [decoded_base64url]
    have hsize := (signed_length hv).2
    exact hL.inflateRaw 8192 c _ hs.deflated (by omega)
  have hjson : L.parseJson (inviteSigningBytes v) = some (some (v.items.map valueOf)) := by
    refine hL.parseJson v.items fun n hn => ?_
    obtain ⟨hid, -⟩ := signedSchema_spec hv.signedPrekey
    obtain ⟨hpqId, -⟩ := signedSchema_spec hv.pqLastResortPrekey
    have hdevice := hv.signalDeviceId
    have hregistration := hv.registrationId
    simp only [ServerlessInvite.items, List.mem_cons, Scalar.int.injEq, reduceCtorEq, false_or,
      List.not_mem_nil, or_false] at hn
    rcases hn with rfl | rfl | rfl | rfl <;> omega
  simp only [parseServerlessInvite, bind_ok, check_ok, called_ok, present_ok, pure_ok]
  refine ⟨(), decide_eq_true hlen, writtenUrl (base64url c) (base64url signature), hurl, (),
    writtenUrl_isInvite _ _, (), ?_, base64url c, hgetData, inviteSigningBytes v, hraw, _, hjson, _,
    rfl, (), rfl, v, ?_, _, hs.type, base64url signature, hgetSig, (), ?_, rfl⟩
  · rw [hgetData, hgetSig, Bool.and_eq_true]
    exact ⟨hdata, hsig⟩
  · rw [readItems_items, Option.filter_some, if_pos (schema_iff.mpr hv)]
  · rw [Bool.and_eq_true]
    refine ⟨rfl, ?_⟩
    have hdecoded := decoded_base64url signature
    rw [decoded] at hdecoded
    rw [hdecoded]
    exact hs.desktop

end Reading

section Android

variable {L : Libraries} {v : ServerlessInvite} {data sig t : Text} {c signature : Bytes}
  {x : List Nat}

/-- What the loop has before a call, when whole buffers have been filled. -/
theorem inflateAll_step {calls : Nat} (hL : Documented L) (hd : Deflated L c x)
    (hsize : x.length ≤ 8192) (h : 1024 * calls < x.length) :
    inflateAll L c calls (x.take (1024 * calls)) =
      inflateAll L c (calls + 1) (x.take (1024 * (calls + 1))) := by
  obtain ⟨hnot, hbuffer⟩ := hL.inflate c x calls hd h
  have htaken : (x.take (1024 * calls)).length = 1024 * calls := by
    rw [List.length_take]
    omega
  have hlen : ((x.drop (1024 * calls)).take 1024).length = min 1024 (x.length - 1024 * calls) := by
    rw [List.length_take, List.length_drop]
  have hroom : ¬(((x.drop (1024 * calls)).take 1024).length = 0 ∨
      8192 < (x.take (1024 * calls)).length + ((x.drop (1024 * calls)).take 1024).length) := by
    rw [htaken, hlen]
    omega
  have hnext : x.take (1024 * calls) ++ (x.drop (1024 * calls)).take 1024 =
      x.take (1024 * (calls + 1)) := by
    rw [Nat.mul_succ, List.take_add]
  rw [inflateAll, hnot, hbuffer]
  simp only [Bool.false_eq_true, if_false, dif_neg hroom, hnext]

/-- The last buffer is not whole, and so the loop sees the end. -/
theorem inflateAll_take (hL : Documented L) (hd : Deflated L c x) (hsize : x.length ≤ 8192)
    (hpart : ∀ k, x.length ≠ 1024 * k) (left : Nat) : ∀ calls, 1024 * calls < x.length →
      x.length ≤ 1024 * (calls + left) → inflateAll L c calls (x.take (1024 * calls)) = .ok x := by
  induction left with
  | zero =>
    intro calls h hle
    omega
  | succ left ih =>
    intro calls h hle
    rw [inflateAll_step hL hd hsize h]
    by_cases hmore : 1024 * (calls + 1) < x.length
    · exact ih (calls + 1) hmore (by omega)
    · have hlast := hpart (calls + 1)
      have hall : x.take (1024 * (calls + 1)) = x := List.take_of_length_le (by omega)
      rw [inflateAll, hL.finished c x calls hd h (by omega), if_pos rfl, hall]

theorem inflateAll_signed (hL : Documented L) (hv : Schema v)
    (hd : Deflated L c (inviteSigningBytes v)) :
    inflateAll L c 0 [] = .ok (inviteSigningBytes v) := by
  obtain ⟨hlow, hhigh⟩ := signed_length hv
  have htake := inflateAll_take hL hd (by omega) (fun k => by omega) 3 0 (by omega) (by omega)
  rwa [Nat.mul_zero, List.take_zero] at htake

theorem pair_append {name value : Text} (h : name.all (· != 61) = true) :
    pair (name ++ 61 :: value) = some (name, value) := by
  have hname := List.all_eq_true.mp h
  have hspan : (name ++ 61 :: value).span (· != 61) = (name, 61 :: value) := by
    rw [List.span_eq_takeWhile_dropWhile]
    rw [List.takeWhile_append_of_pos hname, List.dropWhile_append_of_pos hname]
    simp
  rw [pair, hspan]

/-- The parameters between the two signs. -/
def writtenQuery (data sig : Text) : Text :=
  text "v=2&data=" ++ data ++ text "&sig=" ++ sig

theorem digits_no_amp (h : t.all isUrlDigit = true) : (38 : UInt16) ∉ t := by
  intro hmem
  have hdigit := List.all_eq_true.mp h 38 hmem
  revert hdigit
  decide

theorem split_written (hdata : isData data = true) (hsig : isSig sig = true) :
    split (writtenQuery data sig) =
      [text "v" ++ 61 :: text "2", text "data" ++ 61 :: data, text "sig" ++ 61 :: sig] := by
  simp only [isData, isSig, Bool.and_eq_true] at hdata hsig
  have hfront : text "v=2&data=" = text "v" ++ 61 :: text "2" ++ 38 :: (text "data" ++ [61]) :=
    rfl
  have hmiddle : text "&sig=" = 38 :: (text "sig" ++ [61]) := rfl
  have hwhole : writtenQuery data sig = [38].intercalate
      [text "v" ++ 61 :: text "2", text "data" ++ 61 :: data, text "sig" ++ 61 :: sig] := by
    rw [writtenQuery, hfront, hmiddle]
    simp [List.intercalate]
  have hnames : 38 ∉ text "v" ++ 61 :: text "2" ∧ 38 ∉ text "data" ∧ 38 ∉ text "sig" := by
    decide
  have hparts : (writtenQuery data sig).splitOn 38 =
      [text "v" ++ 61 :: text "2", text "data" ++ 61 :: data, text "sig" ++ 61 :: sig] := by
    rw [hwhole]
    refine List.splitOn_intercalate 38 ?_ (List.cons_ne_nil _ _)
    intro l hl
    simp only [List.mem_cons, List.not_mem_nil, or_false] at hl
    rcases hl with rfl | rfl | rfl
    · exact hnames.1
    · simp only [List.mem_append, List.mem_cons, not_or]
      exact ⟨hnames.2.1, by decide, digits_no_amp hdata.2⟩
    · simp only [List.mem_append, List.mem_cons, not_or]
      exact ⟨hnames.2.2, by decide, digits_no_amp hsig.2⟩
  have hlast : (text "sig" ++ 61 :: sig).isEmpty = false := by simp
  rw [split, hparts]
  simp only [List.length_cons, List.length_nil, Nat.reduceAdd, Nat.reduceEqDiff, if_false,
    List.reverse_cons, List.reverse_nil, List.nil_append, List.cons_append, List.dropWhile_cons,
    hlast, Bool.false_eq_true]

theorem readQuery_written :
    readQuery [text "v" ++ 61 :: text "2", text "data" ++ 61 :: data, text "sig" ++ 61 :: sig] [] =
      .ok [(text "sig", sig), (text "data", data), (text "v", text "2")] := by
  obtain ⟨hdata, hsig, hboth⟩ := names_differ
  have hnames : (text "v").all (· != 61) = true ∧ (text "data").all (· != 61) = true ∧
      (text "sig").all (· != 61) = true := ⟨rfl, rfl, rfl⟩
  simp only [readQuery, bind_ok, present_ok, check_ok]
  refine ⟨_, pair_append hnames.1, (), rfl, _, pair_append hnames.2.1, (), ?_, _,
    pair_append hnames.2.2, (), ?_, rfl⟩
  · simp only [List.lookup, hdata, Option.isNone_none]
  · simp only [List.lookup, hsig, hboth, Option.isNone_none]

/-- What has been put for the three names. -/
def writtenParams (data sig : Text) : List (Text × Text) :=
  [(text "sig", sig), (text "data", data), (text "v", text "2")]

theorem writtenParams_lookup (data sig : Text) :
    (writtenParams data sig).lookup (text "v") = some (text "2") ∧
    (writtenParams data sig).lookup (text "data") = some data ∧
    (writtenParams data sig).lookup (text "sig") = some sig := by
  have hnames : (text "v" == text "sig") = false ∧ (text "v" == text "data") = false ∧
      (text "data" == text "sig") = false := ⟨rfl, rfl, rfl⟩
  obtain ⟨hsig, hdata, hboth⟩ := hnames
  refine ⟨?_, ?_, ?_⟩
  · simp only [writtenParams, List.lookup, hsig, hdata, beq_self_eq_true]
  · simp only [writtenParams, List.lookup, hboth, beq_self_eq_true]
  · simp only [writtenParams, List.lookup, beq_self_eq_true]

/-- The identity key can be read and has signed both prekeys. -/
def PrekeysSigned (L : Libraries) (v : ServerlessInvite) : Prop :=
  ∃ verifySignature, L.identityKey (decoded v.identityPublicKey) = some verifySignature ∧
    verifySignature (decoded v.signedPrekey.publicKey) (decoded v.signedPrekey.signature) = true ∧
    verifySignature (decoded v.pqLastResortPrekey.publicKey)
      (decoded v.pqLastResortPrekey.signature) = true

theorem checkPrekey_iff {verifySignature : Bytes → Bytes → Bool} {size : Nat} {k : SignedPrekey}
    (h : signedSchema size k = true) : checkPrekey verifySignature size k = .ok () ↔
      verifySignature (decoded k.publicKey) (decoded k.signature) = true := by
  obtain ⟨hid, hkey, hsig⟩ := signedSchema_spec h
  have hnonneg : check (decide (0 ≤ k.id)) "INVALID_INVITE" = .ok () :=
    check_ok.mpr (decide_eq_true hid.1)
  simp only [checkPrekey, hnonneg, check64_passes hkey, check64_passes hsig, unb64_passes hkey,
    unb64_passes hsig]
  exact check_ok

theorem bind_value {α β : Type} {a : α} {f : α → Except Thrown β} :
    ((.ok a : Except Thrown α) >>= f) = f a := rfl

theorem check_true {message : String} : check true message = .ok () := rfl

theorem called_some {α : Type} {a : α} : called (some a) = .ok a := rfl

theorem present_some {α : Type} {message : String} {a : α} :
    present message (some a) = .ok a := rfl

theorem wellSpelled_schema (h : Schema v) : wellSpelled v = true := by
  simp only [wellSpelled, Bool.and_eq_true, decide_eq_true_eq]
  exact ⟨⟨⟨⟨h.publicUid, h.username⟩, h.onion⟩, h.signalDeviceId⟩, h.registrationId⟩

theorem uuid_schema (hL : Documented L) (h : passes isUuid t = true) : L.uuid t = true := by
  have huuid := hL.uuid (chars t) (passes_chars h)
  rwa [ascii_chars (passes_units h)] at huuid

theorem fits_array {a : JsonArray}
    (hstr : ∀ i s, v.items[i]? = some (.str s) → a.getString i = some s)
    (hint : ∀ i n, v.items[i]? = some (.int n) → -2147483648 ≤ n → n ≤ 2147483647 →
      a.getInt i = some n) (h : Schema v) : readArray a = some v := by
  obtain ⟨hid, -⟩ := signedSchema_spec h.signedPrekey
  obtain ⟨hpqId, -⟩ := signedSchema_spec h.pqLastResortPrekey
  have hdevice := h.signalDeviceId
  have hregistration := h.registrationId
  rw [readArray, hstr 1 _ rfl, hstr 2 _ rfl, hstr 3 _ rfl, hstr 4 _ rfl, hstr 5 _ rfl,
    hint 6 _ rfl (by omega) (by omega), hint 7 _ rfl (by omega) (by omega), hstr 8 _ rfl,
    hstr 9 _ rfl, hint 10 _ rfl (by omega) (by omega), hstr 11 _ rfl, hstr 12 _ rfl,
    hint 13 _ rfl (by omega) (by omega), hstr 14 _ rfl, hstr 15 _ rfl]
  rfl

theorem android_reads (hL : Documented L) (hv : Schema v) (hs : Sealed L v c signature)
    (hlen : (inviteUri (base64url c) (base64url signature)).length ≤ 4096) :
    parse L (inviteUri (base64url c) (base64url signature)) = .ok v ↔ PrekeysSigned L v := by
  have hne := hL.deflated_ne_nil _ _ hs.deflated
  have hdata := base64url_isData hne
  have hsig := base64url_isSig hs.size
  have hsigne : signature ≠ [] := by
    intro hnil
    have hsize := hs.size
    rw [hnil] at hsize
    cases hsize
  obtain ⟨hgetV, hgetData, hgetSig⟩ := writtenParams_lookup (base64url c) (base64url signature)
  have hquery : readQuery (split (writtenQuery (base64url c) (base64url signature))) [] =
      .ok (writtenParams (base64url c) (base64url signature)) := by
    rw [split_written hdata hsig]
    exact readQuery_written
  obtain ⟨a, ha, halen, hstr, hint⟩ := hL.jsonArray v.items
  change L.jsonArray (inviteSigningBytes v) = some a at ha
  have hfields := fits_array hstr hint hv
  have htag : a.getString 0 = some inviteTag := hstr 0 _ rfl
  have hcount : v.items.length = 16 := rfl
  have hverified : edVerifySpki L (decoded v.deviceAuthPublicKey) (canonical v) signature := by
    rw [canonical_schema hv]
    exact hs.android
  have hkeys : (L.uuid v.deviceId && L.uuid v.userId) = true := by
    rw [uuid_schema hL hv.deviceId, uuid_schema hL hv.userId]
    rfl
  have hread : parse L (inviteUri (base64url c) (base64url signature)) = (do
      let verifySignature ← called (L.identityKey (decoded v.identityPublicKey))
      checkPrekey verifySignature 33 v.signedPrekey
      checkPrekey verifySignature 1569 v.pqLastResortPrekey
      pure v) := by
    have hparams : (writtenParams (base64url c) (base64url signature)).length = 3 := rfl
    have huri := hL.uri _ _ hdata hsig
    change L.uri _ = some ⟨_, _, _, _, _, _, some (writtenQuery _ _)⟩ at huri
    simp only [parse, decide_eq_true hlen, check_true, bind_value, huri, called_some,
      present_some, hquery, hparams, hgetV, hgetData, hgetSig, Option.isSome_some,
      Option.getD_some, hsig, beq_self_eq_true, Bool.and_self, List.isEmpty_nil,
      Option.isNone_none, unurl64_base64url hne, inflateAll_signed hL hv hs.deflated, ha, halen,
      hcount, htag, hfields, wellSpelled_schema hv, hkeys, if_true,
      check64_passes hv.deviceAuthPublicKey, check64_passes hv.identityPublicKey,
      unb64_passes hv.deviceAuthPublicKey, unb64_passes hv.identityPublicKey,
      unurl64_base64url hsigne, hverified]
  rw [hread]
  constructor
  · intro h
    simp only [bind_ok, called_ok] at h
    obtain ⟨verifySignature, hidentity, _, hsigned, _, hpq, -⟩ := h
    exact ⟨verifySignature, hidentity, (checkPrekey_iff hv.signedPrekey).mp hsigned,
      (checkPrekey_iff hv.pqLastResortPrekey).mp hpq⟩
  · rintro ⟨verifySignature, hidentity, hsigned, hpq⟩
    simp only [bind_ok, called_ok]
    exact ⟨verifySignature, hidentity, (), (checkPrekey_iff hv.signedPrekey).mpr hsigned, (),
      (checkPrekey_iff hv.pqLastResortPrekey).mpr hpq, rfl⟩

end Android

/-! ## What a client has read -/

section Params

variable {l : List (Text × Text)} {ks : List Text} {a b c x y z : Text}

theorem mem_of_lookup (h : l.lookup a = some x) : (a, x) ∈ l := by
  induction l with
  | nil => cases h
  | cons e l ih =>
    obtain ⟨k, w⟩ := e
    rw [List.lookup] at h
    split at h
    · next heq =>
      rw [Option.some.injEq] at h
      rw [beq_iff_eq.mp heq, h]
      exact List.mem_cons_self
    · exact List.mem_cons_of_mem _ (ih h)

theorem subperm_of_lookups (hab : a ≠ b) (hac : a ≠ c) (hbc : b ≠ c)
    (ha : l.lookup a = some x) (hb : l.lookup b = some y) (hc : l.lookup c = some z) :
    List.Subperm [(a, x), (b, y), (c, z)] l := by
  have hnodup : [(a, x), (b, y), (c, z)].Nodup := by simp [hab, hac, hbc]
  have hsubset : [(a, x), (b, y), (c, z)] ⊆ l := by
    intro e he
    simp only [List.mem_cons, List.not_mem_nil, or_false] at he
    rcases he with rfl | rfl | rfl
    · exact mem_of_lookup ha
    · exact mem_of_lookup hb
    · exact mem_of_lookup hc
  exact List.subperm_of_subset hnodup hsubset

/-- Three parameters with three names are those of the names. -/
theorem perm_of_lookups (hlen : l.length = 3) (hab : a ≠ b) (hac : a ≠ c) (hbc : b ≠ c)
    (ha : l.lookup a = some x) (hb : l.lookup b = some y) (hc : l.lookup c = some z) :
    l.Perm [(a, x), (b, y), (c, z)] :=
  ((subperm_of_lookups hab hac hbc ha hb hc).perm_of_length_le (by rw [hlen]; rfl)).symm

theorem names_ne : text "v" ≠ text "data" ∧ text "v" ≠ text "sig" ∧ text "data" ≠ text "sig" := by
  decide

theorem joined_length (h : ks ≠ []) :
    ([44].intercalate ks : Text).length + 1 = (ks.map fun k => k.length + 1).sum := by
  induction ks with
  | nil => exact absurd rfl h
  | cons k ks ih =>
    cases ks with
    | nil => simp [List.intercalate]
    | cons k' ks =>
      have hrest := ih (List.cons_ne_nil k' ks)
      have hcons : ([44].intercalate (k :: k' :: ks) : Text) =
          k ++ 44 :: [44].intercalate (k' :: ks) := by
        simp [List.intercalate, List.intersperse]
      rw [hcons, List.map_cons, List.sum_cons, ← hrest]
      simp only [List.length_append, List.length_cons]
      omega

/-- A list whose names join to these three has no others, if it has them all. -/
theorem three_params {url : Url} {data sig : Text} (hkeys : url.keys = text "data,sig,v")
    (hv : url.get "v" = some (text "2")) (hdata : url.get "data" = some data)
    (hsig : url.get "sig" = some sig) :
    url.searchParams.Perm [(text "v", text "2"), (text "data", data), (text "sig", sig)] := by
  obtain ⟨hvd, hvs, hds⟩ := names_ne
  obtain ⟨l, hperm, hsub⟩ := subperm_of_lookups hvd hvs hds hv hdata hsig
  obtain ⟨rest, hrest⟩ := hsub.exists_perm_append
  have hall := hrest.trans (hperm.append_right rest)
  have hsum : (url.searchParams.map fun p => p.1.length + 1).sum = 11 := by
    have hsorted : ((url.searchParams.map Prod.fst).insertionSort (· ≤ ·)).Perm
        (url.searchParams.map Prod.fst) := List.perm_insertionSort _ _
    have hnonempty : (url.searchParams.map Prod.fst).insertionSort (· ≤ ·) ≠ [] := by
      intro hnil
      rw [hnil] at hsorted
      have hempty := List.map_eq_nil_iff.mp hsorted.nil_eq.symm
      rw [Url.get, hempty] at hv
      cases hv
    have hlen := joined_length hnonempty
    change url.keys.length + 1 = _ at hlen
    have hten : (text "data,sig,v").length = 10 := rfl
    rw [hkeys, hten, (hsorted.map _).sum_eq, List.map_map] at hlen
    exact hlen.symm
  have hwhole := (hall.map fun p => p.1.length + 1).sum_eq
  have hthree : (text "v").length = 1 ∧ (text "data").length = 4 ∧ (text "sig").length = 3 :=
    ⟨rfl, rfl, rfl⟩
  rw [hsum, List.map_append, List.sum_append] at hwhole
  simp only [List.map_cons, List.map_nil, List.sum_cons, List.sum_nil, hthree.1, hthree.2.1,
    hthree.2.2] at hwhole
  have hnothing : rest = [] := by
    cases rest with
    | nil => rfl
    | cons e rest =>
      rw [List.map_cons, List.sum_cons] at hwhole
      omega
  rw [hnothing, List.append_nil] at hall
  exact hall

end Params

/-- The exact form of an invite, as `URL` reads it. -/
structure DesktopForm (url : Url) (data sig : Text) : Prop where
  protocol : url.protocol = text "pigeon:"
  hostname : url.hostname = text "invite"
  bare : url.pathname = [] ∧ url.hash = [] ∧ url.username = [] ∧ url.password = [] ∧ url.port = []
  params : url.searchParams.Perm
    [(text "v", text "2"), (text "data", data), (text "sig", sig)]
  data : isData data = true
  sig : isSig sig = true

/-- The exact form of an invite, as `java.net.URI` reads it. -/
structure AndroidForm (uri : Uri) (data sig : Text) : Prop where
  scheme : uri.scheme = some (text "pigeon")
  host : uri.host = some (text "invite")
  bare : uri.path = some [] ∧ uri.userInfo = none ∧ uri.port = -1 ∧ uri.fragment = none
  params : ∃ query, uri.rawQuery = some query ∧ (split query).Perm
    [text "v" ++ 61 :: text "2", text "data" ++ 61 :: data, text "sig" ++ 61 :: sig]
  data : isData data = true
  sig : isSig sig = true

/-- What a text has shown when the desktop returns an invite. -/
structure DesktopRead (L : Libraries) (uri : Text) (v : ServerlessInvite) : Prop where
  length : uri.length ≤ 4096
  schema : serverlessInviteSchema v = true
  type : L.keyType (decoded v.deviceAuthPublicKey) = some "ed25519"
  signed : ∃ url data sig raw, L.url uri = some url ∧ DesktopForm url data sig ∧
    L.inflateRawSync 8192 (decoded data) = some raw ∧ raw.length ≤ 8192 ∧
    L.verify (decoded v.deviceAuthPublicKey) (inviteSigningBytes v) (decoded sig) = true
  determined : ∀ w, inviteSigningBytes w = inviteSigningBytes v → w = v

/-- What a text has shown when Android returns an invite. -/
structure AndroidRead (L : Libraries) (t : Text) (v : ServerlessInvite) : Prop where
  length : t.length ≤ 4096
  spelled : wellSpelled v = true
  signed : ∃ uri data sig raw, L.uri t = some uri ∧ AndroidForm uri data sig ∧
    inflateAll L (decoded data) 0 [] = .ok raw ∧ raw.length ≤ 8192 ∧
    edVerifySpki L (decoded v.deviceAuthPublicKey) (canonical v) (decoded sig) = true
  determined : canonical v = inviteSigningBytes v ∧
    ∀ w, inviteSigningBytes w = canonical v → w = v
  prekeys : PrekeysSigned L v

section Soundness

variable {L : Libraries} {v : ServerlessInvite} {t uri : Text} {c : Bytes} {raw out : List Nat}
  {calls : Nat}

theorem isInvite_form {url : Url} {data sig : Text} (h : url.isInvite = true)
    (hgetData : url.get "data" = some data) (hgetSig : url.get "sig" = some sig)
    (hdata : isData data = true) (hsig : isSig sig = true) : DesktopForm url data sig := by
  simp only [Url.isInvite, Bool.and_eq_true, beq_iff_eq, List.isEmpty_iff] at h
  obtain ⟨⟨⟨⟨⟨⟨⟨⟨hprotocol, hhostname⟩, hpathname⟩, hhash⟩, husername⟩, hpassword⟩, hport⟩, hgetV⟩,
    hkeys⟩ := h
  exact ⟨hprotocol, hhostname, ⟨hpathname, hhash, husername, hpassword, hport⟩,
    three_params hkeys hgetV hgetData hgetSig, hdata, hsig⟩

theorem desktop_sound (hL : Documented L) (h : parseServerlessInvite L uri = .ok v) :
    DesktopRead L uri v := by
  simp only [parseServerlessInvite, bind_ok, check_ok, called_ok, present_ok, pure_ok] at h
  obtain ⟨_, hlen, url, hurl, _, hinvite, _, hmatch, data, hgetData, raw, hraw, parsed, -, a, -, _,
    -, invite, hinv, type, htype, sig, hgetSig, _, hverify, rfl⟩ := h
  rw [hgetData, hgetSig, Bool.and_eq_true] at hmatch
  rw [Bool.and_eq_true, beq_iff_eq] at hverify
  constructor
  · exact of_decide_eq_true hlen
  · exact (Option.filter_eq_some_iff.mp hinv).2
  · rw [← hverify.1]
    exact htype
  · exact ⟨url, data, sig, raw, hurl, isInvite_form hinvite hgetData hgetSig hmatch.1 hmatch.2,
      hraw, hL.bounded 8192 _ raw hraw, hverify.2⟩
  · intro w hw
    exact inviteSigningBytes_inj hw

/-! ### Android -/

/-- The calls that `inflateAll` makes. -/
inductive Filled (L : Libraries) (c : Bytes) : Nat → List Nat → Prop
  | start : Filled L c 0 []
  | more {calls : Nat} {out buffer : List Nat} : Filled L c calls out →
      L.finished c calls = false → L.inflate c calls = some buffer → buffer.length ≠ 0 →
      out.length + buffer.length ≤ 8192 → Filled L c (calls + 1) (out ++ buffer)

theorem Filled.bounded (h : Filled L c calls out) : calls ≤ out.length ∧ out.length ≤ 8192 := by
  induction h with
  | start => exact ⟨Nat.le_refl 0, Nat.zero_le 8192⟩
  | more _ _ _ hne hle ih =>
    rw [List.length_append]
    omega

theorem inflateAll_filled (h : Filled L c calls out) (hraw : inflateAll L c calls out = .ok raw) :
    ∃ n, Filled L c n raw := by
  induction calls, out using inflateAll.induct L c with
  | case1 calls out hfinished =>
    rw [inflateAll, if_pos hfinished] at hraw
    cases hraw
    exact ⟨calls, h⟩
  | case2 calls out hfinished hnone =>
    rw [inflateAll, if_neg hfinished, hnone] at hraw
    cases hraw
  | case3 calls out hfinished buffer hbuffer hfull =>
    rw [inflateAll, if_neg hfinished, hbuffer] at hraw
    simp only [dif_pos hfull] at hraw
    cases hraw
  | case4 calls out hfinished buffer hbuffer hroom ih =>
    rw [inflateAll, if_neg hfinished, hbuffer] at hraw
    simp only [dif_neg hroom] at hraw
    obtain ⟨hne, hle⟩ := not_or.mp hroom
    exact ih (.more h (Bool.not_eq_true _ ▸ hfinished) hbuffer hne (Nat.not_lt.mp hle)) hraw

theorem inflateAll_bounded (h : inflateAll L c 0 [] = .ok raw) : raw.length ≤ 8192 := by
  obtain ⟨n, hn⟩ := inflateAll_filled .start h
  exact hn.bounded.2

theorem pair_spec {item : Text} {p : Text × Text} (h : pair item = some p) :
    item = p.1 ++ 61 :: p.2 := by
  unfold pair at h
  split at h
  · next key u value hspan =>
    rw [List.span_eq_takeWhile_dropWhile, Prod.mk.injEq] at hspan
    obtain ⟨hkey, hvalue⟩ := hspan
    have hu : u = 61 := by
      have hhead := List.head?_dropWhile_not (· != 61) item
      rw [hvalue] at hhead
      simpa using hhead
    rw [Option.some.injEq] at h
    rw [← h, ← hu, ← hkey, ← hvalue, List.takeWhile_append_dropWhile]
  · cases h

theorem notMem_of_lookup {l : List (Text × Text)} {k : Text} (h : (l.lookup k).isNone = true) :
    k ∉ l.map Prod.fst := by
  intro hmem
  obtain ⟨e, he, rfl⟩ := List.mem_map.mp hmem
  rw [Option.isNone_iff_eq_none, List.lookup_eq_none_iff] at h
  exact absurd rfl (bne_iff_ne.mp (h e he))

/-- The parameters that have been put, the last one first. -/
theorem readQuery_spec {items : List Text} {acc query : List (Text × Text)}
    (h : readQuery items acc = .ok query) (hacc : (acc.map Prod.fst).Nodup) :
    ∃ pairs : List (Text × Text), items = pairs.map (fun p => p.1 ++ 61 :: p.2) ∧
      query = pairs.reverse ++ acc ∧ (query.map Prod.fst).Nodup := by
  induction items generalizing acc with
  | nil =>
    rw [readQuery, Except.ok.injEq] at h
    rw [← h]
    exact ⟨[], rfl, rfl, hacc⟩
  | cons item items ih =>
    simp only [readQuery, bind_ok, present_ok, check_ok] at h
    obtain ⟨p, hp, _, hnew, hrest⟩ := h
    have hnodup : ((p :: acc).map Prod.fst).Nodup :=
      List.nodup_cons.mpr ⟨notMem_of_lookup hnew, hacc⟩
    obtain ⟨pairs, hitems, hquery, hkeys⟩ := ih hrest hnodup
    refine ⟨p :: pairs, ?_, ?_, hkeys⟩
    · rw [List.map_cons, ← hitems, ← pair_spec hp]
    · rw [hquery, List.reverse_cons, List.append_assoc]
      rfl

/-- The form's parameters, from what the loop has put. -/
theorem query_form {rawQuery data sig : Text} {query : List (Text × Text)}
    (hquery : readQuery (split rawQuery) [] = .ok query) (hlen : query.length = 3)
    (hgetV : query.lookup (text "v") = some (text "2"))
    (hgetData : query.lookup (text "data") = some data)
    (hgetSig : query.lookup (text "sig") = some sig) : (split rawQuery).Perm
      [text "v" ++ 61 :: text "2", text "data" ++ 61 :: data, text "sig" ++ 61 :: sig] := by
  obtain ⟨pairs, hitems, hpairs, -⟩ := readQuery_spec hquery List.nodup_nil
  rw [List.append_nil] at hpairs
  obtain ⟨hvd, hvs, hds⟩ := names_ne
  have hperm := perm_of_lookups hlen hvd hvs hds hgetV hgetData hgetSig
  rw [hpairs] at hperm
  rw [hitems]
  exact ((List.reverse_perm pairs).symm.trans hperm).map fun p => p.1 ++ 61 :: p.2

theorem unb64_spec {value : Text} {n : Nat} {bytes : Bytes} (hcheck : check64 value n = .ok ())
    (h : unb64 value = .ok bytes) : bytes = decoded value ∧ value.all isPlain = true := by
  simp only [check64, bind_ok, check_ok, Bool.and_eq_true, beq_iff_eq] at hcheck
  obtain ⟨bytes', hbytes', hlen, hvalue⟩ := hcheck
  have hsame : bytes' = bytes := by
    rw [h] at hbytes'
    exact (Except.ok.inj hbytes').symm
  rw [hsame] at hvalue
  have hplain : value.all isPlain = true := by
    rw [← hvalue]
    exact WireLimits.isPlain_base64
  refine ⟨?_, hplain⟩
  have hchars : chars value = base64 bytes := by
    rw [← hvalue, chars_base64]
  rw [decoded, hchars, JsonText.bufferFromBase64_base64]

theorem checkPrekey_spec {verifySignature : Bytes → Bytes → Bool} {size : Nat} {k : SignedPrekey}
    (h : checkPrekey verifySignature size k = .ok ()) :
    verifySignature (decoded k.publicKey) (decoded k.signature) = true ∧
      k.publicKey.all isPlain = true ∧ k.signature.all isPlain = true := by
  simp only [checkPrekey, bind_ok, check_ok] at h
  obtain ⟨_, -, _, hcheckKey, _, hcheckSig, key, hkey, signature, hsignature, hverify⟩ := h
  obtain ⟨rfl, hplainKey⟩ := unb64_spec hcheckKey hkey
  obtain ⟨rfl, hplainSig⟩ := unb64_spec hcheckSig hsignature
  exact ⟨hverify, hplainKey, hplainSig⟩

theorem unurl64_spec {value : Text} {bytes : Bytes} (h : unurl64 value = .ok bytes) :
    isData value = true ∧ bytes = decoded value := by
  simp only [unurl64, bind_ok, check_ok, called_ok] at h
  obtain ⟨_, hdata, hbytes⟩ := h
  split at hbytes
  · cases hbytes
  · exact ⟨hdata, (Option.some.inj hbytes).symm⟩

theorem wellFormed_of_units (h : ∀ u ∈ t, isHigh u = false ∧ isLow u = false) : WellFormed t := by
  induction t with
  | nil => exact .nil
  | cons u t ih =>
    obtain ⟨hhigh, hlow⟩ := h u List.mem_cons_self
    exact .unit hhigh hlow (ih fun w hw => h w (List.mem_cons_of_mem u hw))

theorem android_sound (hL : Documented L) (h : parse L t = .ok v) : AndroidRead L t v := by
  simp only [parse, bind_ok, check_ok, called_ok, present_ok, pure_ok] at h
  obtain ⟨_, hlen, uri, huri, _, hname, path, hpath, _, hbare, rawQuery, hrawQuery, query, hquery,
    _, hparams, data, hgetData, bytes, hbytes, raw, hraw, a, -, _, -, tag, -, _, -, w, -, _,
    hspelled, _, huuid, _, hauth, _, hident, spki, hspki, sig, hsig, _, hverify, identity,
    hidentity, verifySignature, hkey, _, hsigned, _, hpq, rfl⟩ := h
  simp only [Bool.and_eq_true, beq_iff_eq] at hname hparams huuid
  simp only [Bool.and_eq_true, beq_iff_eq, List.isEmpty_iff, Option.isNone_iff_eq_none] at hbare
  obtain ⟨⟨⟨hcount, hgetV⟩, -⟩, hisSig⟩ := hparams
  obtain ⟨hisData, rfl⟩ := unurl64_spec hbytes
  obtain ⟨-, rfl⟩ := unurl64_spec hsig
  obtain ⟨rfl, hplainAuth⟩ := unb64_spec hauth hspki
  obtain ⟨rfl, hplainIdentity⟩ := unb64_spec hident hidentity
  obtain ⟨hsignedOk, hplainKey, hplainSig⟩ := checkPrekey_spec hsigned
  obtain ⟨hpqOk, hplainPqKey, hplainPqSig⟩ := checkPrekey_spec hpq
  have huuids : L.uuid w.deviceId = true ∧ L.uuid w.userId = true := by
    by_contra hno
    rw [if_neg hno] at huuid
    cases huuid
  have hspells := hspelled
  simp only [wellSpelled, Bool.and_eq_true] at hspells
  obtain ⟨⟨⟨⟨hpublicUid, husername⟩, honion⟩, -⟩, -⟩ := hspells
  have htag : inviteTag.all isPlain = true := rfl
  have hcanonical : canonical w = inviteSigningBytes w := by
    refine canonical_eq fun s hs => ?_
    simp only [ServerlessInvite.items, List.mem_cons, Scalar.str.injEq, reduceCtorEq, false_or,
      List.not_mem_nil, or_false] at hs
    rcases hs with rfl | rfl | rfl | rfl | rfl | rfl | rfl | rfl | rfl | rfl | rfl | rfl
    · exact plain_wellFormed htag
    · exact plain_wellFormed (spelt_publicUid hpublicUid).plain
    · exact plain_wellFormed (spelt_username husername).plain
    · exact plain_wellFormed (spelt_onion honion).plain
    · exact wellFormed_of_units (hL.uuid_plain _ huuids.2)
    · exact wellFormed_of_units (hL.uuid_plain _ huuids.1)
    · exact plain_wellFormed hplainAuth
    · exact plain_wellFormed hplainIdentity
    · exact plain_wellFormed hplainKey
    · exact plain_wellFormed hplainSig
    · exact plain_wellFormed hplainPqKey
    · exact plain_wellFormed hplainPqSig
  cases hgetSig : query.lookup (text "sig") with
  | none =>
    rw [hgetSig] at hisSig
    cases hisSig
  | some sig =>
    rw [hgetSig, Option.getD_some] at hisSig hverify
    have hform : AndroidForm uri data sig :=
      ⟨hname.1, hname.2, ⟨by rw [hpath, hbare.1.1.1], hbare.1.1.2, hbare.1.2, hbare.2⟩,
        ⟨rawQuery, hrawQuery, query_form hquery hcount hgetV hgetData hgetSig⟩, hisData, hisSig⟩
    constructor
    · exact of_decide_eq_true hlen
    · exact hspelled
    · exact ⟨uri, data, sig, raw, huri, hform, hraw, inflateAll_bounded hraw, hverify⟩
    · refine ⟨hcanonical, fun w' hw' => ?_⟩
      exact inviteSigningBytes_inj (hw'.trans hcanonical)
    · exact ⟨verifySignature, hkey, hsignedOk, hpqOk⟩

end Soundness

end ServerlessInvites
