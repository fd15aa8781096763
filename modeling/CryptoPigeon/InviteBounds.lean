import CryptoPigeon.InviteReading
import CryptoPigeon.JsonArrays

/-! # Serverless invites of both clients

The invites of each client are read by both, and an invite that is returned has been signed. -/
namespace ServerlessInvites

open AttachmentManifests (isUuid)
open JsonArrays (readBytes readBytes_arrayBytes)
open JsonText (base64)
open LoginSignature (Client Text text)
open SigningContexts (ServerlessInvite SignedPrekey canonical inviteSigningBytes
  inviteSigningBytes_inj)
open Utf16Json (Scalar arrayBytes ascii)

/-! ## Both clients -/

section Both

variable {L : Libraries} {v : ServerlessInvite} {uri : Text} {c signature : Bytes}
  {sign : List Nat → Option Bytes}

theorem sealed_of_matches (hv : Schema v) (hm : Matches L v sign)
    (hsign : sign (inviteSigningBytes v) = some signature)
    (hmade : c = L.deflateRawSync (inviteSigningBytes v) ∨ c = L.deflate (inviteSigningBytes v)) :
    Sealed L v c signature where
  deflated := ⟨fun b hb => (signed_ascii hv b hb).trans (by decide), hmade⟩
  size := hm.size _ _ hsign
  type := hm.type
  desktop := hm.desktop _ _ hsign
  android := hm.android _ _ hsign

/-- A URI of either client, within the size of the code, is read by both. -/
theorem both_read (hL : Documented L) (hv : Schema v) (hs : Sealed L v c signature)
    (hlen : (inviteUri (base64url c) (base64url signature)).length ≤ 2953) :
    parseServerlessInvite L (inviteUri (base64url c) (base64url signature)) = .ok v ∧
      (parse L (inviteUri (base64url c) (base64url signature)) = .ok v ↔ PrekeysSigned L v) := by
  have hurl := hL.url _ _ (base64url_isData (hL.deflated_ne_nil _ _ hs.deflated))
    (base64url_isSig hs.size)
  exact ⟨desktop_reads hL hv hs hurl (hlen.trans (by decide)),
    android_reads hL hv hs (hlen.trans (by decide))⟩

theorem created_ok {key : Bytes} (hv : serverlessInviteSchema v = true)
    (hsign : L.sign key (inviteSigningBytes v) = some signature)
    (hlen : (inviteUri (base64url (L.deflateRawSync (inviteSigningBytes v)))
      (base64url signature)).length ≤ 2953) : createServerlessInvite L v key =
      .ok (inviteUri (base64url (L.deflateRawSync (inviteSigningBytes v)))
        (base64url signature)) := by
  simp only [createServerlessInvite, bind_ok, called_ok, check_ok, pure_ok]
  refine ⟨(), if_pos hv, signature, hsign, (), ?_, rfl⟩
  rw [inviteUri_bytes]
  exact decide_eq_true hlen

theorem made_ok {encoded : Option Bytes} (hv : serverlessInviteSchema v = true)
    (hsign : signDeviceMessage L encoded (inviteSigningBytes v) = .ok signature)
    (hlen : (inviteUri (base64url (L.deflate (inviteSigningBytes v)))
      (base64url signature)).length ≤ 2953) : create L v encoded =
      .ok (inviteUri (base64url (L.deflate (inviteSigningBytes v))) (base64url signature)) := by
  simp only [create, bind_ok, check_ok, pure_ok, canonical_schema (schema_iff.mp hv)]
  exact ⟨signature, hsign, (), decide_eq_true hlen, rfl⟩

theorem created_read {key : Bytes} (hL : Documented L) (hm : Matches L v (L.sign key))
    (h : createServerlessInvite L v key = .ok uri) :
    parseServerlessInvite L uri = .ok v ∧ (parse L uri = .ok v ↔ PrekeysSigned L v) := by
  simp only [createServerlessInvite, bind_ok, called_ok, check_ok, pure_ok] at h
  obtain ⟨_, hschema, signature, hsign, _, hlen, rfl⟩ := h
  have hv : serverlessInviteSchema v = true := by
    by_contra hno
    rw [if_neg hno] at hschema
    cases hschema
  rw [inviteUri_bytes, decide_eq_true_eq] at hlen
  exact both_read hL (schema_iff.mp hv)
    (sealed_of_matches (schema_iff.mp hv) hm hsign (.inl rfl)) hlen

theorem made_read {encoded : Option Bytes} (hL : Documented L)
    (hv : serverlessInviteSchema v = true)
    (hm : Matches L v fun m => (signDeviceMessage L encoded m).toOption)
    (h : create L v encoded = .ok uri) :
    parseServerlessInvite L uri = .ok v ∧ (parse L uri = .ok v ↔ PrekeysSigned L v) := by
  simp only [create, bind_ok, check_ok, pure_ok] at h
  obtain ⟨signature, hsign, _, hlen, rfl⟩ := h
  have hschema := schema_iff.mp hv
  rw [canonical_schema hschema] at hsign hlen ⊢
  rw [decide_eq_true_eq] at hlen
  have hsigned : (signDeviceMessage L encoded (inviteSigningBytes v)).toOption =
      some signature := by
    rw [hsign]
    rfl
  exact both_read hL hschema (sealed_of_matches hschema hm hsigned (.inr rfl)) hlen

end Both

/-- Each client's invites are read by both, on Android if the prekeys are signed; and what is
returned has been signed, in a text of the exact form, with no more inflated than 8192 bytes. -/
theorem invites_bound {L : Libraries} (hL : Documented L) :
    (∀ v key uri, serverlessInviteSchema v = true → Matches L v (L.sign key) →
      createServerlessInvite L v key = .ok uri →
      parseServerlessInvite L uri = .ok v ∧ (parse L uri = .ok v ↔ PrekeysSigned L v)) ∧
    (∀ v encoded uri, serverlessInviteSchema v = true →
      Matches L v (fun m => (signDeviceMessage L encoded m).toOption) →
      create L v encoded = .ok uri →
      parseServerlessInvite L uri = .ok v ∧ (parse L uri = .ok v ↔ PrekeysSigned L v)) ∧
    (∀ v w, inviteSigningBytes v = inviteSigningBytes w → v = w) ∧
    (∀ uri v, parseServerlessInvite L uri = .ok v → DesktopRead L uri v) ∧
    (∀ t v, parse L t = .ok v → AndroidRead L t v) ∧
    ∀ c calls out, Filled L c calls out → calls ≤ out.length ∧ out.length ≤ 8192 := by
  refine ⟨?_, ?_, fun _ _ h => inviteSigningBytes_inj h, fun _ _ h => desktop_sound hL h,
    fun _ _ h => android_sound hL h, fun _ _ _ h => h.bounded⟩
  · intro v key uri _ hm h
    exact created_read hL hm h
  · intro v encoded uri hv hm h
    exact made_read hL hv hm h

/-! ## Two invites -/

section Samples

/-- The bytes of a number, the lowest one first. -/
def littleEndian : Nat → Nat → Bytes
  | 0, _ => []
  | k + 1, n => (n % 256).toUInt8 :: littleEndian k (n / 256)

/-- So many bytes of a list of words. -/
def bytesOf (size : Nat) (words : List Nat) : Bytes := (words.flatMap (littleEndian 32)).take size

theorem littleEndian_length (k n : Nat) : (littleEndian k n).length = k := by
  induction k generalizing n with
  | zero => rfl
  | succ k ih => rw [littleEndian, List.length_cons, ih]

theorem bytesOf_length {size : Nat} {words : List Nat} (h : size ≤ words.length * 32) :
    (bytesOf size words).length = size := by
  have hall : (words.flatMap (littleEndian 32)).length = words.length * 32 := by
    simp [List.length_flatMap, littleEndian_length]
  rw [bytesOf, List.length_take, hall]
  omega

/-- The public key of a device key whose seed is 32 times 7. -/
def deviceKey : Bytes := bytesOf 32 [
  0x2cd2461469ea1e42927bbebeae764795f9c52e137b50f5be0a529ce2636c4aea]

def identity : Bytes := bytesOf 32 [
  0x21d4043d930c3d75140c158c3406257204670512254e6e145eae239f354bdb57]

/-- What the identity key has signed of the two prekeys. -/
def signedSignature : Bytes := bytesOf 64 [
  0x216fcab51f874203ac6ca55c19e40489611c21494dd42d23a17c34d38ccfe3bb,
  0x8030c841d5b2d793dbc38cbb66f184ae6052c9fb3ba3131b02ef1b122e056f75]

def pqSignature : Bytes := bytesOf 64 [
  0x107c1a8b19b0e82def9828990d8af2d1ea7b487c19176a938226123f355e2280,
  0x86b1c7cdd329188d3e2f31f4ddbd76b6fcf51cf20ee1cd6f3ee8b7b7bb86bdf5]

/-- The invite with these signatures, deflated, and what the device key signs. -/
def honestDeflated : Bytes := bytesOf 356 [
  0x1011682dab9102e9a15dca1055c305c2c8ca80b48b6177e0061440826ecbd6ed,
  0x75610cc890d611aec9a2b2c67848ef3966739324e67f326f9ae9a4d96448be9f,
  0x51cb1ab11e2c43613c40686c8b297a7f821fd165449673cbeb9cec918808670c,
  0xa1e573a750cf1d32dba429c78685b2d9510bf44664239635623c5886c27c8d7f,
  0xdd049fbaed6788a69812e0a465b514da142f1d2bbea0203be02176941724e84a,
  0x919a869564e687241547439e1e1b2766b7e08dcd937cb882465a86f177dd60f8,
  0x867e12fc4ef3d0f8b2cd4d1edf3e158f1535cf5d51aff7ddc7f321e0d022263e,
  0xff37da5df272b9d01bde5d95a4c34da7cd4eb438813a1caf604922b831575de7,
  0x472b0922ffebbf264c993264c99332c2de1ebd661369308d75b009b6ba5b56bb,
  0x2f1a2390c4155e8ad651b66f3915f484b2ea55d4053e63f43483b152e4b2bd9a,
  0xfa4d2dd187bec2d9134a77b6dc6c79e808b5d5fbe9274030b6abd7fa97105700,
  0xfc7c8bf]

def honestSignature : Bytes := bytesOf 64 [
  0xdf7e2d6fbf1bd31fa1e6324229c3d571494791cb12d0a075a21412c6f503a703,
  0x8fe8b6927ca64f74d2db5bdb73ee934abe1aee4fcb5f55e257da1d1f67ae80e]

/-- The same for signatures of zeros. -/
def forgedDeflated : Bytes := bytesOf 220 [
  0x50be056ac5e8745868a6ac32a5f361e0f34ad42dabb2eff0071830820b4dd6ed,
  0x58c03a0c85863de82934833ec1adc7679e303d9fd8dfb6e8220c7929be9f629,
  0xd762d96d863afd1360de9034da134dd47f6c3b09a714f466564cf46ca1849114,
  0xfba6122dd9ae52165512c39539912625a46b80b624740b65b618ebf44d837e4,
  0x3b8f0e126cea5a448de7adf356727c3c91422b90f8e15616d52ab55885a0b94e,
  0xeb9c8cf0d5c74cd038f6b81c1789121cabd2abd89bc773068f6c41944e3cb9ff,
  0x2f3645fe7fb3ee38e38e38e38818b79bd742fe8feb372fa30b130089]

def forgedSignature : Bytes := bytesOf 64 [
  0xd504802c10e7f41776ac66387c070e83b087011ac912b87a56a5cfba0be216be,
  0xd225f7a816a0674b5421f2cf1f5b4341e9de938463f149567d2c82c5c24dc31]

/-- An invite with these signatures of its prekeys. -/
def sampleInvite (first second : Bytes) : ServerlessInvite where
  publicUid := text "CP-0A1B-2C3D"
  username := text "pigeon"
  onion := List.replicate 56 97 ++ text ".onion"
  userId := text "11111111-1111-4111-8111-111111111111"
  deviceId := text "22222222-2222-4222-8222-222222222222"
  signalDeviceId := 1
  registrationId := 1
  deviceAuthPublicKey := ascii (base64 (spkiPrefix ++ deviceKey))
  identityPublicKey := ascii (base64 (5 :: identity))
  signedPrekey := ⟨1, ascii (base64 (5 :: List.replicate 32 1)), ascii (base64 first)⟩
  pqLastResortPrekey := ⟨1, ascii (base64 (8 :: List.replicate 1568 0)), ascii (base64 second)⟩

def honest : ServerlessInvite := sampleInvite signedSignature pqSignature

def forged : ServerlessInvite := sampleInvite (List.replicate 64 0) (List.replicate 64 0)

def signatureOf (m : List Nat) : Bytes :=
  if m = inviteSigningBytes honest then honestSignature
  else if m = inviteSigningBytes forged then forgedSignature
  else List.replicate 64 0

def deflated (x : List Nat) : Bytes :=
  if x = inviteSigningBytes honest then honestDeflated
  else if x = inviteSigningBytes forged then forgedDeflated
  else 0 :: x.map Nat.toUInt8

def inflated (c : Bytes) : Option (List Nat) :=
  if c = honestDeflated then some (inviteSigningBytes honest)
  else if c = forgedDeflated then some (inviteSigningBytes forged)
  else
    match c with
    | 0 :: r => some (r.map UInt8.toNat)
    | _ => none

/-- The two texts of a URI that has the form. -/
def readUri (t : Text) : Option (Text × Text) :=
  let data := (t.drop 25).take (t.length - 116)
  let sig := t.drop (t.length - 86)
  if t = inviteUri data sig then some (data, sig) else none

/-- `URL` keeps nothing of a `#` at the end. -/
def withoutHash (t : Text) : Text := if t.getLast? = some 35 then t.dropLast else t

def strAt (fs : List Scalar) (i : Nat) : Option Text :=
  match fs[i]? with
  | some (.str s) => some s
  | _ => none

def intAt (fs : List Scalar) (i : Nat) : Option Int :=
  match fs[i]? with
  | some (.int n) => some n
  | _ => none

/-- The prekeys that the identity key has signed. -/
def identityVerifies (k key signature : Bytes) : Bool :=
  k == 5 :: identity && (key == 5 :: List.replicate 32 1 && signature == signedSignature ||
    key == 8 :: List.replicate 1568 0 && signature == pqSignature)

/-- Libraries that know the two invites and write everything else as it stands. -/
def sample : Libraries where
  url t := (readUri (withoutHash t)).map fun p => writtenUrl p.1 p.2
  uri t := (readUri t).map fun p => ⟨some (text "pigeon"), some (text "invite"), some [], none, -1,
    none, some (writtenQuery p.1 p.2)⟩
  deflateRawSync := deflated
  inflateRawSync n c := (inflated c).filter fun x => decide (x.length ≤ n)
  deflate := deflated
  inflate c calls := (inflated c).map fun x => (x.drop (1024 * calls)).take 1024
  finished c calls := (inflated c).any fun x => decide (x.length ≤ 1024 * calls)
  parseJson x := (readBytes x).map fun fs => some (fs.map valueOf)
  jsonArray x := (readBytes x).map fun fs => ⟨fs.length, strAt fs, intAt fs⟩
  uuid t := passes isUuid t
  keyType k := if k.length = 44 ∧ k.take 12 = spkiPrefix then some "ed25519" else none
  verify k m s := k == spkiPrefix ++ deviceKey && s == signatureOf m
  sign _ m := some (signatureOf m)
  edSign _ m := signatureOf m
  edVerify k m s := k == deviceKey && s == signatureOf m
  identityKey k := if k.length = 33 ∧ k.head? = some 5 then some (identityVerifies k) else none

theorem signed_distinct : inviteSigningBytes honest ≠ inviteSigningBytes forged := by
  intro h
  have hsignature := congrArg (fun v => v.signedPrekey.signature) (inviteSigningBytes_inj h)
  revert hsignature
  decide

theorem deflated_distinct : honestDeflated ≠ forgedDeflated := by
  intro h
  have hlen := congrArg List.length h
  rw [honestDeflated, forgedDeflated, bytesOf_length (by decide), bytesOf_length (by decide)]
    at hlen
  omega

theorem deflated_heads : honestDeflated.head? ≠ some 0 ∧ forgedDeflated.head? ≠ some 0 := by
  decide

theorem inflated_deflated {x : List Nat} (h : ∀ b ∈ x, b < 256) :
    inflated (deflated x) = some x := by
  unfold deflated
  by_cases hhonest : x = inviteSigningBytes honest
  · unfold inflated
    rw [if_pos hhonest, if_pos rfl, hhonest]
  · rw [if_neg hhonest]
    by_cases hforged : x = inviteSigningBytes forged
    · unfold inflated
      rw [if_pos hforged, if_neg deflated_distinct.symm, if_pos rfl, hforged]
    · rw [if_neg hforged]
      have hne {c : Bytes} (hc : c.head? ≠ some 0) : 0 :: x.map Nat.toUInt8 ≠ c := by
        rintro rfl
        exact hc rfl
      have hback : (x.map Nat.toUInt8).map UInt8.toNat = x := by
        rw [List.map_map]
        refine (List.map_congr_left fun b hb => ?_).trans x.map_id
        change (Nat.toUInt8 b).toNat = b
        rw [Nat.toUInt8, UInt8.toNat_ofNat', Nat.mod_eq_of_lt (h b hb)]
      rw [inflated, if_neg (hne deflated_heads.1), if_neg (hne deflated_heads.2)]
      exact congrArg some hback

theorem readUri_inviteUri {data sig : Text} (h : isSig sig = true) :
    readUri (inviteUri data sig) = some (data, sig) := by
  simp only [isSig, Bool.and_eq_true, beq_iff_eq] at h
  have hfront : (text "pigeon://invite?v=2&data=").length = 25 := rfl
  have hmiddle : (text "&sig=").length = 5 := rfl
  have hlen : (inviteUri data sig).length = data.length + 116 := by
    simp only [inviteUri, List.length_append, hfront, hmiddle, h.1]
    omega
  have hdata : ((inviteUri data sig).drop 25).take ((inviteUri data sig).length - 116) = data := by
    rw [hlen, Nat.add_sub_cancel, inviteUri, List.append_assoc, List.append_assoc,
      List.drop_append_of_le_length hfront.ge, List.drop_of_length_le hfront.le, List.nil_append,
      List.take_append_of_le_length (Nat.le_refl _), List.take_length]
  have hsig : (inviteUri data sig).drop ((inviteUri data sig).length - 86) = sig := by
    have hbefore : (text "pigeon://invite?v=2&data=" ++ data ++ text "&sig=").length =
        (inviteUri data sig).length - 86 := by
      rw [hlen]
      simp only [List.length_append, hfront, hmiddle]
      omega
    rw [← hbefore, inviteUri]
    exact List.drop_left
  simp only [readUri, hdata, hsig, if_true]

theorem withoutHash_inviteUri {data sig : Text} (h : isSig sig = true) :
    withoutHash (inviteUri data sig) = inviteUri data sig := by
  simp only [isSig, Bool.and_eq_true, beq_iff_eq] at h
  have hne : sig ≠ [] := by
    rintro rfl
    cases h.1
  have hlast : (inviteUri data sig).getLast? = some (sig.getLast hne) := by
    rw [inviteUri, List.getLast?_append_of_ne_nil _ hne, List.getLast?_eq_some_getLast hne]
  have hdigit := List.all_eq_true.mp h.2 _ (List.getLast_mem hne)
  rw [withoutHash, hlast, if_neg]
  intro hhash
  rw [Option.some.inj hhash] at hdigit
  cases hdigit

theorem withoutHash_append (t : Text) : withoutHash (t ++ [35]) = t := by simp [withoutHash]

theorem sample_url {data sig t : Text} (hsig : isSig sig = true)
    (ht : withoutHash t = inviteUri data sig) : sample.url t = some (writtenUrl data sig) := by
  simp only [sample, ht, readUri_inviteUri hsig, Option.map_some]

theorem read_stringify (fs : List Scalar) :
    readBytes (arrayBytes .stringify Client.desktop.lone fs) = some fs :=
  readBytes_arrayBytes (Utf16Json.stringify_array_wellFormed fs)

theorem sample_inflated {c : Bytes} {x : List Nat} (h : Deflated sample c x) :
    inflated c = some x := by
  have hmade : c = deflated x := h.made.elim id id
  rw [hmade]
  exact inflated_deflated h.bytes

theorem inflated_nil : inflated [] = none := by
  have hhonest : ([] : Bytes) ≠ honestDeflated := by
    intro hnil
    have hlen := congrArg List.length hnil
    rw [honestDeflated, bytesOf_length (by decide)] at hlen
    cases hlen
  have hforged : ([] : Bytes) ≠ forgedDeflated := by
    intro hnil
    have hlen := congrArg List.length hnil
    rw [forgedDeflated, bytesOf_length (by decide)] at hlen
    cases hlen
  unfold inflated
  rw [if_neg hhonest, if_neg hforged]

theorem uuid_small {t : List Char} (h : isUuid t = true) : ∀ c ∈ t, c.toNat < 128 := by
  intro c hc
  rcases WireLimits.isUuid_code h c hc with hhex | rfl
  · exact (SigningContexts.isHex_codes hhex).1
  · decide

theorem passes_ascii {p : List Char → Bool} {t : List Char} (h : p t = true)
    (ht : ∀ c ∈ t, c.toNat < 128) : passes p (ascii t) = true := by
  rw [passes, Bool.and_eq_true, List.all_eq_true, chars_ascii ht]
  refine ⟨fun u hu => ?_, h⟩
  obtain ⟨c, hc, rfl⟩ := List.mem_map.mp hu
  rw [decide_eq_true_eq, toNat_toUInt16 (ht c hc)]
  exact ht c hc

theorem sample_documented : Documented sample where
  url _ _ _ hsig := sample_url hsig (withoutHash_inviteUri hsig)
  uri data sig _ hsig := by
    simp only [sample, readUri_inviteUri hsig, Option.map_some, writtenQuery]
  deflated_ne_nil c x h := by
    rintro rfl
    have hsome := sample_inflated h
    rw [inflated_nil] at hsome
    cases hsome
  bounded n c x h := by
    simp only [sample, Option.filter_eq_some_iff, decide_eq_true_eq] at h
    exact h.2
  inflateRaw n c x h hle := by
    simp only [sample, sample_inflated h, Option.filter_some, decide_eq_true hle, if_true]
  inflate c x calls h hlt := by
    simp only [sample, sample_inflated h, Option.any_some, Option.map_some, and_true,
      decide_eq_false_iff_not, Nat.not_le]
    exact hlt
  finished c x calls h _ hlt := by
    simp only [sample, sample_inflated h, Option.any_some, decide_eq_true_eq]
    exact hlt.le
  parseJson fs _ := by
    simp only [sample, read_stringify, Option.map_some]
  jsonArray fs := by
    refine ⟨_, congrArg (Option.map _) (read_stringify fs), rfl, ?_, ?_⟩
    · intro i s hs
      simp only [strAt, hs]
    · intro i n hn _ _
      simp only [intAt, hn]
  uuid t h := passes_ascii h (uuid_small h)
  uuid_plain t h u hu := LoginSignature.ascii_not_surrogate (passes_units h u hu)


theorem passes_base64 {n : Nat} {x : Bytes} (h : x.length = n) :
    passes (b64 n) (ascii (base64 x)) = true := by
  refine passes_ascii ?_ fun c hc => SignedPayloads.base64_ascii hc
  rw [b64, JsonText.bufferFromBase64_base64, h, JsonText.base64_length, h]
  simp

theorem signed_base64 {size : Nat} {key signature : Bytes} (hkey : key.length = size)
    (hsignature : signature.length = 64) :
    signedSchema size ⟨1, ascii (base64 key), ascii (base64 signature)⟩ = true := by
  rw [signedSchema, passes_base64 hkey, passes_base64 hsignature]
  rfl

theorem decoded_base64 (x : Bytes) : decoded (ascii (base64 x)) = x := by
  rw [decoded, chars_base64, JsonText.bufferFromBase64_base64]

theorem deviceKey_length : deviceKey.length = 32 := bytesOf_length (by decide)

theorem identity_length : identity.length = 32 := bytesOf_length (by decide)

theorem sample_schema {first second : Bytes} (hfirst : first.length = 64)
    (hsecond : second.length = 64) : serverlessInviteSchema (sampleInvite first second) = true := by
  have htexts : passes isPublicUid (text "CP-0A1B-2C3D") = true ∧
      passes isUsername (text "pigeon") = true ∧
      passes isOnion (List.replicate 56 97 ++ text ".onion") = true ∧
      passes isUuid (text "11111111-1111-4111-8111-111111111111") = true ∧
      passes isUuid (text "22222222-2222-4222-8222-222222222222") = true :=
    ⟨rfl, rfl, rfl, rfl, rfl⟩
  obtain ⟨hpublicUid, husername, honion, huserId, hdeviceId⟩ := htexts
  rw [schema_iff]
  constructor
  · exact hpublicUid
  · exact husername
  · exact honion
  · exact huserId
  · exact hdeviceId
  · exact ⟨Int.le_refl 1, show (1 : Int) ≤ 127 by decide⟩
  · exact ⟨Int.le_refl 1, show (1 : Int) ≤ 1073741823 by decide⟩
  · refine passes_base64 ?_
    rw [List.length_append, deviceKey_length]
    rfl
  · refine passes_base64 ?_
    rw [List.length_cons, identity_length]
  · exact signed_base64 rfl hfirst
  · have hkey : (8 :: List.replicate 1568 0 : Bytes).length = 1569 := by
      rw [List.length_cons, List.length_replicate]
    exact signed_base64 hkey hsecond

theorem signatureOf_length (m : List Nat) : (signatureOf m).length = 64 := by
  unfold signatureOf
  split
  · exact bytesOf_length (by decide)
  · split
    · exact bytesOf_length (by decide)
    · exact List.length_replicate

theorem sample_matches {first second : Bytes} {sign : List Nat → Option Bytes}
    (h : ∀ m s, sign m = some s → s = signatureOf m) :
    Matches sample (sampleInvite first second) sign := by
  have hkey : decoded (sampleInvite first second).deviceAuthPublicKey = spkiPrefix ++ deviceKey :=
    decoded_base64 _
  have hlength : (spkiPrefix ++ deviceKey).length = 44 := by
    rw [List.length_append, deviceKey_length]
    rfl
  have hprefix : (spkiPrefix ++ deviceKey).take 12 = spkiPrefix := List.take_left' rfl
  have hrest : (spkiPrefix ++ deviceKey).drop 12 = deviceKey := List.drop_left' rfl
  constructor
  · rw [hkey]
    simp only [sample, hlength, hprefix, and_self, if_true]
  · intro m s hs
    rw [h m s hs]
    exact signatureOf_length m
  · intro m s hs
    rw [hkey, h m s hs]
    simp only [sample, beq_self_eq_true, Bool.and_self]
  · intro m s hs
    rw [hkey, h m s hs, edVerifySpki, hlength, hprefix, hrest]
    simp only [sample, beq_self_eq_true, Bool.and_self]

theorem sample_uri_length {c signature : Bytes} (hc : c.length ≤ 400) (hs : signature.length = 64) :
    (inviteUri (base64url c) (base64url signature)).length ≤ 2953 := by
  have hfront : (text "pigeon://invite?v=2&data=").length = 25 := rfl
  have hmiddle : (text "&sig=").length = 5 := rfl
  simp only [inviteUri, List.length_append, hfront, hmiddle, base64url_length, hs]
  omega

theorem honest_schema : serverlessInviteSchema honest = true :=
  sample_schema (bytesOf_length (by decide)) (bytesOf_length (by decide))

theorem forged_schema : serverlessInviteSchema forged = true :=
  sample_schema List.length_replicate List.length_replicate

theorem identity_read (first second : Bytes) :
    sample.identityKey (decoded (sampleInvite first second).identityPublicKey) =
      some (identityVerifies (5 :: identity)) := by
  have hkey : decoded (sampleInvite first second).identityPublicKey = 5 :: identity :=
    decoded_base64 _
  rw [hkey]
  simp only [sample, List.length_cons, identity_length, List.head?_cons, and_self, if_true]

theorem honest_signed : PrekeysSigned sample honest := by
  refine ⟨_, identity_read _ _, ?_, ?_⟩
  · simp only [honest, sampleInvite, decoded_base64, identityVerifies, beq_self_eq_true,
      Bool.and_self, Bool.true_or]
  · simp only [honest, sampleInvite, decoded_base64, identityVerifies, beq_self_eq_true,
      Bool.and_self, Bool.or_true]

theorem forged_unsigned : ¬PrekeysSigned sample forged := by
  rintro ⟨verifySignature, hidentity, hsigned, -⟩
  have hread : sample.identityKey (decoded forged.identityPublicKey) =
      some (identityVerifies (5 :: identity)) := identity_read _ _
  rw [hread, Option.some.injEq] at hidentity
  rw [← hidentity] at hsigned
  simp only [forged, sampleInvite, decoded_base64] at hsigned
  revert hsigned
  decide

theorem sample_sign (key : Bytes) : sample.sign key = fun m => some (signatureOf m) := rfl

theorem sample_deflateRawSync : sample.deflateRawSync = deflated := rfl

theorem sample_deflate : sample.deflate = deflated := rfl

theorem sample_signs (m : List Nat) : signDeviceMessage sample
    (some (pkcs8Prefix ++ List.replicate 32 7)) m = .ok (signatureOf m) := by
  have hform : ((pkcs8Prefix ++ List.replicate 32 7).length == 48 &&
      (pkcs8Prefix ++ List.replicate 32 7).take 16 == pkcs8Prefix) = true := by decide
  have hsigner : sample.edSign = fun _ m => signatureOf m := rfl
  simp only [signDeviceMessage, present_some, bind_value, hform, check_true, hsigner, pure,
    Except.pure]

/-- The URI of one of the two invites. -/
def sampleUri (v : ServerlessInvite) : Text :=
  inviteUri (base64url (deflated (inviteSigningBytes v)))
    (base64url (signatureOf (inviteSigningBytes v)))

theorem sampleUri_length {v : ServerlessInvite}
    (h : (deflated (inviteSigningBytes v)).length ≤ 400) : (sampleUri v).length ≤ 2953 :=
  sample_uri_length h (signatureOf_length (inviteSigningBytes v))

theorem forged_deflated : (deflated (inviteSigningBytes forged)).length ≤ 400 := by
  rw [deflated, if_neg signed_distinct.symm, if_pos rfl, forgedDeflated, bytesOf_length (by decide)]
  decide

theorem forged_created : createServerlessInvite sample forged [] = .ok (sampleUri forged) := by
  have hlen := sampleUri_length forged_deflated
  rw [sampleUri] at hlen ⊢
  rw [← sample_deflateRawSync] at hlen ⊢
  exact created_ok forged_schema (congrFun (sample_sign []) _) hlen

theorem forged_matches : Matches sample forged (sample.sign []) := by
  rw [sample_sign]
  exact sample_matches fun m s hs => (Option.some.inj hs).symm

theorem forged_hash : parseServerlessInvite sample (sampleUri forged ++ text "#") = .ok forged := by
  have hv := schema_iff.mp forged_schema
  have hs : Sealed sample forged (deflated (inviteSigningBytes forged))
      (signatureOf (inviteSigningBytes forged)) :=
    sealed_of_matches hv forged_matches (congrFun (sample_sign []) _)
      (.inl (congrFun sample_deflateRawSync.symm _))
  refine desktop_reads sample_documented hv hs (sample_url (base64url_isSig hs.size) ?_) ?_
  · exact withoutHash_append _
  · have hlen := sampleUri_length forged_deflated
    have hhash : (text "#").length = 1 := rfl
    rw [List.length_append, hhash]
    omega

theorem honest_deflated : (deflated (inviteSigningBytes honest)).length ≤ 400 := by
  rw [deflated, if_pos rfl, honestDeflated, bytesOf_length (by decide)]
  decide

theorem honest_made : create sample honest (some (pkcs8Prefix ++ List.replicate 32 7)) =
    .ok (sampleUri honest) := by
  have hlen := sampleUri_length honest_deflated
  rw [sampleUri] at hlen ⊢
  rw [← sample_deflate] at hlen ⊢
  exact made_ok honest_schema (sample_signs _) hlen

/-- The desktop makes and reads an invite whose prekeys nobody has signed, also with an empty
fragment; Android refuses it. -/
theorem forged_refused : ∃ L, Documented L ∧ ∃ v key uri, serverlessInviteSchema v = true ∧
    Matches L v (L.sign key) ∧ createServerlessInvite L v key = .ok uri ∧
    parseServerlessInvite L uri = .ok v ∧ parseServerlessInvite L (uri ++ text "#") = .ok v ∧
    parse L uri ≠ .ok v := by
  obtain ⟨hdesktop, handroid⟩ := created_read sample_documented forged_matches forged_created
  exact ⟨sample, sample_documented, forged, [], _, forged_schema, forged_matches, forged_created,
    hdesktop, forged_hash, fun h => forged_unsigned (handroid.mp h)⟩

/-- Android makes an invite that both clients read. -/
theorem honest_read : create sample honest (some (pkcs8Prefix ++ List.replicate 32 7)) =
      .ok (sampleUri honest) ∧ parseServerlessInvite sample (sampleUri honest) = .ok honest ∧
    parse sample (sampleUri honest) = .ok honest := by
  have hmatches : Matches sample honest fun m => (signDeviceMessage sample
      (some (pkcs8Prefix ++ List.replicate 32 7)) m).toOption := by
    refine sample_matches fun m s hs => ?_
    rw [sample_signs] at hs
    exact (Option.some.inj hs).symm
  obtain ⟨-, hmade, -⟩ := invites_bound sample_documented
  obtain ⟨hdesktop, handroid⟩ := hmade honest _ _ honest_schema hmatches honest_made
  exact ⟨honest_made, hdesktop, handroid.mpr honest_signed⟩

end Samples

end ServerlessInvites
