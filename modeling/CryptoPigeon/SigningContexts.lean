import CryptoPigeon.AttachmentManifests
import CryptoPigeon.SignedPayloads

/-! # What the device key signs

The same key signs the login at a relay, onion requests, the proof for a vault instance and
invites. The login begins with the device id and goes on with text that the relay chooses; the
other three begin with a tag. -/
namespace SigningContexts

open AttachmentManifests (isUuid isHex)
open LoginSignature
open SignedPayloads (Request androidBytes desktopBytes onionFields onionTag p2pSigningBytes
  p2pSigningBytes_inj)
open Utf16Json

/-! ## Invites -/

structure SignedPrekey where
  id : Int
  publicKey : Text
  signature : Text
  deriving DecidableEq, Repr

structure ServerlessInvite where
  publicUid : Text
  username : Text
  onion : Text
  userId : Text
  deviceId : Text
  signalDeviceId : Int
  registrationId : Int
  deviceAuthPublicKey : Text
  identityPublicKey : Text
  signedPrekey : SignedPrekey
  pqLastResortPrekey : SignedPrekey
  deriving DecidableEq, Repr

def inviteTag : Text := text "cp-invite-v2"

def ServerlessInvite.items (v : ServerlessInvite) : List Scalar :=
  [.str inviteTag, .str v.publicUid, .str v.username, .str v.onion, .str v.userId, .str v.deviceId,
    .int v.signalDeviceId, .int v.registrationId, .str v.deviceAuthPublicKey,
    .str v.identityPublicKey, .int v.signedPrekey.id, .str v.signedPrekey.publicKey,
    .str v.signedPrekey.signature, .int v.pqLastResortPrekey.id,
    .str v.pqLastResortPrekey.publicKey, .str v.pqLastResortPrekey.signature]

/-- `inviteSigningBytes` of an invite that has passed the schema. -/
def inviteSigningBytes (v : ServerlessInvite) : List Nat :=
  arrayBytes .stringify Client.desktop.lone v.items

/-- `canonical` of Android. -/
def canonical (v : ServerlessInvite) : List Nat :=
  encode Client.android.lone (replaceSlash (array .orgJson v.items))

theorem items_inj {v w : ServerlessInvite} (h : v.items = w.items) : v = w := by
  obtain ⟨_, _, _, _, _, _, _, _, _, ⟨_, _, _⟩, ⟨_, _, _⟩⟩ := v
  obtain ⟨_, _, _, _, _, _, _, _, _, ⟨_, _, _⟩, ⟨_, _, _⟩⟩ := w
  simp_all [ServerlessInvite.items]

theorem inviteSigningBytes_inj {v w : ServerlessInvite}
    (h : inviteSigningBytes v = inviteSigningBytes w) : v = w :=
  items_inj (stringify_bytes_inj h)

/-! ## What is signed -/

/-- What is signed in one of the four places. -/
inductive Signed where
  | login (deviceId : List Char) (challenge host : Text)
  | onion (r : Request)
  | vaultInstance (instanceHash : Text)
  | invite (v : ServerlessInvite)
  deriving DecidableEq, Repr

def vaultInstanceTag : Text := text "cp-vault-instance-v1:"

def Signed.bytes (client : Client) : Signed → List Nat
  | .login deviceId challenge host => signed client (ascii deviceId) challenge host
  | .onion r => match client with
    | .desktop => desktopBytes r
    | .android => androidBytes r
  | .vaultInstance instanceHash => encode client.lone (vaultInstanceTag ++ instanceHash)
  | .invite v => match client with
    | .desktop => inviteSigningBytes v
    | .android => canonical v

/-- A login is signed for the device's own id. -/
def Signed.Valid : Signed → Prop
  | .login deviceId _ _ => isUuid deviceId = true
  | _ => True

inductive Purpose where
  | login
  | onion
  | vaultInstance
  | invite
  deriving DecidableEq, Repr

def Signed.purpose : Signed → Purpose
  | .login .. => .login
  | .onion _ => .onion
  | .vaultInstance _ => .vaultInstance
  | .invite _ => .invite

/-! ## How it begins -/

section Beginnings

variable {client : Client} {lone : Nat} {s t : Text}

/-- A front of ASCII is written as it stands. -/
theorem encode_front (h : ∀ u ∈ s, u.toNat < 128) :
    encode lone (s ++ t) = s.map UInt16.toNat ++ encode lone t := by
  induction s with
  | nil => rfl
  | cons u s ih =>
    have hu := h u List.mem_cons_self
    obtain ⟨hhigh, hlow⟩ := ascii_not_surrogate hu
    rw [List.cons_append, encode_unit hhigh hlow, utf8_ascii hu,
      ih fun v hv => h v (List.mem_cons_of_mem u hv)]
    rfl

/-- Two fronts that differ keep the texts apart. -/
def Apart (p q : List Nat) : Prop := ¬p <+: q ∧ ¬q <+: p

instance (p q : List Nat) : Decidable (Apart p q) := inferInstanceAs (Decidable (_ ∧ _))

theorem ne_of_apart {p q x y : List Nat} (h : Apart p q) (hx : p <+: x) (hy : q <+: y) : x ≠ y := by
  rintro rfl
  rcases List.prefix_or_prefix_of_prefix hx hy with hpq | hqp
  · exact h.1 hpq
  · exact h.2 hqp

/-- What signatures for a purpose begin with, but for a login. -/
def front : Purpose → List Nat
  | .login => []
  | .onion => 91 :: 34 :: onionTag.map UInt16.toNat
  | .vaultInstance => vaultInstanceTag.map UInt16.toNat
  | .invite => 91 :: 34 :: inviteTag.map UInt16.toNat

theorem Apart.symm {p q : List Nat} (h : Apart p q) : Apart q p := ⟨h.2, h.1⟩

theorem fronts_apart {p q : Purpose} (hp : p ≠ .login) (hq : q ≠ .login) (h : p ≠ q) :
    Apart (front p) (front q) := by
  have honion : Apart (front .onion) (front .vaultInstance) := by decide +kernel
  have hinvite : Apart (front .invite) (front .vaultInstance) := by decide +kernel
  have htags : Apart (front .onion) (front .invite) := by decide +kernel
  cases p with
  | login => exact absurd rfl hp
  | onion =>
    cases q with
    | login => exact absurd rfl hq
    | onion => exact absurd rfl h
    | vaultInstance => exact honion
    | invite => exact htags
  | vaultInstance =>
    cases q with
    | login => exact absurd rfl hq
    | onion => exact honion.symm
    | vaultInstance => exact absurd rfl h
    | invite => exact hinvite.symm
  | invite =>
    cases q with
    | login => exact absurd rfl hq
    | onion => exact htags.symm
    | vaultInstance => exact hinvite
    | invite => exact absurd rfl h

theorem replaceSlash_front (h : ∀ u ∈ s, u ≠ 92) : replaceSlash (s ++ t) = s ++ replaceSlash t := by
  induction s with
  | nil => rfl
  | cons u s ih =>
    rw [List.cons_append, replaceSlash_cons (.inl (h u List.mem_cons_self)),
      ih fun v hv => h v (List.mem_cons_of_mem u hv), List.cons_append]

/-- A tag that no writer escapes. -/
structure IsTag (tag : Text) : Prop where
  ascii : ∀ u ∈ tag, u.toNat < 128 ∧ u ≠ 92
  stringify : Writer.stringify.quote tag = 34 :: (tag ++ [34])
  orgJson : Writer.orgJson.quote tag = 34 :: (tag ++ [34])

theorem IsTag.front_units {tag : Text} (h : IsTag tag) :
    ∀ u ∈ 91 :: 34 :: tag, u.toNat < 128 ∧ u ≠ 92 := by
  intro u hu
  rcases List.mem_cons.mp hu with rfl | hu
  · decide
  · rcases List.mem_cons.mp hu with rfl | hu
    · decide
    · exact h.ascii u hu

theorem array_front {W : Writer} {tag : Text} (f : Scalar) (fs : List Scalar)
    (h : W.quote tag = 34 :: (tag ++ [34])) :
    ∃ r, array W (.str tag :: f :: fs) = 91 :: 34 :: tag ++ r := by
  refine ⟨34 :: 44 :: (items W (f :: fs) ++ [93]), ?_⟩
  rw [array, items.eq_3 _ _ _ (List.cons_ne_nil f fs), Scalar.write, h]
  simp only [List.cons_append, List.append_assoc, List.nil_append]

theorem stringify_front {tag : Text} (h : IsTag tag) (f : Scalar) (fs : List Scalar) :
    91 :: 34 :: tag.map UInt16.toNat <+: arrayBytes .stringify lone (.str tag :: f :: fs) := by
  obtain ⟨r, hr⟩ := array_front f fs h.stringify
  rw [arrayBytes, hr, encode_front fun u hu => (h.front_units u hu).1]
  exact List.prefix_append _ _

theorem orgJson_front {tag : Text} (h : IsTag tag) (f : Scalar) (fs : List Scalar) :
    91 :: 34 :: tag.map UInt16.toNat <+:
      encode lone (replaceSlash (array .orgJson (.str tag :: f :: fs))) := by
  obtain ⟨r, hr⟩ := array_front f fs h.orgJson
  rw [hr, replaceSlash_front fun u hu => (h.front_units u hu).2,
    encode_front fun u hu => (h.front_units u hu).1]
  exact List.prefix_append _ _

theorem onionTag_isTag : IsTag onionTag := by
  have hunits : onionTag.all (fun u => decide (u.toNat < 128 ∧ u ≠ 92)) = true := by decide +kernel
  exact ⟨fun u hu => of_decide_eq_true (List.all_eq_true.mp hunits u hu), by decide +kernel,
    by decide +kernel⟩

theorem inviteTag_isTag : IsTag inviteTag := by
  have hunits : inviteTag.all (fun u => decide (u.toNat < 128 ∧ u ≠ 92)) = true := by
    decide +kernel
  exact ⟨fun u hu => of_decide_eq_true (List.all_eq_true.mp hunits u hu), by decide +kernel,
    by decide +kernel⟩

theorem bytes_front {m : Signed} (h : m.purpose ≠ .login) :
    front m.purpose <+: m.bytes client := by
  cases m with
  | login deviceId challenge host => exact absurd rfl h
  | onion r =>
    cases client with
    | desktop => exact stringify_front onionTag_isTag _ _
    | android => exact orgJson_front onionTag_isTag _ _
  | vaultInstance instanceHash =>
    have hunits : vaultInstanceTag.all (fun u => decide (u.toNat < 128)) = true := by decide +kernel
    rw [Signed.bytes, encode_front fun u hu => of_decide_eq_true (List.all_eq_true.mp hunits u hu)]
    exact List.prefix_append _ _
  | invite v =>
    cases client with
    | desktop => exact stringify_front inviteTag_isTag _ _
    | android => exact orgJson_front inviteTag_isTag _ _

/-- A UUID begins with two hexadecimal digits. -/
theorem isUuid_front {t : List Char} (h : isUuid t = true) :
    ∃ a b r, t = a :: b :: r ∧ isHex a = true ∧ isHex b = true := by
  simp only [isUuid, Bool.or_eq_true, beq_iff_eq] at h
  rcases h with (h | rfl) | rfl
  · rcases t with _ | ⟨a, _ | ⟨b, r⟩⟩
    · cases h
    · simp [AttachmentManifests.uuidPattern, AttachmentManifests.matchesEach, List.replicate] at h
    · simp only [AttachmentManifests.uuidPattern, List.replicate, List.cons_append,
        AttachmentManifests.matchesEach, Bool.and_eq_true] at h
      exact ⟨a, b, r, rfl, h.1, h.2.1⟩
  · exact ⟨'0', '0', _, rfl, by decide, by decide⟩
  · exact ⟨'f', 'f', _, rfl, by decide, by decide⟩

theorem isHex_codes {c : Char} (h : isHex c = true) :
    c.toNat < 128 ∧ c.toNat ≠ 91 ∧ c.toNat ≠ 112 := by
  simp only [isHex, AttachmentManifests.isLowerHex, Bool.or_eq_true, Bool.and_eq_true,
    decide_eq_true_eq, Char.le_def, UInt32.le_iff_toNat_le, Char.reduceVal, UInt32.reduceToNat,
    Char.toNat_val] at h
  omega

theorem login_front {deviceId : List Char} (h : isUuid deviceId = true) (challenge host : Text) :
    ∃ a b, isHex a = true ∧ isHex b = true ∧
      [a.toNat, b.toNat] <+: (Signed.login deviceId challenge host).bytes client := by
  obtain ⟨a, b, r, rfl, ha, hb⟩ := isUuid_front h
  refine ⟨a, b, ha, hb, ?_⟩
  have unit {c : Char} (hc : c.toNat < 128) : c.toNat.toUInt16.toNat = c.toNat := by
    rw [Nat.toUInt16, UInt16.toNat_ofNat', Nat.mod_eq_of_lt (by omega)]
  have ha' := unit (isHex_codes ha).1
  have hb' := unit (isHex_codes hb).1
  have hfront : ascii (a :: b :: r) ++ challenge ++ host =
      [a.toNat.toUInt16, b.toNat.toUInt16] ++ (ascii r ++ challenge ++ host) := rfl
  rw [Signed.bytes, signed, hfront, encode_front]
  · simp only [List.map_cons, List.map_nil, ha', hb']
    exact List.prefix_append _ _
  · intro u hu
    simp only [List.mem_cons, List.not_mem_nil, or_false] at hu
    rcases hu with rfl | rfl
    · rw [ha']
      exact (isHex_codes ha).1
    · rw [hb']
      exact (isHex_codes hb).1

theorem login_apart {p : Purpose} {a b : Char} (hp : p ≠ .login) (ha : isHex a = true)
    (hb : isHex b = true) : Apart [a.toNat, b.toNat] (front p) := by
  obtain ⟨-, ha91, -⟩ := isHex_codes ha
  obtain ⟨-, -, hb112⟩ := isHex_codes hb
  have hbegin : ∃ x y z r, front p = x :: y :: z :: r ∧ (x = 91 ∨ y = 112) := by
    cases p with
    | login => exact absurd rfl hp
    | onion => exact ⟨_, _, _, _, rfl, .inl rfl⟩
    | vaultInstance => exact ⟨_, _, _, _, rfl, .inr (by decide +kernel)⟩
    | invite => exact ⟨_, _, _, _, rfl, .inl rfl⟩
  obtain ⟨x, y, z, r, heq, hxy⟩ := hbegin
  rw [heq]
  constructor
  · rintro ⟨w, hw⟩
    simp only [List.cons_append, List.nil_append, List.cons.injEq] at hw
    rcases hxy with rfl | rfl
    · exact ha91 hw.1
    · exact hb112 hw.2.1
  · rintro ⟨w, hw⟩
    simp only [List.cons_append, List.cons.injEq, reduceCtorEq, and_false] at hw

end Beginnings

/-- No two purposes share a signed text, and the bytes of an onion request tell its six parts. -/
theorem contexts_disjoint :
    (∀ (client : Client) (m m' : Signed), m.Valid → m'.Valid → m.purpose ≠ m'.purpose →
      m.bytes client ≠ m'.bytes client) ∧
    ∀ (sender nonce method path body sender' nonce' method' path' body' : Text) (time time' : Int),
      (sender, time, nonce, method, path, body) ≠ (sender', time', nonce', method', path', body') →
      p2pSigningBytes sender time nonce method path body ≠
        p2pSigningBytes sender' time' nonce' method' path' body' := by
  constructor
  · intro client m m' hm hm' hne
    by_cases h : m.purpose = .login
    · have h' : m'.purpose ≠ .login := fun h' => hne (h.trans h'.symm)
      cases m with
      | login deviceId challenge host =>
        obtain ⟨a, b, ha, hb, hfront⟩ := @login_front client _ hm challenge host
        exact ne_of_apart (login_apart h' ha hb) hfront (bytes_front h')
      | _ => cases h
    · by_cases h' : m'.purpose = .login
      · cases m' with
        | login deviceId challenge host =>
          obtain ⟨a, b, ha, hb, hfront⟩ := @login_front client _ hm' challenge host
          exact (ne_of_apart (login_apart h ha hb) hfront (bytes_front h)).symm
        | _ => cases h'
      · exact ne_of_apart (fronts_apart h h' hne) (bytes_front h) (bytes_front h')
  · intro sender nonce method path body sender' nonce' method' path' body' time time' hne h
    obtain ⟨rfl, rfl, rfl, rfl, rfl, rfl⟩ := p2pSigningBytes_inj h
    exact hne rfl

/-- A challenge that is the beginning of an invite. -/
theorem login_invite_differ :
    (Signed.login "00000000-0000-0000-0000-000000000000".toList inviteTag []).bytes .desktop ≠
      (Signed.invite ⟨[], [], [], [], [], 0, 0, [], [], ⟨0, [], []⟩, ⟨0, [], []⟩⟩).bytes .desktop :=
  contexts_disjoint.1 .desktop _ _ (by simp only [Signed.Valid]; decide +kernel) trivial
    (by simp only [Signed.purpose]; decide)

end SigningContexts
