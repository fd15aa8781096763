import CryptoPigeon.AdditiveSharing
import CryptoPigeon.JsonText

/-! # Seven of seven, byte by byte

The two programs that share the wrapped key of a vault, `HorcruxStore` and `NativeFragments`,
with the lengths, texts and digests they check. A seventh share that a file of the user fixes is
taken in by changing the sixth. -/
namespace SevenOfSeven

open AdditiveSharing JsonText

abbrev Bytes := List UInt8
abbrev Text := List Char

section Blocks

/-- `a[i] ^= b[i]` for all `i`; the callers compare the lengths first. -/
def xorBytes (a b : Bytes) : Bytes := List.zipWith (fun x y => x ^^^ y) a b

theorem xorBytes_length {a b : Bytes} (ha : a.length = 48) (hb : b.length = 48) :
    (xorBytes a b).length = 48 := by
  simp [xorBytes, ha, hb]

/-- A buffer of 48 bytes. -/
@[ext] structure Block where
  bytes : Bytes
  length_eq : bytes.length = 48
  deriving DecidableEq

instance : Add Block := ⟨fun a b => ⟨xorBytes a.bytes b.bytes, xorBytes_length a.2 b.2⟩⟩
instance : Zero Block := ⟨⟨List.replicate 48 0, by simp⟩⟩
instance : Neg Block := ⟨fun a => a⟩

theorem bytes_add (a b : Block) : (a + b).bytes = xorBytes a.bytes b.bytes := rfl
theorem bytes_zero : (0 : Block).bytes = List.replicate 48 0 := rfl
theorem bytes_neg (a : Block) : (-a).bytes = a.bytes := rfl

theorem add_assoc' (a b c : Block) : a + b + c = a + (b + c) := by
  refine Block.ext (List.ext_getElem (by simp [Block.length_eq]) fun i _ _ => ?_)
  simp [bytes_add, xorBytes, UInt8.xor_assoc]

theorem add_comm' (a b : Block) : a + b = b + a := by
  refine Block.ext (List.ext_getElem (by simp [Block.length_eq]) fun i _ _ => ?_)
  simpa [bytes_add, xorBytes] using UInt8.xor_comm _ _

theorem zero_add' (a : Block) : 0 + a = a := by
  refine Block.ext (List.ext_getElem (by simp [Block.length_eq]) fun i _ _ => ?_)
  simp only [bytes_add, bytes_zero, xorBytes, List.getElem_zipWith, List.getElem_replicate,
    UInt8.zero_xor]

theorem neg_add' (a : Block) : -a + a = 0 := by
  refine Block.ext (List.ext_getElem (by simp [Block.length_eq]) fun i _ _ => ?_)
  simp only [bytes_add, bytes_neg, bytes_zero, xorBytes, List.getElem_zipWith,
    List.getElem_replicate, UInt8.xor_self]

/-- Blocks under `^`: every block is its own inverse. -/
instance : AddCommGroup Block where
  add_assoc := add_assoc'
  zero_add := zero_add'
  add_zero a := (add_comm' a 0).trans (zero_add' a)
  neg_add_cancel := neg_add'
  add_comm := add_comm'
  nsmul := nsmulRec
  zsmul := zsmulRec

theorem add_self (a : Block) : a + a = 0 := neg_add' a

theorem sub_eq_add (a b : Block) : a - b = a + b := sub_eq_add_neg a b

instance fintypeUInt8 : Fintype UInt8 := Fintype.ofEquiv (Fin 256)
  { toFun := UInt8.ofFin, invFun := UInt8.toFin, left_inv := fun _ => rfl, right_inv := fun _ => rfl }

instance : Fintype Block := Fintype.ofEquiv (List.Vector UInt8 48)
  { toFun := fun v => ⟨v.1, v.2⟩, invFun := fun b => ⟨b.1, b.2⟩
    left_inv := fun _ => rfl, right_inv := fun _ => rfl }

/-- Adding up blocks is adding up their bytes one after the other. -/
theorem foldl_xorBytes (l : List Block) (b : Block) :
    (l.map Block.bytes).foldl xorBytes b.bytes = (b + l.sum).bytes := by
  induction l generalizing b with
  | nil => simp
  | cons a l ih =>
    have step : xorBytes b.bytes a.bytes = (b + a).bytes := rfl
    rw [List.map_cons, List.foldl_cons, step, ih, List.sum_cons, add_assoc]

end Blocks

section Splitting

/-- What the six calls of `randomBytes(48)` return. -/
abbrev Random := Fin 6 → Block

def splitSeven (random : Random) (secret : Bytes) : Except String (List Bytes) :=
  if secret.length ≠ 48 then .error "invalid_wrapped_vmk"
  else
    let shares := List.ofFn fun i => (random i).bytes
    .ok (shares ++ [shares.foldl xorBytes secret])

/-- `SevenShares.split`: each share is drawn and added to the last one in the same turn. -/
def split (random : Random) (wrapped : Bytes) : Except String (List Bytes) :=
  if wrapped.length ≠ 48 then .error "invalid_wrapped_vmk"
  else
    let drawn := (List.ofFn fun i => (random i).bytes).foldl
      (fun s share => (s.1 ++ [share], xorBytes s.2 share)) ([], wrapped)
    .ok (drawn.1 ++ [drawn.2])

/-- What `scatter` does with a seventh share that is given. -/
def takeExternal (external : Option Bytes) (shares : List Bytes) : Except String (List Bytes) :=
  match external with
  | none => .ok shares
  | some e =>
    if e.length ≠ 48 then .error "INVALID_SHARD7_FILE"
    else .ok ((shares.modify 5 fun s => xorBytes s (xorBytes (shares.getD 6 []) e)).set 6 e)

theorem draw_eq (l : List Bytes) (before : List Bytes) (last : Bytes) :
    l.foldl (fun s share => (s.1 ++ [share], xorBytes s.2 share)) (before, last) =
      (before ++ l, l.foldl xorBytes last) := by
  induction l generalizing before last with
  | nil => simp
  | cons a l ih => simp [ih]

theorem split_eq : split = splitSeven := by
  funext random wrapped
  simp only [split, splitSeven, draw_eq, List.nil_append]

/-- The places of the random shares and of the last one. -/
def placed (external : Option Block) (random : Random) (last : Block) : List Block :=
  match external with
  | none => [random 0, random 1, random 2, random 3, random 4, random 5, last]
  | some e => [random 0, random 1, random 2, random 3, random 4, random 5 + (last + e), e]

/-- The seven shares as blocks. -/
def dealt (secret : Block) (external : Option Block) (random : Random) : List Block :=
  placed external random (remainder secret random)

theorem foldl_random (secret : Block) (random : Random) :
    (List.ofFn fun i => (random i).bytes).foldl xorBytes secret.bytes =
      (remainder secret random).bytes := by
  have hmap : (List.ofFn fun i => (random i).bytes) = (List.ofFn random).map Block.bytes := by
    simp
  rw [hmap, foldl_xorBytes, List.sum_ofFn, remainder, sub_eq_add]

theorem deal_eq (secret : Block) (external : Option Block) (random : Random) :
    (splitSeven random secret.bytes).bind (takeExternal (external.map Block.bytes)) =
      .ok ((dealt secret external random).map Block.bytes) := by
  simp only [splitSeven, foldl_random, secret.length_eq, ne_eq, not_true_eq_false, if_false,
    Except.bind]
  cases external with
  | none => simp [takeExternal, dealt, placed, List.ofFn_succ]
  | some e =>
    simp [takeExternal, dealt, placed, List.ofFn_succ, e.length_eq, bytes_add, List.modify]

theorem sum_dealt (secret : Block) (external : Option Block) (random : Random) :
    (dealt secret external random).sum = secret := by
  have total := sum_add_remainder secret random
  simp only [Fin.sum_univ_six] at total
  cases external with
  | none =>
    simp only [dealt, placed, List.sum_cons, List.sum_nil]
    calc _ = random 0 + random 1 + random 2 + random 3 + random 4 + random 5 +
          remainder secret random := by abel
      _ = secret := total
  | some e =>
    have twice := add_self e
    simp only [dealt, placed, List.sum_cons, List.sum_nil]
    calc _ = random 0 + random 1 + random 2 + random 3 + random 4 + random 5 +
          remainder secret random + (e + e) := by abel
      _ = secret := by rw [total, twice, add_zero]

end Splitting

section Stores

/-- SHA-256, and the subkey of the metadata database. -/
structure Crypto where
  sha256 : Bytes → Bytes
  deriveSubkey : Bytes → Bytes

/-- The keys of `deriveVaultKeys` that fragments are kept under. -/
structure Keys where
  backup : Bytes
  mask : Bytes
  deriving DecidableEq, Repr

/-- An AES-GCM envelope: only the key and the context it was made with open it. -/
structure Sealed where
  key : Bytes
  context : String
  plain : Bytes
  deriving DecidableEq, Repr

def sealAs (data key : Bytes) (context : String) : Sealed := ⟨key, context, data⟩

def unsealAs (key : Bytes) (context : String) (s : Sealed) : Option Bytes :=
  if s.key = key ∧ s.context = context then some s.plain else none

theorem unsealAs_sealAs (data key : Bytes) (context : String) :
    unsealAs key context (sealAs data key context) = some data :=
  if_pos ⟨rfl, rfl⟩

/-- `metadata.db`: encrypted, or a plain one of an earlier version, with or without its row. -/
structure Database where
  key : Option Bytes
  row : Option Bytes
  deriving DecidableEq, Repr

structure Scattered where
  clientShard : Text
  fragment7Shard : Sealed
  hashes : List Text
  deriving DecidableEq, Repr

def incomplete : String := "HORCRUX_INCOMPLETE_RESTORE_REQUIRED"

variable (c : Crypto)

def shardDigest (share : Bytes) : Text := hex (c.sha256 share)

/-- The directory of `HorcruxStore`; a file that is missing or cannot be parsed is `none`. -/
structure HorcruxStore where
  f1 : Option Bytes
  metadata : Option Database
  f3 : Option Sealed
  f4 : Option Bytes
  f6 : Option Sealed
  sessionShare : Option Bytes
  deriving DecidableEq, Repr

def HorcruxStore.scatter (keys : Keys) (random : Random) (wrapped : Bytes)
    (externalSeventh : Option Bytes) (_store : HorcruxStore) :
    Except String (HorcruxStore × Scattered) := do
  let shares ← (splitSeven random wrapped).bind (takeExternal externalSeventh)
  let share (i : Nat) := shares.getD i []
  .ok (
    { f1 := some (share 0)
      metadata := some ⟨some (c.deriveSubkey keys.backup), some (share 1)⟩
      f3 := some (sealAs (share 2) keys.backup "cp-shard3-v1")
      f4 := some (share 3)
      f6 := some (sealAs (share 5) keys.mask "cp-shard6-v1")
      sessionShare := some (share 5) },
    { clientShard := base64 (share 4)
      fragment7Shard := sealAs (share 6) keys.backup "cp-shard7-v1"
      hashes := shares.map (shardDigest c) })

/-- The row of `metadata.db`. A missing database is created empty, and no row is no bytes. -/
def HorcruxStore.readMetadata (keys : Keys) (store : HorcruxStore) : Option Bytes :=
  match store.metadata with
  | none => some []
  | some db =>
    if db.key = none ∨ db.key = some (c.deriveSubkey keys.backup) then some (db.row.getD [])
    else none

def HorcruxStore.reads (keys : Keys) (clientShard : Option Text) (fragment7Shard : Option Sealed)
    (store : HorcruxStore) : List (Option Bytes) :=
  [store.f1, store.readMetadata c keys, store.f3.bind (unsealAs keys.backup "cp-shard3-v1"), store.f4,
    clientShard.bind fun t => if t = [] then none else some (bufferFromBase64 t),
    store.f6.bind (unsealAs keys.mask "cp-shard6-v1"),
    fragment7Shard.bind (unsealAs keys.backup "cp-shard7-v1")]

def reconstructSeven (shares : List (Option Bytes)) : Except String Bytes :=
  if shares.length ≠ 7 ∨ shares.any fun s => s.all fun b => b.length != 48 then .error incomplete
  else .ok ((shares.map fun s => s.getD []).foldl xorBytes (List.replicate 48 0))

/-- A share that does not stop `HorcruxStore.collect`. -/
def accepted (hash : Option Text) : Option Bytes → Bool
  | none => false
  | some s => s.length == 48 && some (shardDigest c s) == hash

def HorcruxStore.collect (keys : Keys) (clientShard : Option Text) (fragment7Shard : Option Sealed)
    (hashes : List Text) (store : HorcruxStore) : HorcruxStore × Except String Bytes :=
  let shares := store.reads c keys clientShard fragment7Shard
  if shares.zipIdx.all fun s => accepted c hashes[s.2]? s.1 then
    ({ store with sessionShare := shares.getD 5 none }, reconstructSeven shares)
  else (store, .error incomplete)

/-- The directory and the preferences of `NativeFragments`, with the key of its key store.
`shard3` is a saved text with what it parses to. -/
structure NativeFragments where
  keyAlias : String
  device : Bytes
  f1 : Option Sealed
  metadata : Option Database
  shard3 : Option (Option Sealed)
  f3 : Option Sealed
  f4 : Option Bytes
  f6 : Option Sealed
  session : Option Bytes
  deriving DecidableEq, Repr

def deviceContext (keyAlias : String) : String := "cp-shard1-native-v1:" ++ keyAlias

def NativeFragments.scatter (keys : Keys) (random : Random) (wrapped : Bytes)
    (externalSeventh : Option Bytes) (n : NativeFragments) :
    Except String (NativeFragments × Scattered) := do
  let shares ← (split random wrapped).bind (takeExternal externalSeventh)
  let share (i : Nat) := shares.getD i []
  .ok (
    { n with
      f1 := some (sealAs (share 0) n.device (deviceContext n.keyAlias))
      metadata := some ⟨some (c.deriveSubkey keys.backup), some (share 1)⟩
      shard3 := some (some (sealAs (share 2) keys.backup "cp-shard3-v1"))
      f3 := none
      f4 := some (share 3)
      f6 := some (sealAs (share 5) keys.mask "cp-shard6-v1")
      session := some (share 5) },
    { clientShard := base64 (share 4)
      fragment7Shard := sealAs (share 6) keys.backup "cp-shard7-v1"
      hashes := shares.map fun s => hex (c.sha256 s) })

def NativeFragments.readMetadata (keys : Keys) (n : NativeFragments) : Option Bytes :=
  n.metadata.bind fun db =>
    if db.key = none ∨ db.key = some (c.deriveSubkey keys.backup) then db.row else none

/-- The shares before they are checked; `none` also where reading throws. -/
def NativeFragments.reads (keys : Keys) (client : Option Text) (relay : Option Sealed)
    (n : NativeFragments) : List (Option Bytes) :=
  [n.f1.bind (unsealAs n.device (deviceContext n.keyAlias)), n.readMetadata c keys,
    (n.shard3.getD n.f3).bind (unsealAs keys.backup "cp-shard3-v1"),
    n.f4.bind fun b => if 48 < b.length then none else some b,
    client.bind fun t => if t.length ≠ 64 then none else decodeBase64 t,
    n.f6.bind (unsealAs keys.mask "cp-shard6-v1"), relay.bind (unsealAs keys.backup "cp-shard7-v1")]

/-- `SevenShares.collect`. -/
def collectShares (shares : List (Option Bytes)) (hashes : List Bytes) : Except String Bytes :=
  if shares.length ≠ 7 ∨ hashes.length ≠ 7 then .error incomplete
  else if (shares.zip hashes).all fun s => s.1.any fun b => b.length == 48 && c.sha256 b == s.2 then
    .ok ((shares.map fun s => s.getD []).foldl xorBytes (List.replicate 48 0))
  else .error incomplete

def NativeFragments.collect (keys : Keys) (client : Option Text) (relay : Option Sealed)
    (hashes : List Text) (n : NativeFragments) : NativeFragments × Except String Bytes :=
  let shares := n.reads c keys client relay
  let failed := ({ n with session := none }, .error incomplete)
  if hashes.length ≠ 7 then failed
  else
    match hashes.mapM unhex with
    | none => failed
    | some expected =>
      match collectShares c shares expected with
      | .ok result => ({ n with session := shares.getD 5 none }, .ok result)
      | .error _ => failed

end Stores

section Secrecy

/-- The coin of a place enters no other place but through the last share. -/
theorem placed_erase (external : Option Block) (i : Fin 6) (hi : external.isSome → i ≠ 5)
    (r r' : Random) (last : Block) (h : ∀ j, j ≠ i → r j = r' j) :
    (placed external r last).eraseIdx i = (placed external r' last).eraseIdx i := by
  cases external with
  | none => fin_cases i <;> simp [placed, h]
  | some e =>
    fin_cases i
    · simp [placed, h]
    · simp [placed, h]
    · simp [placed, h]
    · simp [placed, h]
    · simp [placed, h]
    · exact absurd rfl (hi rfl)

/-- Six of the seven shares are distributed alike for all wrapped keys. -/
theorem dealt_hidden (external : Option Block) (secret secret' : Block) (i : Nat)
    (hi : i < if external.isSome then 6 else 7) :
    (PMF.uniformOfFintype Random).map (fun r => (dealt secret external r).eraseIdx i) =
      (PMF.uniformOfFintype Random).map (fun r => (dealt secret' external r).eraseIdx i) := by
  by_cases hcoin : i < 6 ∧ (external.isSome → i ≠ 5)
  · obtain ⟨h6, h5⟩ := hcoin
    exact map_uniform_hidden (fun r last => (placed external r last).eraseIdx i) ⟨i, h6⟩
      (placed_erase external ⟨i, h6⟩ fun he h => h5 he (congrArg Fin.val h)) secret secret'
  · -- the share left out is the only one the secret went into
    cases external with
    | none =>
      have notCoin : ¬ i < 6 := fun h => hcoin ⟨h, fun he => by cases he⟩
      have : i = 6 := by
        simp only [Option.isSome_none, Bool.false_eq_true, if_false] at hi
        omega
      subst this
      rfl
    | some e =>
      have : i = 5 := by
        by_contra h5
        exact hcoin ⟨hi, fun _ => h5⟩
      subst this
      rfl

end Secrecy

section Contract

/-- An implementation of the seven fragments. -/
structure Fragments where
  Store : Type
  deal : Random → Bytes → Option Bytes → Except String (List Bytes)
  scatter : Keys → Random → Bytes → Option Bytes → Store → Except String (Store × Scattered)
  reads : Keys → Option Text → Option Sealed → Store → List (Option Bytes)
  collect : Keys → Option Text → Option Sealed → List Text → Store → Store × Except String Bytes

variable (c : Crypto)

def desktop : Fragments where
  Store := HorcruxStore
  deal random wrapped external := (splitSeven random wrapped).bind (takeExternal external)
  scatter := HorcruxStore.scatter c
  reads := HorcruxStore.reads c
  collect := HorcruxStore.collect c

def android : Fragments where
  Store := NativeFragments
  deal random wrapped external := (split random wrapped).bind (takeExternal external)
  scatter := NativeFragments.scatter c
  reads := NativeFragments.reads c
  collect := NativeFragments.collect c

/-- What was scattered is read again and collected to the wrapped key. -/
def Fragments.Correct (F : Fragments) : Prop :=
  ∀ keys random wrapped external store, wrapped.length = 48 → (∀ e ∈ external, e.length = 48) →
    ∃ shares store' out, F.deal random wrapped external = .ok shares ∧
      F.scatter keys random wrapped external store = .ok (store', out) ∧
      F.reads keys (some out.clientShard) (some out.fragment7Shard) store' = shares.map some ∧
      (F.collect keys (some out.clientShard) (some out.fragment7Shard) out.hashes store').2 =
        .ok wrapped

/-- A share of 48 bytes with the digest that is recorded for it. -/
def Recorded (hash : Option Text) (s : Option Bytes) : Prop :=
  ∃ b t, s = some b ∧ b.length = 48 ∧ hash = some t ∧ unhex t = some (c.sha256 b)

/-- One share that is missing, too long, too short or changed stops the collection. -/
def Fragments.Refuses (F : Fragments) : Prop :=
  ∀ keys client fragment7 (hashes : List Text) store (i : Nat) s,
    (F.reads keys client fragment7 store)[i]? = some s →
      ¬ Recorded c hashes[i]? s →
        (F.collect keys client fragment7 hashes store).2 = .error incomplete

/-- Other shares than the scattered ones are not collected. -/
def Fragments.RefusesOthers (F : Fragments) : Prop :=
  ∀ keys random wrapped external store shares store' out,
    F.deal random wrapped external = .ok shares →
    F.scatter keys random wrapped external store = .ok (store', out) →
    ∀ keys' client fragment7 other, F.reads keys' client fragment7 other ≠ shares.map some →
      (F.collect keys' client fragment7 out.hashes other).2 = .error incomplete

/-- The shares but one do not depend on the wrapped key. -/
def Fragments.Secret (F : Fragments) : Prop :=
  ∀ external wrapped wrapped' i, (∀ e ∈ external, e.length = 48) → wrapped.length = 48 →
    wrapped'.length = 48 → (i < if external.isSome then 6 else 7) →
    (PMF.uniformOfFintype Random).map
        (fun r => (F.deal r wrapped external).map fun s => s.eraseIdx i) =
      (PMF.uniformOfFintype Random).map
        (fun r => (F.deal r wrapped' external).map fun s => s.eraseIdx i)

theorem deal_bytes {external : Option Bytes} {wrapped : Bytes} (hw : wrapped.length = 48)
    (he : ∀ e ∈ external, e.length = 48) : ∃ secret fixed, wrapped = Block.bytes secret ∧
      external = fixed.map Block.bytes ∧ ∀ random,
        (splitSeven random wrapped).bind (takeExternal external) =
          .ok ((dealt secret fixed random).map Block.bytes) := by
  cases external with
  | none => exact ⟨⟨wrapped, hw⟩, none, rfl, rfl, deal_eq ⟨wrapped, hw⟩ none⟩
  | some e => exact ⟨⟨wrapped, hw⟩, some ⟨e, he e rfl⟩, rfl, rfl, deal_eq ⟨wrapped, hw⟩ (some ⟨e, he e rfl⟩)⟩

variable {c : Crypto}

theorem dealt_length (secret : Block) (fixed : Option Block) (random : Random) :
    (dealt secret fixed random).length = 7 := by
  cases fixed <;> rfl

theorem sum_bytes (blocks : List Block) :
    ((blocks.map Block.bytes).map some |>.map fun s => s.getD []).foldl xorBytes
      (List.replicate 48 0) = blocks.sum.bytes := by
  have hmap : ((blocks.map Block.bytes).map some |>.map fun s => s.getD []) =
      blocks.map Block.bytes := by
    simp
  rw [hmap, ← bytes_zero, foldl_xorBytes, zero_add]

theorem recorded_unique (hc : Set.InjOn c.sha256 {b | b.length = 48}) {b : Bytes}
    (hb : b.length = 48) {s : Option Bytes} (h : Recorded c (some (shardDigest c b)) s) :
    s = some b := by
  obtain ⟨b', t, rfl, hlen, ht, hun⟩ := h
  obtain rfl := Option.some.inj ht
  rw [shardDigest, unhex_hex] at hun
  rw [hc hb hlen (Option.some.inj hun)]

theorem deal_lengths {random : Random} {wrapped : Bytes} {external : Option Bytes}
    {shares : List Bytes}
    (h : (splitSeven random wrapped).bind (takeExternal external) = .ok shares) :
    wrapped.length = 48 ∧ ∀ e ∈ external, e.length = 48 := by
  have hw : wrapped.length = 48 := by
    by_contra hne
    simp [splitSeven, hne, Except.bind] at h
  refine ⟨hw, ?_⟩
  rintro e rfl
  by_contra hne
  simp [splitSeven, hw, Except.bind, takeExternal, hne] at h

theorem deal_blocks {random : Random} {wrapped : Bytes} {external : Option Bytes}
    {shares : List Bytes}
    (h : (splitSeven random wrapped).bind (takeExternal external) = .ok shares) :
    ∃ blocks : List Block, blocks.length = 7 ∧ shares = blocks.map Block.bytes := by
  obtain ⟨hw, he⟩ := deal_lengths h
  obtain ⟨secret, fixed, rfl, rfl, hdeal⟩ := deal_bytes hw he
  exact ⟨dealt secret fixed random, dealt_length _ _ _, Except.ok.inj (h.symm.trans (hdeal random))⟩

/-- Whoever refuses what is not recorded refuses all but the recorded shares. -/
theorem refuses_changed {F : Fragments} (hF : F.Refuses c)
    (hc : Set.InjOn c.sha256 {b | b.length = 48}) {blocks : List Block} {keys : Keys}
    {client : Option Text} {fragment7 : Option Sealed} {store : F.Store}
    (hlen : (F.reads keys client fragment7 store).length = blocks.length)
    (hne : F.reads keys client fragment7 store ≠ (blocks.map Block.bytes).map some) :
    (F.collect keys client fragment7 ((blocks.map Block.bytes).map (shardDigest c)) store).2 =
      .error incomplete := by
  by_contra hrun
  refine hne (List.ext_getElem (by simpa using hlen) fun i hi hi' => ?_)
  have hb : i < blocks.length := hlen ▸ hi
  have recorded : Recorded c ((blocks.map Block.bytes).map (shardDigest c))[i]?
      (F.reads keys client fragment7 store)[i] := by
    by_contra hnot
    exact hrun (hF keys client fragment7 _ store i _ (List.getElem?_eq_getElem hi) hnot)
  rw [List.getElem?_eq_getElem (by simpa using hb), List.getElem_map, List.getElem_map] at recorded
  rw [recorded_unique hc (Block.length_eq _) recorded, List.getElem_map, List.getElem_map]

/-- The distribution of the dealt shares is that of their blocks. -/
theorem secret_of_deal {F : Fragments}
    (hF : ∀ random wrapped external, F.deal random wrapped external =
      (splitSeven random wrapped).bind (takeExternal external)) : F.Secret := by
  intro external wrapped wrapped' i he hw hw' hi
  obtain ⟨secret, fixed, rfl, rfl, hdeal⟩ := deal_bytes hw he
  have hdeal' := deal_eq ⟨wrapped', hw'⟩ fixed
  have hfixed : i < if fixed.isSome then 6 else 7 := by simpa using hi
  have hidden := congrArg (PMF.map fun blocks : List Block =>
    (Except.ok (blocks.map Block.bytes) : Except String (List Bytes)))
    (dealt_hidden fixed secret ⟨wrapped', hw'⟩ i hfixed)
  rw [PMF.map_comp, PMF.map_comp] at hidden
  have view : ∀ (key : Block) (deal : Random → Except String (List Bytes)),
      (∀ r, deal r = .ok ((dealt key fixed r).map Block.bytes)) →
      (fun r => (deal r).map fun s => s.eraseIdx i) =
        (fun blocks : List Block => Except.ok (blocks.map Block.bytes)) ∘
          fun r => (dealt key fixed r).eraseIdx i := by
    intro key deal h
    funext r
    simp [h, Except.map, List.eraseIdx_map]
  rw [view secret _ fun r => (hF r _ _).trans (hdeal r),
    view ⟨wrapped', hw'⟩ _ fun r => (hF r _ _).trans (hdeal' r)]
  exact hidden

section Desktop

theorem recorded_of_accepted {hash : Option Text} {s : Option Bytes}
    (h : accepted c hash s = true) : Recorded c hash s := by
  cases s with
  | none => cases h
  | some b =>
    simp only [accepted, Bool.and_eq_true, beq_iff_eq] at h
    exact ⟨b, shardDigest c b, rfl, h.1, h.2.symm, unhex_hex _⟩

theorem desktop_refuses : (desktop c).Refuses c := by
  intro keys client fragment7 hashes store i s hs hnot
  have stopped : ¬ ((store.reads c keys client fragment7).zipIdx.all fun s =>
      accepted c hashes[s.2]? s.1) = true := by
    intro hall
    rw [List.all_eq_true] at hall
    have hmem : (s, i) ∈ (store.reads c keys client fragment7).zipIdx :=
      List.mk_mem_zipIdx_iff_getElem?.mpr hs
    exact hnot (recorded_of_accepted (hall _ hmem))
  simp only [desktop, HorcruxStore.collect, if_neg stopped]

theorem desktop_collect {blocks : List Block} (h7 : blocks.length = 7) {keys : Keys}
    {client : Option Text} {fragment7 : Option Sealed} {store : HorcruxStore}
    (hr : store.reads c keys client fragment7 = (blocks.map Block.bytes).map some) :
    (store.collect c keys client fragment7 ((blocks.map Block.bytes).map (shardDigest c))).2 =
      .ok blocks.sum.bytes := by
  have accept : ((blocks.map Block.bytes).map some).zipIdx.all (fun s =>
      accepted c ((blocks.map Block.bytes).map (shardDigest c))[s.2]? s.1) = true := by
    rw [List.all_eq_true]
    rintro ⟨s, i⟩ hs
    rw [List.mk_mem_zipIdx_iff_getElem?] at hs
    simp only [List.getElem?_map, Option.map_eq_some_iff] at hs
    obtain ⟨_, ⟨b, hb, rfl⟩, rfl⟩ := hs
    simp [accepted, hb, b.length_eq]
  have whole : ¬ (((blocks.map Block.bytes).map some).length ≠ 7 ∨
      (((blocks.map Block.bytes).map some).any fun s => s.all fun b => b.length != 48) = true) := by
    simp [h7, Block.length_eq]
  simp only [HorcruxStore.collect, hr, if_pos accept, reconstructSeven, if_neg whole, sum_bytes]

theorem base64_block (b : Block) : (base64 b.bytes).length = 64 := by
  rw [base64_length, b.length_eq]

theorem desktop_scatter {k : Keys} {random : Random} {wrapped : Bytes} {external : Option Bytes}
    {d : HorcruxStore} {blocks : List Block} (h7 : blocks.length = 7)
    (hdeal : (desktop c).deal random wrapped external = .ok (blocks.map Block.bytes)) :
    ∃ d' out, d.scatter c k random wrapped external = .ok (d', out) ∧
      out.hashes = (blocks.map Block.bytes).map (shardDigest c) ∧
      out.fragment7Shard =
        sealAs ((blocks.map Block.bytes).getD 6 []) k.backup "cp-shard7-v1" ∧
      d'.reads c k (some out.clientShard) (some out.fragment7Shard) =
        (blocks.map Block.bytes).map some := by
  match blocks, h7 with
  | [s0, s1, s2, s3, s4, s5, s6], _ =>
    have hclient : base64 s4.bytes ≠ [] := by
      intro h
      have := base64_block s4
      simp [h] at this
    simp only [desktop] at hdeal
    simp only [HorcruxStore.scatter, hdeal]
    simp only [bind, Except.bind]
    refine ⟨_, _, rfl, rfl, rfl, ?_⟩
    simp only [HorcruxStore.reads, HorcruxStore.readMetadata, List.map_cons, List.map_nil,
      List.getD_cons_zero, List.getD_cons_succ, Option.bind_some, Option.getD_some, unsealAs_sealAs,
      or_true, if_true, if_neg hclient, bufferFromBase64_base64]

theorem desktop_correct : (desktop c).Correct := by
  intro keys random wrapped external store hw he
  obtain ⟨secret, fixed, rfl, rfl, hdeal⟩ := deal_bytes hw he
  have h7 := dealt_length secret fixed random
  obtain ⟨store', out, hscatter, hhashes, -, hreads⟩ :=
    desktop_scatter (c := c) (k := keys) (d := store) h7 (hdeal random)
  refine ⟨_, store', out, hdeal random, hscatter, hreads, ?_⟩
  have hcollect := desktop_collect h7 hreads
  rw [sum_dealt] at hcollect
  rw [hhashes]
  exact hcollect

end Desktop

section Android

theorem mapM_get {α β : Type} {f : α → Option β} {l : List α} {l' : List β}
    (h : l.mapM f = some l') : l.map f = l'.map some := by
  induction l generalizing l' with
  | nil =>
    obtain rfl : l' = [] := by simpa using h.symm
    rfl
  | cons a l ih =>
    simp only [List.mapM_cons, Option.bind_eq_bind, Option.bind_eq_some_iff, Option.pure_def,
      Option.some.injEq] at h
    obtain ⟨b, hb, rest, hrest, rfl⟩ := h
    simp [hb, ih hrest]

theorem recorded_of_collectShares {shares : List (Option Bytes)} {expected : List Bytes}
    {result : Bytes} (h : collectShares c shares expected = .ok result) {i : Nat} {s : Option Bytes}
    (hs : shares[i]? = some s) :
    ∃ b, s = some b ∧ b.length = 48 ∧ expected[i]? = some (c.sha256 b) := by
  unfold collectShares at h
  split_ifs at h with hlen hall
  rw [not_or, not_not, not_not] at hlen
  have hi : i < 7 := hlen.1 ▸ (List.getElem?_eq_some_iff.mp hs).1
  have hi' : i < expected.length := hlen.2 ▸ hi
  have he : expected[i]? = some expected[i] := List.getElem?_eq_getElem hi'
  have hmem : (s, expected[i]) ∈ shares.zip expected :=
    List.mem_of_getElem? (List.getElem?_zip_eq_some.mpr ⟨hs, he⟩)
  obtain ⟨b, rfl, hb⟩ := (Option.any_eq_true _ _).mp (List.all_eq_true.mp hall _ hmem)
  simp only [Bool.and_eq_true, beq_iff_eq] at hb
  exact ⟨b, rfl, hb.1, by rw [he, hb.2]⟩

theorem android_refuses : (android c).Refuses c := by
  intro keys client relay hashes n i s hs hnot
  simp only [android] at hs ⊢
  unfold NativeFragments.collect
  dsimp only
  split_ifs with h7
  · rfl
  · split
    · rfl
    · next expected hexpected =>
      split
      · next result hresult =>
        obtain ⟨b, rfl, hb, hdigest⟩ := recorded_of_collectShares hresult hs
        have hget := congrArg (fun l => l[i]?) (mapM_get hexpected)
        simp only [List.getElem?_map, hdigest, Option.map_some, Option.map_eq_some_iff] at hget
        obtain ⟨t, ht, hun⟩ := hget
        exact absurd ⟨b, t, rfl, hb, ht, hun⟩ hnot
      · rfl

theorem mapM_unhex (l : List Bytes) : (l.map fun b => hex b).mapM unhex = some l := by
  induction l with
  | nil => rfl
  | cons b l ih => simp [unhex_hex, ih]

theorem android_collect {blocks : List Block} (h7 : blocks.length = 7) {keys : Keys}
    {client : Option Text} {relay : Option Sealed} {n : NativeFragments}
    (hr : n.reads c keys client relay = (blocks.map Block.bytes).map some) :
    (n.collect c keys client relay ((blocks.map Block.bytes).map (shardDigest c))).2 =
      .ok blocks.sum.bytes := by
  have hunhex : ((blocks.map Block.bytes).map (shardDigest c)).mapM unhex =
      some ((blocks.map Block.bytes).map c.sha256) := by
    rw [← mapM_unhex, List.map_map (g := fun b => hex b)]
    rfl
  have h7' : ¬ ((blocks.map Block.bytes).map (shardDigest c)).length ≠ 7 := by simp [h7]
  have whole : ¬ (((blocks.map Block.bytes).map some).length ≠ 7 ∨
      ((blocks.map Block.bytes).map c.sha256).length ≠ 7) := by
    simp [h7]
  have accept : ((((blocks.map Block.bytes).map some).zip
      ((blocks.map Block.bytes).map c.sha256)).all fun s =>
        s.1.any fun b => b.length == 48 && c.sha256 b == s.2) = true := by
    rw [List.zip_map', List.all_map, List.all_map, List.all_eq_true]
    intro b _
    simp [b.length_eq]
  have hok : collectShares c ((blocks.map Block.bytes).map some)
      ((blocks.map Block.bytes).map c.sha256) = .ok blocks.sum.bytes := by
    rw [collectShares, if_neg whole, if_pos accept, sum_bytes]
  simp only [NativeFragments.collect, if_neg h7', hunhex, hr, hok]

theorem android_scatter {k : Keys} {random : Random} {wrapped : Bytes} {external : Option Bytes}
    {n : NativeFragments} {blocks : List Block} (h7 : blocks.length = 7)
    (hdeal : (android c).deal random wrapped external = .ok (blocks.map Block.bytes)) :
    ∃ n' out, n.scatter c k random wrapped external = .ok (n', out) ∧
      out.hashes = (blocks.map Block.bytes).map (shardDigest c) ∧
      out.fragment7Shard =
        sealAs ((blocks.map Block.bytes).getD 6 []) k.backup "cp-shard7-v1" ∧
      n'.reads c k (some out.clientShard) (some out.fragment7Shard) =
        (blocks.map Block.bytes).map some := by
  match blocks, h7 with
  | [s0, s1, s2, s3, s4, s5, s6], _ =>
    unfold android at hdeal
    dsimp only at hdeal
    simp only [NativeFragments.scatter, hdeal]
    simp only [bind, Except.bind]
    refine ⟨_, _, rfl, rfl, rfl, ?_⟩
    have hclient : ¬ (base64 s4.bytes).length ≠ 64 := by simp [base64_block]
    have hf4 : ¬ 48 < s3.bytes.length := by simp [s3.length_eq]
    simp only [NativeFragments.reads, NativeFragments.readMetadata,
      List.map_cons, List.map_nil, List.getD_cons_zero, List.getD_cons_succ, Option.bind_some,
      Option.getD_some, unsealAs_sealAs, or_true, if_true, if_neg hclient, if_neg hf4,
      decodeBase64_base64]

theorem android_correct : (android c).Correct := by
  intro keys random wrapped external n hw he
  obtain ⟨secret, fixed, rfl, rfl, hdeal⟩ := deal_bytes hw he
  have h7 := dealt_length secret fixed random
  have hdeal' : (android c).deal random secret.bytes (fixed.map Block.bytes) =
      .ok ((dealt secret fixed random).map Block.bytes) := by
    simpa only [android, split_eq] using hdeal random
  obtain ⟨n', out, hscatter, hhashes, -, hreads⟩ :=
    android_scatter (c := c) (k := keys) (n := n) h7 hdeal'
  refine ⟨_, n', out, hdeal', hscatter, hreads, ?_⟩
  have hcollect := android_collect h7 hreads
  rw [sum_dealt] at hcollect
  rw [hhashes]
  exact hcollect

end Android

theorem desktop_refusesOthers (hc : Set.InjOn c.sha256 {b | b.length = 48}) :
    (desktop c).RefusesOthers := by
  intro keys random wrapped external store shares store' out hdeal hscatter keys' client fragment7
    other hne
  obtain ⟨blocks, h7, rfl⟩ := deal_blocks hdeal
  obtain ⟨s, o, hs, hhashes, -⟩ :=
    desktop_scatter (c := c) (k := keys) (d := store) h7 hdeal
  obtain ⟨rfl, rfl⟩ := Prod.mk.inj (Except.ok.inj (hs.symm.trans hscatter))
  rw [hhashes]
  exact refuses_changed desktop_refuses hc (h7 ▸ rfl) hne

theorem android_refusesOthers (hc : Set.InjOn c.sha256 {b | b.length = 48}) :
    (android c).RefusesOthers := by
  intro keys random wrapped external n shares n' out hdeal hscatter keys' client relay other hne
  have hdeal' := hdeal
  simp only [android, split_eq] at hdeal'
  obtain ⟨blocks, h7, rfl⟩ := deal_blocks hdeal'
  obtain ⟨s, o, hs, hhashes, -⟩ := android_scatter (c := c) (k := keys) (n := n) h7 hdeal
  obtain ⟨rfl, rfl⟩ := Prod.mk.inj (Except.ok.inj (hs.symm.trans hscatter))
  rw [hhashes]
  exact refuses_changed android_refuses hc (h7 ▸ rfl) hne

/-- Both programs share the wrapped key correctly and secretly. -/
theorem seven_of_seven (c : Crypto) (hc : Set.InjOn c.sha256 {b | b.length = 48}) :
    ∀ F ∈ [desktop c, android c],
      F.Correct ∧ F.Refuses c ∧ F.RefusesOthers ∧ F.Secret := by
  intro F hF
  simp only [List.mem_cons, List.not_mem_nil, or_false] at hF
  rcases hF with rfl | rfl
  · exact ⟨desktop_correct, desktop_refuses, desktop_refusesOthers hc,
      secret_of_deal fun _ _ _ => rfl⟩
  · exact ⟨android_correct, android_refuses, android_refusesOthers hc,
      secret_of_deal fun _ _ _ => by simp only [android, split_eq]⟩

/-- With the identity, which has no collisions, in place of the digests. -/
def unhashed : Crypto := ⟨id, id⟩

theorem seven_of_seven_unhashed :
    ((desktop unhashed).Correct ∧ (desktop unhashed).Refuses unhashed ∧
      (desktop unhashed).RefusesOthers ∧ (desktop unhashed).Secret) ∧
    ((android unhashed).Correct ∧ (android unhashed).Refuses unhashed ∧
      (android unhashed).RefusesOthers ∧ (android unhashed).Secret) :=
  ⟨seven_of_seven unhashed (Set.injOn_id _) _ (by simp),
    seven_of_seven unhashed (Set.injOn_id _) _ (by simp)⟩

end Contract

end SevenOfSeven
