import Mathlib.Logic.Basic

/-! # Seven shares of a wrapped key

The wrapped key of a vault is 48 bytes long. Six random shares and their sum with it are
kept in seven places, some of them sealed under the keys of a vault id and a password;
the vault opens if all seven are there and are the ones its configuration names. -/
namespace SevenShares

abbrev Share := BitVec 384

/-- `deriveVaultKeys`: other ids and passwords give other keys. -/
structure Keys where
  vaultId : String
  password : String
  deriving DecidableEq, Repr

/-- What a share was sealed as: `cp-shard3-v1`, `cp-shard6-v1` or `cp-shard7-v1`. -/
inductive Place where
  | third
  | sixth
  | seventh
  deriving DecidableEq, Repr

structure Sealed where
  key : Keys
  place : Place
  share : Share
  deriving DecidableEq, Repr

def unsealAs (k : Keys) (place : Place) (s : Sealed) : Option Share :=
  if s.key = k ∧ s.place = place then some s.share else none

/-- The shares by the places that keep them. -/
structure Split where
  hardware : Share
  sqlite : Share
  preferences : Share
  binary : Share
  webView : Share
  session : Share
  relay : Share
  deriving DecidableEq, Repr

def Split.list (s : Split) : List Share :=
  [s.hardware, s.sqlite, s.preferences, s.binary, s.webView, s.session, s.relay]

structure Coins where
  hardware : Share
  sqlite : Share
  preferences : Share
  binary : Share
  webView : Share
  session : Share
  deriving DecidableEq, Repr

def splitSeven (secret : Share) (r : Coins) : Split :=
  ⟨r.hardware, r.sqlite, r.preferences, r.binary, r.webView, r.session,
    secret ^^^ r.hardware ^^^ r.sqlite ^^^ r.preferences ^^^ r.binary ^^^ r.webView ^^^ r.session⟩

def reconstructSeven (shares : List Share) : Share := shares.foldl (fun a b => a ^^^ b) 0

/-- The shares a device keeps: `f1.bin`, the row of `metadata.db`, `f3.json`, `f4.dat` and
`f6.masked`. -/
structure Files where
  f1 : Option Share
  metadata : Option (Keys × Share)
  f3 : Option Sealed
  f4 : Option Share
  f6 : Option Sealed
  deriving DecidableEq, Repr

def Files.empty : Files := ⟨none, none, none, none, none⟩

/-- The files after the first `n` writes of `scatter`. -/
def scatterPart (n : Nat) (k : Keys) (s : Split) : Files where
  f1 := if 0 < n then some s.hardware else none
  metadata := if 1 < n then some (k, s.sqlite) else none
  f3 := if 2 < n then some ⟨k, .third, s.preferences⟩ else none
  f4 := if 3 < n then some s.binary else none
  f6 := if 4 < n then some ⟨k, .sixth, s.session⟩ else none

def scatter (k : Keys) (s : Split) : Files := scatterPart 5 k s

/-- The share handed to the relay or put into the file of the user. -/
def sealedSeventh (k : Keys) (s : Split) : Sealed := ⟨k, .seventh, s.relay⟩

def readMetadata (k : Keys) (row : Option (Keys × Share)) : Option Share :=
  row.bind fun r => if r.1 = k then some r.2 else none

/-- `HorcruxStore.collect`: seven shares with the digests of the configuration. -/
def collect (digest : Share → String) (k : Keys) (client : Option Share) (seventh : Option Sealed)
    (hashes : List String) (f : Files) : Option Share := do
  let hardware ← f.f1
  let sqlite ← readMetadata k f.metadata
  let preferences ← f.f3.bind (unsealAs k .third)
  let binary ← f.f4
  let webView ← client
  let session ← f.f6.bind (unsealAs k .sixth)
  let relay ← seventh.bind (unsealAs k .seventh)
  let shares := [hardware, sqlite, preferences, binary, webView, session, relay]
  if shares.map digest = hashes then some (reconstructSeven shares) else none

variable {digest : Share → String} {k : Keys}

theorem unsealAs_key {place : Place} {s : Sealed} {share : Share}
    (h : unsealAs k place s = some share) : s.key = k := by
  unfold unsealAs at h
  split at h
  · next hk => exact hk.1
  · cases h

@[simp] theorem unsealAs_sealedSeventh (s : Split) :
    unsealAs k .seventh (sealedSeventh k s) = some s.relay := by
  simp [unsealAs, sealedSeventh]

/-- Each random share is added once by itself and once within the seventh. -/
theorem reconstruct_split (secret : Share) (r : Coins) :
    reconstructSeven (splitSeven secret r).list = secret := by
  unfold reconstructSeven splitSeven Split.list
  ext i hi
  simp only [List.foldl_cons, List.foldl_nil, BitVec.getElem_xor]
  grind

/-- What was scattered is collected again. -/
theorem collect_scatter (s : Split) :
    collect digest k (some s.webView) (some (sealedSeventh k s)) (s.list.map digest) (scatter k s) =
      some (reconstructSeven s.list) := by
  simp [collect, scatter, scatterPart, readMetadata, unsealAs, sealedSeventh, Split.list]

/-- Only the keys the third share is sealed under collect anything. -/
theorem collect_key {client : Option Share} {seventh : Option Sealed} {hashes : List String}
    {f : Files} {w : Share} (h : collect digest k client seventh hashes f = some w) :
    ∃ s, f.f3 = some s ∧ s.key = k := by
  simp only [collect, bind, Option.bind_eq_some_iff] at h
  obtain ⟨_, _, _, _, _, ⟨s, hs, hu⟩, _⟩ := h
  exact ⟨s, hs, unsealAs_key hu⟩

end SevenShares
