import Mathlib.Data.Finmap
import Mathlib.Logic.Function.Basic

/-! # The browser's shards

`readVaultShards` and `rememberVaultShard` over the three keys of the browser's storage. The text
under the map's key is what `JSON.parse` makes of it; an empty text counts as no text. A call of
`rememberVaultShard` is the writes it makes, so that it can be cut between any two of them. -/
namespace VaultFragments

inductive Json where
  | object (members : List (String × Json))
  | array (values : List Json)
  | string (value : String)
  | number (value : Int)
  | bool (value : Bool)
  | null

/-- `cp-browser-shards-v2`, `cp-browser-shard-v1` and `cp-active-vault-v2`. A text that does not
parse is `some none`. -/
structure Storage where
  shards : Option (Option Json)
  current : Option String
  active : Option String

abbrev Shards := AList fun _ : String => String

def isHexDigit (c : Char) : Bool := ('a' ≤ c && c ≤ 'f') || ('0' ≤ c && c ≤ '9')

def isBase64Digit (c : Char) : Bool :=
  ('A' ≤ c && c ≤ 'Z') || ('a' ≤ c && c ≤ 'z') || ('0' ≤ c && c ≤ '9') || c == '+' || c == '/'

def handlePattern (handle : String) : Bool :=
  handle == "legacy" || (handle.length == 32 && handle.toList.all isHexDigit)

def shardPattern (shard : String) : Bool :=
  shard.length == 64 && shard.toList.all isBase64Digit

def invalid : String := "BROWSER_VAULT_SHARDS_INVALID"

/-- An empty string is falsy. -/
def truthy (text : Option String) : Option String := text.filter fun t => t ≠ ""

def activeHandle (s : Storage) : String := (truthy s.active).getD "legacy"

def readEntries : List (String × Json) → Shards → Except String Shards
  | [], shards => .ok shards
  | (handle, .string value) :: rest, shards =>
    if handlePattern handle && shardPattern value then
      readEntries rest (shards.insert handle value)
    else .error invalid
  | _ :: _, _ => .error invalid

def parsedShards : Option (Option Json) → Except String Shards
  | none => .ok ∅
  | some (some (.object members)) => readEntries members ∅
  | some _ => .error invalid

/-- The old fragment, before another vault can replace the active key. -/
def migrate (s : Storage) (shards : Shards) : Shards :=
  match truthy s.current with
  | none => shards
  | some current =>
    if shardPattern current ∧ handlePattern (activeHandle s) ∧
        shards.lookup (activeHandle s) = none then
      shards.insert (activeHandle s) current
    else shards

def readVaultShards (s : Storage) : Except String Shards := do
  let shards ← parsedShards s.shards
  return migrate s shards

structure Result where
  clientShard : Option String
  vaultHandle : Option String
  deriving DecidableEq, Repr

inductive Write where
  | shards (value : Json)
  | current (shard : String)
  | active (handle : String)

def Storage.setItem (s : Storage) : Write → Storage
  | .shards value => { s with shards := some (some value) }
  | .current shard => { s with current := some shard }
  | .active handle => { s with active := some handle }

/-- `JSON.stringify` of the map, as it is parsed again. -/
def written (shards : Shards) : Json :=
  .object (shards.entries.map fun e => (e.1, .string e.2))

def handleOf (s : Storage) (r : Result) : String := (truthy r.vaultHandle).getD (activeHandle s)

def rememberVaultShard (s : Storage) (r : Result) : Except String (List Write) := do
  let shards ← readVaultShards s
  let handle := handleOf s r
  if ¬ handlePattern handle then throw invalid
  let shards ← match truthy r.clientShard with
    | none => .ok shards
    | some shard =>
      if shardPattern shard then .ok (shards.insert handle shard) else .error invalid
  match shards.lookup handle with
  | some shard => return [.shards (written shards), .current shard, .active handle]
  | none => return [.shards (written shards), .active handle]

/-- The storage after a call of which `done` writes went through. -/
def remember (s : Storage) (r : Result) (done : Nat) : Storage :=
  match rememberVaultShard s r with
  | .error _ => s
  | .ok writes => (writes.take done).foldl Storage.setItem s

abbrev Held := String → Option String

/-- What `readVaultShards` returns, as a map; `none` is a throw. -/
def held (s : Storage) : Option Held :=
  match readVaultShards s with
  | .ok shards => some shards.lookup
  | .error _ => none

/-- The map once the call's share, if it brings one, is remembered. -/
def updated (m : Held) (handle : String) (r : Result) : Held :=
  match truthy r.clientShard with
  | none => m
  | some shard => Function.update m handle (some shard)

/-- A call with a valid handle that brings a share or names a handle that has one. -/
def Admissible (s : Storage) (m : Held) (r : Result) : Prop :=
  handlePattern (handleOf s r) = true ∧
    match truthy r.clientShard with
    | none => (m (handleOf s r)).isSome
    | some shard => shardPattern shard = true

/-- What a call leaves: the new map, or, when it was cut short, the old or the new one. -/
def Kept (s : Storage) (m : Held) (r : Result) (done : Nat) : Prop :=
  held (remember s r done) = some (updated m (handleOf s r) r) ∨
    (done < 3 ∧ held (remember s r done) = some m)

/-- Not cut between the second and the third write while the handle that was active has no share
of its own. -/
def Safe (s : Storage) (m : Held) (r : Result) (done : Nat) : Prop :=
  ¬ (done = 2 ∧ handlePattern (activeHandle s) = true ∧
    updated m (handleOf s r) r (activeHandle s) = none)

section Reading

variable {s : Storage} {m : Held} {r : Result} {shards : Shards} {handle shard : String}

def Valid (shards : Shards) : Prop :=
  ∀ handle shard, shards.lookup handle = some shard →
    handlePattern handle = true ∧ shardPattern shard = true

theorem valid_insert (h : Valid shards) (hh : handlePattern handle = true)
    (hs : shardPattern shard = true) : Valid (shards.insert handle shard) := by
  intro k v hk
  by_cases he : k = handle
  · subst he
    rw [AList.lookup_insert, Option.some.injEq] at hk
    exact ⟨hh, hk ▸ hs⟩
  · rw [AList.lookup_insert_ne he] at hk
    exact h k v hk

theorem valid_readEntries {members : List (String × Json)} {out : Shards} (h : Valid shards)
    (hr : readEntries members shards = .ok out) : Valid out := by
  induction members generalizing shards with
  | nil =>
    cases hr
    exact h
  | cons e members ih =>
    obtain ⟨handle, value⟩ := e
    cases value with
    | string value =>
      rw [readEntries] at hr
      split at hr
      · next hp =>
        rw [Bool.and_eq_true] at hp
        exact ih (valid_insert h hp.1 hp.2) hr
      · cases hr
    | _ => cases hr

theorem valid_parsed {content : Option (Option Json)} (h : parsedShards content = .ok shards) :
    Valid shards := by
  have hempty : Valid ∅ := fun k v hk => by cases hk
  match content with
  | none =>
    cases h
    exact hempty
  | some (some (.object members)) => exact valid_readEntries hempty h
  | some none => cases h
  | some (some (.array _)) | some (some (.string _)) | some (some (.number _))
  | some (some (.bool _)) | some (some .null) => cases h

/-- The written text is read back as the same map. -/
theorem readEntries_written (entries : List (Sigma fun _ : String => String))
    (hnodup : entries.NodupKeys)
    (hvalid : ∀ e ∈ entries, handlePattern e.1 = true ∧ shardPattern e.2 = true)
    (shards : Shards) :
    ∃ out, readEntries (entries.map fun e => (e.1, .string e.2)) shards = .ok out ∧
      ∀ handle, out.lookup handle = (entries.dlookup handle).or (shards.lookup handle) := by
  induction entries generalizing shards with
  | nil => exact ⟨shards, rfl, fun handle => by simp⟩
  | cons e entries ih =>
    obtain ⟨k, v⟩ := e
    obtain ⟨hk, hv⟩ := hvalid ⟨k, v⟩ List.mem_cons_self
    rw [List.nodupKeys_cons] at hnodup
    obtain ⟨out, hout, hlookup⟩ := ih hnodup.2 (fun e he => hvalid e (List.mem_cons_of_mem _ he))
      (shards.insert k v)
    refine ⟨out, by simpa [readEntries, hk, hv] using hout, fun handle => ?_⟩
    rw [hlookup]
    by_cases he : handle = k
    · subst he
      rw [List.dlookup_eq_none.mpr hnodup.1, AList.lookup_insert, List.dlookup_cons_eq]
      rfl
    · rw [AList.lookup_insert_ne he, List.dlookup_cons_ne _ _ he]

theorem parsed_written (h : Valid shards) : ∃ out, parsedShards (some (some (written shards))) =
    .ok out ∧ out.lookup = shards.lookup := by
  obtain ⟨out, hout, hlookup⟩ := readEntries_written shards.entries shards.nodupKeys
    (fun e he => h e.1 e.2 (AList.mem_lookup_iff.mpr he)) ∅
  refine ⟨out, hout, ?_⟩
  funext handle
  rw [hlookup]
  exact Option.or_none

/-- `migrate` on the map alone. -/
def migrated (s : Storage) (m : Held) : Held :=
  match truthy s.current with
  | none => m
  | some current =>
    if shardPattern current ∧ handlePattern (activeHandle s) ∧ m (activeHandle s) = none then
      Function.update m (activeHandle s) (some current)
    else m

theorem lookup_insert : (shards.insert handle shard).lookup =
    Function.update shards.lookup handle (some shard) := by
  funext k
  by_cases hk : k = handle
  · subst hk
    rw [AList.lookup_insert, Function.update_self]
  · rw [AList.lookup_insert_ne hk, Function.update_of_ne hk]

theorem migrate_lookup : (migrate s shards).lookup = migrated s shards.lookup := by
  unfold migrate migrated
  cases truthy s.current with
  | none => rfl
  | some current =>
    dsimp only
    split
    · exact lookup_insert
    · rfl

theorem valid_migrate (h : Valid shards) : Valid (migrate s shards) := by
  unfold migrate
  split
  · exact h
  · split
    · next hp => exact valid_insert h hp.2.1 hp.1
    · exact h

theorem migrated_some {current : String} (hc : truthy s.current = some current) :
    migrated s m =
      if shardPattern current ∧ handlePattern (activeHandle s) ∧ m (activeHandle s) = none then
        Function.update m (activeHandle s) (some current)
      else m := by
  rw [migrated, hc]

/-- What has been migrated once has nothing left to migrate. -/
theorem migrated_migrated : migrated s (migrated s m) = migrated s m := by
  cases hc : truthy s.current with
  | none => simp only [migrated, hc]
  | some current =>
    rw [migrated_some hc (m := migrated s m)]
    refine if_neg ?_
    rintro ⟨hshard, hhandle, hnone⟩
    rw [migrated_some hc] at hnone
    split at hnone
    · simp at hnone
    · next hp => exact hp ⟨hshard, hhandle, hnone⟩

theorem held_cases (h : held s = some m) : ∃ shards, readVaultShards s = .ok shards ∧
    Valid shards ∧ shards.lookup = m ∧ migrated s m = m := by
  unfold held at h
  cases hread : readVaultShards s with
  | error e =>
    rw [hread] at h
    cases h
  | ok shards =>
    rw [hread, Option.some.injEq] at h
    unfold readVaultShards at hread
    cases hparsed : parsedShards s.shards with
    | error e =>
      rw [hparsed] at hread
      cases hread
    | ok parsed =>
      rw [hparsed] at hread
      have hshards : migrate s parsed = shards := Except.ok.inj hread
      subst hshards
      refine ⟨_, rfl, valid_migrate (valid_parsed hparsed), h, ?_⟩
      rw [← h, migrate_lookup, migrated_migrated]

/-- What is read of a storage whose map has been written. -/
theorem held_written (h : Valid shards) (hs : s.shards = some (some (written shards))) :
    held s = some (migrated s shards.lookup) := by
  obtain ⟨out, hout, hlookup⟩ := parsed_written h
  have hread : readVaultShards s = .ok (migrate s out) := by
    rw [readVaultShards, hs, hout]
    rfl
  rw [held, hread, ← hlookup, ← migrate_lookup]

end Reading

section Remembering

variable {s : Storage} {m : Held} {r : Result} {done : Nat} {handle shard : String}

theorem truthy_shard (h : shardPattern shard = true) : truthy (some shard) = some shard := by
  have hne : shard ≠ "" := by
    rintro rfl
    exact absurd h (by decide)
  simp [truthy, hne]

theorem truthy_handle (h : handlePattern handle = true) : truthy (some handle) = some handle := by
  have hne : handle ≠ "" := by
    rintro rfl
    exact absurd h (by decide)
  simp [truthy, hne]

/-- A call writes the map, the handle's share and the handle. -/
theorem remember_writes (hheld : held s = some m) (ha : Admissible s m r) :
    ∃ shards shard, Valid shards ∧ shards.lookup = updated m (handleOf s r) r ∧
      shards.lookup (handleOf s r) = some shard ∧ shardPattern shard = true ∧
      rememberVaultShard s r =
        .ok [.shards (written shards), .current shard, .active (handleOf s r)] := by
  obtain ⟨shards, hread, hvalid, hlookup, -⟩ := held_cases hheld
  obtain ⟨hhandle, hbrings⟩ := ha
  cases hshare : truthy r.clientShard with
  | none =>
    rw [hshare] at hbrings
    obtain ⟨shard, hshard⟩ := Option.isSome_iff_exists.mp hbrings
    rw [← hlookup] at hshard
    refine ⟨shards, shard, hvalid, by rw [hlookup, updated, hshare], hshard,
      (hvalid _ _ hshard).2, ?_⟩
    simp only [rememberVaultShard, hread, hhandle, hshare, hshard, bind, Except.bind, pure,
      Except.pure, not_true_eq_false, if_false]
  | some shard =>
    rw [hshare] at hbrings
    have hput : (shards.insert (handleOf s r) shard).lookup (handleOf s r) = some shard :=
      AList.lookup_insert _
    refine ⟨shards.insert (handleOf s r) shard, shard, valid_insert hvalid hhandle hbrings,
      by rw [lookup_insert, hlookup, updated, hshare], hput, hbrings, ?_⟩
    have hbrings : shardPattern shard = true := hbrings
    simp only [rememberVaultShard, hread, hhandle, hshare, hbrings, hput, bind, Except.bind, pure,
      Except.pure, not_true_eq_false, if_false, if_true]

/-- A share that is remembered takes none away. -/
theorem updated_none (h : updated m handle r (activeHandle s) = none) :
    m (activeHandle s) = none := by
  cases hshare : truthy r.clientShard with
  | none =>
    rw [updated, hshare] at h
    exact h
  | some shard =>
    rw [updated, hshare] at h
    by_cases he : activeHandle s = handle
    · simp [he] at h
    · simpa [Function.update_of_ne he] using h

/-- With the old active share still there, the new map is read as it was written. -/
theorem migrated_updated (h : migrated s m = m) :
    migrated s (updated m handle r) = updated m handle r := by
  cases hc : truthy s.current with
  | none => simp only [migrated, hc]
  | some current =>
    rw [migrated_some hc] at h ⊢
    refine if_neg ?_
    rintro ⟨hshard, hhandle, hnone⟩
    have hm := updated_none hnone
    rw [if_pos ⟨hshard, hhandle, hm⟩] at h
    have hsome := congrFun h (activeHandle s)
    rw [Function.update_self, hm] at hsome
    cases hsome

/-- What is read after each number of writes. -/
theorem held_remember (done : ℕ) (hheld : held s = some m) (ha : Admissible s m r) :
    ∃ shard, held (remember s r done) = some (
      if done = 0 then m
      else if done = 2 ∧ handlePattern (activeHandle s) = true ∧
          updated m (handleOf s r) r (activeHandle s) = none then
        Function.update (updated m (handleOf s r) r) (activeHandle s) (some shard)
      else updated m (handleOf s r) r) := by
  obtain ⟨shards, shard, hvalid, hlookup, hshard, hpattern, hwrites⟩ := remember_writes hheld ha
  obtain ⟨-, -, -, -, hmigrated⟩ := held_cases hheld
  refine ⟨shard, ?_⟩
  rw [remember, hwrites]
  match done with
  | 0 => exact hheld
  | 1 =>
    -- the old active share, under the new map
    refine (held_written hvalid rfl).trans (congrArg some ?_)
    rw [hlookup]
    exact migrated_updated hmigrated
  | 2 =>
    -- the new active share, under the old active handle
    refine (held_written hvalid rfl).trans (congrArg some ?_)
    rw [hlookup]
    simp [migrated, Storage.setItem, truthy_shard hpattern, hpattern, activeHandle]
  | done + 3 =>
    have hall (a b c : Write) : [a, b, c].take (done + 3) = [a, b, c] :=
      List.take_of_length_le (by simp)
    simp only [hall]
    refine (held_written hvalid rfl).trans (congrArg some ?_)
    have hshard : updated m (handleOf s r) r (handleOf s r) = some shard :=
      (congrFun hlookup (handleOf s r)).symm.trans hshard
    rw [hlookup]
    simp [migrated, Storage.setItem, truthy_shard hpattern, hpattern, activeHandle,
      truthy_handle ha.1, hshard]

theorem kept_iff_safe (hheld : held s = some m) (ha : Admissible s m r) :
    Kept s m r done ↔ Safe s m r done := by
  obtain ⟨shard, hread⟩ := held_remember done hheld ha
  unfold Kept Safe
  rw [hread]
  by_cases hbad : done = 2 ∧ handlePattern (activeHandle s) = true ∧
      updated m (handleOf s r) r (activeHandle s) = none
  · -- the old active handle has got the new share
    obtain ⟨hdone, hhandle, hnone⟩ := hbad
    have hold := updated_none hnone
    refine iff_of_false ?_ (not_not_intro ⟨hdone, hhandle, hnone⟩)
    rw [if_neg (by omega), if_pos ⟨hdone, hhandle, hnone⟩]
    rintro (h | ⟨-, h⟩)
    · have hsame := congrFun (Option.some.inj h) (activeHandle s)
      rw [Function.update_self, hnone] at hsame
      cases hsame
    · have hsame := congrFun (Option.some.inj h) (activeHandle s)
      rw [Function.update_self, hold] at hsame
      cases hsame
  · refine iff_of_true ?_ hbad
    rw [if_neg hbad]
    by_cases hdone : done = 0
    · rw [if_pos hdone]
      exact .inr ⟨by omega, rfl⟩
    · rw [if_neg hdone]
      exact .inl rfl

end Remembering

section Runs

/-- A call and how many of its writes went through. -/
structure Event where
  result : Result
  done : Nat
  deriving DecidableEq, Repr

variable {s : Storage} {m : Held} {e : Event} {events : List Event}

def run (s : Storage) : List Event → Storage
  | [] => s
  | e :: events => run (remember s e.result e.done) events

/-- What is durably remembered after a call: its share is from the first write on. -/
def durable (s : Storage) (m : Held) (e : Event) : Held :=
  if e.done = 0 then m else updated m (handleOf s e.result) e.result

def durables (s : Storage) (m : Held) : List Event → Held
  | [] => m
  | e :: events => durables (remember s e.result e.done) (durable s m e) events

/-- Every call of a run is one that may be made, and is cut where that is safe. -/
def AllSafe (s : Storage) (m : Held) : List Event → Prop
  | [] => True
  | e :: events => Admissible s m e.result ∧ Safe s m e.result e.done ∧
      AllSafe (remember s e.result e.done) (durable s m e) events

theorem held_durable (hheld : held s = some m) (ha : Admissible s m e.result)
    (hs : Safe s m e.result e.done) :
    held (remember s e.result e.done) = some (durable s m e) := by
  obtain ⟨shard, hread⟩ := held_remember e.done hheld ha
  rw [hread, if_neg hs]
  rfl

theorem held_run (hheld : held s = some m) (h : AllSafe s m events) :
    held (run s events) = some (durables s m events) := by
  induction events generalizing s m with
  | nil => exact hheld
  | cons e events ih => exact ih (held_durable hheld h.1 h.2.1) h.2.2

/-- One call keeps every share exactly where it is not cut with the old handle unknown, and a run
of such calls reads exactly what was durably remembered. -/
theorem shards_kept_iff (s : Storage) (m : Held) (hheld : held s = some m) :
    (∀ r done, Admissible s m r → (Kept s m r done ↔ Safe s m r done)) ∧
    ∀ events, AllSafe s m events → held (run s events) = some (durables s m events) :=
  ⟨fun _ _ ha => kept_iff_safe hheld ha, fun _ h => held_run hheld h⟩

/-- A browser that has no vault yet, and the first vault it creates. -/
def fresh : Storage := ⟨none, none, none⟩

def share : String := String.ofList (List.replicate 64 'A')

def created : Result := ⟨some share, some (String.ofList (List.replicate 32 'a'))⟩

theorem fresh_admissible : Admissible fresh (fun _ => none) created := by
  have hhandle : handlePattern (handleOf fresh created) = true := by decide +kernel
  have hshare : shardPattern share = true := by decide +kernel
  have hbrings : truthy created.clientShard = some share := by decide +kernel
  exact ⟨hhandle, by rw [hbrings]; exact hshare⟩

theorem first_vault_kept : Kept fresh (fun _ => none) created 3 :=
  ((shards_kept_iff fresh (fun _ => none) rfl).1 created 3 fresh_admissible).mpr
    (by unfold Safe; decide)

/-- Cut before the handle is written: the share is also read as that of `legacy`. -/
theorem first_vault_cut : held fresh = some (fun _ => none) ∧
    Admissible fresh (fun _ => none) created ∧ ¬ Kept fresh (fun _ => none) created 2 ∧
    (held (remember fresh created 2)).map (· "legacy") = some (some share) := by
  refine ⟨rfl, fresh_admissible, ?_, by decide +kernel⟩
  rw [kept_iff_safe rfl fresh_admissible]
  exact not_not_intro (by decide +kernel)

end Runs

end VaultFragments
