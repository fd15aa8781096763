import CryptoPigeon.AttachmentManifests
import CryptoPigeon.TransitionSystem
import Mathlib.Data.List.Nodup

/-! # Acknowledging what came from the dropboxes

A sync asks for its dropboxes in batches of 2000 tags and is given at most 256 envelopes for
each. What it committed or had already seen of them it acknowledges in one request, whose failure
is swallowed. The relay's rows stand in the order in which they were created; those that have
expired are not among them. -/
namespace BlindAcks

open AttachmentManifests (repeats isLowerHex isUuid repeats_hex)
open JsonText (hex)
open TransitionSystem

/-! ## The relay -/

/-- `id.substring(0,8)+"-"+…` -/
def dashed (id : List Char) : List Char :=
  id.take 8 ++ '-' :: ((id.drop 8).take 4 ++ '-' :: ((id.drop 12).take 4 ++ '-' ::
    ((id.drop 16).take 4 ++ '-' :: id.drop 20)))

/-- `replace("-","")` -/
def withoutDashes (id : List Char) : List Char := id.filter (· != '-')

/-- The primary key of a row, which `POST /api/blind/send` took for a UUID; the database writes
it in small letters. -/
structure EnvelopeId where
  digits : List Char
  hex : repeats isLowerHex 32 digits = true
  uuid : isUuid (dashed digits) = true

/-- A routing tag, the hexadecimal digest of a secret and an hour. -/
structure Tag where
  text : List Char
  hex : repeats isLowerHex 64 text = true

structure Row where
  id : EnvelopeId
  dropboxId : Tag
  ciphertext : List Char

structure Access where
  dropboxIds : List (List Char)
  envelopeIds : Option (List (List Char))

/-- The schema of both routes. -/
def access (b : Access) : Bool :=
  b.dropboxIds.all (repeats isLowerHex 64) &&
  decide (1 ≤ b.dropboxIds.length ∧ b.dropboxIds.length ≤ 2000) &&
  (b.envelopeIds.getD []).all isUuid &&
  decide ((b.envelopeIds.getD []).length ≤ 256)

local instance textLawful : LawfulBEq (List Char) := inferInstance

/-- `POST /api/blind/fetch` -/
def fetch (table : List Row) (b : Access) : Option (List Row) :=
  if access b then
    some ((table.filter fun r => decide (r.dropboxId.text ∈ b.dropboxIds)).take 256)
  else none

/-- `POST /api/blind/ack` -/
def ack (table : List Row) (b : Access) : Option (List Row) :=
  if access b then
    some (table.filter fun r => !(decide (dashed r.id.digits ∈ b.envelopeIds.getD []) &&
      decide (r.dropboxId.text ∈ b.dropboxIds)))
  else none

/-! ## The sync -/

/-- `for(int offset=0;offset<tagList.size();offset+=2000)` -/
def batches (tagList : List Tag) : List (List Tag) :=
  (List.range ((tagList.length + 1999) / 2000)).map fun k => (tagList.drop (2000 * k)).take 2000

def fetchRequest (selected : List Tag) : Access := ⟨selected.map Tag.text, none⟩

/-- A request that fails ends the sync. -/
def fetched (table : List Row) (tagList : List Tag) : Option (List Row) :=
  ((batches tagList).mapM fun selected => fetch table (fetchRequest selected)).map List.flatten

/-- The map from ids to tags; a later entry replaces an earlier one. -/
def blindIds (rows : List Row) : List (List Char × List Char) :=
  (rows.map fun r => (withoutDashes (dashed r.id.digits), r.dropboxId.text)).reverse

/-- The acknowledged ids that came from a dropbox, each with its tag. -/
def blindAcks (rows : List Row) (acks : List (List Char)) : List (List Char × List Char) :=
  acks.filterMap fun id => ((blindIds rows).lookup id).map fun tag => (dashed id, tag)

def ackRequest (pairs : List (List Char × List Char)) : Access :=
  ⟨pairs.map Prod.snd, some (pairs.map Prod.fst)⟩

/-- `acks` are the ids that `consumeIncoming` committed or had already seen. -/
def sync (tagList : List Tag) (acks : List (List Char)) (table : List Row) : List Row :=
  match fetched table tagList with
  | none => table
  | some rows =>
    let pairs := blindAcks rows acks
    if pairs.isEmpty then table else (ack table (ackRequest pairs)).getD table

/-- The envelope is in no answer to any request. -/
def NeverFetched (table : List Row) (id : List Char) : Prop :=
  ∀ b rows, fetch table b = some rows → ∀ r ∈ rows, r.id.digits ≠ id

/-- The request for acknowledgement, if there is one, is in order, and the relay does not give
the acknowledged envelopes again. -/
def Acknowledged (tagList : List Tag) (acks : List (List Char)) (table : List Row) : Prop :=
  ∃ rows, fetched table tagList = some rows ∧
    (blindAcks rows acks ≠ [] → access (ackRequest (blindAcks rows acks)) = true) ∧
    ∀ r ∈ rows, r.id.digits ∈ acks → NeverFetched (sync tagList acks table) r.id.digits

def WellFormed (table : List Row) : Prop := (table.map fun r => r.id.digits).Nodup

section Requests

variable {table : List Row} {tagList : List Tag} {rows : List Row} {acks : List (List Char)}

theorem EnvelopeId.noDash (i : EnvelopeId) : ∀ c ∈ i.digits, c ≠ '-' := by
  rintro c hc rfl
  have hall := i.hex
  simp only [repeats, Bool.and_eq_true, List.all_eq_true] at hall
  exact absurd (hall.2 '-' hc) (by decide)

theorem withoutDashes_dashed (i : EnvelopeId) : withoutDashes (dashed i.digits) = i.digits := by
  have keep {l : List Char} (h : l.Sublist i.digits) : l.filter (· != '-') = l :=
    List.filter_eq_self.mpr fun c hc => by simpa using i.noDash c (h.subset hc)
  have cut (m n : Nat) : ((i.digits.drop m).take n).Sublist i.digits :=
    (List.take_sublist n _).trans (List.drop_sublist m _)
  have dash (l : List Char) : ('-' :: l).filter (· != '-') = l.filter (· != '-') := by simp
  simp only [withoutDashes, dashed, List.filter_append, dash, keep (List.take_sublist 8 _),
    keep (cut 8 4), keep (cut 12 4), keep (cut 16 4), keep (List.drop_sublist 20 _)]
  have join (m n : Nat) : (i.digits.drop m).take n ++ i.digits.drop (m + n) = i.digits.drop m := by
    rw [← List.drop_drop]
    exact List.take_append_drop n (i.digits.drop m)
  rw [join 16 4, join 12 4, join 8 4]
  exact List.take_append_drop 8 i.digits

theorem batch_bounds {selected : List Tag} (h : selected ∈ batches tagList) :
    1 ≤ selected.length ∧ selected.length ≤ 2000 := by
  obtain ⟨k, hk, rfl⟩ := List.mem_map.mp h
  have hlt := List.mem_range.mp hk
  rw [List.length_take, List.length_drop]
  omega

theorem tags_hex (tags : List Tag) : (tags.map Tag.text).all (repeats isLowerHex 64) = true := by
  rw [List.all_map, List.all_eq_true]
  exact fun t _ => t.hex

theorem fetchRequest_access {selected : List Tag} (h : selected ∈ batches tagList) :
    access (fetchRequest selected) = true := by
  have hbounds := batch_bounds h
  simp [access, fetchRequest, tags_hex, hbounds, -List.all_map]

theorem mapM_answered {α β : Type} {f : α → Option β} {g : α → β} {l : List α}
    (h : ∀ a ∈ l, f a = some (g a)) : l.mapM f = some (l.map g) := by
  induction l with
  | nil => rfl
  | cons a l ih =>
    rw [List.mapM_cons, h a List.mem_cons_self, ih fun b hb => h b (List.mem_cons_of_mem a hb)]
    rfl

/-- What the dropboxes of one batch give. -/
def window (table : List Row) (selected : List Tag) : List Row :=
  (table.filter fun r => decide (r.dropboxId.text ∈ selected.map Tag.text)).take 256

/-- Every request of a sync for its dropboxes is answered. -/
theorem fetched_eq (table : List Row) (tagList : List Tag) :
    fetched table tagList = some ((batches tagList).flatMap (window table)) := by
  have hbatch : ∀ selected ∈ batches tagList,
      fetch table (fetchRequest selected) = some (window table selected) :=
    fun selected h => if_pos (fetchRequest_access h)
  rw [fetched, mapM_answered hbatch]
  rfl

theorem fetched_subset (h : fetched table tagList = some rows) {r : Row} (hr : r ∈ rows) :
    r ∈ table := by
  rw [fetched_eq, Option.some.injEq] at h
  subst h
  obtain ⟨selected, -, hr⟩ := List.mem_flatMap.mp hr
  exact List.mem_of_mem_filter (List.mem_of_mem_take hr)

theorem WellFormed.eq_of_id (h : WellFormed table) {r q : Row} (hr : r ∈ table) (hq : q ∈ table)
    (hid : r.id.digits = q.id.digits) : r = q :=
  List.inj_on_of_nodup_map h hr hq hid

theorem lookup_mem {l : List (List Char × List Char)} {id tag : List Char}
    (h : l.lookup id = some tag) : (id, tag) ∈ l := by
  obtain ⟨before, after, rfl, -⟩ := List.lookup_eq_some_iff.mp h
  exact List.mem_append_right _ List.mem_cons_self

theorem lookup_some {l : List (List Char × List Char)} {id tag : List Char} (h : (id, tag) ∈ l) :
    ∃ tag', l.lookup id = some tag' := by
  cases hl : l.lookup id with
  | some tag' => exact ⟨tag', rfl⟩
  | none =>
    have := List.lookup_eq_none_iff.mp hl (id, tag) h
    simp at this

theorem mem_blindIds {id tag : List Char} :
    (id, tag) ∈ blindIds rows ↔ ∃ r ∈ rows, r.id.digits = id ∧ r.dropboxId.text = tag := by
  simp only [blindIds, List.mem_reverse, List.mem_map, Prod.mk.injEq, withoutDashes_dashed]

/-- An acknowledged row of a dropbox is named in the request, together with its tag. -/
theorem mem_blindAcks (hrows : ∀ q ∈ rows, q ∈ table) (h : WellFormed table) {r : Row}
    (hr : r ∈ rows) (hack : r.id.digits ∈ acks) :
    (dashed r.id.digits, r.dropboxId.text) ∈ blindAcks rows acks := by
  obtain ⟨tag, htag⟩ := lookup_some (mem_blindIds.mpr ⟨r, hr, rfl, rfl⟩)
  obtain ⟨q, hq, hid, hbox⟩ := mem_blindIds.mp (lookup_mem htag)
  have hqr : q = r := h.eq_of_id (hrows q hq) (hrows r hr) hid
  subst hqr
  refine List.mem_filterMap.mpr ⟨q.id.digits, hack, ?_⟩
  rw [htag, ← hbox]
  rfl

/-- What the request names, it names with the tag of a row that was fetched. -/
theorem blindAcks_row {pair : List Char × List Char} (h : pair ∈ blindAcks rows acks) :
    ∃ r ∈ rows, pair = (dashed r.id.digits, r.dropboxId.text) ∧ r.id.digits ∈ acks := by
  obtain ⟨id, hid, hpair⟩ := List.mem_filterMap.mp h
  obtain ⟨tag, htag, rfl⟩ := Option.map_eq_some_iff.mp hpair
  obtain ⟨r, hr, rfl, rfl⟩ := mem_blindIds.mp (lookup_mem htag)
  exact ⟨r, hr, rfl, hid⟩

/-- The relay takes a request that acknowledges something if and only if it names at most 256
envelopes. -/
theorem access_ackRequest (h : blindAcks rows acks ≠ []) :
    access (ackRequest (blindAcks rows acks)) = true ↔ (blindAcks rows acks).length ≤ 256 := by
  have htags : ((blindAcks rows acks).map Prod.snd).all (repeats isLowerHex 64) = true := by
    rw [List.all_map, List.all_eq_true]
    intro pair hpair
    obtain ⟨r, -, rfl, -⟩ := blindAcks_row hpair
    exact r.dropboxId.hex
  have hids : ((blindAcks rows acks).map Prod.fst).all isUuid = true := by
    rw [List.all_map, List.all_eq_true]
    intro pair hpair
    obtain ⟨r, -, rfl, -⟩ := blindAcks_row hpair
    exact r.id.uuid
  have hpos := List.length_pos_iff.mpr h
  simp only [access, ackRequest, htags, hids, Option.getD_some, List.length_map, Bool.true_and,
    Bool.and_true, Bool.and_eq_true, decide_eq_true_eq]
  omega

/-- A row that is gone from the table is not fetched again. -/
theorem neverFetched_of {id : List Char} (h : ∀ r ∈ table, r.id.digits ≠ id) :
    NeverFetched table id := by
  intro b rows hfetch r hr
  unfold fetch at hfetch
  split at hfetch
  · cases hfetch
    exact h r (List.mem_of_mem_filter (List.mem_of_mem_take hr))
  · cases hfetch

theorem sync_sublist : (sync tagList acks table).Sublist table := by
  unfold sync
  rw [fetched_eq]
  dsimp only
  split
  · exact List.Sublist.refl _
  · unfold ack
    split
    · exact List.filter_sublist
    · exact List.Sublist.refl _

theorem sync_eq (hrows : fetched table tagList = some rows) (hne : blindAcks rows acks ≠ [])
    (hfew : (blindAcks rows acks).length ≤ 256) :
    sync tagList acks table = table.filter fun r =>
      !(decide (dashed r.id.digits ∈ (blindAcks rows acks).map Prod.fst) &&
        decide (r.dropboxId.text ∈ (blindAcks rows acks).map Prod.snd)) := by
  have haccess := (access_ackRequest hne).mpr hfew
  have hempty : (blindAcks rows acks).isEmpty = false := by simpa using hne
  unfold sync
  rw [hrows]
  dsimp only
  rw [hempty, if_neg Bool.false_ne_true, ack, if_pos haccess]
  rfl

/-- A request with at most 256 envelopes takes them from the table. -/
theorem sync_removes (h : WellFormed table) (hrows : fetched table tagList = some rows)
    (hfew : (blindAcks rows acks).length ≤ 256) {r : Row} (hr : r ∈ rows)
    (hack : r.id.digits ∈ acks) : ∀ q ∈ sync tagList acks table, q.id.digits ≠ r.id.digits := by
  intro q hq hid
  have hpair := mem_blindAcks (fun q => fetched_subset hrows) h hr hack
  have hne : blindAcks rows acks ≠ [] := List.ne_nil_of_mem hpair
  have hqr : q = r :=
    h.eq_of_id (sync_sublist.subset hq) (fetched_subset hrows hr) hid
  subst hqr
  have hid : dashed q.id.digits ∈ (blindAcks rows acks).map Prod.fst :=
    List.mem_map.mpr ⟨_, hpair, rfl⟩
  have hbox : q.dropboxId.text ∈ (blindAcks rows acks).map Prod.snd :=
    List.mem_map.mpr ⟨_, hpair, rfl⟩
  rw [sync_eq hrows hne hfew, List.mem_filter, decide_eq_true hid, decide_eq_true hbox] at hq
  exact Bool.false_ne_true hq.2

theorem acknowledged_iff (h : WellFormed table) (hrows : fetched table tagList = some rows) :
    Acknowledged tagList acks table ↔ (blindAcks rows acks).length ≤ 256 := by
  constructor
  · rintro ⟨rows', hrows', haccess, -⟩
    rw [hrows, Option.some.injEq] at hrows'
    subst hrows'
    by_cases hne : blindAcks rows acks = []
    · rw [hne]
      exact Nat.zero_le _
    · exact (access_ackRequest hne).mp (haccess hne)
  · intro hfew
    exact ⟨rows, hrows, fun hne => (access_ackRequest hne).mpr hfew,
      fun r hr hack => neverFetched_of (sync_removes h hrows hfew hr hack)⟩

end Requests

/-! ## Runs -/

/-- The rows of the relay, and what earlier syncs committed or had seen. -/
structure State where
  table : List Row
  settled : List (List Char)

inductive Event where
  | arrive (r : Row)
  | sync (tagList : List Tag) (acks : List (List Char))

/-- The ids of the rows that came from a dropbox and are acknowledged. -/
def handled (table : List Row) (tagList : List Tag) (acks : List (List Char)) :
    List (List Char) :=
  acks.filter fun id =>
    decide (id ∈ ((fetched table tagList).getD []).map fun r => r.id.digits)

/-- `ON CONFLICT(id) DO NOTHING`; nobody sends an envelope again that was settled. -/
def Enabled (s : State) : Event → Prop
  | .arrive r => r.id.digits ∉ s.settled ∧ ∀ q ∈ s.table, q.id.digits ≠ r.id.digits
  | .sync _ _ => True

def next (s : State) : Event → State
  | .arrive r => { s with table := s.table ++ [r] }
  | .sync tagList acks =>
    { table := sync tagList acks s.table
      settled := s.settled ++ handled s.table tagList acks }

def system : System State Event where
  Initial s := WellFormed s.table ∧ s.settled = []
  Enabled := Enabled
  next := next

/-- At most 256 of the envelopes that a sync acknowledges came from the dropboxes. -/
def Few (s : State) : Event → Prop
  | .arrive _ => True
  | .sync tagList acks =>
    ∀ rows, fetched s.table tagList = some rows → (blindAcks rows acks).length ≤ 256

structure Invariant (s : State) : Prop where
  ids : WellFormed s.table
  gone : ∀ id ∈ s.settled, ∀ r ∈ s.table, r.id.digits ≠ id

section Runs

variable {s : State}

theorem step_preserves_invariant (s : State) (e : Event) (h : Invariant s)
    (he : (system.Within Few).Enabled s e) : Invariant (next s e) := by
  cases e with
  | arrive r =>
    obtain ⟨⟨hnew, hfree⟩, -⟩ := he
    constructor
    · unfold WellFormed next
      rw [List.map_append, List.nodup_append]
      refine ⟨h.ids, List.nodup_singleton _, ?_⟩
      rintro _ hq _ hr rfl
      obtain ⟨q, hq, hid⟩ := List.mem_map.mp hq
      rw [List.map_singleton, List.mem_singleton] at hr
      exact hfree q hq (hid.trans hr)
    · intro id hid q hq
      rcases List.mem_append.mp hq with hq | hq
      · exact h.gone id hid q hq
      · rw [List.mem_singleton.mp hq]
        rintro rfl
        exact hnew hid
  | sync tagList acks =>
    obtain ⟨-, hfew⟩ := he
    constructor
    · exact h.ids.sublist (sync_sublist.map _)
    · intro id hid q hq
      rcases List.mem_append.mp hid with hid | hid
      · exact h.gone id hid q (sync_sublist.subset hq)
      · have hrows := fetched_eq s.table tagList
        obtain ⟨hack, hin⟩ := List.mem_filter.mp hid
        rw [decide_eq_true_eq, hrows, Option.getD_some] at hin
        obtain ⟨r, hr, rfl⟩ := List.mem_map.mp hin
        exact sync_removes h.ids hrows (hfew _ hrows) hr hack q hq

theorem reachable_invariant (h : Reachable (system.Within Few) s) : Invariant s :=
  TransitionSystem.reachable_invariant
    (fun _ (hi : WellFormed _ ∧ _ = []) => ⟨hi.1, fun id hid => by rw [hi.2] at hid; cases hid⟩)
    step_preserves_invariant h

/-- The fetched envelopes but those that fail. -/
def working (fails : List Char → Bool) (tagList : List Tag) (table : List Row) :
    List (List Char) :=
  (((fetched table tagList).getD []).map fun r => r.id.digits).filter fun id => !fails id

def round (fails : List Char → Bool) (tagList : List Tag) (table : List Row) : List Row :=
  sync tagList (working fails tagList table) table

/-- Nothing but failing envelopes is left to be fetched. -/
def Drained (fails : List Char → Bool) (tagList : List Tag) (table : List Row) : Prop :=
  ∀ rows, fetched table tagList = some rows → ∀ r ∈ rows, fails r.id.digits = true

/-- No round has more than 256 envelopes to acknowledge. -/
def FewRounds (fails : List Char → Bool) (tagList : List Tag) (table : List Row) : Prop :=
  ∀ n rows, fetched ((round fails tagList)^[n] table) tagList = some rows →
    rows.countP (fun r => !fails r.id.digits) ≤ 256

theorem blindAcks_length_le (rows : List Row) (acks : List (List Char)) :
    (blindAcks rows acks).length ≤ acks.length := List.length_filterMap_le _ _

theorem drained_of_few {fails : List Char → Bool} {tagList : List Tag} {table : List Row}
    (h : WellFormed table) (hfew : FewRounds fails tagList table) :
    ∃ n ≤ table.length, Drained fails tagList ((round fails tagList)^[n] table) := by
  induction hn : table.length using Nat.strong_induction_on generalizing table with
  | _ n ih =>
    subst hn
    by_cases hdone : Drained fails tagList table
    · exact ⟨0, Nat.zero_le _, hdone⟩
    · simp only [Drained, not_forall] at hdone
      obtain ⟨rows, hrows, r, hr, hworks⟩ := hdone
      have hid : r.id.digits ∈ working fails tagList table := by
        rw [working, hrows]
        exact List.mem_filter.mpr ⟨List.mem_map.mpr ⟨r, hr, rfl⟩, by simpa using hworks⟩
      have hacks : (blindAcks rows (working fails tagList table)).length ≤ 256 := by
        refine (blindAcks_length_le rows _).trans ?_
        rw [working, hrows, Option.getD_some, ← List.countP_eq_length_filter, List.countP_map]
        exact hfew 0 rows hrows
      have hgone := sync_removes h hrows hacks hr hid
      have hsub : (round fails tagList table).Sublist table := sync_sublist
      have hshort : (round fails tagList table).length < table.length := by
        refine lt_of_le_of_ne hsub.length_le fun heq => ?_
        have hstill : r ∈ round fails tagList table := by
          rw [hsub.eq_of_length heq]
          exact fetched_subset hrows hr
        exact hgone r hstill rfl
      obtain ⟨m, hm, hdrained⟩ := ih _ hshort (h.sublist (hsub.map _))
        (fun k => hfew (k + 1)) rfl
      exact ⟨m + 1, by omega, hdrained⟩

end Runs

section Crowd

def tagOf (n : Nat) : Tag :=
  ⟨hex (UInt8.ofNat (n / 256) :: UInt8.ofNat n :: List.replicate 30 0), repeats_hex _⟩

def digitsOf (n : Nat) : List Char :=
  hex [UInt8.ofNat (n / 256), UInt8.ofNat n, 0, 0, 0, 0, 64, 0, 128, 0, 0, 0, 0, 0, 0, 0]

theorem digitsOf_uuid : ∀ n : Fin 257, isUuid (dashed (digitsOf n)) = true := by decide +kernel

def idOf (n : Fin 257) : EnvelopeId := ⟨digitsOf n, repeats_hex _, digitsOf_uuid n⟩

/-- The tags of three contacts. -/
def threeContacts : List Tag := (List.range 2166).map tagOf

def waitingRow (n : Fin 257) : Row := ⟨idOf n, tagOf (if n.val = 256 then 2165 else 0), ['A']⟩

/-- One contact has sent 256 messages and another one. -/
def crowd : List Row := (List.finRange 257).map waitingRow

def everything : List (List Char) := crowd.map fun r => r.id.digits

theorem digitsOf_inj {m n : Fin 257} (h : digitsOf m = digitsOf n) : m = n := by
  have hbytes := congrArg JsonText.unhex h
  simp only [digitsOf, JsonText.unhex_hex, Option.some.injEq, List.cons.injEq, and_true] at hbytes
  obtain ⟨hhigh, hlow⟩ := hbytes
  have hhigh' := congrArg UInt8.toNat hhigh
  have hlow' := congrArg UInt8.toNat hlow
  simp only [UInt8.toNat_ofNat'] at hhigh' hlow'
  omega

theorem crowd_wellFormed : WellFormed crowd := by
  unfold WellFormed crowd
  rw [List.map_map]
  exact (List.nodup_finRange 257).map fun m n h => digitsOf_inj h

def crowdState : State := ⟨crowd, []⟩

theorem crowdState_initial : (system.Within Few).Initial crowdState := ⟨crowd_wellFormed, rfl⟩

def early : List Row := ((List.finRange 257).take 256).map waitingRow

theorem crowd_eq : crowd = early ++ [waitingRow 256] := by
  have hsplit : List.finRange 257 = (List.finRange 257).take 256 ++ [256] := by decide +kernel
  unfold crowd early
  rw [← List.map_singleton, ← List.map_append, ← hsplit]

def firstBatch : List Tag := (threeContacts.drop 0).take 2000

def secondBatch : List Tag := (threeContacts.drop 2000).take 2000

theorem first_mem : firstBatch ∈ batches threeContacts := by
  refine List.mem_map.mpr ⟨0, List.mem_range.mpr ?_, rfl⟩
  simp [threeContacts]

theorem second_mem : secondBatch ∈ batches threeContacts := by
  refine List.mem_map.mpr ⟨1, List.mem_range.mpr ?_, rfl⟩
  simp [threeContacts]

theorem early_tag {r : Row} (h : r ∈ early) : r.dropboxId = tagOf 0 := by
  obtain ⟨n, hn, rfl⟩ := List.mem_map.mp h
  have hlate : (256 : Fin 257) ∉ (List.finRange 257).take 256 := by decide +kernel
  have hne : n.val ≠ 256 := fun heq => hlate ((show n = 256 from Fin.ext heq) ▸ hn)
  exact congrArg tagOf (if_neg hne)

/-- The first batch gives 256 rows. -/
theorem early_fetched {r : Row} (h : r ∈ early) : r ∈ window crowd firstBatch := by
  have hfirst : (tagOf 0).text ∈ firstBatch.map Tag.text := by decide +kernel
  have hall : early.filter (fun r => decide (r.dropboxId.text ∈ firstBatch.map Tag.text)) =
      early := by
    refine List.filter_eq_self.mpr fun q hq => ?_
    rw [early_tag hq]
    exact decide_eq_true hfirst
  have hlength : early.length = 256 := by
    rw [early, List.length_map, List.length_take, List.length_finRange]
    decide
  unfold window
  rw [crowd_eq, List.filter_append, hall, List.take_left' hlength]
  exact h

/-- The second batch gives the last one. -/
theorem last_fetched : waitingRow 256 ∈ window crowd secondBatch := by
  have hnone : (tagOf 0).text ∉ secondBatch.map Tag.text := by decide +kernel
  have hsecond : (tagOf 2165).text ∈ secondBatch.map Tag.text := by decide +kernel
  have hearly : early.filter (fun r => decide (r.dropboxId.text ∈ secondBatch.map Tag.text)) =
      [] := by
    refine List.filter_eq_nil_iff.mpr fun q hq => ?_
    rw [early_tag hq]
    exact fun h => hnone (of_decide_eq_true h)
  have hlast : (waitingRow 256).dropboxId = tagOf 2165 := rfl
  unfold window
  rw [crowd_eq, List.filter_append, hearly, List.nil_append, List.filter_singleton, hlast,
    decide_eq_true hsecond]
  exact List.mem_cons_self

theorem crowd_fetched {r : Row} (h : r ∈ crowd) :
    r ∈ (batches threeContacts).flatMap (window crowd) := by
  rw [crowd_eq, List.mem_append, List.mem_singleton] at h
  rcases h with h | rfl
  · exact List.mem_flatMap.mpr ⟨_, first_mem, early_fetched h⟩
  · exact List.mem_flatMap.mpr ⟨_, second_mem, last_fetched⟩

theorem blindAcks_length {rows : List Row} {acks : List (List Char)}
    (h : ∀ id ∈ acks, ∃ r ∈ rows, r.id.digits = id) :
    (blindAcks rows acks).length = acks.length := by
  refine List.filterMap_length_eq_length.mpr fun id hid => ?_
  obtain ⟨r, hr, rfl⟩ := h id hid
  obtain ⟨tag, htag⟩ := lookup_some (mem_blindIds.mpr ⟨r, hr, rfl, rfl⟩)
  rw [htag]
  rfl

end Crowd

end BlindAcks
