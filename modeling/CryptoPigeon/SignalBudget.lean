import CryptoPigeon.LoginSignature
import CryptoPigeon.SlidingWindow
import Mathlib.Data.Finmap
import Mathlib.Data.Finset.Order
import Mathlib.Data.Sym.Sym2

/-! # The budget of forwarded signals

`SignalBudget` of the relay: a map from an unordered pair of public ids to the times of the
signals it forwarded between them. A pair is purged by its last time, the list of a pair is
trimmed when it is next used. `accepted` is history: the calls that were answered with true. -/
namespace SignalBudget

open LoginSignature (Text)
open SlidingWindow

/-- A colon, which joins the two names of a pair. -/
def colon : UInt16 := 58

/-- `[from, to].sort().join(':')`. -/
def key (fromUid toUid : Text) : Text :=
  [colon].intercalate ([fromUid, toUid].mergeSort fun a b => decide (a ≤ b))

/-- The order of a `Map`'s entries plays no part here. -/
abbrev Pairs := AList fun _ : Text => List Int

def Pairs.size (pairs : Pairs) : Nat := pairs.keys.length

/-- `times[times.length - 1] <= now - 60000`; an empty list has no last time to compare. -/
def stale (now : Int) (times : List Int) : Bool := times.getLast?.any fun t => t ≤ now - 60000

/-- The loop visits each entry once and deletes none but the one it is at. -/
def purgeFrom (now : Int) : List (Sigma fun _ : Text => List Int) → Pairs → Pairs
  | [], pairs => pairs
  | ⟨key, times⟩ :: rest, pairs =>
    purgeFrom now rest (if stale now times then pairs.erase key else pairs)

def purge (now : Int) (pairs : Pairs) : Pairs := purgeFrom now pairs.entries pairs

def take (pairs : Pairs) (fromUid toUid : Text) (now : Int) : Bool × Pairs :=
  let pairs := purge now pairs
  let key := key fromUid toUid
  let times := ((pairs.lookup key).getD []).filter fun time => time > now - 60000
  if times.length ≥ 30 ∨ (¬ key ∈ pairs ∧ pairs.size ≥ 10000) then (false, pairs)
  else (true, pairs.insert key (times ++ [now]))

structure Call where
  fromUid : Text
  toUid : Text
  now : Int
  deriving DecidableEq, Repr

def Call.key (c : Call) : Text := SignalBudget.key c.fromUid c.toUid

def Call.pair (c : Call) : Sym2 Text := s(c.fromUid, c.toUid)

/-- An identifier without the separator. -/
def Plain (uid : Text) : Prop := colon ∉ uid

instance (uid : Text) : Decidable (Plain uid) := inferInstanceAs (Decidable (colon ∉ uid))

def Call.Plain (c : Call) : Prop := SignalBudget.Plain c.fromUid ∧ SignalBudget.Plain c.toUid

instance (c : Call) : Decidable c.Plain :=
  inferInstanceAs (Decidable (SignalBudget.Plain c.fromUid ∧ SignalBudget.Plain c.toUid))

structure State where
  pairs : Pairs
  accepted : List Call

def initial : State := ⟨∅, []⟩

def answer (pairs : Pairs) (c : Call) : Bool := (take pairs c.fromUid c.toUid c.now).1

def left (pairs : Pairs) (c : Call) : Pairs := (take pairs c.fromUid c.toUid c.now).2

def next (s : State) (c : Call) : State where
  pairs := left s.pairs c
  accepted := if answer s.pairs c then s.accepted ++ [c] else s.accepted

def run (calls : List Call) : State := calls.foldl next initial

/-- What the calls are answered, one after the other. -/
def answers (pairs : Pairs) : List Call → List Bool
  | [] => []
  | c :: calls => answer pairs c :: answers (left pairs c) calls

/-- When a pair's signals were accepted, in either direction. -/
def acceptedTimes (accepted : List Call) (pair : Sym2 Text) : List Int :=
  (accepted.filter fun c => c.pair = pair).map Call.now

/-- The same for what the map calls a pair. -/
def log (accepted : List Call) (key : Text) : List Int :=
  (accepted.filter fun c => c.key = key).map Call.now

section Key

variable {a b c d : Text}

theorem sorted_comm : [a, b].mergeSort (fun a b => decide (a ≤ b)) =
    [b, a].mergeSort (fun a b => decide (a ≤ b)) := by
  have htrans (a b c : Text) (hab : decide (a ≤ b) = true) (hbc : decide (b ≤ c) = true) :
      decide (a ≤ c) = true := by
    simp only [decide_eq_true_eq] at hab hbc ⊢
    exact List.le_trans hab hbc
  have htotal (a b : Text) : (decide (a ≤ b) || decide (b ≤ a)) = true := by
    simpa using List.le_total a b
  have hsorted := List.pairwise_mergeSort htrans htotal
  have hperm : ([a, b].mergeSort fun a b => decide (a ≤ b)).Perm
      ([b, a].mergeSort fun a b => decide (a ≤ b)) :=
    (List.mergeSort_perm _ _).trans ((List.Perm.swap b a []).trans (List.mergeSort_perm _ _).symm)
  refine hperm.eq_of_pairwise (fun x y _ _ hxy hyx => ?_) (hsorted _) (hsorted _)
  simp only [decide_eq_true_eq] at hxy hyx
  exact List.le_antisymm hxy hyx

theorem key_comm : key a b = key b a := by
  unfold key
  rw [sorted_comm]

theorem sorted_cases : [a, b].mergeSort (fun a b => decide (a ≤ b)) = [a, b] ∨
    [a, b].mergeSort (fun a b => decide (a ≤ b)) = [b, a] := by
  by_cases h : a ≤ b
  · left
    exact List.mergeSort_of_pairwise (by simpa using h)
  · right
    rw [sorted_comm]
    exact List.mergeSort_of_pairwise (by simpa using (List.le_total a b).resolve_left h)

theorem joined_inj (ha : Plain a) (hc : Plain c) (h : a ++ colon :: b = c ++ colon :: d) :
    a = c ∧ b = d := by
  induction a generalizing c with
  | nil =>
    cases c with
    | nil => exact ⟨rfl, (List.cons.inj h).2⟩
    | cons u c => exact absurd (List.mem_cons.mpr (.inl (List.cons.inj h).1)) hc
  | cons u a ih =>
    cases c with
    | nil => exact absurd (List.mem_cons.mpr (.inl (List.cons.inj h).1.symm)) ha
    | cons v c =>
      obtain ⟨hhead, htail⟩ := List.cons.inj h
      obtain ⟨htext, hrest⟩ := ih (fun hm => ha (List.mem_cons_of_mem u hm))
        (fun hm => hc (List.mem_cons_of_mem v hm)) htail
      exact ⟨by rw [hhead, htext], hrest⟩

theorem key_cases : key a b = a ++ colon :: b ∨ key a b = b ++ colon :: a := by
  unfold key
  rcases sorted_cases (a := a) (b := b) with h | h
  · left
    simp [h, List.intercalate]
  · right
    simp [h, List.intercalate]

/-- Without the separator in a name, the key is the unordered pair. -/
theorem key_eq_iff (ha : Plain a) (hb : Plain b) (hc : Plain c) (hd : Plain d) :
    key a b = key c d ↔ s(a, b) = s(c, d) := by
  rw [Sym2.eq_iff]
  constructor
  · intro h
    rcases key_cases (a := a) (b := b) with hab | hab <;>
      rcases key_cases (a := c) (b := d) with hcd | hcd <;> rw [hab, hcd] at h
    · exact .inl (joined_inj ha hc h)
    · exact .inr (joined_inj ha hd h)
    · exact .inr (joined_inj hb hc h).symm
    · exact .inl (joined_inj hb hd h).symm
  · rintro (⟨rfl, rfl⟩ | ⟨rfl, rfl⟩)
    · rfl
    · exact key_comm

end Key

section Purge

variable {now later : Int} {pairs : Pairs} {times : List Int} {k : Text}

def fresh (now : Int) (e : Sigma fun _ : Text => List Int) : Bool := !stale now e.2

/-- What is behind the loop stays; ahead of it, the stale entries go. -/
theorem purgeFrom_entries (done rest : List (Sigma fun _ : Text => List Int))
    (h : pairs.entries = done ++ rest) :
    (purgeFrom now rest pairs).entries = done ++ rest.filter (fresh now) := by
  induction rest generalizing done pairs with
  | nil => simpa [purgeFrom] using h
  | cons e rest ih =>
    obtain ⟨k, times⟩ := e
    rw [purgeFrom]
    have hkeys := pairs.nodupKeys
    rw [h] at hkeys
    by_cases hstale : stale now times = true
    · have hfresh : k ∉ done.keys := by
        rw [List.NodupKeys, List.keys_append, List.keys_cons, List.nodup_append] at hkeys
        exact fun hk => hkeys.2.2 k hk k List.mem_cons_self rfl
      have herase : (pairs.erase k).entries = done ++ rest := by
        change List.kerase k pairs.entries = done ++ rest
        rw [h, List.kerase_append_right hfresh]
        exact congrArg (done ++ ·) (List.kerase_cons_eq rfl)
      rw [if_pos hstale, ih done herase, List.filter_cons_of_neg (by simp [fresh, hstale])]
    · rw [if_neg hstale, ih (done ++ [⟨k, times⟩]) (by simp [h]),
        List.filter_cons_of_pos (by simp [fresh, hstale])]
      simp

theorem purge_entries : (purge now pairs).entries = pairs.entries.filter (fresh now) :=
  purgeFrom_entries [] pairs.entries rfl

theorem stale_mono (h : now ≤ later) (hs : stale now times = true) : stale later times = true := by
  unfold stale at hs ⊢
  rw [Option.any_eq_true] at hs ⊢
  obtain ⟨t, ht, hle⟩ := hs
  refine ⟨t, ht, ?_⟩
  simp only [decide_eq_true_eq] at hle ⊢
  omega

theorem purge_purge (h : now ≤ later) : purge later (purge now pairs) = purge later pairs := by
  apply AList.ext
  rw [purge_entries, purge_entries, purge_entries, List.filter_filter]
  apply List.filter_congr
  intro e _
  by_cases hs : stale now e.2 = true
  · simp [fresh, hs, stale_mono h hs]
  · simp [fresh, hs]

theorem purge_lookup :
    (purge now pairs).lookup k = (pairs.lookup k).filter fun times => !stale now times := by
  apply Option.ext
  intro times
  rw [Option.filter_eq_some_iff, ← Option.mem_def, ← Option.mem_def, AList.mem_lookup_iff,
    AList.mem_lookup_iff, purge_entries, List.mem_filter]
  rfl

theorem purge_size : (purge now pairs).size ≤ pairs.size := by
  unfold Pairs.size AList.keys List.keys
  rw [purge_entries, List.length_map, List.length_map]
  exact List.length_filter_le ..

theorem insert_size_of_mem (h : k ∈ pairs) : Pairs.size (pairs.insert k times) = pairs.size := by
  have hkey : k ∈ pairs.keys := AList.mem_keys.mp h
  have hpos : 0 < pairs.keys.length := List.length_pos_of_mem hkey
  unfold Pairs.size
  rw [AList.keys_insert, List.length_cons]
  simp only [List.length_erase, hkey, if_true]
  omega

theorem insert_size_le : Pairs.size (pairs.insert k times) ≤ pairs.size + 1 := by
  unfold Pairs.size
  rw [AList.keys_insert, List.length_cons]
  simp only [List.length_erase]
  split <;> omega

end Purge

section Invariant

variable {clock now : Int} {s : State} {c : Call} {calls later : List Call} {k : Text}
  {times : List Int}

/-- What links the map to the calls accepted so far, for windows that end at `clock` or later. -/
structure Sound (clock : Int) (s : State) : Prop where
  represents : ∀ k, Represents (clock - 60000) ((s.pairs.lookup k).getD []) (log s.accepted k)
  last : ∀ k times, s.pairs.lookup k = some times →
    ∃ t, times.getLast? = some t ∧ ∀ u ∈ log s.accepted k, u ≤ t
  past : ∀ k, ∀ u ∈ log s.accepted k, u ≤ clock
  admitted : ∀ k, Admitted 60000 30 (log s.accepted k)
  size : s.pairs.size ≤ 10000

theorem sound_initial : Sound clock initial where
  represents k := .refl
  last k times h := by cases h
  past k u hu := by cases hu
  admitted k := .nil
  size := Nat.zero_le _

theorem Sound.mono (h : Sound clock s) (hle : clock ≤ now) : Sound now s :=
  { h with
    represents := fun k => (h.represents k).mono (by omega)
    past := fun k u hu => (h.past k u hu).trans hle }

/-- The purge removes only lists that no window from now on reads. -/
theorem sound_purge (h : Sound now s) : Sound now { s with pairs := purge now s.pairs } where
  represents k := by
    rw [purge_lookup]
    cases hk : s.pairs.lookup k with
    | none =>
      have hnone := h.represents k
      rw [hk] at hnone
      exact hnone
    | some times =>
      by_cases hstale : stale now times = true
      · obtain ⟨t, hlast, hle⟩ := h.last k times hk
        have ht : t ≤ now - 60000 := by simpa [stale, hlast] using hstale
        have hforget : Represents (now - 60000) [] (log s.accepted k) :=
          .forget fun u hu => (hle u hu).trans ht
        simpa [Option.filter, hstale] using hforget
      · have hkept := h.represents k
        rw [hk] at hkept
        simpa [Option.filter, hstale] using hkept
  last k times hk := by
    rw [purge_lookup, Option.filter_eq_some_iff] at hk
    exact h.last k times hk.1
  past := h.past
  admitted := h.admitted
  size := purge_size.trans h.size

/-- What the trimmed list of a pair has, once the purge is over. -/
def inWindow (pairs : Pairs) (k : Text) (now : Int) : List Int :=
  after (now - 60000) (((purge now pairs).lookup k).getD [])

/-- A new pair is refused when the map is full. -/
def HasRoom (pairs : Pairs) (k : Text) (now : Int) : Prop :=
  k ∈ purge now pairs ∨ (purge now pairs).size < 10000

theorem take_accepts (h : (inWindow s.pairs c.key c.now).length < 30)
    (hroom : HasRoom s.pairs c.key c.now) :
    take s.pairs c.fromUid c.toUid c.now =
      (true, (purge c.now s.pairs).insert c.key (inWindow s.pairs c.key c.now ++ [c.now])) := by
  refine if_neg ?_
  rintro (hfull | ⟨hnew, hfull⟩)
  · exact absurd h (Nat.not_lt.mpr hfull)
  · rcases hroom with hheld | hroom
    · exact hnew hheld
    · exact absurd hroom (Nat.not_lt.mpr hfull)

theorem take_refuses (h : ¬ ((inWindow s.pairs c.key c.now).length < 30 ∧
    HasRoom s.pairs c.key c.now)) :
    take s.pairs c.fromUid c.toUid c.now = (false, purge c.now s.pairs) := by
  refine if_pos ?_
  by_cases hlen : (inWindow s.pairs c.key c.now).length < 30
  · right
    have hroom : ¬ HasRoom s.pairs c.key c.now := fun hr => h ⟨hlen, hr⟩
    obtain ⟨hnew, hfull⟩ := not_or.mp hroom
    exact ⟨hnew, Nat.not_lt.mp hfull⟩
  · exact .inl (Nat.not_lt.mp hlen)

theorem answer_iff : answer s.pairs c = true ↔
    (inWindow s.pairs c.key c.now).length < 30 ∧ HasRoom s.pairs c.key c.now := by
  unfold answer
  constructor
  · intro h
    by_contra hno
    rw [take_refuses hno] at h
    cases h
  · rintro ⟨hlen, hroom⟩
    rw [take_accepts hlen hroom]

/-- A refused call leaves nothing but the purge behind. -/
theorem left_refused (h : answer s.pairs c = false) : left s.pairs c = purge c.now s.pairs := by
  have hno : ¬ ((inWindow s.pairs c.key c.now).length < 30 ∧ HasRoom s.pairs c.key c.now) :=
    fun hyes => by simp [answer_iff.mpr hyes] at h
  rw [left, take_refuses hno]

theorem next_refused (h : answer s.pairs c = false) :
    next s c = { s with pairs := purge c.now s.pairs } := by
  simp only [next, h, left_refused h, Bool.false_eq_true, if_false]

theorem next_accepted (h : answer s.pairs c = true) : next s c =
    ⟨(purge c.now s.pairs).insert c.key (inWindow s.pairs c.key c.now ++ [c.now]),
      s.accepted ++ [c]⟩ := by
  obtain ⟨hlen, hroom⟩ := answer_iff.mp h
  simp only [next, h, left, take_accepts hlen hroom, if_true]

theorem log_append {accepted : List Call} :
    log (accepted ++ [c]) k = log accepted k ++ if c.key = k then [c.now] else [] := by
  unfold log
  by_cases hk : c.key = k <;> simp [hk]

theorem inWindow_length (h : Sound c.now s) :
    (inWindow s.pairs k c.now).length = (window 60000 c.now (log s.accepted k)).length := by
  have hrep := (sound_purge h).represents k (c.now - 60000) le_rfl
  rw [window_eq_after (h.past k)]
  exact congrArg List.length hrep

/-- One call keeps the map in step with the history. -/
theorem sound_next (h : Sound c.now s) : Sound c.now (next s c) := by
  have hpurged := sound_purge h
  cases hanswer : answer s.pairs c with
  | false =>
    rw [next_refused hanswer]
    exact hpurged
  | true =>
    obtain ⟨hlen, hroom⟩ := answer_iff.mp hanswer
    rw [next_accepted hanswer]
    constructor
    · intro k
      rw [log_append]
      by_cases hk : c.key = k
      · subst hk
        rw [AList.lookup_insert, if_pos rfl]
        exact ((hpurged.represents c.key).trim le_rfl).push
      · rw [AList.lookup_insert_ne (Ne.symm hk), if_neg hk, List.append_nil]
        exact hpurged.represents k
    · intro k times hget
      rw [log_append]
      by_cases hk : c.key = k
      · subst hk
        rw [AList.lookup_insert, Option.some.injEq] at hget
        refine ⟨c.now, by simp [← hget], fun u hu => ?_⟩
        rw [if_pos rfl] at hu
        rcases List.mem_append.mp hu with hu | hu
        · exact hpurged.past c.key u hu
        · exact (List.mem_singleton.mp hu).le
      · rw [AList.lookup_insert_ne (Ne.symm hk)] at hget
        rw [if_neg hk, List.append_nil]
        exact hpurged.last k times hget
    · intro k u hu
      rw [log_append] at hu
      rcases List.mem_append.mp hu with hu | hu
      · exact hpurged.past k u hu
      · split at hu
        · exact (List.mem_singleton.mp hu).le
        · cases hu
    · intro k
      rw [log_append]
      by_cases hk : c.key = k
      · subst hk
        rw [if_pos rfl]
        refine .push (hpurged.admitted c.key) (hpurged.past c.key) ?_
        rw [inWindow_length h] at hlen
        exact hlen
      · rw [if_neg hk, List.append_nil]
        exact hpurged.admitted k
    · rcases hroom with hheld | hroom
      · rw [insert_size_of_mem hheld]
        exact hpurged.size
      · exact insert_size_le.trans hroom

theorem run_append : run (calls ++ [c]) = next (run calls) c := by
  simp [run]

/-- Every state of a run with times that do not go back. -/
theorem sound_run (hordered : calls.Pairwise fun c d => c.now ≤ d.now)
    (hclock : ∀ c ∈ calls, c.now ≤ clock) : Sound clock (run calls) := by
  induction calls using List.reverseRecOn generalizing clock with
  | nil => exact sound_initial
  | append_singleton calls c ih =>
    rw [List.pairwise_append] at hordered
    have hbefore : Sound c.now (run calls) :=
      ih hordered.1 fun d hd => hordered.2.2 d hd c (List.mem_singleton_self c)
    rw [run_append]
    exact (sound_next hbefore).mono (hclock c (by simp))

/-- Purging early changes no later answer. -/
theorem answers_purge {pairs : Pairs} (hlater : ∀ c ∈ later, now ≤ c.now) :
    answers (purge now pairs) later = answers pairs later := by
  cases later with
  | nil => rfl
  | cons c later =>
    have htake : take (purge now pairs) c.fromUid c.toUid c.now =
        take pairs c.fromUid c.toUid c.now := by
      unfold take
      rw [purge_purge (hlater c List.mem_cons_self)]
    simp only [answers, answer, left, htake]

end Invariant

section Window

variable {calls : List Call} {accepted : List Call} {c : Call} {pair : Sym2 Text}

theorem accepted_subset (h : c ∈ (run calls).accepted) : c ∈ calls := by
  induction calls using List.reverseRecOn with
  | nil => cases h
  | append_singleton calls d ih =>
    rw [run_append, next] at h
    rw [List.mem_append]
    split at h
    · rcases List.mem_append.mp h with h | h
      · exact .inl (ih h)
      · exact .inr h
    · exact .inl (ih h)

theorem log_eq_acceptedTimes (hc : c.Plain) (h : ∀ d ∈ accepted, d.Plain) :
    log accepted c.key = acceptedTimes accepted c.pair := by
  unfold log acceptedTimes
  congr 1
  apply List.filter_congr
  intro d hd
  have hd := h d hd
  exact decide_eq_decide.mpr (key_eq_iff hd.1 hd.2 hc.1 hc.2)

/-- A pair that no accepted call names has no times at all. -/
theorem acceptedTimes_cases (accepted : List Call) (pair : Sym2 Text) :
    acceptedTimes accepted pair = [] ∨ ∃ c ∈ accepted, c.pair = pair := by
  by_cases h : ∃ c ∈ accepted, c.pair = pair
  · exact .inr h
  · left
    unfold acceptedTimes
    rw [List.filter_eq_nil_iff.mpr, List.map_nil]
    intro c hc
    simpa using fun hp => h ⟨c, hc, hp⟩

theorem take_comm {pairs : Pairs} {a b : Text} {now : Int} :
    take pairs a b now = take pairs b a now := by
  unfold take
  rw [key_comm]

/-- The answers are those of an exact window over the accepted calls, kept for 10000 pairs. -/
theorem take_exact_window (calls : List Call) (hplain : ∀ c ∈ calls, c.Plain)
    (hordered : calls.Pairwise fun c d => c.now ≤ d.now) :
    (∀ before c later, calls = before ++ c :: later →
      (answer (run before).pairs c = true ↔
        (window 60000 c.now (acceptedTimes (run before).accepted c.pair)).length < 30 ∧
        (c.key ∈ purge c.now (run before).pairs ∨
          (purge c.now (run before).pairs).size < 10000)) ∧
      (answer (run before).pairs c = false →
        answers (left (run before).pairs c) later = answers (run before).pairs later) ∧
      (left (run before).pairs c).size ≤ 10000) ∧
    (∀ pair now, (window 60000 now (acceptedTimes (run calls).accepted pair)).length ≤ 30) ∧
    ∀ pairs a b now, take pairs a b now = take pairs b a now := by
  refine ⟨?_, ?_, fun _ _ _ _ => take_comm⟩
  · rintro before c later rfl
    rw [List.pairwise_append, List.pairwise_cons] at hordered
    have hsound : Sound c.now (run before) :=
      sound_run hordered.1 fun d hd => hordered.2.2 d hd c List.mem_cons_self
    refine ⟨?_, fun hno => ?_, ?_⟩
    · rw [answer_iff, inWindow_length hsound, log_eq_acceptedTimes (hplain c (by simp))]
      · rfl
      · intro d hd
        exact hplain d (List.mem_append_left _ (accepted_subset hd))
    · rw [left_refused hno]
      exact answers_purge hordered.2.1.1
    · exact (sound_next hsound).size
  · intro pair now
    rcases acceptedTimes_cases (run calls).accepted pair with h | ⟨c, hc, rfl⟩
    · simp [h, window]
    · have hcalls (d : Call) (hd : d ∈ (run calls).accepted) : d.Plain :=
        hplain d (accepted_subset hd)
      obtain ⟨clock, hclock⟩ := (calls.map Call.now).toFinset.exists_le
      have hclock (c : Call) (hc : c ∈ calls) : c.now ≤ clock :=
        hclock c.now (List.mem_toFinset.mpr (List.mem_map_of_mem hc))
      rw [← log_eq_acceptedTimes (hcalls c hc) hcalls]
      exact ((sound_run hordered hclock).admitted c.key).window_le now

theorem two_directions_share :
    (answer (run [⟨[1], [2], 0⟩]).pairs ⟨[2], [1], 5⟩ = true ↔
      (window 60000 5 (acceptedTimes (run [⟨[1], [2], 0⟩]).accepted s([2], [1]))).length < 30 ∧
      (key [2] [1] ∈ purge 5 (run [⟨[1], [2], 0⟩]).pairs ∨
        (purge 5 (run [⟨[1], [2], 0⟩]).pairs).size < 10000)) :=
  ((take_exact_window [⟨[1], [2], 0⟩, ⟨[2], [1], 5⟩] (by decide) (by decide)).1
    [⟨[1], [2], 0⟩] ⟨[2], [1], 5⟩ [] rfl).1

end Window

end SignalBudget
