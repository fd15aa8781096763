import CryptoPigeon.ConsumingLoop
import Mathlib.Data.List.Nodup
import Mathlib.Logic.Function.Iterate

/-! # Queues read through a fixed window

A pass reads the first `limit` rows of a queue and removes those its loop consumed, unless
a row throws. With a steady verdict on every row, a row comes up if and only if nothing
throws before it and the rows before it that stay leave room in the window. -/
namespace WindowedQueue

open ConsumingLoop

inductive Verdict where
  | consumed
  | stuck
  | aborting
  deriving DecidableEq, Repr

variable {σ α β : Type}

/-- In every state of `Q` the loop body does with a row what its verdict says. -/
structure Steady (step : σ → α → Progress σ β) (key : α → β) (verdict : α → Verdict)
    (Q : σ → Prop) (rows : α → Prop) : Prop where
  consumed : ∀ s a, Q s → rows a → verdict a = .consumed →
    ∃ t, Q t ∧ step s a = .next t (some (key a))
  stuck : ∀ s a, Q s → rows a → verdict a = .stuck → ∃ t, Q t ∧ step s a = .next t none
  aborting : ∀ s a, Q s → rows a → verdict a = .aborting → ∃ t, Q t ∧ step s a = .escaped t

def throwing (verdict : α → Verdict) (l : List α) : Bool :=
  l.any (fun a => decide (verdict a = .aborting))

def consumedKeys (key : α → β) (verdict : α → Verdict) (l : List α) : List β :=
  (l.filter (fun a => decide (verdict a = .consumed))).map key

/-- Nothing before the row throws. -/
def Reached (verdict : α → Verdict) (l : List α) (e : α) : Prop :=
  ∃ before after, l = before ++ e :: after ∧ ∀ a ∈ before, verdict a ≠ .aborting

def stuckCount (verdict : α → Verdict) (l : List α) : Nat :=
  l.countP (fun a => decide (verdict a = .stuck))

/-- As `Reached`, with fewer than `limit` rows before it that stay. -/
def Waits (limit : Nat) (verdict : α → Verdict) (l : List α) (e : α) : Prop :=
  ∃ before after, l = before ++ e :: after ∧ (∀ a ∈ before, verdict a ≠ .aborting) ∧
    stuckCount verdict before < limit

/-- What a completed pass leaves of a queue. -/
def drain (limit : Nat) (verdict : α → Verdict) (l : List α) : List α :=
  (l.take limit).filter (fun a => decide (verdict a ≠ .consumed)) ++ l.drop limit

section Loop

variable {step : σ → α → Progress σ β} {key : α → β} {verdict : α → Verdict} {Q : σ → Prop}
  {rows : α → Prop} {s : σ} {a e : α} {l : List α}

theorem reached_cons :
    Reached verdict (a :: l) e ↔ e = a ∨ verdict a ≠ .aborting ∧ Reached verdict l e := by
  constructor
  · rintro ⟨before, after, hl, hb⟩
    cases before with
    | nil => cases hl; exact .inl rfl
    | cons b before =>
      cases hl
      exact .inr ⟨hb a List.mem_cons_self, before, after, rfl,
        fun c hc => hb c (List.mem_cons_of_mem a hc)⟩
  · rintro (rfl | ⟨ha, before, after, rfl, hb⟩)
    · exact ⟨[], l, rfl, fun c hc => by cases hc⟩
    · refine ⟨a :: before, after, rfl, fun c hc => ?_⟩
      rcases List.mem_cons.mp hc with rfl | hc
      · exact ha
      · exact hb c hc

theorem reached_mem (h : Reached verdict l e) : e ∈ l := by
  obtain ⟨before, after, rfl, _⟩ := h
  exact List.mem_append_right _ List.mem_cons_self

theorem reached_append_left_iff {m : List α} (he : e ∉ m) :
    Reached verdict (l ++ m) e ↔ Reached verdict l e := by
  induction l with
  | nil => exact ⟨fun h => absurd (reached_mem h) he, fun h => by cases reached_mem h⟩
  | cons a l ih => rw [List.cons_append, reached_cons, reached_cons, ih]

theorem reached_append_right_iff {m : List α} (he : e ∉ l) :
    Reached verdict (l ++ m) e ↔ (∀ a ∈ l, verdict a ≠ .aborting) ∧ Reached verdict m e := by
  induction l with
  | nil => simp
  | cons a l ih =>
    rw [List.mem_cons, not_or] at he
    rw [List.cons_append, reached_cons, ih he.2, List.forall_mem_cons, and_assoc]
    simp [he.1]

theorem throwing_append {m : List α} :
    throwing verdict (l ++ m) = (throwing verdict l || throwing verdict m) :=
  List.any_append

theorem quiet_iff : throwing verdict l = false ↔ ∀ a ∈ l, verdict a ≠ .aborting := by
  simp [throwing]

theorem reached_of_quiet (h : throwing verdict l = false) (he : e ∈ l) : Reached verdict l e := by
  obtain ⟨before, after, rfl⟩ := List.append_of_mem he
  exact ⟨before, after, rfl, fun a ha => quiet_iff.mp h a (List.mem_append_left _ ha)⟩

/-- A body that in every state acts on one of the verdicts, and always on the same. -/
theorem steady_of_cases (h : ∀ s a, Q s → rows a →
    (verdict a = .consumed ∧ ∃ t, Q t ∧ step s a = .next t (some (key a))) ∨
    (verdict a = .stuck ∧ ∃ t, Q t ∧ step s a = .next t none) ∨
    (verdict a = .aborting ∧ ∃ t, Q t ∧ step s a = .escaped t)) :
    Steady step key verdict Q rows := by
  refine ⟨fun s a hs ha hv => ?_, fun s a hs ha hv => ?_, fun s a hs ha hv => ?_⟩
  all_goals
    rcases h s a hs ha with ⟨hc, hstep⟩ | ⟨hc, hstep⟩ | ⟨hc, hstep⟩
    all_goals first | exact hstep | (rw [hv] at hc; cases hc)

theorem steady_consume (hsteady : Steady step key verdict Q rows) (hl : ∀ a ∈ l, rows a)
    (hs : Q s) :
    Q (consume step s l).state ∧ (consume step s l).escaped = throwing verdict l ∧
      (throwing verdict l = false → (consume step s l).emitted = consumedKeys key verdict l) := by
  induction l generalizing s with
  | nil => exact ⟨hs, rfl, fun _ => rfl⟩
  | cons a rest ih =>
    have ha := hl a List.mem_cons_self
    have hrest : ∀ b ∈ rest, rows b := fun b hb => hl b (List.mem_cons_of_mem a hb)
    cases hv : verdict a with
    | consumed =>
      obtain ⟨t, ht, hstep⟩ := hsteady.consumed s a hs ha hv
      obtain ⟨hq, he, hm⟩ := ih hrest ht
      rw [consume_next hstep]
      refine ⟨hq, by simpa [throwing, hv] using he, fun hthrow => ?_⟩
      simpa [consumedKeys, hv] using hm (by simpa [throwing, hv] using hthrow)
    | stuck =>
      obtain ⟨t, ht, hstep⟩ := hsteady.stuck s a hs ha hv
      obtain ⟨hq, he, hm⟩ := ih hrest ht
      rw [consume_next hstep]
      refine ⟨hq, by simpa [throwing, hv] using he, fun hthrow => ?_⟩
      simpa [consumedKeys, hv] using hm (by simpa [throwing, hv] using hthrow)
    | aborting =>
      obtain ⟨t, ht, hstep⟩ := hsteady.aborting s a hs ha hv
      rw [consume_escaped hstep]
      exact ⟨ht, by simp [throwing, hv], fun hthrow => by simp [throwing, hv] at hthrow⟩

theorem steady_presented (hsteady : Steady step key verdict Q rows) (hl : ∀ a ∈ l, rows a)
    (hs : Q s) : e ∈ presented step s l ↔ Reached verdict l e := by
  induction l generalizing s with
  | nil =>
    refine ⟨fun h => (by cases h), fun h => ?_⟩
    cases reached_mem h
  | cons a rest ih =>
    have ha := hl a List.mem_cons_self
    have hrest : ∀ b ∈ rest, rows b := fun b hb => hl b (List.mem_cons_of_mem a hb)
    rw [reached_cons]
    unfold presented
    cases hv : verdict a with
    | consumed =>
      obtain ⟨t, ht, hstep⟩ := hsteady.consumed s a hs ha hv
      simp [hstep, ih hrest ht]
    | stuck =>
      obtain ⟨t, ht, hstep⟩ := hsteady.stuck s a hs ha hv
      simp [hstep, ih hrest ht]
    | aborting =>
      obtain ⟨t, ht, hstep⟩ := hsteady.aborting s a hs ha hv
      simp [hstep]

end Loop

section Drain

variable {key : α → β} {verdict : α → Verdict} {e : α} {l : List α} {limit : Nat}

theorem drain_sublist : (drain limit verdict l).Sublist l := by
  have h : (drain limit verdict l).Sublist (l.take limit ++ l.drop limit) :=
    List.filter_sublist.append (List.Sublist.refl _)
  rwa [List.take_append_drop] at h

theorem mem_drain (h : e ∈ l) (hv : verdict e ≠ .consumed) : e ∈ drain limit verdict l := by
  rw [← List.take_append_drop limit l] at h
  rcases List.mem_append.mp h with h | h
  · exact List.mem_append_left _ (List.mem_filter.mpr ⟨h, by simpa using hv⟩)
  · exact List.mem_append_right _ h

/-- Removing by key the rows consumed in the window drains the queue. -/
theorem filter_consumedKeys [DecidableEq β] (hnodup : (l.map key).Nodup) :
    l.filter (fun a => decide (key a ∉ consumedKeys key verdict (l.take limit))) =
      drain limit verdict l := by
  have hinj {a b : α} (ha : a ∈ l) (hb : b ∈ l) (hk : key a = key b) : a = b :=
    List.inj_on_of_nodup_map hnodup ha hb hk
  have hdisjoint {a : α} (ha : a ∈ l.drop limit) : key a ∉ (l.take limit).map key := by
    rw [← List.take_append_drop limit l, List.map_append, List.nodup_append] at hnodup
    exact fun hmem => hnodup.2.2 _ hmem _ (List.mem_map_of_mem ha) rfl
  have htake : (l.take limit).filter
      (fun a => decide (key a ∉ consumedKeys key verdict (l.take limit))) =
      (l.take limit).filter (fun a => decide (verdict a ≠ .consumed)) := by
    refine List.filter_congr fun a ha => decide_eq_decide.mpr (not_congr ⟨fun h => ?_, fun h => ?_⟩)
    · obtain ⟨b, hb, hk⟩ := List.mem_map.mp h
      obtain ⟨hb, hv⟩ := List.mem_filter.mp hb
      rw [← hinj (List.mem_of_mem_take hb) (List.mem_of_mem_take ha) hk]
      exact of_decide_eq_true hv
    · exact List.mem_map.mpr ⟨a, List.mem_filter.mpr ⟨ha, decide_eq_true h⟩, rfl⟩
  have hdrop : (l.drop limit).filter
      (fun a => decide (key a ∉ consumedKeys key verdict (l.take limit))) = l.drop limit := by
    refine List.filter_eq_self.mpr fun a ha => decide_eq_true fun h => hdisjoint ha ?_
    exact (List.filter_sublist.map key).subset h
  unfold drain
  conv_lhs => rw [← List.take_append_drop limit l, List.filter_append]
  rw [List.take_append_drop, htake, hdrop]

theorem stuckCount_filter (verdict : α → Verdict) (l : List α) :
    stuckCount verdict (l.filter (fun a => decide (verdict a ≠ .consumed))) =
      stuckCount verdict l := by
  unfold stuckCount
  rw [List.countP_filter]
  refine List.countP_congr fun a _ => ?_
  cases verdict a <;> simp

theorem waits_of_window (h : Reached verdict (l.take limit) e) : Waits limit verdict l e := by
  obtain ⟨before, after, hl, hb⟩ := h
  refine ⟨before, after ++ l.drop limit, ?_, hb, ?_⟩
  · calc l = l.take limit ++ l.drop limit := (List.take_append_drop limit l).symm
      _ = before ++ e :: (after ++ l.drop limit) := by rw [hl]; simp
  · have hlen := congrArg List.length hl
    simp only [List.length_take, List.length_append, List.length_cons] at hlen
    have hcount : stuckCount verdict before ≤ before.length := List.countP_le_length
    omega

theorem split_behind {xs ys before after : List α} (he : e ∉ xs)
    (h : xs ++ ys = before ++ e :: after) :
    ∃ rest, before = xs ++ rest ∧ ys = rest ++ e :: after := by
  rcases List.append_eq_append_iff.mp h with ⟨rest, rfl, hys⟩ | ⟨rest, hxs, hafter⟩
  · exact ⟨rest, rfl, hys⟩
  · cases rest with
    | nil => exact ⟨[], by simpa using hxs.symm, by simpa using hafter.symm⟩
    | cons d rest =>
      injection hafter with hd _
      exact absurd (by rw [hxs, hd]; simp) he

/-- Of the rows ahead only those that stay count. -/
theorem waits_behind_iff (limit : Nat) {xs : List α} (ys : List α) (hquiet : ∀ a ∈ xs, verdict a ≠ .aborting)
    (he : e ∉ xs) :
    Waits limit verdict (xs ++ ys) e ↔
      ∃ rest after, ys = rest ++ e :: after ∧ (∀ a ∈ rest, verdict a ≠ .aborting) ∧
        stuckCount verdict xs + stuckCount verdict rest < limit := by
  have hcount (rest : List α) :
      stuckCount verdict (xs ++ rest) = stuckCount verdict xs + stuckCount verdict rest :=
    List.countP_append
  constructor
  · rintro ⟨before, after, hl, hb, hc⟩
    obtain ⟨rest, rfl, rfl⟩ := split_behind he hl
    exact ⟨rest, after, rfl, fun a ha => hb a (List.mem_append_right _ ha), hcount rest ▸ hc⟩
  · rintro ⟨rest, after, rfl, hb, hc⟩
    refine ⟨xs ++ rest, after, by simp, fun a ha => ?_, (hcount rest).symm ▸ hc⟩
    exact (List.mem_append.mp ha).elim (hquiet a) (hb a)

/-- Draining the window does not decide for a row behind it. -/
theorem waits_drain_iff (hquiet : throwing verdict (l.take limit) = false)
    (he : e ∉ l.take limit) :
    Waits limit verdict (drain limit verdict l) e ↔ Waits limit verdict l e := by
  have hwindow : ∀ a ∈ l.take limit, verdict a ≠ .aborting := quiet_iff.mp hquiet
  have hl := waits_behind_iff limit (l.drop limit) hwindow he
  rw [List.take_append_drop] at hl
  rw [hl, drain, waits_behind_iff _ _ (fun a ha => hwindow a (List.mem_filter.mp ha).1)
    (fun h => he (List.mem_filter.mp h).1), stuckCount_filter]

/-- A row that waits is reached once it is in the window; nothing throws there before. -/
theorem reached_of_window (h : Waits limit verdict l e) (he : e ∈ l.take limit) :
    Reached verdict (l.take limit) e := by
  obtain ⟨before, after, rfl, hb, _⟩ := h
  by_cases hlen : before.length < limit
  · refine ⟨before, after.take (limit - before.length - 1), ?_, hb⟩
    rw [List.take_append, List.take_of_length_le (Nat.le_of_lt hlen)]
    congr 1
    cases hk : limit - before.length with
    | zero => omega
    | succ k => simp
  · rw [List.take_append_of_le_length (Nat.le_of_not_lt hlen)] at he ⊢
    obtain ⟨front, back, hfront⟩ := List.append_of_mem he
    refine ⟨front, back, hfront, fun a ha => ?_⟩
    have hmem : a ∈ before.take limit := hfront ▸ List.mem_append_left _ ha
    exact hb a (List.mem_of_mem_take hmem)

theorem quiet_of_waits (h : Waits limit verdict l e) (he : e ∉ l.take limit) :
    throwing verdict (l.take limit) = false := by
  obtain ⟨before, after, hl, hb, _⟩ := h
  rw [← List.take_append_drop limit l] at hl
  obtain ⟨rest, rfl, _⟩ := split_behind he hl
  exact quiet_iff.mpr fun a ha => hb a (List.mem_append_left _ ha)

/-- A row that waits behind the window has a consumable one in it. -/
theorem drain_shrinks (h : Waits limit verdict l e) (he : e ∉ l.take limit) :
    (drain limit verdict l).length < l.length := by
  obtain ⟨before, after, hl, hb, hc⟩ := h
  have hsplit := hl
  rw [← List.take_append_drop limit l] at hsplit
  obtain ⟨rest, rfl, hdrop⟩ := split_behind he hsplit
  have hfull : (l.take limit).length = limit := by
    have hlen := congrArg List.length hdrop
    simp only [List.length_drop, List.length_append, List.length_cons] at hlen
    simp only [List.length_take]
    omega
  have hstuck : stuckCount verdict (l.take limit) < (l.take limit).length := by
    simp only [stuckCount, List.countP_append] at hc ⊢
    omega
  have hconsumed : ∃ a ∈ l.take limit, ¬ decide (verdict a ≠ .consumed) = true := by
    by_contra hnone
    refine Nat.lt_irrefl _ (Nat.lt_of_lt_of_eq hstuck (List.countP_eq_length.mpr ?_).symm)
    intro a ha
    have hnot := hb a (List.mem_append_left _ ha)
    have hkeep : verdict a ≠ .consumed := fun hv => hnone ⟨a, ha, by simp [hv]⟩
    cases hv : verdict a with
    | consumed => exact absurd hv hkeep
    | stuck => rfl
    | aborting => exact absurd hv hnot
  have hfilter := List.length_filter_lt_length_iff_exists.mpr hconsumed
  have hwhole := congrArg List.length (List.take_append_drop limit l)
  simp only [drain, List.length_append] at hwhole ⊢
  omega

end Drain

section Passes

variable {τ : Type} {verdict : α → Verdict} {limit : Nat} {e : α} {pass : τ → τ}
  {queue : τ → List α} {I : τ → Prop}

/-- How a queue develops over passes that keep `I`. -/
structure Drains (limit : Nat) (verdict : α → Verdict) (pass : τ → τ) (queue : τ → List α)
    (I : τ → Prop) : Prop where
  keeps : ∀ t, I t → I (pass t)
  quiet : ∀ t, I t → throwing verdict ((queue t).take limit) = false →
    queue (pass t) = drain limit verdict (queue t)
  throws : ∀ t, I t → throwing verdict ((queue t).take limit) = true → queue (pass t) = queue t

theorem waits_of_reached (h : Drains limit verdict pass queue I) (n : Nat) {t : τ} (ht : I t)
    (hn : Reached verdict ((queue (pass^[n] t)).take limit) e) : Waits limit verdict (queue t) e := by
  induction n generalizing t with
  | zero => exact waits_of_window hn
  | succ n ih =>
    have hnext := ih (h.keeps t ht) hn
    cases hthrow : throwing verdict ((queue t).take limit) with
    | true => rwa [h.throws t ht hthrow] at hnext
    | false =>
      by_cases he : e ∈ (queue t).take limit
      · exact waits_of_window (reached_of_quiet hthrow he)
      · rw [h.quiet t ht hthrow] at hnext
        exact (waits_drain_iff hthrow he).mp hnext

/-- Every pass before the row comes up removes a row ahead of it. -/
theorem reached_of_waits (h : Drains limit verdict pass queue I) {t : τ} (ht : I t)
    (hw : Waits limit verdict (queue t) e) :
    ∃ n ≤ (queue t).length, Reached verdict ((queue (pass^[n] t)).take limit) e := by
  induction hlen : (queue t).length using Nat.strongRecOn generalizing t with
  | ind k ih =>
    subst hlen
    by_cases he : e ∈ (queue t).take limit
    · exact ⟨0, Nat.zero_le _, reached_of_window hw he⟩
    · have hquiet := quiet_of_waits hw he
      have hnext : queue (pass t) = drain limit verdict (queue t) := h.quiet t ht hquiet
      have hshrinks := drain_shrinks hw he
      rw [← hnext] at hshrinks
      have hwaits : Waits limit verdict (queue (pass t)) e := by
        rw [hnext]
        exact (waits_drain_iff hquiet he).mpr hw
      obtain ⟨n, hn, hr⟩ := ih _ hshrinks (h.keeps t ht) hwaits rfl
      exact ⟨n + 1, by omega, hr⟩

end Passes

end WindowedQueue
