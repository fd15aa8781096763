import Mathlib.Algebra.Order.Group.Defs
import Mathlib.Algebra.Order.Sub.Defs
import Mathlib.Data.List.Induction
import Mathlib.Tactic.TypeStar

/-! # Sliding windows over a log of times

A log holds the times of what was admitted, oldest first. A limiter keeps a shorter list in its
place; `Represents cut` says that the two agree on every time after `cut`, which is all that a
window reaching back to `cut` reads. `Admitted` are the logs a limiter can produce. -/
namespace SlidingWindow

variable {τ : Type*} [LinearOrder τ]

/-- The times of a log after `cut`. -/
def after (cut : τ) (log : List τ) : List τ := log.filter (cut < ·)

/-- `kept` answers for `log` in every window that starts at `cut` or later. -/
def Represents (cut : τ) (kept log : List τ) : Prop := ∀ x, cut ≤ x → after x kept = after x log

section Represents

variable {cut x t : τ} {kept log : List τ}

theorem after_append {log' : List τ} : after x (log ++ log') = after x log ++ after x log' :=
  List.filter_append ..

theorem after_after (h : cut ≤ x) : after x (after cut log) = after x log := by
  unfold after
  rw [List.filter_filter]
  apply List.filter_congr
  intro t _
  by_cases hx : x < t
  · simp [hx, lt_of_le_of_lt h hx]
  · simp [hx]

theorem after_length_le (h : cut ≤ x) : (after x log).length ≤ (after cut log).length := by
  rw [← after_after h]
  exact List.length_filter_le ..

theorem after_eq_nil : after x log = [] ↔ ∀ t ∈ log, t ≤ x := by
  simp [after]

theorem Represents.refl : Represents cut log log := fun _ _ => rfl

theorem Represents.mono (h : Represents cut kept log) (hx : cut ≤ x) : Represents x kept log :=
  fun y hy => h y (hx.trans hy)

/-- The lazy trim: what has left the window is dropped from the list that is kept. -/
theorem Represents.trim (h : Represents cut kept log) (hx : cut ≤ x) :
    Represents x (after x kept) log := by
  intro y hy
  rw [after_after hy]
  exact h y (hx.trans hy)

theorem Represents.push (h : Represents cut kept log) :
    Represents cut (kept ++ [t]) (log ++ [t]) := by
  intro x hx
  rw [after_append, after_append, h x hx]

/-- The purge: a log that has left the window altogether needs no list. -/
theorem Represents.forget (h : ∀ t ∈ log, t ≤ cut) : Represents cut [] log := by
  intro x hx
  rw [after_eq_nil.mpr fun t ht => (h t ht).trans hx]
  rfl

end Represents

section Window

variable [AddCommGroup τ] {width now t : τ} {limit : ℕ} {log : List τ}

/-- The times of a log in `(now - width, now]`. -/
def window (width now : τ) (log : List τ) : List τ :=
  log.filter fun t => now - width < t ∧ t ≤ now

/-- Each time was admitted while its own window held fewer than `limit` of those before it. -/
inductive Admitted (width : τ) (limit : ℕ) : List τ → Prop
  | nil : Admitted width limit []
  | push {log : List τ} {now : τ} : Admitted width limit log → (∀ t ∈ log, t ≤ now) →
      (window width now log).length < limit → Admitted width limit (log ++ [now])

theorem window_eq_after (h : ∀ t ∈ log, t ≤ now) :
    window width now log = after (now - width) log := by
  apply List.filter_congr
  intro t ht
  simp [h t ht]

theorem window_append {log' : List τ} :
    window width now (log ++ log') = window width now log ++ window width now log' :=
  List.filter_append ..

variable [IsOrderedAddMonoid τ]

/-- No window of the width, wherever it ends, holds more than the limit. -/
theorem Admitted.window_le (h : Admitted width limit log) (now : τ) :
    (window width now log).length ≤ limit := by
  induction h with
  | nil => simp [window]
  | @push log t _ hlog hroom ih =>
    by_cases ht : now - width < t ∧ t ≤ now
    · -- the last time in the window: its own window covers the rest of this one
      have hnow : ∀ u ∈ log, u ≤ now := fun u hu => (hlog u hu).trans ht.2
      have hle : (after (now - width) log).length ≤ (after (t - width) log).length :=
        after_length_le (sub_le_sub_right ht.2 width)
      rw [window_eq_after hlog] at hroom
      rw [window_append, window_eq_after hnow, List.length_append]
      have hlast : (window width now [t]).length ≤ 1 := List.length_filter_le ..
      omega
    · have hlast : window width now [t] = [] := by simpa [window] using ht
      rw [window_append, hlast, List.append_nil]
      exact ih

omit [IsOrderedAddMonoid τ] in
theorem Admitted.sorted (h : Admitted width limit log) : log.Pairwise (· ≤ ·) := by
  induction h with
  | nil => exact .nil
  | push _ hlog _ ih =>
    refine List.pairwise_append.mpr ⟨ih, List.pairwise_singleton .., fun a ha b hb => ?_⟩
    rw [List.mem_singleton.mp hb]
    exact hlog a ha

omit [IsOrderedAddMonoid τ] in
theorem Admitted.prefix {later : List τ} (h : Admitted width limit (log ++ later)) :
    Admitted width limit log := by
  induction later using List.reverseRecOn with
  | nil => simpa using h
  | append_singleton later t ih =>
    rw [← List.append_assoc] at h
    generalize hall : log ++ later ++ [t] = all at h
    cases h with
    | nil => simp at hall
    | push hbefore _ _ =>
      obtain ⟨hlog, -⟩ := List.append_inj' hall rfl
      exact ih (hlog ▸ hbefore)

/-- `limit` times after a given one, the window has moved on. -/
theorem Admitted.moved {early late : List τ} {a b : τ}
    (h : Admitted width limit (early ++ a :: late ++ [b])) (hlate : late.length + 1 = limit) :
    a + width ≤ b := by
  by_contra hab
  have hsorted := h.sorted
  -- else the window that ends at `b` still holds all of them
  have hwindow : ∀ t ∈ a :: late ++ [b], b - width < t ∧ t ≤ b := by
    rw [List.append_assoc] at hsorted
    have hfrom := (List.pairwise_append.mp hsorted).2.1
    intro t ht
    constructor
    · refine lt_of_lt_of_le (sub_lt_iff_lt_add.mpr (lt_of_not_ge hab)) ?_
      rcases List.mem_cons.mp ht with rfl | ht
      · exact le_rfl
      · exact List.rel_of_pairwise_cons hfrom ht
    · rcases List.mem_append.mp ht with ht | ht
      · exact (List.pairwise_append.mp hfrom).2.2 t ht b (List.mem_singleton_self b)
      · exact (List.mem_singleton.mp ht).le
  have hle := h.window_le b
  rw [List.append_assoc, window_append, List.length_append] at hle
  have hall : window width b (a :: late ++ [b]) = a :: late ++ [b] :=
    List.filter_eq_self.mpr fun t ht => decide_eq_true (hwindow t ht)
  rw [hall] at hle
  simp only [List.cons_append, List.length_cons, List.length_append, List.length_nil] at hle
  omega

/-- `k * limit` times after the first take `k` widths. -/
theorem Admitted.spread {early late : List τ} {a b : τ} (k : ℕ) (hlimit : 0 < limit)
    (h : Admitted width limit (early ++ late ++ [b])) (hlate : k * limit ≤ late.length)
    (hfirst : (late ++ [b]).head? = some a) : a + k • width ≤ b := by
  induction k generalizing late b with
  | zero =>
    have hsorted := h.sorted
    rw [List.append_assoc] at hsorted
    obtain ⟨rest, hrest⟩ := List.head?_eq_some_iff.mp hfirst
    rw [hrest] at hsorted
    have hb : b ∈ a :: rest := hrest ▸ List.mem_append_right _ (List.mem_singleton_self b)
    rcases List.mem_cons.mp hb with rfl | hb
    · simp
    · simpa using List.rel_of_pairwise_cons (List.pairwise_append.mp hsorted).2.1 hb
  | succ k ih =>
    rw [Nat.succ_mul] at hlate
    obtain ⟨before, c, between, rfl, hbetween⟩ :
        ∃ before c between, late = before ++ c :: between ∧ between.length + 1 = limit := by
      refine ⟨late.take (late.length - limit), _, late.drop (late.length - limit + 1),
        (List.take_append_drop _ late).symm.trans (congrArg _
          (List.drop_eq_getElem_cons (by omega))), ?_⟩
      rw [List.length_drop]
      omega
    have hk : k * limit ≤ before.length := by
      simp only [List.length_append, List.length_cons] at hlate
      omega
    have hc : a + k • width ≤ c := by
      have hearly : Admitted width limit ((early ++ before ++ [c]) ++ (between ++ [b])) := by
        simpa using h
      refine ih hearly.prefix hk ?_
      cases before with
      | nil => simpa using hfirst
      | cons x before => simpa using hfirst
    have hb : c + width ≤ b := by
      have hlate : Admitted width limit ((early ++ before) ++ c :: between ++ [b]) := by
        simpa using h
      exact hlate.moved hbetween
    calc a + (k + 1) • width = a + k • width + width := by rw [succ_nsmul, add_assoc]
      _ ≤ c + width := by gcongr
      _ ≤ b := hb

end Window

end SlidingWindow
