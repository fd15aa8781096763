import Mathlib.Probability.Distributions.Uniform

/-! # Sums of random elements

A secret of a commutative group is shared as `n` uniform elements and the difference that is
left to it. All shares add up to the secret; without one of them nothing depends on it. -/
namespace AdditiveSharing

section Uniform

variable {Ω V : Type*} [Fintype Ω] [Nonempty Ω]

theorem map_uniform_equiv (φ : Ω ≃ Ω) :
    (PMF.uniformOfFintype Ω).map φ = PMF.uniformOfFintype Ω := by
  ext ω
  rw [PMF.map_apply, tsum_eq_single (φ.symm ω)]
  · simp
  · intro ω' hω'
    have : ω ≠ φ ω' := fun h => hω' (by simp [h])
    simp [this]

/-- Two views have one distribution if renaming the coins turns one into the other. -/
theorem map_uniform_congr {f g : Ω → V} (φ : Ω ≃ Ω) (h : ∀ ω, g (φ ω) = f ω) :
    (PMF.uniformOfFintype Ω).map f = (PMF.uniformOfFintype Ω).map g := by
  have hf : f = g ∘ φ := funext fun ω => (h ω).symm
  rw [hf, ← PMF.map_comp, map_uniform_equiv]

end Uniform

variable {G : Type*} [AddCommGroup G] {n : ℕ}

/-- The share that is not random. -/
def remainder (secret : G) (r : Fin n → G) : G := secret - ∑ i, r i

theorem sum_add_remainder (secret : G) (r : Fin n → G) :
    ∑ i, r i + remainder secret r = secret := by
  simp [remainder]

/-- The coins that put `d` onto one share and leave the others. -/
def shift (i : Fin n) (d : G) : (Fin n → G) ≃ (Fin n → G) where
  toFun r := Function.update r i (r i + d)
  invFun r := Function.update r i (r i - d)
  left_inv r := by simp
  right_inv r := by simp

theorem shift_of_ne {i j : Fin n} (hj : j ≠ i) (d : G) (r : Fin n → G) : shift i d r j = r j :=
  Function.update_of_ne hj _ _

theorem sum_shift (i : Fin n) (d : G) (r : Fin n → G) : ∑ j, shift i d r j = ∑ j, r j + d := by
  have split : ∑ j, r j = r i + ∑ j ∈ Finset.univ \ {i}, r j := by
    rw [← Finset.sum_sdiff (Finset.subset_univ {i}), Finset.sum_singleton, add_comm]
  calc ∑ j, shift i d r j = r i + d + ∑ j ∈ Finset.univ \ {i}, r j :=
        Finset.sum_update_of_mem (Finset.mem_univ i) r _
    _ = ∑ j, r j + d := by
        rw [split]
        abel

/-- What the secret gains is taken up by the shifted share. -/
theorem remainder_shift (i : Fin n) (secret d : G) (r : Fin n → G) :
    remainder (secret + d) (shift i d r) = remainder secret r := by
  simp only [remainder, sum_shift]
  abel

variable [Fintype G]

/-- A view that leaves out the share `i` has the same distribution for all secrets. -/
theorem map_uniform_hidden {V : Type*} (view : (Fin n → G) → G → V) (i : Fin n)
    (hview : ∀ r r' last, (∀ j, j ≠ i → r j = r' j) → view r last = view r' last)
    (secret secret' : G) :
    (PMF.uniformOfFintype (Fin n → G)).map (fun r => view r (remainder secret r)) =
      (PMF.uniformOfFintype (Fin n → G)).map (fun r => view r (remainder secret' r)) := by
  refine map_uniform_congr (shift i (secret' - secret)) fun r => ?_
  have hlast : remainder secret' (shift i (secret' - secret) r) = remainder secret r := by
    rw [← remainder_shift i secret (secret' - secret) r, add_sub_cancel]
  rw [hlast]
  exact hview _ _ _ fun j hj => shift_of_ne hj _ r

end AdditiveSharing
