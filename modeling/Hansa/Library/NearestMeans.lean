import Mathlib.Analysis.InnerProductSpace.Basic
import Mathlib.Algebra.BigOperators.Ring.Finset
import Mathlib.Analysis.Convex.Combination

/-!
# Nearest centres and means

Points are grouped around centres, and a grouping costs the squares of the distances between
the points and the centres of their groups. The cost is least where every point has a nearest
centre, and moving the centre of a group to the mean of its points does not raise it. So
neither half of a step that alternates the two raises the cost.
-/

namespace NearestMeans

open Finset

variable {ι κ E : Type*} [NormedAddCommGroup E]

/-! ## Means -/

section Means

variable [InnerProductSpace ℝ E] (x : ι → E) {s : Finset ι}

/-- The mean of some points. -/
noncomputable def mean (s : Finset ι) : E := (s.card : ℝ)⁻¹ • ∑ i ∈ s, x i

/-- The deviations from the mean add up to nothing. -/
theorem sum_sub_mean (some_ : s.Nonempty) : ∑ i ∈ s, (x i - mean x s) = 0 := by
  have positive : (s.card : ℝ) ≠ 0 := Nat.cast_ne_zero.mpr some_.card_ne_zero
  rw [sum_sub_distrib, sum_const, ← Nat.cast_smul_eq_nsmul ℝ, mean, smul_inv_smul₀ positive,
    sub_self]

/-- The squares of the distances to a point exceed those to the mean by the square of its own
distance to the mean, once for each point. -/
theorem sum_norm_sub_sq (some_ : s.Nonempty) (y : E) :
    ∑ i ∈ s, ‖x i - y‖ ^ 2 =
      ∑ i ∈ s, ‖x i - mean x s‖ ^ 2 + s.card * ‖mean x s - y‖ ^ 2 := by
  have each : ∀ i ∈ s, ‖x i - y‖ ^ 2 = ‖x i - mean x s‖ ^ 2 +
      2 * inner ℝ (x i - mean x s) (mean x s - y) + ‖mean x s - y‖ ^ 2 := by
    intro i _
    rw [← norm_add_sq_real, sub_add_sub_cancel]
  rw [sum_congr rfl each, sum_add_distrib, sum_add_distrib, ← mul_sum, ← sum_inner,
    sum_sub_mean x some_, inner_zero_left, mul_zero, add_zero, sum_const, nsmul_eq_mul]

/-- No point has less total square distance than the mean. -/
theorem sum_norm_sub_mean_sq_le (some_ : s.Nonempty) (y : E) :
    ∑ i ∈ s, ‖x i - mean x s‖ ^ 2 ≤ ∑ i ∈ s, ‖x i - y‖ ^ 2 := by
  rw [sum_norm_sub_sq x some_ y]
  exact le_add_of_nonneg_right (mul_nonneg (Nat.cast_nonneg _) (sq_nonneg _))

/-- The mean of points of a convex set is in the set. -/
theorem mean_mem {C : Set E} (convex : Convex ℝ C) (some_ : s.Nonempty)
    (inside : ∀ i ∈ s, x i ∈ C) : mean x s ∈ C := by
  have positive : (s.card : ℝ) ≠ 0 := Nat.cast_ne_zero.mpr some_.card_ne_zero
  have weights : ∑ _i ∈ s, (s.card : ℝ)⁻¹ = 1 := by
    rw [sum_const, nsmul_eq_mul, mul_inv_cancel₀ positive]
  rw [mean, smul_sum]
  exact convex.sum_mem (fun _ _ => inv_nonneg.mpr (Nat.cast_nonneg _)) weights inside

end Means

/-! ## Groups -/

variable [Fintype ι]

/-- What a grouping costs. -/
def cost (x : ι → E) (a : ι → κ) (c : κ → E) : ℝ := ∑ i, ‖x i - c (a i)‖ ^ 2

variable (x : ι → E) (a : ι → κ) (c : κ → E)

/-- The cost depends on the centres of the groups of some point. -/
theorem cost_congr {c c' : κ → E} (same : ∀ i, c (a i) = c' (a i)) : cost x a c = cost x a c' :=
  sum_congr rfl fun i _ => by rw [same i]

variable {a} in
/-- A grouping around nearest centres costs least. -/
theorem cost_le_of_nearest (centres : Set κ)
    (nearest : ∀ i, ∀ j ∈ centres, ‖x i - c (a i)‖ ^ 2 ≤ ‖x i - c j‖ ^ 2) {a' : ι → κ}
    (inside : ∀ i, a' i ∈ centres) : cost x a c ≤ cost x a' c :=
  sum_le_sum fun i _ => nearest i (a' i) (inside i)

variable [DecidableEq κ]

/-- The points of a group. -/
def members (j : κ) : Finset ι := univ.filter fun i => a i = j

/-- The cost by groups. -/
theorem cost_eq_sum_members :
    cost x a c = ∑ j ∈ univ.image a, ∑ i ∈ members a j, ‖x i - c j‖ ^ 2 := by
  rw [cost, ← sum_fiberwise_of_maps_to fun i _ => mem_image_of_mem a (mem_univ i)]
  refine sum_congr rfl fun j _ => sum_congr rfl fun i member => ?_
  rw [(mem_filter.mp member).2]

variable [InnerProductSpace ℝ E]

/-- The centres moved to the means of their groups; that of an empty group stays. -/
noncomputable def moved (j : κ) : E :=
  if (members a j).Nonempty then mean x (members a j) else c j

/-- Moving the centres does not raise the cost. -/
theorem cost_moved_le : cost x a (moved x a c) ≤ cost x a c := by
  rw [cost_eq_sum_members, cost_eq_sum_members]
  refine sum_le_sum fun j _ => ?_
  by_cases some_ : (members a j).Nonempty
  · rw [moved, if_pos some_]
    exact sum_norm_sub_mean_sq_le x some_ (c j)
  · rw [moved, if_neg some_]

/-- Moving the centres does not leave a convex set that has the points. -/
theorem moved_mem {C : Set E} (convex : Convex ℝ C) (inside : ∀ i, x i ∈ C) {j : κ}
    (centre : c j ∈ C) : moved x a c j ∈ C := by
  by_cases some_ : (members a j).Nonempty
  · rw [moved, if_pos some_]
    exact mean_mem x convex some_ fun i _ => inside i
  · rw [moved, if_neg some_]
    exact centre

end NearestMeans
