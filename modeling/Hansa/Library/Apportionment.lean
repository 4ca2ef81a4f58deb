import Mathlib.Algebra.BigOperators.Ring.Finset
import Mathlib.Algebra.BigOperators.Ring.List
import Mathlib.Algebra.Order.Archimedean.Real.Basic
import Mathlib.Algebra.Order.BigOperators.Group.List
import Mathlib.Algebra.Order.Floor.Semiring
import Mathlib.Tactic.FieldSimp
import Mathlib.Tactic.Positivity

/-!
# Proportional shares of a whole

A whole is split over positive weights in proportion to them. The shares add up to the whole,
their floors to no more, and a heavier weight has no smaller share. Where the weights differ
little, no share is far below an equal one.
-/

namespace Apportionment

/-- The share of one weight among others. -/
noncomputable def share (weights : List ℝ) (whole : ℕ) (w : ℝ) : ℝ :=
  w / weights.sum * whole

variable {weights : List ℝ} (whole : ℕ)

/-- Positive weights have a positive sum. -/
theorem sum_pos (some_ : weights ≠ []) (positive : ∀ w ∈ weights, 0 < w) : 0 < weights.sum :=
  List.sum_pos weights positive some_

/-- No share is negative. -/
theorem share_nonneg (positive : ∀ w ∈ weights, 0 < w) {w : ℝ} (member : w ∈ weights) :
    0 ≤ share weights whole w := by
  have some_ : weights ≠ [] := List.ne_nil_of_mem member
  have sum := sum_pos some_ positive
  have own := positive w member
  unfold share
  positivity

/-- A heavier weight has no smaller share. -/
theorem share_mono (some_ : weights ≠ []) (positive : ∀ w ∈ weights, 0 < w) {v w : ℝ}
    (lighter : v ≤ w) : share weights whole v ≤ share weights whole w := by
  have sum := sum_pos some_ positive
  unfold share
  gcongr

/-- The shares add up to the whole. -/
theorem sum_share (some_ : weights ≠ []) (positive : ∀ w ∈ weights, 0 < w) :
    (weights.map (share weights whole)).sum = whole := by
  have sum := sum_pos some_ positive
  have scaled : share weights whole = fun w => w * (whole / weights.sum) := by
    funext w
    unfold share
    ring
  rw [scaled, List.sum_map_mul_right, List.map_id']
  field_simp

/-- The floors of the shares add up to no more than the whole. -/
theorem sum_floor_share_le (some_ : weights ≠ []) (positive : ∀ w ∈ weights, 0 < w) :
    (weights.map fun w => ⌊share weights whole w⌋₊).sum ≤ whole := by
  have floors : ∀ w ∈ weights, ((⌊share weights whole w⌋₊ : ℕ) : ℝ) ≤ share weights whole w :=
    fun w member => Nat.floor_le (share_nonneg whole positive member)
  have below := List.sum_le_sum floors
  rw [sum_share whole some_ positive] at below
  have cast : ((weights.map fun w => ⌊share weights whole w⌋₊).sum : ℝ) =
      (weights.map fun w => ((⌊share weights whole w⌋₊ : ℕ) : ℝ)).sum := by
    rw [Nat.cast_list_sum, List.map_map]
    rfl
  rw [← cast] at below
  exact_mod_cast below

/-- The floor of a share is no more than the whole. -/
theorem floor_share_le (positive : ∀ w ∈ weights, 0 < w) {w : ℝ} (member : w ∈ weights) :
    ⌊share weights whole w⌋₊ ≤ whole := by
  have some_ : weights ≠ [] := List.ne_nil_of_mem member
  have one := List.single_le_sum (l := weights.map fun w => ⌊share weights whole w⌋₊)
    (fun _ _ => Nat.zero_le _) _ (List.mem_map_of_mem member)
  exact one.trans (sum_floor_share_le whole some_ positive)

/-- Where weights lie between two bounds, a whole that is large enough gives everyone a share
of at least one. -/
theorem one_le_floor_share (positive : ∀ w ∈ weights, 0 < w) {low high : ℝ}
    (above : ∀ w ∈ weights, low ≤ w) (below : ∀ w ∈ weights, w ≤ high)
    (large : weights.length * high ≤ low * whole) {w : ℝ} (member : w ∈ weights) :
    1 ≤ ⌊share weights whole w⌋₊ := by
  have some_ : weights ≠ [] := List.ne_nil_of_mem member
  have sum := sum_pos some_ positive
  have bounded : weights.sum ≤ weights.length * high := by
    have each := List.sum_le_card_nsmul weights high below
    rwa [nsmul_eq_mul] at each
  apply Nat.le_floor
  unfold share
  rw [Nat.cast_one, div_mul_eq_mul_div, le_div_iff₀ sum, one_mul]
  calc weights.sum ≤ weights.length * high := bounded
    _ ≤ low * whole := large
    _ ≤ w * whole := by
      have least := above w member
      gcongr

end Apportionment
