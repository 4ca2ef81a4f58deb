import Hansa.Library.ExactNumbers
import Hansa.Verif.FloatLaws

/-!
# The program over exact numbers

Read over exact numbers, the program does not round. What is proved of any lawful arithmetic
holds of this one, and its operations on real numbers are those of the reals.
-/

namespace Hansa

/-- Exact numbers. -/
noncomputable instance : FloatLike Exact where
  partialCmp := Exact.partialCmp
  isFinite := Exact.isNum
  infinity := .infinite false
  sqrt := Exact.sqrt
  exp := Exact.exp
  abs := Exact.abs
  ofNat n := .num n
  floorToU32 a := UInt32.ofNat (a.floorTo (2 ^ 32 - 1))

/-- There is no wider format than the exact one. -/
instance : Widen Exact Exact where
  widen x := x

/-- Exact numbers are ordered, and their factors may be swapped. -/
noncomputable instance : LawfulFloat Exact where
  Place := EReal
  order := inferInstance
  place := Exact.place
  partialCmp_place _ _ := rfl
  mul_comm := Exact.mul_swap

section Numbers

open Exact (num)

/-- What is finite is a real number. -/
theorem isFinite_iff {a : Exact} : FloatLike.isFinite a = true ↔ ∃ x, a = num x :=
  Exact.isNum_iff

variable {x y : ℝ}

/-- Whether one real number is below another. -/
theorem lt_num : FloatLike.lt (num x) (num y) = true ↔ x < y := by
  have compared : FloatLike.partialCmp (num x) (num y) = some (compare x y) :=
    Exact.partialCmp_num
  rw [FloatLike.lt, compared, beq_iff_eq, Option.some_inj]
  exact compare_lt_iff_lt

/-- Whether one real number is at most another. -/
theorem le_num : FloatLike.le (num x) (num y) = true ↔ x ≤ y := by
  have compared : FloatLike.partialCmp (num x) (num y) = some (compare x y) :=
    Exact.partialCmp_num
  rw [FloatLike.le, compared, Option.any_some, Ordering.isLE_iff_ne_gt]
  exact compare_le_iff_le

/-- Whether a real number is another. -/
theorem eq_num : FloatLike.eq (num x) (num y) = true ↔ x = y := by
  have compared : FloatLike.partialCmp (num x) (num y) = some (compare x y) :=
    Exact.partialCmp_num
  rw [FloatLike.eq, compared, beq_iff_eq, Option.some_inj]
  exact compare_eq_iff_eq

/-- Whether one real number is at most another, in descending order. -/
theorem descending_num : descending (num x) (num y) ≠ .gt ↔ y ≤ x := by
  have atX : LawfulFloat.place (num x) = some (x : EReal) := rfl
  have atY : LawfulFloat.place (num y) = some (y : EReal) := rfl
  rw [LawfulFloat.descending_place atX atY, compare_le_iff_le, EReal.coe_le_coe_iff]

/-- Real numbers are numbers. -/
theorem isNaN_num : FloatLike.isNaN (num x) = false := by
  have compared : FloatLike.partialCmp (num x) (num x) = some (compare x x) :=
    Exact.partialCmp_num
  rw [FloatLike.isNaN, compared]
  rfl

/-- The smaller of two real numbers. -/
@[simp] theorem min_num (x y : ℝ) : FloatLike.min (num x) (num y) = num (min x y) := by
  rw [FloatLike.min, if_neg (by simp [isNaN_num])]
  by_cases below : y < x
  · rw [if_pos (lt_num.mpr below), min_eq_right below.le]
  · rw [if_neg (fun held => below (lt_num.mp held)), min_eq_left (not_lt.mp below)]

/-- Every real number is below infinity. -/
theorem lt_infinity (x : ℝ) : FloatLike.lt (num x) FloatLike.infinity = true := by
  have compared : FloatLike.partialCmp (num x) FloatLike.infinity =
      some (compare (x : EReal) ⊤) := rfl
  rw [FloatLike.lt, compared, compare_lt_iff_lt.mpr (EReal.coe_lt_top x)]
  rfl

/-- A real number is the minimum with infinity. -/
theorem min_infinity (x : ℝ) : FloatLike.min FloatLike.infinity (num x) = num x := by
  have below := lt_infinity x
  have number : FloatLike.isNaN (FloatLike.infinity : Exact) = false := by
    have compared : FloatLike.partialCmp (FloatLike.infinity : Exact) FloatLike.infinity =
        some (compare (⊤ : EReal) ⊤) := rfl
    rw [FloatLike.isNaN, compared]
    rfl
  rw [FloatLike.min, number, below]
  rfl

/-- The least of some real numbers. -/
theorem foldl_min_num {xs : List ℝ} {low : ℝ} (least : xs.min? = some low) :
    (xs.map num).foldl FloatLike.min FloatLike.infinity = num low := by
  have step : ∀ (ys : List ℝ) (m : ℝ),
      (ys.map num).foldl FloatLike.min (num m) = num (ys.foldl min m) := by
    intro ys
    induction ys with
    | nil => exact fun _ => rfl
    | cons y ys ih =>
      intro m
      rw [List.map_cons, List.foldl_cons, List.foldl_cons, min_num]
      exact ih _
  cases xs with
  | nil => cases least
  | cons x xs =>
    rw [List.map_cons, List.foldl_cons, min_infinity, step]
    exact congrArg num (Option.some.inj least)

/-- The sum of real numbers. -/
theorem sum_num (xs : List ℝ) : FloatLike.sum (xs.map num) = num xs.sum := by
  have step : ∀ (ys : List ℝ) (acc : ℝ),
      (ys.map num).foldl (· + ·) (num acc) = num (acc + ys.sum) := by
    intro ys
    induction ys with
    | nil => exact fun acc => congrArg num (add_zero acc).symm
    | cons y ys ih =>
      intro acc
      rw [List.map_cons, List.foldl_cons, Exact.num_add, ih, List.sum_cons, add_assoc]
  have zero : (-0.0 : Exact) = num 0 := by
    rw [Exact.literal, Exact.num_neg]
    norm_num
  rw [FloatLike.sum, zero, step, zero_add]

end Numbers

end Hansa
