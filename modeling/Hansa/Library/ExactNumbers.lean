import Mathlib.Analysis.Real.Sqrt
import Mathlib.Analysis.SpecialFunctions.Exp
import Mathlib.Data.EReal.Basic

/-!
# Exact numbers with the special values of IEEE 754

The real numbers, the two infinities and a value that is no number. An operation on real
numbers is the operation of the reals, without rounding and without a range; special values
combine as IEEE 754 has it. There is one zero, and it counts as positive.
-/

/-- A real number, an infinity or NaN. -/
inductive Exact where
  /-- What is no number. -/
  | nan
  /-- An infinity, with its sign. -/
  | infinite (negative : Bool)
  /-- A real number. -/
  | num (x : ℝ)

namespace Exact

/-- Whether a value is a real number. -/
def isNum : Exact → Bool
  | num _ => true
  | _ => false

/-- A value is a real number when it is one. -/
theorem isNum_iff {a : Exact} : a.isNum = true ↔ ∃ x, a = num x := by
  cases a <;> simp [isNum]

noncomputable section

/-! ## Operations -/

/-- The opposite. -/
protected def neg : Exact → Exact
  | nan => nan
  | infinite negative => infinite (!negative)
  | num x => num (-x)

/-- The sum; opposite infinities have none. -/
protected def add : Exact → Exact → Exact
  | num x, num y => num (x + y)
  | infinite s, infinite t => if s = t then infinite s else nan
  | infinite s, num _ => infinite s
  | num _, infinite s => infinite s
  | nan, _ => nan
  | _, nan => nan

/-- The product; an infinity has none with zero. -/
protected def mul : Exact → Exact → Exact
  | num x, num y => num (x * y)
  | infinite s, infinite t => infinite (s ^^ t)
  | infinite s, num y => if y = 0 then nan else infinite (s ^^ decide (y < 0))
  | num x, infinite t => if x = 0 then nan else infinite (t ^^ decide (x < 0))
  | nan, _ => nan
  | _, nan => nan

/-- The quotient; zero has none by zero, and an infinity has none by an infinity. -/
protected def div : Exact → Exact → Exact
  | num x, num y =>
    if y = 0 then if x = 0 then nan else infinite (decide (x < 0)) else num (x / y)
  | infinite _, infinite _ => nan
  | infinite s, num y => infinite (s ^^ decide (y < 0))
  | num _, infinite _ => num 0
  | nan, _ => nan
  | _, nan => nan

/-- The square root; what is negative has none. -/
def sqrt : Exact → Exact
  | num x => if x < 0 then nan else num (Real.sqrt x)
  | infinite false => infinite false
  | _ => nan

/-- The exponential. -/
def exp : Exact → Exact
  | num x => num (Real.exp x)
  | infinite true => num 0
  | infinite false => infinite false
  | nan => nan

/-- The absolute value. -/
def abs : Exact → Exact
  | num x => num |x|
  | infinite _ => infinite false
  | nan => nan

/-- The place in the order; NaN has none. -/
def place : Exact → Option EReal
  | nan => none
  | infinite true => some ⊥
  | infinite false => some ⊤
  | num x => some (x : EReal)

/-- The comparison; no answer when an argument is NaN. -/
def partialCmp (a b : Exact) : Option Ordering :=
  a.place.bind fun x => b.place.map fun y => compare x y

/-- The floor as a natural number, which is cut at a largest value; NaN and what is negative
are taken to zero. -/
def floorTo (most : Nat) : Exact → Nat
  | num x => min ⌊x⌋₊ most
  | infinite false => most
  | _ => 0

/-- The ceiling as a natural number, which is cut at a largest value; NaN and what is negative
are taken to zero. -/
def ceilTo (most : Nat) : Exact → Nat
  | num x => min ⌈x⌉₊ most
  | infinite false => most
  | _ => 0

instance : Neg Exact := ⟨Exact.neg⟩
instance : Add Exact := ⟨Exact.add⟩
instance : Sub Exact := ⟨fun a b => a + -b⟩
instance : Mul Exact := ⟨Exact.mul⟩
instance : Div Exact := ⟨Exact.div⟩
instance : OfScientific Exact := ⟨fun mantissa down exponent =>
  num (OfScientific.ofScientific mantissa down exponent)⟩

/-! ## Operations on real numbers -/

section Numbers

variable (x y : ℝ)

@[simp] theorem num_neg : -num x = num (-x) := rfl

@[simp] theorem num_add : num x + num y = num (x + y) := rfl

@[simp] theorem num_sub : num x - num y = num (x - y) :=
  congrArg num (sub_eq_add_neg x y).symm

@[simp] theorem num_mul : num x * num y = num (x * y) := rfl

variable {x y}

/-- A quotient by a number that is not zero. -/
theorem num_div (nonzero : y ≠ 0) : num x / num y = num (x / y) := if_neg nonzero

/-- The root of a number that is not negative. -/
theorem sqrt_num (nonneg : 0 ≤ x) : sqrt (num x) = num (Real.sqrt x) := if_neg nonneg.not_gt

/-- Decimal literals are numbers. -/
theorem literal (mantissa : Nat) (down : Bool) (exponent : Nat) :
    (OfScientific.ofScientific mantissa down exponent : Exact) =
      num (OfScientific.ofScientific mantissa down exponent) := rfl

/-- The literal of zero. -/
theorem literal_zero : (0.0 : Exact) = num 0 := by
  rw [literal]
  norm_num

/-- The literal of one. -/
theorem literal_one : (1.0 : Exact) = num 1 := by
  rw [literal]
  norm_num

/-- Real numbers compare as they do among the reals. -/
@[simp] theorem partialCmp_num : partialCmp (num x) (num y) = some (compare x y) := by
  have same : compare (x : EReal) (y : EReal) = compare x y := by
    rw [← cmp_eq_compare, ← cmp_eq_compare]
    exact EReal.coe_strictMono.cmp_map_eq x y
  exact congrArg some same

end Numbers

/-- Factors may be swapped. -/
theorem mul_swap (a b : Exact) : a * b = b * a := by
  show Exact.mul a b = Exact.mul b a
  cases a <;> cases b <;> simp [Exact.mul, mul_comm, Bool.xor_comm]

/-! ## Operations on special values -/

/-- A sum with a special value is special. -/
theorem isNum_add {a b : Exact} (special : a.isNum = false) : (a + b).isNum = false := by
  show (Exact.add a b).isNum = false
  cases a with
  | num x => cases special
  | nan => cases b <;> rfl
  | infinite s =>
    cases b with
    | infinite t => by_cases same : s = t <;> simp [Exact.add, isNum, same]
    | _ => rfl

/-- Summands may be swapped. -/
theorem add_swap (a b : Exact) : a + b = b + a := by
  show Exact.add a b = Exact.add b a
  cases a with
  | infinite s =>
    cases b with
    | infinite t => cases s <;> cases t <;> rfl
    | _ => rfl
  | num x =>
    cases b with
    | num y => exact congrArg num (add_comm x y)
    | _ => rfl
  | nan => cases b <;> rfl

/-- A product with a special value is special. -/
theorem isNum_mul {a b : Exact} (special : a.isNum = false) : (a * b).isNum = false := by
  show (Exact.mul a b).isNum = false
  cases a with
  | num x => cases special
  | nan => cases b <;> rfl
  | infinite s =>
    cases b with
    | num y => by_cases zero : y = 0 <;> simp [Exact.mul, isNum, zero]
    | _ => rfl

/-- The root of a special value is special. -/
theorem isNum_sqrt {a : Exact} (special : a.isNum = false) : a.sqrt.isNum = false := by
  cases a with
  | num x => cases special
  | nan => rfl
  | infinite s => cases s <;> rfl

/-- Special values have no quotient. -/
theorem div_special {a b : Exact} (special : a.isNum = false) (by_ : b.isNum = false) :
    a / b = nan := by
  show Exact.div a b = nan
  cases a with
  | num x => cases special
  | _ =>
    cases b with
    | num y => cases by_
    | _ => rfl

/-- A ceiling is cut at the largest value. -/
theorem ceilTo_le (most : Nat) (a : Exact) : a.ceilTo most ≤ most := by
  cases a with
  | nan => exact Nat.zero_le _
  | num x => exact min_le_right _ _
  | infinite s =>
    cases s with
    | true => exact Nat.zero_le _
    | false => exact le_rfl

/-- The ceiling of a product with a fixed factor grows with the other one. -/
theorem ceilTo_mul_mono {x y : ℝ} (nonneg : 0 ≤ x) (le : x ≤ y) (a : Exact) (most : Nat) :
    (num x * a).ceilTo most ≤ (num y * a).ceilTo most := by
  show (Exact.mul (num x) a).ceilTo most ≤ (Exact.mul (num y) a).ceilTo most
  cases a with
  | nan => exact le_rfl
  | infinite s =>
    by_cases zero : x = 0
    · rw [Exact.mul, if_pos zero]
      exact Nat.zero_le _
    · have positive : 0 < x := nonneg.lt_of_ne' zero
      have greater : 0 < y := positive.trans_le le
      rw [Exact.mul, Exact.mul, if_neg zero, if_neg greater.ne', decide_eq_false positive.not_gt,
        decide_eq_false greater.not_gt]
  | num r =>
    show min ⌈x * r⌉₊ most ≤ min ⌈y * r⌉₊ most
    apply min_le_min_right
    by_cases sign : 0 ≤ r
    · exact Nat.ceil_mono (mul_le_mul_of_nonneg_right le sign)
    · have below : x * r ≤ 0 := mul_nonpos_of_nonneg_of_nonpos nonneg (not_le.mp sign).le
      rw [Nat.ceil_eq_zero.mpr below]
      exact Nat.zero_le _

end

end Exact
