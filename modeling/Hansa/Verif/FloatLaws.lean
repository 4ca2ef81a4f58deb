import Hansa.Membrane

/-!
# What is used of a floating-point format

Orders by a score need no more of a format than that its comparison is the comparison of places
in a linear order, where NaN has no place. A product need not be associative, but its factors
may be swapped. Both hold of `f32`.
-/

namespace Hansa

/-- A format whose numbers have places in a linear order, and whose product is commutative. -/
class LawfulFloat (F : Type) [FloatLike F] where
  /-- The places. -/
  Place : Type
  /-- They are linearly ordered. -/
  order : LinearOrder Place
  /-- The place of a number; NaN has none. -/
  place : F → Option Place
  /-- Numbers are compared by their places. -/
  partialCmp_place : ∀ a b : F, FloatLike.partialCmp a b =
    (place a).bind fun x => (place b).map fun y => compare x y
  /-- Factors may be swapped. -/
  mul_comm : ∀ a b : F, a * b = b * a

attribute [reducible, instance] LawfulFloat.order

open Float.Model in
/-- Rounded products are commutative. -/
theorem unpacked_mul_comm (spec : Format) (a b : UnpackedFloat) :
    UnpackedFloat.mul spec a b = UnpackedFloat.mul spec b a := by
  have signs : ∀ s s' : UnpackedFloat.Sign, s * s' = s' * s := by
    intro s s'
    cases s <;> cases s' <;> rfl
  cases a with
  | notANumber => cases b <;> rfl
  | infinity sign =>
    cases b with
    | notANumber | zero => rfl
    | infinity | finite => exact congrArg UnpackedFloat.infinity (signs ..)
  | zero sign =>
    cases b with
    | notANumber | infinity => rfl
    | zero | finite => exact congrArg UnpackedFloat.zero (signs ..)
  | finite sign mantissa exponent =>
    cases b with
    | notANumber => rfl
    | infinity => exact congrArg UnpackedFloat.infinity (signs ..)
    | zero => exact congrArg UnpackedFloat.zero (signs ..)
    | finite sign' mantissa' exponent' =>
      show UnpackedFloat.roundWithAccuracy spec (sign * sign') (mantissa * mantissa')
        (exponent + exponent') .exact = _
      rw [signs, Nat.mul_comm, Int.add_comm]
      rfl

/-- `f32` has both. -/
instance : LawfulFloat Float32 where
  Place := FloatPlace
  order := inferInstance
  place := Float32.place
  partialCmp_place a b := by
    show a.partialCmp b = _
    rw [Float32.partialCmp_place]
    cases a.place <;> cases b.place <;> rfl
  mul_comm a b := congrArg (fun x => Float32.ofModel (.pack x)) (unpacked_mul_comm ..)

namespace LawfulFloat

variable {F : Type} [FloatLike F] [LawfulFloat F]

/-- One number is at most another when its place is. -/
theorem le_iff {a b : F} : FloatLike.le a b = true ↔
    ∃ x y, place a = some x ∧ place b = some y ∧ x ≤ y := by
  rw [FloatLike.le, partialCmp_place]
  cases place a with
  | none => simp
  | some x =>
    cases place b with
    | none => simp
    | some y =>
      rw [Option.bind_some, Option.map_some, Option.any_some, Ordering.isLE_iff_ne_gt,
        ← ne_eq, compare_le_iff_le]
      simp

/-! ## Descending order -/

/-- Two numbers are compared by their places, the larger first. -/
theorem descending_place {a b : F} {x y : Place F} (atA : place a = some x)
    (atB : place b = some y) : descending a b = compare y x := by
  rw [descending, partialCmp_place, atA, atB]
  rfl

/-- What is no number compares equal to everything. -/
theorem descending_nan {a b : F} (nan : place a = none ∨ place b = none) :
    descending a b = .eq := by
  rw [descending, partialCmp_place]
  rcases nan with none_ | none_
  · rw [none_]
    cases place b <;> rfl
  · rw [none_]
    rfl

/-- Descending order by a number is a total preorder on elements that have one. -/
theorem totalPreorderOn_descending {α : Type} {f : α → F} {xs : List α}
    (numbers : ∀ a ∈ xs, (place (f a)).isSome) :
    TotalPreorderOn (fun a b => descending (f a) (f b)) xs := by
  have at_ : ∀ a ∈ xs, ∃ x, place (f a) = some x :=
    fun a member => Option.isSome_iff_exists.mp (numbers a member)
  constructor
  · intro a inA b inB
    obtain ⟨x, atA⟩ := at_ a inA
    obtain ⟨y, atB⟩ := at_ b inB
    rw [descending_place atA atB, descending_place atB atA]
    exact Std.OrientedCmp.eq_swap
  · intro a inA b inB c inC first next
    obtain ⟨x, atA⟩ := at_ a inA
    obtain ⟨y, atB⟩ := at_ b inB
    obtain ⟨z, atC⟩ := at_ c inC
    rw [descending_place atA atB, compare_le_iff_le] at first
    rw [descending_place atB atC, compare_le_iff_le] at next
    rw [descending_place atA atC, compare_le_iff_le]
    exact next.trans first

/-- Descending order is a total preorder exactly when there is no NaN, or when all numbers are
equal. -/
theorem totalPreorderOn_descending_iff {α : Type} {f : α → F} {xs : List α} :
    TotalPreorderOn (fun a b => descending (f a) (f b)) xs ↔
      (∀ a ∈ xs, (place (f a)).isSome) ∨
        ∀ a ∈ xs, ∀ b ∈ xs, ∀ x y, place (f a) = some x → place (f b) = some y → x ≤ y := by
  constructor
  · intro order
    by_contra neither
    obtain ⟨mixed, differ⟩ := not_or.mp neither
    push Not at mixed differ
    obtain ⟨n, inN, nan⟩ := mixed
    obtain ⟨a, inA, b, inB, x, y, atA, atB, above⟩ := differ
    have none_ : place (f n) = none := by simpa using nan
    have first : descending (f b) (f n) ≠ .gt := by
      rw [descending_nan (.inr none_)]
      decide
    have next : descending (f n) (f a) ≠ .gt := by
      rw [descending_nan (.inl none_)]
      decide
    refine order.trans b inB n inN a inA first next ?_
    rw [descending_place atB atA]
    exact compare_gt_iff_gt.mpr above
  · rintro (numbers | equal)
    · exact totalPreorderOn_descending numbers
    · have tied : ∀ a ∈ xs, ∀ b ∈ xs, descending (f a) (f b) = .eq := by
        intro a inA b inB
        cases atA : place (f a) with
        | none => exact descending_nan (.inl atA)
        | some x =>
          cases atB : place (f b) with
          | none => exact descending_nan (.inr atB)
          | some y =>
            have same : x = y :=
              le_antisymm (equal a inA b inB x y atA atB) (equal b inB a inA y x atB atA)
            rw [descending_place atA atB, same]
            exact compare_eq_iff_eq.mpr rfl
      constructor
      · intro a inA b inB
        rw [tied a inA b inB, tied b inB a inA]
        rfl
      · intro a inA b inB c inC _ _
        rw [tied a inA c inC]
        decide

end LawfulFloat

end Hansa
