import Mathlib.Data.Prod.Lex
import Mathlib.Order.Compare

/-!
# The order of IEEE numbers

The comparison of two floating-point numbers that are not NaN is the comparison of their
places in one linear order: the sign and kind first, then the exponent, then the mantissa.
Every law of the partial order on floats is read off that order. The two zeros share a place,
and NaN has none.
-/

/-- A place in the order: kind, exponent, mantissa, compared in that order. -/
abbrev FloatPlace := Int ×ₗ Int ×ₗ Int

namespace FloatPlace

/-- The place with the given parts. -/
def of (kind exponent mantissa : Int) : FloatPlace := toLex (kind, toLex (exponent, mantissa))

/-- Places are compared part by part. -/
theorem of_lt_of (k e m k' e' m' : Int) :
    of k e m < of k' e' m' ↔ k < k' ∨ k = k' ∧ (e < e' ∨ e = e' ∧ m < m') := by
  simp only [of, Prod.Lex.toLex_lt_toLex]

/-- Equal places have equal parts. -/
theorem of_eq_of (k e m k' e' m' : Int) :
    of k e m = of k' e' m' ↔ k = k' ∧ e = e' ∧ m = m' := by
  simp only [of, toLex_inj, Prod.mk.injEq]

/-- Positive numbers are compared by exponent, then by mantissa. -/
theorem compare_positive (e e' : Int) (m m' : Nat) :
    (compare e e').then (compare m m') = compare (of 1 e m) (of 1 e' m') := by
  rcases lt_trichotomy e e' with below | rfl | above
  · rw [compare_lt_iff_lt.mpr below, compare_lt_iff_lt.mpr ((of_lt_of ..).mpr (by omega))]
    rfl
  · rcases lt_trichotomy m m' with below | rfl | above
    · rw [compare_lt_iff_lt.mpr below, compare_lt_iff_lt.mpr ((of_lt_of ..).mpr (by omega))]
      simp
    · simp
    · rw [compare_gt_iff_gt.mpr above, compare_gt_iff_gt.mpr ((of_lt_of ..).mpr (by omega))]
      simp
  · rw [compare_gt_iff_gt.mpr above, compare_gt_iff_gt.mpr ((of_lt_of ..).mpr (by omega))]
    rfl

/-- Negative numbers are compared the other way round. -/
theorem compare_negative (e e' : Int) (m m' : Nat) :
    ((compare e e').then (compare m m')).swap =
      compare (of (-1) (-e) (-m)) (of (-1) (-e') (-m')) := by
  rw [compare_positive]
  rcases lt_trichotomy (of 1 e m) (of 1 e' m') with below | same | above
  · rw [compare_lt_iff_lt.mpr below]
    have parts := (of_lt_of ..).mp below
    exact (compare_gt_iff_gt.mpr ((of_lt_of ..).mpr (by omega))).symm
  · have parts := (of_eq_of ..).mp same
    rw [same, show of (-1) (-e) (-m) = of (-1) (-e') (-m') from (of_eq_of ..).mpr (by omega)]
    simp
  · rw [compare_gt_iff_gt.mpr above]
    have parts := (of_lt_of ..).mp above
    exact (compare_lt_iff_lt.mpr ((of_lt_of ..).mpr (by omega))).symm

end FloatPlace

namespace Float.Model.UnpackedFloat

open FloatPlace

/-- The place of a number; NaN has none. -/
def place : UnpackedFloat → Option FloatPlace
  | .notANumber => none
  | .infinity .negative => some (of (-2) 0 0)
  | .finite .negative m e _ => some (of (-1) (-e) (-m))
  | .zero _ => some (of 0 0 0)
  | .finite .positive m e _ => some (of 1 e m)
  | .infinity .positive => some (of 2 0 0)

/-- The IEEE comparison is the comparison of places. -/
theorem compare_place (a b : UnpackedFloat) :
    a.compare b = match a.place, b.place with
      | some x, some y => some (compare x y)
      | _, _ => none := by
  rcases a with (_ | _) | _ | (_ | _) | ⟨_ | _, m, e, _⟩ <;>
    rcases b with (_ | _) | _ | (_ | _) | ⟨_ | _, m', e', _⟩ <;>
    first
    | rfl
    | exact congrArg some (compare_positive _ _ _ _)
    | exact congrArg some (compare_negative _ _ _ _)

end Float.Model.UnpackedFloat

namespace Float32

/-- The place of a number; NaN has none. -/
def place (a : Float32) : Option FloatPlace := a.toModel.unpack.place

/-- The IEEE comparison, which NaN makes undefined. -/
def partialCmp (a b : Float32) : Option Ordering := Model.compare a.toModel b.toModel

/-- The comparison is defined between numbers with a place, by their places. -/
theorem partialCmp_place (a b : Float32) :
    a.partialCmp b = match a.place, b.place with
      | some x, some y => some (compare x y)
      | _, _ => none :=
  Float.Model.UnpackedFloat.compare_place _ _

/-- Strict order is the outcome `lt`. -/
theorem lt_iff_partialCmp (a b : Float32) : a < b ↔ a.partialCmp b = some .lt := by
  have computed : a < b ↔ decide (a.toModel < b.toModel) = true := Iff.rfl
  rw [computed, decide_eq_true_iff]
  exact beq_iff_eq

/-- Non-strict order is an outcome other than `gt`. -/
theorem le_iff_partialCmp (a b : Float32) : a ≤ b ↔ (a.partialCmp b).any (·.isLE) = true := by
  have computed : a ≤ b ↔ decide (a.toModel ≤ b.toModel) = true := Iff.rfl
  rw [computed, decide_eq_true_iff]
  exact Iff.rfl

/-- Strict order is strict order of places. -/
theorem lt_iff_place (a b : Float32) :
    a < b ↔ ∃ x ∈ a.place, ∃ y ∈ b.place, x < y := by
  rw [lt_iff_partialCmp, partialCmp_place]
  cases a.place with
  | none => simp
  | some x =>
    cases b.place with
    | none => simp
    | some y => simp [compare_lt_iff_lt]

/-- Non-strict order is non-strict order of places. -/
theorem le_iff_place (a b : Float32) :
    a ≤ b ↔ ∃ x ∈ a.place, ∃ y ∈ b.place, x ≤ y := by
  rw [le_iff_partialCmp, partialCmp_place]
  cases a.place with
  | none => simp
  | some x =>
    cases b.place with
    | none => simp
    | some y => simpa [Ordering.isLE_iff_ne_gt] using compare_gt_iff_gt.not.trans not_lt

/-- A finite number has a place. -/
theorem isSome_place_of_isFinite {a : Float32} (finite : a.isFinite = true) : a.place.isSome := by
  have unpacked : a.toModel.unpack.isFinite = true := finite
  unfold place
  cases shape : a.toModel.unpack with
  | notANumber | infinity =>
    rw [shape] at unpacked
    cases unpacked
  | zero => rfl
  | finite sign mantissa exponent =>
    cases sign <;> rfl

/-- Strict order is transitive. -/
theorem lt_trans_place {a b c : Float32} (first : a < b) (next : b < c) : a < c := by
  obtain ⟨x, atA, y, atB, below⟩ := (lt_iff_place a b).mp first
  obtain ⟨y', atB', z, atC, further⟩ := (lt_iff_place b c).mp next
  obtain rfl : y = y' := Option.mem_unique atB atB'
  exact (lt_iff_place a c).mpr ⟨x, atA, z, atC, below.trans further⟩

/-- What a larger number is not below, the smaller one is below neither. -/
theorem lt_of_not_lt_of_lt {a b c : Float32} (comparable : a.place.isSome)
    (reached : ¬ b < a) (above : b < c) : a < c := by
  obtain ⟨y, atB, z, atC, below⟩ := (lt_iff_place b c).mp above
  obtain ⟨x, atA⟩ := Option.isSome_iff_exists.mp comparable
  have bounded : x ≤ y := by
    by_contra further
    exact reached ((lt_iff_place b a).mpr ⟨y, atB, x, atA, not_le.mp further⟩)
  exact (lt_iff_place a c).mpr ⟨x, atA, z, atC, bounded.trans_lt below⟩

/-- A number above one that reaches a threshold reaches it. -/
theorem le_of_le_of_lt {a b c : Float32} (reached : a ≤ b) (above : b < c) : a ≤ c := by
  obtain ⟨x, atA, y, atB, below⟩ := (le_iff_place a b).mp reached
  obtain ⟨y', atB', z, atC, further⟩ := (lt_iff_place b c).mp above
  obtain rfl : y = y' := Option.mem_unique atB atB'
  exact (le_iff_place a c).mpr ⟨x, atA, z, atC, below.trans further.le⟩

/-- A number that reaches a threshold is not NaN. -/
theorem isSome_place_of_le {a b : Float32} (reached : a ≤ b) : b.place.isSome := by
  obtain ⟨_, _, y, atB, _⟩ := (le_iff_place a b).mp reached
  exact Option.isSome_iff_exists.mpr ⟨y, atB⟩

end Float32
