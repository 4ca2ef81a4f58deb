import Hansa.Library.StateErrors
import Hansa.Verif.ExactFactor

/-!
# Scores and factors over exact numbers

The cosine of two vectors is at most one in absolute value, or it is no number: the square of
the product is bounded by the product of the squares at every step of the loop, and a component
that is no real number spoils the product as well as a norm. A usefulness factor lies between a
fifth and three halves, whatever the manifest counts.
-/

namespace Hansa

open Exact (num)

/-! ## Cosines -/

/-- What the loop of the cosine keeps: the sums are real and bounded, or special. -/
inductive Bounded : Exact → Exact → Exact → Prop
  /-- The square of the product is at most the product of the squared norms. -/
  | real (d n m : ℝ) (first : 0 ≤ n) (second : 0 ≤ m) (cauchy : d ^ 2 ≤ n * m) :
      Bounded (num d) (num n) (num m)
  /-- The product and the first squared norm are special. -/
  | left (dot na nb : Exact) (product : dot.isNum = false) (norm : na.isNum = false) :
      Bounded dot na nb
  /-- The product and the second squared norm are special. -/
  | right (dot na nb : Exact) (product : dot.isNum = false) (norm : nb.isNum = false) :
      Bounded dot na nb

/-- One more component keeps the bound of the product by the norms. -/
theorem cauchy_step {d n m x y : ℝ} (first : 0 ≤ n) (second : 0 ≤ m) (cauchy : d ^ 2 ≤ n * m) :
    (d + x * y) ^ 2 ≤ (n + x * x) * (m + y * y) := by
  have mixed : 2 * (d * (x * y)) ≤ n * y ^ 2 + m * x ^ 2 := by
    apply le_of_sq_le_sq _ (by positivity)
    calc (2 * (d * (x * y))) ^ 2 = 4 * (d ^ 2 * (x * y) ^ 2) := by ring
      _ ≤ 4 * (n * m * (x * y) ^ 2) := by gcongr
      _ ≤ (n * y ^ 2 + m * x ^ 2) ^ 2 := by
        have square := sq_nonneg (n * y ^ 2 - m * x ^ 2)
        linarith
  linarith

/-- A component that is no real number spoils the sum it is added to. -/
theorem isNum_add_mul {s x y : Exact} (special : x.isNum = false ∨ y.isNum = false) :
    (s + x * y).isNum = false := by
  rw [Exact.add_swap]
  apply Exact.isNum_add
  rcases special with first | second
  · exact Exact.isNum_mul first
  · rw [Exact.mul_swap]
    exact Exact.isNum_mul second

/-- One step of the loop keeps the bound. -/
theorem Bounded.step {dot na nb : Exact} (bounded : Bounded dot na nb) (x y : Exact) :
    Bounded (dot + x * y) (na + x * x) (nb + y * y) := by
  cases bounded with
  | left _ _ _ product norm => exact .left _ _ _ (Exact.isNum_add product) (Exact.isNum_add norm)
  | right _ _ _ product norm =>
    exact .right _ _ _ (Exact.isNum_add product) (Exact.isNum_add norm)
  | real d n m first second cauchy =>
    by_cases numberX : x.isNum = true
    · by_cases numberY : y.isNum = true
      · obtain ⟨x, rfl⟩ := Exact.isNum_iff.mp numberX
        obtain ⟨y, rfl⟩ := Exact.isNum_iff.mp numberY
        have firstNext := add_nonneg first (mul_self_nonneg x)
        have secondNext := add_nonneg second (mul_self_nonneg y)
        exact .real _ _ _ firstNext secondNext (cauchy_step first second cauchy)
      · have special := Bool.eq_false_iff.mpr numberY
        exact .right _ _ _ (isNum_add_mul (.inr special)) (isNum_add_mul (.inl special))
    · have special := Bool.eq_false_iff.mpr numberX
      exact .left _ _ _ (isNum_add_mul (.inl special)) (isNum_add_mul (.inl special))

/-- The loop keeps the bound. -/
theorem cosineSums_bounded {a b : List Exact} {dot na nb : Exact} {sums : Exact × Exact × Exact}
    (bounded : Bounded dot na nb) (out : cosineSums dot na nb a b = .ok sums) :
    Bounded sums.1 sums.2.1 sums.2.2 := by
  induction a generalizing b dot na nb with
  | nil =>
    obtain rfl := Except.ok.inj out
    exact bounded
  | cons x a ih =>
    cases b with
    | nil => cases out
    | cons y b => exact ih (bounded.step x y) out

/-- A score is at most one in absolute value, or it is special. -/
def UnitOrSpecial (s : Exact) : Prop := ∀ x, s = num x → |x| ≤ 1

/-- The quotient of bounded sums is at most one in absolute value. -/
theorem Bounded.quotient {dot na nb : Exact} (bounded : Bounded dot na nb)
    (nonzero : ¬ (FloatLike.eq na 0.0 || FloatLike.eq nb 0.0) = true) :
    UnitOrSpecial (dot / (FloatLike.sqrt na * FloatLike.sqrt nb)) := by
  intro c isNum
  have spoilt : dot.isNum = false →
      (FloatLike.sqrt na * FloatLike.sqrt nb).isNum = false → False := by
    intro product norms
    rw [Exact.div_special product norms] at isNum
    cases isNum
  cases bounded with
  | left _ _ _ product norm =>
    exact (spoilt product (Exact.isNum_mul (Exact.isNum_sqrt norm))).elim
  | right _ _ _ product norm =>
    rw [Exact.mul_swap] at spoilt
    exact (spoilt product (Exact.isNum_mul (Exact.isNum_sqrt norm))).elim
  | real d n m first second cauchy =>
    rw [Exact.literal_zero, Bool.or_eq_true, eq_num, eq_num, not_or] at nonzero
    have someN : 0 < Real.sqrt n := Real.sqrt_pos.mpr (first.lt_of_ne' nonzero.1)
    have someM : 0 < Real.sqrt m := Real.sqrt_pos.mpr (second.lt_of_ne' nonzero.2)
    have norms : FloatLike.sqrt (num n) * FloatLike.sqrt (num m) =
        num (Real.sqrt n * Real.sqrt m) := by
      show Exact.sqrt (num n) * Exact.sqrt (num m) = _
      rw [Exact.sqrt_num first, Exact.sqrt_num second, Exact.num_mul]
    have positive := mul_pos someN someM
    rw [norms, Exact.num_div positive.ne'] at isNum
    obtain rfl := Exact.num.inj isNum
    have bound := Real.abs_le_sqrt cauchy
    rw [Real.sqrt_mul first] at bound
    rw [abs_div, abs_of_pos positive]
    exact (div_le_one positive).mpr bound

/-- A cosine is at most one in absolute value, or it is special. -/
theorem cosineSimilarity_unit {profile : Profile} {a b : List Exact} {s : Exact}
    (out : cosineSimilarity profile a b = .ok s) : UnitOrSpecial s := by
  rw [cosineSimilarity] at out
  split at out
  · cases out
  · obtain ⟨sums, summed, out⟩ := Except.bind_eq_ok.mp out
    obtain rfl := Except.ok.inj out
    have start : Bounded (0.0 : Exact) 0.0 0.0 := by
      rw [Exact.literal_zero]
      exact .real 0 0 0 le_rfl le_rfl (by norm_num)
    have bounded := cosineSums_bounded start summed
    split
    · intro x isNum
      rw [Exact.literal_zero] at isNum
      rw [← Exact.num.inj isNum, abs_zero]
      exact zero_le_one
    · next nonzero => exact bounded.quotient nonzero

/-- So is the best of several cosines. -/
theorem bestScore_unit {profile : Profile} {query : List Exact} {best s : Exact}
    {centroids : List (Centroid Exact)} (unit : UnitOrSpecial best)
    (out : bestScore profile query best centroids = .ok s) : UnitOrSpecial s := by
  induction centroids generalizing best with
  | nil =>
    obtain rfl := Except.ok.inj out
    exact unit
  | cons c centroids ih =>
    obtain ⟨t, scored, out⟩ := Except.bind_eq_ok.mp out
    apply ih _ out
    split
    · exact cosineSimilarity_unit scored
    · exact unit

/-- A saga's score is at most one in absolute value, or it is special. -/
theorem scoreSaga_unit {profile : Profile} {saga : Saga Exact} {query : List Exact} {s : Exact}
    (out : scoreSaga profile saga query = .ok s) : UnitOrSpecial s := by
  have start : UnitOrSpecial (-FloatLike.infinity) := by
    intro x isNum
    cases isNum
  exact bestScore_unit start out

/-! ## Factors -/

/-- A usefulness factor lies between a fifth and three halves. -/
theorem usefulnessFactor_bounds (m : PeerManifest) (now : UInt64) :
    ∃ f : ℝ, m.usefulnessFactor (F := Exact) now = num f ∧ 1 / 5 ≤ f ∧ f ≤ 3 / 2 := by
  have bounds := realFactor_bounds (fun x _ => (Real.exp_pos x).le) m now
  norm_num at bounds
  exact ⟨_, usefulnessFactor_eq m now, bounds⟩

end Hansa
