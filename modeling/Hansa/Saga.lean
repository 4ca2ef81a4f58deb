import Hansa.Float
import Hansa.Member

/-!
# Sagas

A saga is a member's condensed digest: cluster centroids of its vectors and its top tags. It
answers the question whether a peer is worth a query, by the best cosine similarity between
the query and any centroid. Scoring trusts the lengths it is given: a development build
asserts that they agree, and any build indexes the centroid by the length of the query.
-/

namespace Hansa

/-- `Centroid`: one cluster of the digest. -/
structure Centroid (F : Type) where
  /-- Number of vectors that mapped to this centroid. -/
  clusterSize : UInt32
  /-- Centroid vector. -/
  vector : List F
  deriving DecidableEq

/-- `TagAggregate`: a tag with its occurrence count. -/
structure TagAggregate where
  /-- Times this tag appeared across the tenant. -/
  count : UInt32
  /-- Tag string. -/
  tag : String
  deriving DecidableEq

/-- `Saga`: a member's digest in memory. -/
structure Saga (F : Type) where
  /-- Owner tenant id. -/
  tenantId : TenantId
  /-- Unix seconds when this saga was built. -/
  builtAt : Int64
  /-- Records present at build time. -/
  recordCount : UInt64
  /-- Embedding dimension. -/
  embeddingDim : UInt32
  /-- Cluster centroids. -/
  centroids : List (Centroid F)
  /-- Top tags with counts. -/
  tags : List TagAggregate
  deriving DecidableEq

variable {F : Type} [FloatLike F]

/-- The loop of `cosine_similarity`: the product of the vectors and their squared norms. -/
def cosineSums (dot na nb : F) : List F → List F → Result (F × F × F)
  | [], _ => .ok (dot, na, nb)
  | _ :: _, [] => .error .panic
  | x :: a, y :: b => cosineSums (dot + x * y) (na + x * x) (nb + y * y) a b

/-- `cosine_similarity`. -/
def cosineSimilarity (profile : Profile) (a b : List F) : Result F :=
  if profile = .dev ∧ a.length ≠ b.length then .error .panic
  else do
    let (dot, na, nb) ← cosineSums 0.0 0.0 0.0 a b
    .ok (if FloatLike.eq na 0.0 || FloatLike.eq nb 0.0 then 0.0
      else dot / (FloatLike.sqrt na * FloatLike.sqrt nb))

/-- The loop of `score_saga` from the best score so far. -/
def bestScore (profile : Profile) (query : List F) (best : F) : List (Centroid F) → Result F
  | [] => .ok best
  | c :: centroids => do
    let s ← cosineSimilarity profile query c.vector
    bestScore profile query (if FloatLike.lt best s then s else best) centroids

/-- `score_saga`: the best cosine similarity, negative infinity for an empty saga. -/
def scoreSaga (profile : Profile) (saga : Saga F) (query : List F) : Result F :=
  bestScore profile query (-FloatLike.infinity) saga.centroids

/-! ## When scoring returns -/

/-- A centroid that a query of the given length can be scored against. -/
def Centroid.Fits (profile : Profile) (length : Nat) (c : Centroid F) : Prop :=
  match profile with
  | .dev => c.vector.length = length
  | .release => length ≤ c.vector.length

instance (profile : Profile) (length : Nat) (c : Centroid F) :
    Decidable (c.Fits profile length) := by
  unfold Centroid.Fits
  split <;> infer_instance

/-- The loop returns if and only if the second vector is long enough. -/
theorem cosineSums_returns (a b : List F) (dot na nb : F) :
    (∃ sums, cosineSums dot na nb a b = .ok sums) ↔ a.length ≤ b.length := by
  induction a generalizing b dot na nb with
  | nil => exact ⟨fun _ => Nat.zero_le _, fun _ => ⟨_, rfl⟩⟩
  | cons x a ih =>
    cases b with
    | nil => exact ⟨fun ⟨_, out⟩ => (nomatch out), fun short => absurd short (by simp)⟩
    | cons y b =>
      rw [cosineSums, ih]
      exact Nat.succ_le_succ_iff.symm

/-- The loop does not return errors. -/
theorem cosineSums_panics {a b : List F} {dot na nb : F} (short : ¬ a.length ≤ b.length) :
    cosineSums dot na nb a b = .error .panic := by
  induction a generalizing b dot na nb with
  | nil => exact absurd (Nat.zero_le _) short
  | cons x a ih =>
    cases b with
    | nil => rfl
    | cons y b => exact ih (fun long => short (Nat.succ_le_succ long))

/-- Similarity returns for a centroid that fits. -/
theorem cosineSimilarity_ok {profile : Profile} {query : List F} {c : Centroid F}
    (fits : c.Fits profile query.length) :
    ∃ s, cosineSimilarity profile query c.vector = .ok s := by
  have long : query.length ≤ c.vector.length := by
    cases profile with
    | dev => exact (show c.vector.length = query.length from fits).ge
    | release => exact fits
  have checked : ¬ (profile = .dev ∧ query.length ≠ c.vector.length) := by
    rintro ⟨rfl, differ⟩
    exact differ (Eq.symm fits)
  obtain ⟨sums, out⟩ := (cosineSums_returns query c.vector 0.0 0.0 0.0).mpr long
  rw [cosineSimilarity, if_neg checked, out]
  exact ⟨_, rfl⟩

/-- Similarity panics for a centroid that does not fit. -/
theorem cosineSimilarity_panics {profile : Profile} {query : List F} {c : Centroid F}
    (misfit : ¬ c.Fits profile query.length) :
    cosineSimilarity profile query c.vector = .error .panic := by
  cases profile with
  | dev => exact if_pos ⟨rfl, fun same => misfit same.symm⟩
  | release =>
    rw [cosineSimilarity, if_neg (fun both => by cases both.1),
      cosineSums_panics (fun long => misfit long)]
    rfl

/-- The scoring loop returns when all centroids fit, and panics otherwise. -/
theorem bestScore_eq (profile : Profile) (query : List F) (best : F)
    (centroids : List (Centroid F)) :
    (∃ s, bestScore profile query best centroids = .ok s ∧
        ∀ c ∈ centroids, c.Fits profile query.length) ∨
      bestScore profile query best centroids = .error .panic ∧
        ¬ ∀ c ∈ centroids, c.Fits profile query.length := by
  induction centroids generalizing best with
  | nil => exact .inl ⟨best, rfl, fun _ absent => nomatch absent⟩
  | cons c centroids ih =>
    by_cases fits : c.Fits profile query.length
    · obtain ⟨s, scored⟩ := cosineSimilarity_ok fits
      have next : bestScore profile query best (c :: centroids) =
          bestScore profile query (if FloatLike.lt best s then s else best) centroids := by
        rw [bestScore, scored]
        rfl
      rw [next, List.forall_mem_cons]
      rcases ih (if FloatLike.lt best s then s else best) with ⟨s, out, rest⟩ | ⟨out, rest⟩
      · exact .inl ⟨s, out, fits, rest⟩
      · exact .inr ⟨out, fun all => rest all.2⟩
    · refine .inr ⟨?_, fun all => fits (all c List.mem_cons_self)⟩
      rw [bestScore, cosineSimilarity_panics fits]
      rfl

end Hansa
