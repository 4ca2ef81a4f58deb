import Mathlib.Analysis.Convex.Combination
import Hansa.Verif.CentroidCount
import Hansa.Verif.LloydRun

/-!
# What a built saga tells of a tenant

Over exact numbers a saga can be built of any tenant whose vectors are real. Its centroids are
means of vectors, so they lie in the convex hull of the tenant's; their sizes add up to the
sample; and its tags are the most frequent ones, with their numbers, whatever the order of the
records.
-/

namespace Hansa

open Exact (num)

/-! ## The tags -/

/-- A tag stands in front of another: it is more frequent, or as frequent and not behind it in
the order of texts. -/
def Before (a b : TagAggregate) : Prop :=
  b.count.toNat < a.count.toNat ∨ b.count.toNat = a.count.toNat ∧ a.tag ≤ b.tag

/-- The comparison of `aggregate_top_tags`. -/
theorem before_iff (a b : TagAggregate) :
    (b.count < a.count || b.count = a.count && a.tag ≤ b.tag) = true ↔ Before a b := by
  simp [Before, UInt32.lt_iff_toNat_lt, UInt32.toNat_inj]

/-- Of two tags, one stands in front. -/
theorem before_total (a b : TagAggregate) : Before a b ∨ Before b a := by
  unfold Before
  have order := String.le_total a.tag b.tag
  by_cases same : a.count.toNat = b.count.toNat
  · rcases order with first | second
    · exact .inl (.inr ⟨same.symm, first⟩)
    · exact .inr (.inr ⟨same, second⟩)
  · omega

/-- What stands in front stands in front of what is behind. -/
theorem before_trans {a b c : TagAggregate} (first : Before a b) (second : Before b c) :
    Before a c := by
  unfold Before at *
  rcases first with more | ⟨same, order⟩
  · omega
  · rcases second with more' | ⟨same', order'⟩
    · omega
    · exact .inr ⟨same'.trans same, String.le_trans order order'⟩

/-- Tags that stand in front of each other are the same. -/
theorem before_antisymm {a b : TagAggregate} (first : Before a b) (second : Before b a) :
    a = b := by
  have counts : a.count.toNat = b.count.toNat := by
    unfold Before at *
    omega
  have tags : a.tag = b.tag := by
    rcases first with more | ⟨_, order⟩
    · omega
    · rcases second with more' | ⟨_, order'⟩
      · omega
      · exact String.le_antisymm order order'
  obtain ⟨count, tag⟩ := a
  obtain ⟨count', tag'⟩ := b
  exact congrArg₂ TagAggregate.mk (UInt32.toNat_inj.mp counts) tags

/-- The number of a tag. -/
def tally (tags : List String) (tag : String) : TagAggregate :=
  ⟨UInt32.ofNat (tags.count tag), tag⟩

/-- The most frequent of some tags, with their numbers. -/
structure TopTags (tags : List String) (top : List TagAggregate) : Prop where
  /-- There are as many as there can be. -/
  length : top.length = min topTags tags.toFinset.card
  /-- Each is one of the tags, with its number. -/
  counted : ∀ entry ∈ top, entry.tag ∈ tags ∧ entry.count.toNat = tags.count entry.tag
  /-- No tag is there twice, and the more frequent ones come first. -/
  ordered : top.Pairwise fun a b => a.tag ≠ b.tag ∧ Before a b
  /-- A tag that is not there is behind all that are. -/
  best : ∀ tag ∈ tags, tag ∉ top.map TagAggregate.tag → ∀ entry ∈ top,
    Before entry (tally tags tag)

/-- The entries in the order of `aggregate_top_tags`. -/
def sortTags (entries : List TagAggregate) : List TagAggregate :=
  entries.mergeSort fun a b => b.count < a.count || b.count = a.count && a.tag ≤ b.tag

/-- Sorted entries are in order. -/
theorem pairwise_sortTags (entries : List TagAggregate) : (sortTags entries).Pairwise Before := by
  have sorted : (sortTags entries).Pairwise fun a b =>
      (b.count < a.count || b.count = a.count && a.tag ≤ b.tag) = true := by
    apply List.pairwise_mergeSort
    · intro a b c first second
      rw [before_iff] at *
      exact before_trans first second
    · intro a b
      rw [Bool.or_eq_true, before_iff, before_iff]
      exact before_total a b
  exact sorted.imp fun {a b} front => (before_iff a b).mp front

/-- The order in which the map of the counts is read does not matter. -/
theorem sortTags_perm {entries entries' : List TagAggregate} (moved : entries.Perm entries') :
    sortTags entries = sortTags entries' := by
  have perm : (sortTags entries).Perm (sortTags entries') :=
    (List.mergeSort_perm ..).trans (moved.trans (List.mergeSort_perm ..).symm)
  exact perm.eq_of_pairwise (fun a b _ _ => before_antisymm) (pairwise_sortTags entries)
    (pairwise_sortTags entries')

/-- The top tags are the first of the sorted ones. -/
theorem aggregateTopTags_eq (tags : List String) :
    aggregateTopTags tags = (sortTags (tags.dedup.map (tally tags))).take topTags := rfl

/-- The order of the tags does not matter. -/
theorem aggregateTopTags_perm {tags tags' : List String} (moved : tags.Perm tags') :
    aggregateTopTags tags = aggregateTopTags tags' := by
  have counts : tally tags = tally tags' := by
    funext tag
    rw [tally, tally, moved.count_eq]
  rw [aggregateTopTags_eq, aggregateTopTags_eq, counts,
    sortTags_perm (moved.dedup.map (tally tags'))]

/-- The top tags are the most frequent ones, while the numbers fit. -/
theorem aggregateTopTags_topTags {tags : List String} (fits : tags.length < 2 ^ 32) :
    TopTags tags (aggregateTopTags tags) := by
  have perm : (sortTags (tags.dedup.map (tally tags))).Perm (tags.dedup.map (tally tags)) :=
    List.mergeSort_perm ..
  have number : ∀ tag, (tally tags tag).count.toNat = tags.count tag := fun tag =>
    UInt32.toNat_ofNat_of_lt' (Nat.lt_of_le_of_lt List.count_le_length fits)
  have entries : ∀ entry ∈ sortTags (tags.dedup.map (tally tags)),
      ∃ tag ∈ tags, entry = tally tags tag := by
    intro entry member
    obtain ⟨tag, inside, same⟩ := List.mem_map.mp (perm.subset member)
    exact ⟨tag, List.mem_dedup.mp inside, same.symm⟩
  have distinct : (sortTags (tags.dedup.map (tally tags))).Pairwise fun a b => a.tag ≠ b.tag := by
    refine (perm.pairwise_iff fun different => different.symm).mpr ?_
    rw [List.pairwise_map]
    exact tags.nodup_dedup
  have ordered := distinct.and (pairwise_sortTags (tags.dedup.map (tally tags)))
  rw [aggregateTopTags_eq]
  refine ⟨?_, ?_, ordered.sublist (List.take_sublist ..), ?_⟩
  · rw [List.length_take, perm.length_eq, List.length_map, List.card_toFinset]
  · intro entry member
    obtain ⟨tag, inside, same⟩ := entries entry (List.mem_of_mem_take member)
    rw [same]
    exact ⟨inside, number tag⟩
  · intro tag inside absent entry member
    have listed : tally tags tag ∈ sortTags (tags.dedup.map (tally tags)) :=
      perm.symm.subset (List.mem_map_of_mem (List.mem_dedup.mpr inside))
    have behind : tally tags tag ∈ (sortTags (tags.dedup.map (tally tags))).drop topTags := by
      rw [← List.take_append_drop topTags (sortTags (tags.dedup.map (tally tags)))] at listed
      rcases List.mem_append.mp listed with front | back
      · exact absurd (List.mem_map_of_mem (f := TagAggregate.tag) front) absent
      · exact back
    have whole := pairwise_sortTags (tags.dedup.map (tally tags))
    rw [← List.take_append_drop topTags (sortTags (tags.dedup.map (tally tags)))] at whole
    exact (List.pairwise_append.mp whole).2.2 entry member _ behind

/-! ## The centroids -/

section Seeds

variable {F D : Type} [FloatLike F] [FloatLike D] [Widen F D] {rng : SmallRng D}
  {sample : List (List F)}

/-- The loop adds vectors of the sample only. -/
theorem seedLoop_subset {seeds seeds' : List (List F)} {last : List F} {dists : List F}
    {state state' : rng.State} {left : ℕ} (known : seeds ⊆ sample) (inside : last ∈ sample)
    (run : seedLoop rng sample seeds last dists state left = .ok (seeds', state')) :
    seeds' ⊆ sample := by
  induction left generalizing seeds last dists state with
  | zero =>
    cases run
    exact known
  | succ left ih =>
    have next : ∀ v ∈ sample, seeds ++ [v] ⊆ sample := fun v member =>
      List.append_subset.mpr ⟨known, List.cons_subset.mpr ⟨member, List.nil_subset _⟩⟩
    rw [seedLoop] at run
    cases updated : updateDists last sample dists with
    | error fault => simp [updated, bind, Except.bind] at run
    | ok dists' =>
      simp only [updated, ok_bind] at run
      split at run
      · exact ih (next last inside) inside run
      · cases drawn : rng.randomReal (FloatLike.sum (dists'.map (widen : F → D))) state with
        | error fault => simp [drawn, bind, Except.bind] at run
        | ok draw =>
          simp only [drawn, ok_bind] at run
          split at run
          · cases run
          · next seed chosen =>
            have member := List.mem_of_getElem? chosen
            exact ih (next seed member) member run

/-- Seeds are vectors of the sample. -/
theorem kmeansPlusPlusInit_subset {k : ℕ} {state state' : rng.State} {seeds : List (List F)}
    (run : kmeansPlusPlusInit rng sample k state = .ok (seeds, state')) : seeds ⊆ sample := by
  simp only [kmeansPlusPlusInit] at run
  split at run
  · cases run
  · next seed chosen =>
    have member := List.mem_of_getElem? chosen
    exact seedLoop_subset (List.cons_subset.mpr ⟨member, List.nil_subset _⟩) member run

end Seeds

section Centroids

variable {dim : ℕ} {points centroids : List (Point dim)} {assignments : List ℕ}
  {C : Set (Point dim)}

/-- The update step stays in a convex set that has the points. -/
theorem movedCentroids_mem (convex : Convex ℝ C) (inside : ∀ p ∈ points, p ∈ C)
    (assigns : Assigns points assignments centroids) (known : ∀ c ∈ centroids, c ∈ C) :
    ∀ c ∈ movedCentroids points assignments centroids, c ∈ C := by
  have same : assignments.length = points.length := (List.Forall₂.length_eq assigns).symm
  intro c member
  obtain ⟨j, bound, isC⟩ := List.mem_iff_getElem.mp member
  have below : j < centroids.length := by simpa [movedCentroids] using bound
  have value := getD_movedCentroids same below
  have centre : centroids.getD j 0 ∈ C := by
    rw [List.getD_eq_getElem _ _ below]
    exact known _ (List.getElem_mem below)
  rw [List.getD_eq_getElem _ _ bound, isC] at value
  rw [value]
  exact NearestMeans.moved_mem _ _ _ convex (fun i => inside _ (List.getElem_mem i.2)) centre

/-- The iterations lose no centroid and no point, and stay in a convex set that has the
points. -/
theorem lloydLoop_mem (convex : Convex ℝ C) (inside : ∀ p ∈ points, p ∈ C)
    (some_ : centroids ≠ []) (assigns : Assigns points assignments centroids)
    (known : ∀ c ∈ centroids, c ∈ C) (prev : Exact) (left : ℕ) :
    ∃ (centroids' : List (Point dim)) (assignments' : List ℕ),
      lloydLoop (points.map row) centroids.length dim (centroids.map row) assignments prev left =
        .ok (centroids'.map row, assignments') ∧
      centroids'.length = centroids.length ∧ Assigns points assignments' centroids' ∧
      ∀ c ∈ centroids', c ∈ C := by
  induction left generalizing centroids assignments prev with
  | zero => exact ⟨centroids, assignments, rfl, rfl, assigns, known⟩
  | succ left ih =>
    obtain ⟨found, assigned, nearest⟩ := assignStep_row some_ 0 points
    rw [zero_add, ← Exact.literal_zero] at assigned
    have covers : Assigns points found centroids := by
      refine nearest.imp fun _ _ near => ?_
      obtain ⟨_, near⟩ := near
      exact near.lt
    rw [lloydLoop, assigned, ok_bind]
    simp only
    by_cases done : converged prev (num (inertiaOf points found centroids)) = true
    · rw [if_pos done]
      exact ⟨centroids, found, rfl, rfl, covers, known⟩
    · obtain ⟨sums, counts, summed, moves⟩ := updateStep_row covers
      have length : (movedCentroids points found centroids).length = centroids.length :=
        List.length_mapIdx
      have covers' : Assigns points found (movedCentroids points found centroids) := by
        rw [Assigns, length]
        exact covers
      have some' : movedCentroids points found centroids ≠ [] :=
        List.ne_nil_of_length_pos (length ▸ List.length_pos_iff.mpr some_)
      obtain ⟨centroids', assignments', run, same, last, kept⟩ := ih some' covers'
        (movedCentroids_mem convex inside covers known)
        (num (inertiaOf points found centroids))
      rw [if_neg done, summed, ok_bind]
      simp only [moves, ok_bind]
      rw [length] at run
      exact ⟨centroids', assignments', run, same.trans length, last, kept⟩

end Centroids

/-! ## The saga -/

/-- What a saga tells of the vectors and the tags of a tenant. -/
structure Digests (dim : ℕ) (vectors : List (List Exact)) (tags : List String)
    (saga : Saga Exact) : Prop where
  /-- There are as many clusters as the number of records asks for, if there are vectors. -/
  clusters : saga.centroids.length =
    min (defaultKFor saga.recordCount) (min vectors.length reservoirSampleSize)
  /-- The clusters have the sample. -/
  sizes : (saga.centroids.map (·.clusterSize.toNat)).sum = min vectors.length reservoirSampleSize
  /-- Every centroid is in the convex hull of the vectors. -/
  inside : ∀ c ∈ saga.centroids, ∃ p : Point dim, c.vector = row p ∧
    p ∈ convexHull ℝ {q | row q ∈ vectors}
  /-- The tags are the most frequent ones. -/
  tags : TopTags tags saga.tags

/-- The clusters of a sample digest it. -/
theorem kmeansLloyd_digests {rng : SmallRng Exact} (draws : rng.Draws) {dim : ℕ}
    {sample : List (List Exact)} (some_ : sample ≠ [])
    (real : ∀ v ∈ sample, v.length = dim ∧ ∀ a ∈ v, FloatLike.isFinite a = true)
    (few : sample.length < 2 ^ 32) {k : ℕ} (positive : 1 ≤ k) (state : rng.State) :
    ∃ centroids, kmeansLloyd rng sample k dim state = .ok centroids ∧
      centroids.length = min k sample.length ∧
      (centroids.map (·.clusterSize.toNat)).sum = sample.length ∧
      ∀ c ∈ centroids, ∃ p : Point dim, c.vector = row p ∧
        p ∈ convexHull ℝ {q | row q ∈ sample} := by
  obtain ⟨points, isSample⟩ := exists_rows real
  subst isSample
  have filled : points ≠ [] := by simpa using some_
  have clusters : 0 < min k points.length := lt_min positive (List.length_pos_iff.mpr filled)
  obtain ⟨seeds, state', seeded, count⟩ := kmeansPlusPlusInit_row draws filled clusters state
  have first : Assigns points (List.replicate points.length 0) seeds := by
    refine List.forall₂_iff_get.mpr ⟨List.length_replicate.symm, fun i _ _ => ?_⟩
    simpa [count] using clusters
  have member : ∀ p ∈ points, p ∈ convexHull ℝ {q | row q ∈ points.map row} := fun p inside =>
    subset_convexHull ℝ _ (List.mem_map_of_mem inside)
  have chosen : ∀ c ∈ seeds, c ∈ convexHull ℝ {q | row q ∈ points.map row} := fun c inside =>
    subset_convexHull ℝ _ (kmeansPlusPlusInit_subset seeded (List.mem_map_of_mem inside))
  obtain ⟨centroids, assignments, run, same, assigns, hull⟩ :=
    lloydLoop_mem (convex_convexHull ℝ _) member (List.ne_nil_of_length_pos (count ▸ clusters))
      first chosen FloatLike.infinity kmeansMaxIter
  refine ⟨(centroids.map row).zipIdx.map fun c => ⟨UInt32.ofNat (assignments.count c.2), c.1⟩,
    ?_, ?_, ?_, ?_⟩
  · rw [kmeansLloyd, List.length_map]
    simp only [seeded, ok_bind]
    rw [← count, run, ok_bind]
  · rw [List.length_map, List.length_zipIdx, List.length_map, List.length_map, same, count]
  · have covered := List.Forall₂.length_eq assigns
    rw [sum_clusterSize, List.length_map, covered]
    · intro i inside
      obtain ⟨j, bound, isI⟩ := List.mem_iff_getElem.mp inside
      rw [← isI, List.length_map]
      exact List.Forall₂.get assigns (covered ▸ bound) bound
    · rwa [← covered, ← List.length_map row]
  · intro c inside
    obtain ⟨⟨v, j⟩, listed, isC⟩ := List.mem_map.mp inside
    obtain ⟨p, known, isV⟩ := List.mem_map.mp (List.fst_mem_of_mem_zipIdx listed)
    exact ⟨p, by rw [← isC, ← isV], hull p known⟩

/-- Over exact numbers a saga is built of any tenant whose vectors are of its dimension and real
and whose tags fit a count, whatever is drawn. It has as many clusters as asked for, or one for
each vector, their sizes add up to the sample, no centroid is outside of the convex hull of the
vectors, and its tags are the most frequent ones with their numbers, also when the tags come in
another order. -/
theorem buildSagaFromTenant_digests {rng : SmallRng Exact} (draws : rng.Draws)
    {embeddingDim : UInt32} {vectors : List (List Exact)}
    (real : ∀ v ∈ vectors, v.length = embeddingDim.toNat ∧ ∀ a ∈ v, FloatLike.isFinite a = true)
    {tags : List String} (few : tags.length < 2 ^ 32) (tenantId : TenantId)
    (recordCount : UInt64) (builtAt : Int64) (seed : UInt64) :
    ∃ saga, saga.recordCount = recordCount ∧
      (∀ tags', tags'.Perm tags → buildSagaFromTenant rng tenantId embeddingDim recordCount vectors
        tags' builtAt seed = .ok saga) ∧
      Digests embeddingDim.toNat vectors tags saga := by
  generalize start : rng.seedFromU64 seed = state
  generalize taken : reservoirSample rng vectors reservoirSampleSize state = sampled
  obtain ⟨sample, state'⟩ := sampled
  obtain ⟨length, subset⟩ := reservoirSample_subset rng vectors reservoirSampleSize state
  rw [taken] at length subset
  have small : sample.length ≤ 10000 := length.trans_le (Nat.min_le_right ..)
  have asked : 1 ≤ defaultKFor recordCount := by
    rw [defaultKFor]
    split_ifs <;> decide
  obtain ⟨centroids, run, count, sizes, inside⟩ : ∃ centroids : List (Centroid Exact),
      (if sample = [] then .ok [] else kmeansLloyd rng sample
        (min (defaultKFor recordCount) (max sample.length 1)) embeddingDim.toNat state') =
          .ok centroids ∧
      centroids.length = min (defaultKFor recordCount) sample.length ∧
      (centroids.map (·.clusterSize.toNat)).sum = sample.length ∧
      ∀ c ∈ centroids, ∃ p : Point embeddingDim.toNat, c.vector = row p ∧
        p ∈ convexHull ℝ {q | row q ∈ sample} := by
    by_cases none_ : sample = []
    · subst none_
      exact ⟨[], if_pos rfl, (Nat.min_zero _).symm, rfl, fun _ absent => nomatch absent⟩
    · have filled : 0 < sample.length := List.length_pos_iff.mpr none_
      obtain ⟨centroids, run, count, rest⟩ := kmeansLloyd_digests draws none_
        (fun v member => real v (subset member)) (by omega)
        (k := min (defaultKFor recordCount) (max sample.length 1)) (by omega) state'
      exact ⟨centroids, (if_neg none_).trans run, by omega, rest⟩
  refine ⟨⟨tenantId, builtAt, recordCount, embeddingDim, centroids, aggregateTopTags tags⟩, rfl,
    ?_, ?_, ?_, ?_, aggregateTopTags_topTags few⟩
  · intro tags' moved
    rw [buildSagaFromTenant, start]
    simp only [taken]
    by_cases none_ : sample = []
    · rw [if_pos none_] at run ⊢
      rw [run, ok_bind, aggregateTopTags_perm moved]
    · rw [if_neg none_] at run ⊢
      rw [run, ok_bind, aggregateTopTags_perm moved]
  · rw [count, length]
  · rw [sizes, length]
  · intro c member
    obtain ⟨p, isC, hull⟩ := inside c member
    exact ⟨p, isC, convexHull_mono (fun q known => subset known) hull⟩

/-- A saga of three vectors on a line, and of three tags. -/
theorem buildSagaFromTenant_digests_sample :
    ∃ saga : Saga Exact, buildSagaFromTenant startRng ⟨.replicate 16 0⟩ 1 3
        [[num 0], [num 1], [num 5]] ["wool", "salt", "salt"] 0 0 = .ok saga ∧
      Digests 1 [[num 0], [num 1], [num 5]] ["salt", "wool", "salt"] saga := by
  have real : ∀ v ∈ [[num 0], [num 1], [num 5]],
      v.length = (1 : UInt32).toNat ∧ ∀ a ∈ v, FloatLike.isFinite a = true := by
    intro v member
    simp only [List.mem_cons, List.not_mem_nil, or_false] at member
    rcases member with rfl | rfl | rfl <;> exact ⟨rfl, by simp [isFinite_iff]⟩
  have few : ["salt", "wool", "salt"].length < 2 ^ 32 := by decide
  obtain ⟨saga, _, built, digests⟩ :=
    buildSagaFromTenant_digests startRng_draws real few ⟨.replicate 16 0⟩ 3 0 0
  exact ⟨saga, built _ (List.Perm.swap ..), digests⟩

end Hansa
