import Hansa.Library.StateErrors
import Hansa.SagaBuild

/-!
# What a saga counts

Over any floats and with any draws: a sample is as large as the vectors and its target allow,
and a saga that was built carries the record count it was given and as many centroids as that
count and the sample ask for.
-/

namespace Hansa

/-! ## The sample -/

section Sample

variable {F D : Type} (rng : SmallRng D)

/-- A vector is added to the reservoir while there is room, and may replace one after that. -/
theorem reservoirLoop_cons {target : ℕ} {out : List (List F)} (fits : out.length ≤ target)
    (seen : ℕ) (state : rng.State) (v : List F) (src : List (List F)) : ∃ out' state',
    reservoirLoop rng target seen out state (v :: src) =
        reservoirLoop rng target (seen + 1) out' state' src ∧
      out'.length = min (out.length + 1) target ∧ ∀ w ∈ out', w ∈ out ∨ w = v := by
  rw [reservoirLoop]
  by_cases room : out.length < target
  · refine ⟨out ++ [v], state, if_pos room, ?_, fun w member => ?_⟩
    · rw [List.length_append, List.length_singleton]
      omega
    · exact (List.mem_append.mp member).imp_right List.mem_singleton.mp
  · rw [if_neg room]
    generalize rng.randomUpTo seen state = drawn
    obtain ⟨j, state'⟩ := drawn
    by_cases kept : j < target
    · refine ⟨out.set j v, state', by simp only [if_pos kept], ?_, fun w member => ?_⟩
      · rw [List.length_set]
        omega
      · exact List.mem_or_eq_of_mem_set member
    · exact ⟨out, state', by simp only [if_neg kept], by omega, fun w member => .inl member⟩

/-- The reservoir is filled as far as there are vectors, and holds nothing else. -/
theorem reservoirLoop_sample {target : ℕ} {out : List (List F)} (fits : out.length ≤ target)
    (seen : ℕ) (state : rng.State) (src : List (List F)) :
    (reservoirLoop rng target seen out state src).1.length =
        min (out.length + src.length) target ∧
      ∀ v ∈ (reservoirLoop rng target seen out state src).1, v ∈ out ∨ v ∈ src := by
  induction src generalizing out seen state with
  | nil =>
    have same : out.length = min (out.length + 0) target := by omega
    exact ⟨same, fun v member => .inl member⟩
  | cons v src ih =>
    obtain ⟨out', state', next, filled, inside⟩ := reservoirLoop_cons rng fits seen state v src
    obtain ⟨length, later⟩ := ih (show out'.length ≤ target by omega) (seen + 1) state'
    rw [next, List.length_cons]
    refine ⟨by rw [length, filled]; omega, fun w member => ?_⟩
    rcases later w member with old | new
    · rcases inside w old with old | rfl
      · exact .inl old
      · exact .inr List.mem_cons_self
    · exact .inr (List.mem_cons_of_mem _ new)

/-- A sample is as large as can be, and of vectors of the tenant. -/
theorem reservoirSample_subset (src : List (List F)) (target : ℕ) (state : rng.State) :
    (reservoirSample rng src target state).1.length = min src.length target ∧
      (reservoirSample rng src target state).1 ⊆ src := by
  have empty : ([] : List (List F)).length ≤ target := Nat.zero_le target
  obtain ⟨length, inside⟩ := reservoirLoop_sample rng empty 0 state src
  rw [List.length_nil, Nat.zero_add] at length
  exact ⟨length, fun v member => (inside v member).resolve_left List.not_mem_nil⟩

end Sample

/-! ## The centroids -/

section Centroids

variable {F D : Type} [FloatLike F] [FloatLike D] [Widen F D] {rng : SmallRng D}
  {sample : List (List F)}

/-- The seeding adds the seeds that were left to choose. -/
theorem length_seedLoop {left : ℕ} {centroids seeds : List (List F)} {last : List F}
    {dists : List F} {state state' : rng.State}
    (run : seedLoop rng sample centroids last dists state left = .ok (seeds, state')) :
    seeds.length = centroids.length + left := by
  induction left generalizing centroids last dists state with
  | zero =>
    obtain ⟨rfl, -⟩ := Prod.mk.inj (Except.ok.inj run)
    rfl
  | succ left ih =>
    obtain ⟨dists', -, run⟩ := Except.bind_eq_ok.mp run
    dsimp only at run
    split at run
    · rw [ih run, List.length_append, List.length_singleton]
      omega
    · obtain ⟨⟨threshold, state⟩, -, run⟩ := Except.bind_eq_ok.mp run
      dsimp only at run
      split at run
      · cases run
      · rw [ih run, List.length_append, List.length_singleton]
        omega

/-- As many seeds are chosen as are asked for, and one at least. -/
theorem length_kmeansPlusPlusInit {k : ℕ} {seeds : List (List F)} {state state' : rng.State}
    (run : kmeansPlusPlusInit rng sample k state = .ok (seeds, state')) :
    seeds.length = 1 + (k - 1) := by
  rw [kmeansPlusPlusInit] at run
  generalize rng.randomBelow sample.length state = drawn at run
  obtain ⟨first, state⟩ := drawn
  dsimp only at run
  split at run
  · cases run
  · exact length_seedLoop run

/-- The sums and the counts of the clusters stay as many as they are. -/
theorem length_sumClusters {dim : ℕ} {assignments : List ℕ} {sums sums' : List (List F)}
    {counts counts' : List ℕ}
    (run : sumClusters dim sums counts sample assignments = .ok (sums', counts')) :
    sums'.length = sums.length ∧ counts'.length = counts.length := by
  induction sample generalizing assignments sums counts with
  | nil =>
    obtain ⟨rfl, rfl⟩ := Prod.mk.inj (Except.ok.inj run)
    exact ⟨rfl, rfl⟩
  | cons point sample ih =>
    cases assignments with
    | nil =>
      obtain ⟨rfl, rfl⟩ := Prod.mk.inj (Except.ok.inj run)
      exact ⟨rfl, rfl⟩
    | cons cluster assignments =>
      obtain ⟨sum, -, run⟩ := Except.bind_eq_ok.mp run
      obtain ⟨sums_, counts_⟩ := ih run
      rw [List.length_set] at sums_
      rw [List.length_modify] at counts_
      exact ⟨sums_, counts_⟩

/-- No centroid is lost on a move. -/
theorem length_moveCentroids {dim : ℕ} {centroids sums moved : List (List F)} {counts : List ℕ}
    (sums_ : sums.length = centroids.length) (counts_ : counts.length = centroids.length)
    (run : moveCentroids dim centroids sums counts = .ok moved) :
    moved.length = centroids.length := by
  induction centroids generalizing sums counts moved with
  | nil =>
    obtain rfl := Except.ok.inj run
    rfl
  | cons centroid centroids ih =>
    obtain ⟨sum, sums, rfl⟩ := List.exists_cons_of_length_eq_add_one sums_
    obtain ⟨count, counts, rfl⟩ := List.exists_cons_of_length_eq_add_one counts_
    obtain ⟨rest, later, run⟩ := Except.bind_eq_ok.mp run
    have length := ih (Nat.succ.inj sums_) (Nat.succ.inj counts_) later
    split at run
    · obtain rfl := Except.ok.inj run
      rw [List.length_cons, length, List.length_cons]
    · split at run
      · cases run
      · obtain rfl := Except.ok.inj run
        rw [List.length_cons, length, List.length_cons]

/-- Lloyd's iterations keep the number of centroids. -/
theorem length_lloydLoop {left dim : ℕ} {centroids centroids' : List (List F)}
    {assignments assignments' : List ℕ} {inertia : D}
    (run : lloydLoop sample centroids.length dim centroids assignments inertia left =
      .ok (centroids', assignments')) : centroids'.length = centroids.length := by
  induction left generalizing centroids assignments inertia with
  | zero =>
    obtain ⟨rfl, -⟩ := Prod.mk.inj (Except.ok.inj run)
    rfl
  | succ left ih =>
    obtain ⟨⟨assigned, inertia'⟩, -, run⟩ := Except.bind_eq_ok.mp run
    dsimp only at run
    split at run
    · obtain ⟨rfl, -⟩ := Prod.mk.inj (Except.ok.inj run)
      rfl
    · obtain ⟨⟨sums', counts'⟩, sums, run⟩ := Except.bind_eq_ok.mp run
      obtain ⟨moved, moves, run⟩ := Except.bind_eq_ok.mp run
      obtain ⟨sums_, counts_⟩ := length_sumClusters sums
      rw [List.length_replicate] at sums_ counts_
      have kept := length_moveCentroids sums_ counts_ moves
      rw [← kept] at run
      rw [ih run, kept]

/-- There are as many clusters as asked for, if the sample has as many vectors. -/
theorem length_kmeansLloyd {k dim : ℕ} {state : rng.State} {centroids : List (Centroid F)}
    (positive : 1 ≤ min k sample.length)
    (run : kmeansLloyd rng sample k dim state = .ok centroids) :
    centroids.length = min k sample.length := by
  obtain ⟨seeded, seeds, run⟩ := Except.bind_eq_ok.mp run
  obtain ⟨found, loop, run⟩ := Except.bind_eq_ok.mp run
  obtain rfl := Except.ok.inj run
  have chosen := length_kmeansPlusPlusInit seeds
  have count : seeded.1.length = min k sample.length := by omega
  rw [← count] at loop
  rw [List.length_map, List.length_zipIdx, length_lloydLoop loop, count]

/-- A saga that was built carries the record count it was given, and as many centroids as that
count and the sample of the vectors ask for. -/
theorem buildSagaFromTenant_count {tenantId : TenantId} {embeddingDim : UInt32}
    {recordCount : UInt64} {vectors : List (List F)} {tags : List String} {builtAt : Int64}
    {seed : UInt64} {saga : Saga F} (built : buildSagaFromTenant rng tenantId embeddingDim
      recordCount vectors tags builtAt seed = .ok saga) :
    saga.recordCount = recordCount ∧ saga.centroids.length =
      min (defaultKFor recordCount) (min vectors.length reservoirSampleSize) := by
  obtain ⟨length, -⟩ := reservoirSample_subset rng vectors reservoirSampleSize
    (rng.seedFromU64 seed)
  rw [buildSagaFromTenant] at built
  generalize reservoirSample rng vectors reservoirSampleSize (rng.seedFromU64 seed) = drawn
    at built length
  obtain ⟨sample, state⟩ := drawn
  have asked : 1 ≤ defaultKFor recordCount := by
    unfold defaultKFor
    split_ifs <;> decide
  dsimp only at built length
  rw [← length]
  split at built
  · next empty =>
    obtain rfl := Except.ok.inj built
    exact ⟨rfl, by rw [empty, List.length_nil, List.length_nil, Nat.min_zero]⟩
  · next filled =>
    obtain ⟨centroids, clusters, run⟩ := Except.bind_eq_ok.mp built
    obtain rfl := Except.ok.inj run
    have positive := List.length_pos_iff.mpr filled
    have count := length_kmeansLloyd (by omega) clusters
    refine ⟨rfl, count.trans ?_⟩
    omega

end Centroids

end Hansa
