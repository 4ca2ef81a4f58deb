import Hansa.Verif.Lloyd

/-!
# A run of Lloyd's iterations

The loop is repeated with the inertia of every iteration. Seeding takes points of the sample, as
many as were asked for, whatever is drawn. In every iteration the centroids, the assignments and
the last inertia fit together: some assignment to the centroids has at most this inertia. So the
next inertia is not above it.
-/

namespace Hansa

open Exact (num)

/-! ## The logged loop -/

section Logged

variable {F D : Type} [FloatLike F] [FloatLike D] [Widen F D]

/-- Lloyd's iterations, and the inertia of each. -/
def lloydLogged (sample : List (List F)) (k dim : Nat) (centroids : List (List F))
    (assignments : List Nat) (prevInertia : D) :
    Nat → Result (List D × List (List F) × List Nat)
  | 0 => .ok ([], centroids, assignments)
  | left + 1 => do
    let (assignments, inertia) ← assignStep centroids (0.0 : D) sample
    if converged prevInertia inertia then .ok ([inertia], centroids, assignments)
    else do
      let (sums, counts) ← sumClusters dim (List.replicate k (List.replicate dim 0.0))
        (List.replicate k 0) sample assignments
      let centroids ← moveCentroids dim centroids sums counts
      let (log, last) ← lloydLogged sample k dim centroids assignments inertia left
      .ok (inertia :: log, last)

/-- Without the log, it is the loop. -/
theorem lloydLogged_map (sample : List (List F)) (k dim : Nat) (centroids : List (List F))
    (assignments : List Nat) (prevInertia : D) (left : Nat) :
    (lloydLogged sample k dim centroids assignments prevInertia left).map Prod.snd =
      lloydLoop sample k dim centroids assignments prevInertia left := by
  induction left generalizing centroids assignments prevInertia with
  | zero => rfl
  | succ left ih =>
    rw [lloydLogged, lloydLoop]
    cases assignStep centroids (0.0 : D) sample with
    | error fault => rfl
    | ok found =>
      obtain ⟨assignments, inertia⟩ := found
      simp only [ok_bind]
      split
      · rfl
      · cases sumClusters dim (List.replicate k (List.replicate dim 0.0)) (List.replicate k 0)
            sample assignments with
        | error fault => rfl
        | ok summed =>
          simp only [ok_bind]
          cases moveCentroids dim centroids summed.1 summed.2 with
          | error fault => rfl
          | ok centroids =>
            simp only [ok_bind]
            rw [← ih]
            cases lloydLogged sample k dim centroids assignments inertia left <;> rfl

variable (rng : SmallRng D)

/-- `kmeans_lloyd`, and the inertia of every iteration. -/
def kmeansLogged (sample : List (List F)) (k dim : Nat) (state : rng.State) :
    Result (List D × List (Centroid F)) := do
  let k := min k sample.length
  let (centroids, _) ← kmeansPlusPlusInit rng sample k state
  let (log, centroids, assignments) ← lloydLogged sample k dim centroids
    (List.replicate sample.length 0) (FloatLike.infinity : D) kmeansMaxIter
  .ok (log, centroids.zipIdx.map fun c => ⟨UInt32.ofNat (assignments.count c.2), c.1⟩)

/-- Without the log, it is `kmeans_lloyd`. -/
theorem kmeansLogged_map (sample : List (List F)) (k dim : Nat) (state : rng.State) :
    (kmeansLogged rng sample k dim state).map Prod.snd = kmeansLloyd rng sample k dim state := by
  rw [kmeansLogged, kmeansLloyd]
  cases kmeansPlusPlusInit rng sample (min k sample.length) state with
  | error fault => rfl
  | ok seeded =>
    simp only [ok_bind]
    rw [← lloydLogged_map]
    cases lloydLogged sample (min k sample.length) dim seeded.1 (List.replicate sample.length 0)
      (FloatLike.infinity : D) kmeansMaxIter <;> rfl

end Logged

/-! ## The iterations -/

section Iterations

variable {dim : ℕ} {points centroids : List (Point dim)} {assignments : List ℕ}

/-- What the loop has reached, behind an iteration with this inertia: some assignment to the
centroids has at most this inertia. -/
def Reached (points centroids : List (Point dim)) (inertia : ℝ) : Prop :=
  ∃ assignments, Assigns points assignments centroids ∧
    inertiaOf points assignments centroids ≤ inertia

/-- The iterations lose no point, and no inertia is above an earlier one. -/
theorem lloydLogged_row (some_ : centroids ≠ []) (assigns : Assigns points assignments centroids)
    {prev : Exact} (reached : ∀ b, prev = num b → Reached points centroids b) (left : ℕ) :
    ∃ (log : List ℝ) (centroids' : List (Point dim)) (assignments' : List ℕ),
      lloydLogged (points.map row) centroids.length dim (centroids.map row) assignments prev left =
        .ok (log.map num, centroids'.map row, assignments') ∧
      centroids'.length = centroids.length ∧ Assigns points assignments' centroids' ∧
      log.Pairwise (· ≥ ·) ∧ ∀ b, prev = num b → ∀ x ∈ log, x ≤ b := by
  induction left generalizing centroids assignments prev with
  | zero =>
    exact ⟨[], centroids, assignments, rfl, rfl, assigns, .nil, fun _ _ _ absent => nomatch absent⟩
  | succ left ih =>
    obtain ⟨found, assigned, nearest⟩ := assignStep_row some_ 0 points
    rw [zero_add, ← Exact.literal_zero] at assigned
    have inside : Assigns points found centroids := nearest.imp fun _ _ ⟨_, near⟩ => near.lt
    have below : ∀ b, prev = num b → inertiaOf points found centroids ≤ b := by
      intro b value
      obtain ⟨earlier, assigns, atMost⟩ := reached b value
      exact (inertiaOf_le_of_nearest nearest assigns).trans atMost
    by_cases done : converged prev (num (inertiaOf points found centroids)) = true
    · refine ⟨[inertiaOf points found centroids], centroids, found, ?_, rfl, inside,
        List.pairwise_singleton .., ?_⟩
      · rw [lloydLogged, assigned, ok_bind]
        exact if_pos done
      · intro b value x member
        rw [List.mem_singleton.mp member]
        exact below b value
    · obtain ⟨sums, counts, summed, moves⟩ := updateStep_row inside
      have length : (movedCentroids points found centroids).length = centroids.length :=
        List.length_mapIdx
      have assigns' : Assigns points found (movedCentroids points found centroids) := by
        rw [Assigns, length]
        exact inside
      have some' : movedCentroids points found centroids ≠ [] :=
        List.ne_nil_of_length_pos (length ▸ List.length_pos_iff.mpr some_)
      have reached' : ∀ b, num (inertiaOf points found centroids) = num b →
          Reached points (movedCentroids points found centroids) b := by
        intro b value
        cases value
        exact ⟨found, assigns', inertiaOf_movedCentroids_le inside⟩
      obtain ⟨log, centroids', assignments', run, same, covers, descends, bounded⟩ :=
        ih some' assigns' reached'
      refine ⟨inertiaOf points found centroids :: log, centroids', assignments', ?_,
        same.trans length, covers, List.pairwise_cons.mpr ⟨bounded _ rfl, descends⟩, ?_⟩
      · rw [length] at run
        rw [lloydLogged, assigned, ok_bind]
        refine (if_neg done).trans ?_
        rw [summed, ok_bind]
        simp only [moves, ok_bind]
        rw [run]
        rfl
      · intro b value x member
        rcases List.mem_cons.mp member with rfl | later
        · exact below b value
        · exact (bounded _ rfl x later).trans (below b value)

end Iterations

/-! ## Seeding -/

/-- What is known of the generator: a draw below a number is below it, and a draw up to a
positive real number is made. -/
structure SmallRng.Draws (rng : SmallRng Exact) : Prop where
  /-- `random_range(0..n)`. -/
  below : ∀ n state, 0 < n → (rng.randomBelow n state).1 < n
  /-- `random_range(0.0..total)`. -/
  real : ∀ total state, 0 < total → ∃ drawn, rng.randomReal (num total) state = .ok drawn

section Seeding

variable {dim : ℕ} {points : List (Point dim)}

/-- A distance that the seeding keeps: infinity at first, then a real number. -/
def IsDistance (d : Exact) : Prop := d = FloatLike.infinity ∨ ∃ x, 0 ≤ x ∧ d = num x

/-- A distance to a point is at least zero, and not above the distance so far. -/
theorem IsDistance.min {dist : Exact} (known : IsDistance dist) {x : ℝ} (nonneg : 0 ≤ x) :
    ∃ y, 0 ≤ y ∧ (if FloatLike.lt (num x) dist then num x else dist) = num y := by
  by_cases nearer : FloatLike.lt (num x) dist = true
  · exact ⟨x, nonneg, if_pos nearer⟩
  · rcases known with rfl | ⟨y, nonneg', rfl⟩
    · exact absurd (lt_infinity x) nearer
    · exact ⟨y, nonneg', if_neg nearer⟩

/-- With one more seed, the distances are real numbers. -/
theorem updateDists_row (seed : Point dim) (points : List (Point dim)) {dists : List Exact}
    (length : dists.length = points.length) (known : ∀ d ∈ dists, IsDistance d) :
    ∃ values : List ℝ, updateDists (row seed) (points.map row) dists = .ok (values.map num) ∧
      values.length = points.length ∧ ∀ x ∈ values, 0 ≤ x := by
  induction points generalizing dists with
  | nil => exact ⟨[], rfl, rfl, fun _ absent => nomatch absent⟩
  | cons p points ih =>
    obtain ⟨dist, dists, rfl⟩ := List.exists_cons_of_ne_nil
      (List.ne_nil_of_length_eq_add_one length)
    obtain ⟨values, result, same, nonneg⟩ := ih (Nat.succ.inj length)
      fun d member => known d (List.mem_cons_of_mem _ member)
    obtain ⟨y, nonneg', least⟩ := (known dist List.mem_cons_self).min (sq_nonneg ‖p - seed‖)
    refine ⟨y :: values, ?_, congrArg (· + 1) same, List.forall_mem_cons.mpr ⟨nonneg', nonneg⟩⟩
    rw [List.map_cons, updateDists, squaredDistance_row, ok_bind, result, ok_bind, least]
    rfl

/-- The seed that is chosen is one of the sample. -/
theorem chooseFrom_lt {F D : Type} [FloatLike D] [Widen F D] {threshold : D} {idx i : ℕ}
    {dists : List F} (chosen : chooseFrom threshold idx dists = some i) :
    i < idx + dists.length := by
  induction dists generalizing threshold idx with
  | nil => cases chosen
  | cons d dists ih =>
    rw [List.length_cons]
    rw [chooseFrom] at chosen
    split at chosen
    · obtain rfl := Option.some.inj chosen
      omega
    · have := ih chosen
      omega

/-- The call returns points as seeds, this many of them. -/
def YieldsSeeds (dim : ℕ) {State : Type} (result : Result (List (List Exact) × State)) (n : ℕ) :
    Prop :=
  ∃ (seeds : List (Point dim)) (state : State),
    result = .ok (seeds.map row, state) ∧ seeds.length = n

variable {rng : SmallRng Exact} (draws : rng.Draws)

include draws

/-- The loop adds as many seeds as are left. -/
theorem seedLoop_row (some_ : points ≠ []) (seeds : List (Point dim)) (last : Point dim)
    {dists : List Exact} (length : dists.length = points.length)
    (known : ∀ d ∈ dists, IsDistance d) (state : rng.State) (left : ℕ) :
    YieldsSeeds dim (seedLoop rng (points.map row) (seeds.map row) (row last) dists state left)
      (seeds.length + left) := by
  induction left generalizing seeds last dists state with
  | zero => exact ⟨seeds, state, rfl, rfl⟩
  | succ left ih =>
    obtain ⟨values, updated, same, nonneg⟩ := updateDists_row last points length known
    have values_known : ∀ d ∈ values.map num, IsDistance d := by
      intro d member
      obtain ⟨x, inside, rfl⟩ := List.mem_map.mp member
      exact .inr ⟨x, nonneg x inside, rfl⟩
    have total : FloatLike.sum ((values.map num).map (widen : Exact → Exact)) =
        num values.sum := by
      rw [← sum_num]
      exact congrArg _ (List.map_id _)
    have next : ∀ (seed : Point dim) state, YieldsSeeds dim (seedLoop rng (points.map row)
        (seeds.map row ++ [row seed]) (row seed) (values.map num) state left)
          (seeds.length + (left + 1)) := by
      intro seed state
      have length' : (values.map num).length = points.length := by rw [List.length_map, same]
      have later := ih (seeds ++ [seed]) seed length' values_known state
      rwa [List.map_append, List.length_append, List.length_singleton, Nat.add_assoc,
        Nat.add_comm 1 left] at later
    rw [seedLoop, updated, ok_bind]
    simp only [total]
    by_cases zero : FloatLike.eq (num values.sum) (0.0 : Exact) = true
    · rw [if_pos zero]
      exact next last state
    · have positive : 0 < values.sum := by
        refine lt_of_le_of_ne (List.sum_nonneg nonneg) fun same => zero ?_
        rw [Exact.literal_zero]
        exact eq_num.mpr same.symm
      obtain ⟨⟨threshold, state'⟩, drawn⟩ := draws.real values.sum state positive
      have inside : (chooseFrom threshold 0 (values.map num)).getD 0 < points.length := by
        cases found : chooseFrom threshold 0 (values.map num) with
        | none => exact List.length_pos_iff.mpr some_
        | some i =>
          have bound := chooseFrom_lt found
          rwa [List.length_map, same, Nat.zero_add] at bound
      have seed : (points.map row)[(chooseFrom threshold 0 (values.map num)).getD 0]? =
          some (row points[(chooseFrom threshold 0 (values.map num)).getD 0]) := by
        rw [List.getElem?_map, List.getElem?_eq_getElem inside]
        rfl
      rw [if_neg zero, drawn, ok_bind]
      simp only [seed]
      exact next _ state'

/-- The seeding takes as many seeds as were asked for. -/
theorem kmeansPlusPlusInit_row (some_ : points ≠ []) {k : ℕ} (positive : 0 < k)
    (state : rng.State) :
    YieldsSeeds dim (kmeansPlusPlusInit rng (points.map row) k state) k := by
  have filled := List.length_pos_iff.mpr some_
  have inside := draws.below points.length state filled
  have seed : (points.map row)[(rng.randomBelow points.length state).1]? =
      some (row points[(rng.randomBelow points.length state).1]) := by
    rw [List.getElem?_map, List.getElem?_eq_getElem inside]
    rfl
  have far : ∀ d ∈ List.replicate points.length (FloatLike.infinity : Exact), IsDistance d :=
    fun d member => .inl (List.eq_of_mem_replicate member)
  have run := seedLoop_row draws some_ [points[(rng.randomBelow points.length state).1]]
    points[(rng.randomBelow points.length state).1] List.length_replicate far
    (rng.randomBelow points.length state).2 (k - 1)
  have count : 1 + (k - 1) = k := by omega
  rw [List.length_singleton, count] at run
  simp only [kmeansPlusPlusInit, List.length_map, seed]
  exact run

end Seeding

/-! ## The clusters -/

/-- The cluster sizes add up to the number of points, while they fit. -/
theorem sum_clusterSize {F : Type} {vectors : List (List F)} {assignments : List ℕ}
    (inside : ∀ i ∈ assignments, i < vectors.length) (fits : assignments.length < 2 ^ 32) :
    ((vectors.zipIdx.map fun c => (⟨UInt32.ofNat (assignments.count c.2), c.1⟩ : Centroid F)).map
      (·.clusterSize.toNat)).sum = assignments.length := by
  have sizes : (vectors.zipIdx.map fun c =>
      (⟨UInt32.ofNat (assignments.count c.2), c.1⟩ : Centroid F)).map (·.clusterSize.toNat) =
        (List.range vectors.length).map (assignments.count ·) := by
    have small : ∀ j, (UInt32.ofNat (assignments.count j)).toNat = assignments.count j := fun j =>
      UInt32.toNat_ofNat_of_lt' (Nat.lt_of_le_of_lt List.count_le_length fits)
    rw [List.map_map, List.range_eq_range', ← List.zipIdx_map_snd 0 vectors, List.map_map]
    exact List.map_congr_left fun c _ => small c.2
  have counted : ((List.range vectors.length).map (assignments.count ·)).sum =
      ∑ j ∈ Finset.range vectors.length, (assignments : Multiset ℕ).count j := by
    rw [← List.sum_toFinset _ List.nodup_range, List.toFinset_range]
    exact Finset.sum_congr rfl fun j _ => (Multiset.coe_count j assignments).symm
  rw [sizes, counted, Multiset.sum_count_eq_card fun i member =>
    Finset.mem_range.mpr (inside i member), Multiset.coe_card]

/-! ## The whole run -/

section Run

variable {rng : SmallRng Exact} {dim : ℕ}

/-- A sample of vectors of real numbers is a list of points. -/
theorem exists_rows {sample : List (List Exact)}
    (vectors : ∀ v ∈ sample, v.length = dim ∧ ∀ a ∈ v, FloatLike.isFinite a = true) :
    ∃ points : List (Point dim), sample = points.map row := by
  induction sample with
  | nil => exact ⟨[], rfl⟩
  | cons v sample ih =>
    obtain ⟨here, later⟩ := List.forall_mem_cons.mp vectors
    obtain ⟨p, rfl⟩ := exists_row here.1 here.2
    obtain ⟨points, rfl⟩ := ih later
    exact ⟨p :: points, rfl⟩

/-- Over exact numbers, `kmeans_lloyd` returns as many centroids as it can, each of the dimension
of the sample, their clusters have all points, and no iteration has a higher inertia than the one
before it, whatever is drawn. -/
theorem kmeansLloyd_descends (draws : rng.Draws) {sample : List (List Exact)}
    (some_ : sample ≠ [])
    (vectors : ∀ v ∈ sample, v.length = dim ∧ ∀ a ∈ v, FloatLike.isFinite a = true)
    (fits : sample.length < 2 ^ 32) {k : ℕ} (positive : 1 ≤ k) (state : rng.State) :
    ∃ (inertias : List Exact) (centroids : List (Centroid Exact)),
      kmeansLogged rng sample k dim state = .ok (inertias, centroids) ∧
      kmeansLloyd rng sample k dim state = .ok centroids ∧
      centroids.length = min k sample.length ∧ (∀ c ∈ centroids, c.vector.length = dim) ∧
      (centroids.map (·.clusterSize.toNat)).sum = sample.length ∧
      inertias.IsChain fun earlier later => FloatLike.le later earlier = true := by
  obtain ⟨points, rfl⟩ := exists_rows vectors
  have filled : points ≠ [] := by simpa using some_
  have clusters : 0 < min k points.length := lt_min positive (List.length_pos_iff.mpr filled)
  obtain ⟨seeds, state', seeded, count⟩ := kmeansPlusPlusInit_row draws filled clusters state
  have first : Assigns points (List.replicate points.length 0) seeds := by
    refine List.forall₂_iff_get.mpr ⟨List.length_replicate.symm, fun i _ _ => ?_⟩
    simpa [count] using clusters
  have fresh : ∀ b, (FloatLike.infinity : Exact) = num b → Reached points seeds b :=
    fun b value => nomatch value
  obtain ⟨log, centroids, assignments, run, same, assigns, descends, -⟩ :=
    lloydLogged_row (List.ne_nil_of_length_pos (count ▸ clusters)) first fresh kmeansMaxIter
  have logged : kmeansLogged rng (points.map row) k dim state = .ok (log.map num,
      (centroids.map row).zipIdx.map fun c =>
        ⟨UInt32.ofNat (assignments.count c.2), c.1⟩) := by
    rw [kmeansLogged, List.length_map]
    simp only [seeded, ok_bind]
    rw [← count, run, ok_bind]
  refine ⟨_, _, logged, ?_, ?_, ?_, ?_, ?_⟩
  · rw [← kmeansLogged_map, logged]
    rfl
  · rw [List.length_map, List.length_zipIdx, List.length_map, List.length_map, same, count]
  · intro c member
    obtain ⟨⟨v, j⟩, inside, rfl⟩ := List.mem_map.mp member
    obtain ⟨p, -, rfl⟩ := List.mem_map.mp (List.fst_mem_of_mem_zipIdx inside)
    exact length_row p
  · have covered := List.Forall₂.length_eq assigns
    rw [sum_clusterSize, List.length_map, covered]
    · intro i member
      obtain ⟨j, bound, rfl⟩ := List.mem_iff_getElem.mp member
      rw [List.length_map]
      exact List.Forall₂.get assigns (covered ▸ bound) bound
    · rwa [← covered, ← List.length_map row]
  · rw [List.isChain_map]
    exact descends.isChain.imp fun earlier later below => le_num.mpr below

/-- A generator that always draws the start of the range. -/
noncomputable def startRng : SmallRng Exact where
  State := Unit
  seedFromU64 := fun _ => ()
  randomBelow := fun _ state => (0, state)
  randomUpTo := fun _ state => (0, state)
  randomReal := fun total state =>
    if FloatLike.isFinite total && FloatLike.lt 0.0 total then .ok (0.0, state)
    else .error .panic

/-- The start of a range is in the range. -/
theorem startRng_draws : startRng.Draws := by
  refine ⟨fun n _ some_ => some_, fun total state positive => ⟨(0.0, state), if_pos ?_⟩⟩
  rw [Exact.literal_zero, lt_num.mpr positive]
  rfl

/-- Two clusters of three points on a line. -/
theorem kmeansLloyd_descends_sample :
    ∃ centroids, kmeansLloyd startRng [[num 0], [num 1], [num 5]] 2 1 () = .ok centroids ∧
      centroids.length = 2 ∧ (centroids.map (·.clusterSize.toNat)).sum = 3 := by
  have vectors : ∀ v ∈ [[num 0], [num 1], [num 5]],
      v.length = 1 ∧ ∀ a ∈ v, FloatLike.isFinite a = true := by
    intro v member
    simp only [List.mem_cons, List.not_mem_nil, or_false] at member
    rcases member with rfl | rfl | rfl <;> exact ⟨rfl, by simp [isFinite_iff]⟩
  obtain ⟨_, centroids, -, run, length, -, sizes, -⟩ :=
    kmeansLloyd_descends startRng_draws (by simp) vectors (by decide) (k := 2) (by decide) ()
  exact ⟨centroids, run, length, sizes⟩

end Run

end Hansa
