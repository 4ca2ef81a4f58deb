import Hansa.Saga
import Mathlib.Data.List.Sort

/-!
# Saga construction

A saga is built from every vector of a tenant: a reservoir sample of them, k-means++ seeds
among the sample, Lloyd's iterations, and the top tags. The random generator comes from
another crate and is the parameter `SmallRng`. Vectors are indexed by the lengths of others,
so vectors of unequal lengths can panic.
-/

namespace Hansa

/-- `SmallRng`: the generator, and the draws that are made from it. -/
structure SmallRng (D : Type) where
  /-- State of the generator. -/
  State : Type
  /-- `seed_from_u64`. -/
  seedFromU64 : UInt64 → State
  /-- `random_range(0..n)`. -/
  randomBelow : Nat → State → Nat × State
  /-- `random_range(0..=n)`. -/
  randomUpTo : Nat → State → Nat × State
  /-- `random_range(0.0..total)`, which panics on a range that is empty or not finite. -/
  randomReal : D → State → Result (D × State)

/-- `RESERVOIR_SAMPLE`. -/
def reservoirSampleSize : Nat := 10000

/-- `KMEANS_MAX_ITER`. -/
def kmeansMaxIter : Nat := 20

/-- `TOP_TAGS`. -/
def topTags : Nat := 10

/-- `default_k_for`. -/
def defaultKFor (n : UInt64) : Nat :=
  if n.toNat ≤ 999 then 16
  else if n.toNat ≤ 9999 then 32
  else if n.toNat ≤ 99999 then 64
  else 128

/-- `aggregate_top_tags`: most frequent first, ties by the tag. -/
def aggregateTopTags (tags : List String) : List TagAggregate :=
  let entries := tags.dedup.map fun tag => (⟨UInt32.ofNat (tags.count tag), tag⟩ : TagAggregate)
  let sorted := entries.mergeSort fun a b => b.count < a.count || b.count = a.count && a.tag ≤ b.tag
  sorted.take topTags

section Reservoir

variable {F D : Type} (rng : SmallRng D)

/-- The loop of `reservoir_sample`, after `seen` vectors. -/
def reservoirLoop (target seen : Nat) (out : List (List F)) (state : rng.State) :
    List (List F) → List (List F) × rng.State
  | [] => (out, state)
  | v :: src =>
    if out.length < target then reservoirLoop target (seen + 1) (out ++ [v]) state src
    else
      let (j, state) := rng.randomUpTo seen state
      reservoirLoop target (seen + 1) (if j < target then out.set j v else out) state src

/-- `reservoir_sample`. -/
def reservoirSample (src : List (List F)) (target : Nat) (state : rng.State) :
    List (List F) × rng.State :=
  reservoirLoop rng target 0 [] state src

end Reservoir

section KMeans

variable {F D : Type} [FloatLike F] [FloatLike D] [Widen F D]

/-- The loop of `squared_distance`. -/
def squaredDistanceFrom (s : F) : List F → List F → Result F
  | [], _ => .ok s
  | _ :: _, [] => .error .panic
  | x :: a, y :: b =>
    let d := x - y
    squaredDistanceFrom (s + d * d) a b

/-- `squared_distance`. -/
def squaredDistance (a b : List F) : Result F := squaredDistanceFrom 0.0 a b

/-- The loop of `nearest_centroid`, at an index and with the best so far. -/
def nearestFrom (point : List F) (idx bestIdx : Nat) (bestDist : F) :
    List (List F) → Result (Nat × F)
  | [] => .ok (bestIdx, bestDist)
  | c :: centroids => do
    let d ← squaredDistance point c
    if FloatLike.lt d bestDist then nearestFrom point (idx + 1) idx d centroids
    else nearestFrom point (idx + 1) bestIdx bestDist centroids

/-- `nearest_centroid`. -/
def nearestCentroid (point : List F) (centroids : List (List F)) : Result (Nat × F) :=
  nearestFrom point 0 0 FloatLike.infinity centroids

/-- The distances of the sample to the nearest seed, after one more seed. -/
def updateDists (last : List F) : List (List F) → List F → Result (List F)
  | p :: sample, dist :: dists => do
    let d ← squaredDistance p last
    let rest ← updateDists last sample dists
    .ok ((if FloatLike.lt d dist then d else dist) :: rest)
  | _, _ => .ok []

/-- The scan that finds the seed at a threshold; no seed is found past the end. -/
def chooseFrom (threshold : D) (idx : Nat) : List F → Option Nat
  | [] => none
  | d :: dists =>
    let threshold := threshold - widen d
    if FloatLike.le threshold 0.0 then some idx else chooseFrom threshold (idx + 1) dists

variable (rng : SmallRng D)

/-- The seeding loop, with a number of seeds still to choose. -/
def seedLoop (sample : List (List F)) (centroids : List (List F)) (last : List F)
    (dists : List F) (state : rng.State) : Nat → Result (List (List F) × rng.State)
  | 0 => .ok (centroids, state)
  | left + 1 => do
    let dists ← updateDists last sample dists
    let total : D := FloatLike.sum (dists.map widen)
    if FloatLike.eq total 0.0 then
      seedLoop sample (centroids ++ [last]) last dists state left
    else
      let (threshold, state) ← rng.randomReal total state
      match sample[(chooseFrom threshold 0 dists).getD 0]? with
      | none => .error .panic
      | some seed => seedLoop sample (centroids ++ [seed]) seed dists state left

/-- `kmeans_plus_plus_init`. -/
def kmeansPlusPlusInit (sample : List (List F)) (k : Nat) (state : rng.State) :
    Result (List (List F) × rng.State) :=
  let (first, state) := rng.randomBelow sample.length state
  match sample[first]? with
  | none => .error .panic
  | some seed =>
    seedLoop rng sample [seed] seed (List.replicate sample.length FloatLike.infinity) state (k - 1)

/-- The assign step: the nearest centroid of each point, and the inertia. -/
def assignStep (centroids : List (List F)) (inertia : D) : List (List F) → Result (List Nat × D)
  | [] => .ok ([], inertia)
  | point :: sample => do
    let (idx, dist) ← nearestCentroid point centroids
    let (assignments, inertia) ← assignStep centroids (inertia + widen dist) sample
    .ok (idx :: assignments, inertia)

/-- `sums[c][d] += point[d]` for the first `dim` coordinates. -/
def addPoint (sum : List F) (point : List F) (dim : Nat) : Result (List F) :=
  if point.length < dim then .error .panic else .ok (List.zipWith (· + ·) sum point)

/-- The sums and counts of the update step. -/
def sumClusters (dim : Nat) (sums : List (List F)) (counts : List Nat) :
    List (List F) → List Nat → Result (List (List F) × List Nat)
  | point :: sample, c :: assignments => do
    let sum ← addPoint (sums.getD c []) point dim
    sumClusters dim (sums.set c sum) (counts.modify c (· + 1)) sample assignments
  | _, _ => .ok (sums, counts)

/-- The centroids of the update step: the mean of each cluster, and an empty cluster's centroid
as it was. -/
def moveCentroids (dim : Nat) : List (List F) → List (List F) → List Nat → Result (List (List F))
  | centroid :: centroids, sum :: sums, count :: counts => do
    let rest ← moveCentroids dim centroids sums counts
    if count = 0 then .ok (centroid :: rest)
    else if centroid.length < dim then .error .panic
    else .ok ((sum.map (· / FloatLike.ofNat count) ++ centroid.drop dim) :: rest)
  | _, _, _ => .ok []

/-- Whether the inertia changed by less than `KMEANS_TOLERANCE`. -/
def converged (prevInertia inertia : D) : Bool :=
  let relChange := if FloatLike.isFinite prevInertia && FloatLike.lt 0.0 prevInertia then
    FloatLike.abs (prevInertia - inertia) / prevInertia else FloatLike.infinity
  FloatLike.lt relChange 1e-3

/-- Lloyd's iterations, with a number of them left. -/
def lloydLoop (sample : List (List F)) (k dim : Nat) (centroids : List (List F))
    (assignments : List Nat) (prevInertia : D) : Nat → Result (List (List F) × List Nat)
  | 0 => .ok (centroids, assignments)
  | left + 1 => do
    let (assignments, inertia) ← assignStep centroids (0.0 : D) sample
    if converged prevInertia inertia then .ok (centroids, assignments)
    else do
      let (sums, counts) ← sumClusters dim (List.replicate k (List.replicate dim 0.0))
        (List.replicate k 0) sample assignments
      let centroids ← moveCentroids dim centroids sums counts
      lloydLoop sample k dim centroids assignments inertia left

/-- `kmeans_lloyd`. -/
def kmeansLloyd (sample : List (List F)) (k dim : Nat) (state : rng.State) :
    Result (List (Centroid F)) := do
  let k := min k sample.length
  let (centroids, _) ← kmeansPlusPlusInit rng sample k state
  let (centroids, assignments) ← lloydLoop sample k dim centroids
    (List.replicate sample.length 0) (FloatLike.infinity : D) kmeansMaxIter
  .ok (centroids.zipIdx.map fun c => ⟨UInt32.ofNat (assignments.count c.2), c.1⟩)

/-- `build_saga_from_tenant`. -/
def buildSagaFromTenant (tenantId : TenantId) (embeddingDim : UInt32) (recordCount : UInt64)
    (vectors : List (List F)) (tags : List String) (builtAt : Int64) (seed : UInt64) :
    Result (Saga F) := do
  let (sample, state) := reservoirSample rng vectors reservoirSampleSize (rng.seedFromU64 seed)
  let k := min (defaultKFor recordCount) (max sample.length 1)
  let centroids ← if sample = [] then .ok []
    else kmeansLloyd rng sample k embeddingDim.toNat state
  .ok { tenantId, builtAt, recordCount, embeddingDim, centroids, tags := aggregateTopTags tags }

end KMeans

end Hansa
