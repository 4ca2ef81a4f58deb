import Mathlib.Analysis.InnerProductSpace.PiL2
import Mathlib.Data.List.GetD
import Hansa.Library.NearestMeans
import Hansa.SagaBuild
import Hansa.Verif.ExactArithmetic

/-!
# Lloyd's iterations

Over exact numbers a vector of the sample is a point of a Euclidean space, and the distance that
the code computes is the square of that of the space. The assign step finds a nearest centroid
for every point, and the update step moves every centroid that has points to their mean. So the
inertia never rises from one iteration to the next, no point is lost, and the seeding finds as
many centroids as were asked for.
-/

namespace Hansa

open Exact (num)
open NearestMeans

/-- The space of the vectors of a tenant. -/
abbrev Point (dim : ℕ) := EuclideanSpace ℝ (Fin dim)

variable {dim k : ℕ}

/-- A point as a vector of exact numbers. -/
noncomputable def row (p : Point dim) : List Exact := List.ofFn fun d => num (p d)

/-- A point has as many coordinates as the space. -/
@[simp] theorem length_row (p : Point dim) : (row p).length = dim := List.length_ofFn

/-- A vector of real numbers is a point. -/
theorem exists_row {v : List Exact} (length : v.length = dim)
    (real : ∀ a ∈ v, FloatLike.isFinite a = true) : ∃ p : Point dim, v = row p := by
  subst length
  choose x same using fun a member => isFinite_iff.mp (real a member)
  refine ⟨WithLp.toLp 2 fun d => x v[d] (List.getElem_mem d.2), ?_⟩
  refine List.ext_getElem (length_row _).symm fun d inside _ => ?_
  simp only [row, List.getElem_ofFn]
  exact same v[d] (List.getElem_mem inside)

/-! ## Distances -/

/-- The distances of the code are sums over the coordinates. -/
theorem squaredDistanceFrom_ofFn {n : ℕ} (s : ℝ) (a b : Fin n → ℝ) :
    squaredDistanceFrom (num s) (List.ofFn fun d => num (a d)) (List.ofFn fun d => num (b d)) =
      .ok (num (s + ∑ d, (a d - b d) * (a d - b d))) := by
  induction n generalizing s with
  | zero => simp [squaredDistanceFrom]
  | succ n ih =>
    rw [List.ofFn_succ, List.ofFn_succ, squaredDistanceFrom, Exact.num_sub, Exact.num_mul,
      Exact.num_add, ih, Fin.sum_univ_succ, add_assoc]

/-- The distance of the code is the square of the distance in space. -/
theorem squaredDistance_row (p q : Point dim) :
    squaredDistance (row p) (row q) = .ok (num (‖p - q‖ ^ 2)) := by
  have square : ‖p - q‖ ^ 2 = 0 + ∑ d, (p d - q d) * (p d - q d) := by
    rw [EuclideanSpace.norm_sq_eq, zero_add]
    exact Finset.sum_congr rfl fun d _ => by rw [Real.norm_eq_abs, sq_abs, sq]; rfl
  rw [squaredDistance, Exact.literal_zero, square]
  exact squaredDistanceFrom_ofFn 0 _ _

/-! ## The nearest centroid -/

/-- A nearest centroid of a point, with its index. -/
structure IsNearest (centroids : List (Point dim)) (p : Point dim) (i : ℕ) (c : Point dim) :
    Prop where
  /-- The centroid is at the index. -/
  here : centroids[i]? = some c
  /-- No centroid is nearer. -/
  least : ∀ c' ∈ centroids, ‖p - c‖ ^ 2 ≤ ‖p - c'‖ ^ 2

/-- The index of a nearest centroid is one of the centroids. -/
theorem IsNearest.lt {centroids : List (Point dim)} {p c : Point dim} {i : ℕ}
    (nearest : IsNearest centroids p i c) : i < centroids.length :=
  (List.getElem?_eq_some_iff.mp nearest.here).1

/-- The loop goes on with a nearest centroid of those that it passed. -/
theorem nearestFrom_row (p : Point dim) (front back : List (Point dim)) {i : ℕ} {c : Point dim}
    (now : IsNearest front p i c) :
    ∃ i' c', nearestFrom (row p) front.length i (num (‖p - c‖ ^ 2)) (back.map row) =
        .ok (i', num (‖p - c'‖ ^ 2)) ∧ IsNearest (front ++ back) p i' c' := by
  induction back generalizing front i c with
  | nil => exact ⟨i, c, rfl, by rwa [List.append_nil]⟩
  | cons b back ih =>
    have passed : front ++ b :: back = front ++ [b] ++ back := by simp
    have index : front.length + 1 = (front ++ [b]).length := by simp
    rw [passed, List.map_cons, nearestFrom, squaredDistance_row, ok_bind, index]
    by_cases nearer : ‖p - b‖ ^ 2 < ‖p - c‖ ^ 2
    · obtain ⟨i', c', result, nearest⟩ := ih (front ++ [b]) (i := front.length) (c := b) {
        here := by simp
        least := by
          intro c' member
          rcases List.mem_append.mp member with old | new
          · exact nearer.le.trans (now.least c' old)
          · rw [List.mem_singleton.mp new] }
      exact ⟨i', c', by rw [if_pos (lt_num.mpr nearer), result], nearest⟩
    · obtain ⟨i', c', result, nearest⟩ := ih (front ++ [b]) (i := i) (c := c) {
        here := by rw [List.getElem?_append_left now.lt, now.here]
        least := by
          intro c' member
          rcases List.mem_append.mp member with old | new
          · exact now.least c' old
          · rw [List.mem_singleton.mp new]
            exact not_lt.mp nearer }
      exact ⟨i', c', by rw [if_neg (mt lt_num.mp nearer), result], nearest⟩

/-- The code finds a nearest centroid, and the square of its distance. -/
theorem nearestCentroid_row (p : Point dim) {centroids : List (Point dim)}
    (some_ : centroids ≠ []) :
    ∃ i c, nearestCentroid (row p) (centroids.map row) = .ok (i, num (‖p - c‖ ^ 2)) ∧
      IsNearest centroids p i c := by
  obtain ⟨c, back, rfl⟩ := List.exists_cons_of_ne_nil some_
  obtain ⟨i, c', result, nearest⟩ := nearestFrom_row p [c] back (i := 0) (c := c)
    ⟨rfl, fun c' member => by rw [List.mem_singleton.mp member]⟩
  refine ⟨i, c', ?_, nearest⟩
  rw [nearestCentroid, List.map_cons, nearestFrom, squaredDistance_row, ok_bind,
    if_pos (lt_infinity _)]
  exact result

/-! ## The assign step -/

/-- The sum of squared distances between points and their centroids. -/
noncomputable def inertiaOf (points : List (Point dim)) (assignments : List ℕ)
    (centroids : List (Point dim)) : ℝ :=
  (List.zipWith (fun p i => ‖p - centroids.getD i 0‖ ^ 2) points assignments).sum

/-- The assign step finds a nearest centroid for every point, and the inertia. -/
theorem assignStep_row {centroids : List (Point dim)} (some_ : centroids ≠ []) (s : ℝ)
    (points : List (Point dim)) :
    ∃ assignments,
      assignStep (centroids.map row) (num s) (points.map row) =
        .ok (assignments, num (s + inertiaOf points assignments centroids)) ∧
      List.Forall₂ (fun p i => ∃ c, IsNearest centroids p i c) points assignments := by
  induction points generalizing s with
  | nil => exact ⟨[], by simp [assignStep, inertiaOf], .nil⟩
  | cons p points ih =>
    obtain ⟨i, c, found, nearest⟩ := nearestCentroid_row p some_
    obtain ⟨assignments, result, all⟩ := ih (s + ‖p - c‖ ^ 2)
    refine ⟨i :: assignments, ?_, .cons ⟨c, nearest⟩ all⟩
    have value : centroids.getD i 0 = c := by rw [List.getD_eq_getElem?_getD, nearest.here]; rfl
    have total : s + inertiaOf (p :: points) (i :: assignments) centroids =
        s + ‖p - c‖ ^ 2 + inertiaOf points assignments centroids := by
      rw [inertiaOf, List.zipWith_cons_cons, List.sum_cons, value, add_assoc, inertiaOf]
    have wide : (num s + widen (num (‖p - c‖ ^ 2)) : Exact) = num (s + ‖p - c‖ ^ 2) := rfl
    rw [List.map_cons, assignStep, found, ok_bind]
    simp only [wide]
    rw [result, ok_bind, total]

/-! ## The update step -/

/-- Every point is assigned to one of the centroids. -/
def Assigns (points : List (Point dim)) (assignments : List ℕ) (centroids : List (Point dim)) :
    Prop := List.Forall₂ (fun _ i => i < centroids.length) points assignments

/-- The sum of the points that are assigned to a centroid. -/
noncomputable def clusterSum (points : List (Point dim)) (assignments : List ℕ) (j : ℕ) :
    Point dim :=
  (List.zipWith (fun p i => if i = j then p else 0) points assignments).sum

/-- The coordinates of a point are added to those of a sum. -/
theorem addPoint_row (s p : Point dim) : addPoint (row s) (row p) dim = .ok (row (s + p)) := by
  rw [addPoint, if_neg (by simp)]
  refine congrArg Except.ok (List.ext_getElem (by simp) fun d _ _ => ?_)
  simp [row]

/-- The loop adds to every sum the points of its cluster, and counts them. -/
theorem sumClusters_row {points : List (Point dim)} {assignments : List ℕ}
    (sums : List (Point dim)) (counts : List ℕ)
    (all : List.Forall₂ (fun _ i => i < sums.length) points assignments) :
    sumClusters dim (sums.map row) counts (points.map row) assignments =
      .ok ((sums.mapIdx fun j s => s + clusterSum points assignments j).map row,
        counts.mapIdx fun j n => n + assignments.count j) := by
  induction points generalizing assignments sums counts with
  | nil =>
    cases all
    have same : (sums.mapIdx fun j s => s + clusterSum [] [] j) = sums :=
      List.ext_getElem (by simp) fun j _ _ => by simp [clusterSum]
    have same' : (counts.mapIdx fun j n => n + List.count j []) = counts :=
      List.ext_getElem (by simp) fun j _ _ => by simp
    rw [same, same']
    rfl
  | cons p points ih =>
    obtain _ | ⟨inside, rest⟩ := all
    rename_i i assignments
    have sum : (sums.map row).getD i [] = row sums[i] := by
      rw [List.getD_eq_getElem?_getD, List.getElem?_map, List.getElem?_eq_getElem inside]
      rfl
    have grown : ((sums.set i (sums[i] + p)).mapIdx fun j s =>
        s + clusterSum points assignments j) =
          sums.mapIdx fun j s => s + clusterSum (p :: points) (i :: assignments) j := by
      refine List.ext_getElem (by simp) fun j _ _ => ?_
      rw [List.getElem_mapIdx, List.getElem_mapIdx, List.getElem_set, clusterSum, clusterSum,
        List.zipWith_cons_cons, List.sum_cons]
      by_cases here : i = j
      · subst here
        rw [if_pos rfl, if_pos rfl, add_assoc]
      · rw [if_neg here, if_neg here, zero_add]
    have counted : ((counts.modify i (· + 1)).mapIdx fun j n => n + assignments.count j) =
        counts.mapIdx fun j n => n + (i :: assignments).count j := by
      refine List.ext_getElem (by simp) fun j _ _ => ?_
      rw [List.getElem_mapIdx, List.getElem_mapIdx, List.getElem_modify, List.count_cons]
      by_cases here : i = j
      · simp only [here, if_true, beq_self_eq_true]
        omega
      · simp only [here, if_false, beq_iff_eq, add_zero]
    have later := ih (sums.set i (sums[i] + p)) (counts.modify i (· + 1))
      (by simpa only [List.length_set] using rest)
    rw [List.map_cons, sumClusters, sum, addPoint_row, ok_bind, ← List.map_set, later, grown,
      counted]

/-- The centroids behind the update step: the mean of each cluster, and the centroid of an empty
cluster as it was. -/
noncomputable def movedCentroids (points : List (Point dim)) (assignments : List ℕ)
    (centroids : List (Point dim)) : List (Point dim) :=
  centroids.mapIdx fun j c =>
    if assignments.count j = 0 then c
    else ((assignments.count j : ℕ) : ℝ)⁻¹ • clusterSum points assignments j

/-- The coordinates of a sum are divided by the number of points. -/
theorem map_div_row (s : Point dim) {n : ℕ} (some_ : n ≠ 0) :
    (row s).map (· / (FloatLike.ofNat n : Exact)) = row ((n : ℝ)⁻¹ • s) := by
  refine List.ext_getElem (by simp) fun d _ _ => ?_
  have nonzero : (n : ℝ) ≠ 0 := Nat.cast_ne_zero.mpr some_
  simp only [List.getElem_map, row, List.getElem_ofFn, PiLp.smul_apply, smul_eq_mul]
  rw [inv_mul_eq_div]
  exact Exact.num_div nonzero

/-- The code moves every centroid to the quotient of its sum and its count. -/
theorem moveCentroids_row (centroids : List (Point dim)) (sums : ℕ → Point dim)
    (counts : ℕ → ℕ) :
    moveCentroids dim (centroids.map row) ((centroids.mapIdx fun j _ => sums j).map row)
      (centroids.mapIdx fun j _ => counts j) =
      .ok ((centroids.mapIdx fun j c =>
        if counts j = 0 then c else (counts j : ℝ)⁻¹ • sums j).map row) := by
  induction centroids generalizing sums counts with
  | nil => rfl
  | cons c centroids ih =>
    have later := ih (fun j => sums (j + 1)) (fun j => counts (j + 1))
    simp only [List.mapIdx_cons, List.map_cons]
    rw [moveCentroids, later, ok_bind]
    by_cases none_ : counts 0 = 0
    · rw [if_pos none_, if_pos none_]
    · rw [if_neg none_, if_neg none_, if_neg (by simp), map_div_row _ none_,
        List.drop_eq_nil_of_le (by simp), List.append_nil]

/-- The update step moves the centroids. -/
theorem updateStep_row {points : List (Point dim)} {assignments : List ℕ}
    {centroids : List (Point dim)} (assigns : Assigns points assignments centroids) :
    ∃ sums counts,
      sumClusters dim (List.replicate centroids.length (List.replicate dim (0.0 : Exact)))
        (List.replicate centroids.length 0) (points.map row) assignments = .ok (sums, counts) ∧
      moveCentroids dim (centroids.map row) sums counts =
        .ok ((movedCentroids points assignments centroids).map row) := by
  have zero : (List.replicate dim (0.0 : Exact)) = row (0 : Point dim) := by
    rw [Exact.literal_zero, row]
    exact (List.ofFn_const dim _).symm
  have sums : ((List.replicate centroids.length (0 : Point dim)).mapIdx fun j s =>
      s + clusterSum points assignments j) =
        centroids.mapIdx fun j _ => clusterSum points assignments j :=
    List.ext_getElem (by simp) fun j _ _ => by simp
  have counts : ((List.replicate centroids.length 0).mapIdx fun j n =>
      n + assignments.count j) = centroids.mapIdx fun j _ => assignments.count j :=
    List.ext_getElem (by simp) fun j _ _ => by simp
  refine ⟨_, _, ?_, moveCentroids_row centroids _ _⟩
  rw [zero, ← List.map_replicate, sumClusters_row _ _ (by simpa [Assigns] using assigns), sums,
    counts]

/-! ## The inertia -/

/-- A sum over points and their centroids, by the index of the point. -/
theorem sum_zipWith {α M : Type} [AddCommMonoid M] (f : α → ℕ → M) {points : List α}
    {assignments : List ℕ} (same : assignments.length = points.length) :
    (List.zipWith f points assignments).sum =
      ∑ i : Fin points.length, f points[i] (assignments.getD i 0) := by
  induction points generalizing assignments with
  | nil => simp
  | cons p points ih =>
    obtain ⟨a, assignments, rfl⟩ := List.exists_cons_of_ne_nil
      (List.ne_nil_of_length_eq_add_one same)
    rw [List.zipWith_cons_cons, List.sum_cons, ih (Nat.succ.inj same)]
    exact (Fin.sum_univ_succ fun i : Fin (points.length + 1) =>
      f (p :: points)[i] ((a :: assignments).getD i 0)).symm

variable {points : List (Point dim)} {assignments : List ℕ} {centroids : List (Point dim)}

/-- The inertia is the cost of the grouping. -/
theorem inertiaOf_eq_cost (same : assignments.length = points.length)
    (centroids : List (Point dim)) :
    inertiaOf points assignments centroids = cost (fun i : Fin points.length => points[i])
      (fun i => assignments.getD i 0) (centroids.getD · 0) :=
  sum_zipWith _ same

/-- The points assigned to a centroid are counted. -/
theorem count_eq_card_members (same : assignments.length = points.length) (j : ℕ) :
    assignments.count j =
      (members (fun i : Fin points.length => assignments.getD i 0) j).card := by
  have ones : (List.zipWith (fun (_ : Point dim) i => if i = j then 1 else 0) points
      assignments).sum = assignments.count j := by
    induction points generalizing assignments with
    | nil => rw [List.eq_nil_of_length_eq_zero same]; rfl
    | cons p points ih =>
      obtain ⟨a, assignments, rfl⟩ := List.exists_cons_of_ne_nil
        (List.ne_nil_of_length_eq_add_one same)
      rw [List.zipWith_cons_cons, List.sum_cons, ih (Nat.succ.inj same), List.count_cons,
        Nat.add_comm]
      simp only [beq_iff_eq]
  rw [← ones, sum_zipWith _ same, members, Finset.card_filter]

/-- The moved centroids are the means of their clusters. -/
theorem getD_movedCentroids (same : assignments.length = points.length) {j : ℕ}
    (inside : j < centroids.length) :
    (movedCentroids points assignments centroids).getD j 0 =
      moved (fun i : Fin points.length => points[i]) (fun i => assignments.getD i 0)
        (centroids.getD · 0) j := by
  have counted := count_eq_card_members same j
  have centroid : centroids.getD j 0 = centroids[j] := List.getD_eq_getElem _ _ inside
  have sum : clusterSum points assignments j =
      ∑ i ∈ members (fun i : Fin points.length => assignments.getD i 0) j, points[i] := by
    rw [clusterSum, sum_zipWith _ same, members, Finset.sum_filter]
  rw [List.getD_eq_getElem _ _ (by simpa [movedCentroids] using inside)]
  simp only [movedCentroids, List.getElem_mapIdx]
  by_cases none_ : assignments.count j = 0
  · have empty : ¬ (members (fun i : Fin points.length => assignments.getD i 0) j).Nonempty := by
      rw [← Finset.card_pos, ← counted, none_]
      exact Nat.lt_irrefl 0
    rw [if_pos none_, moved, if_neg empty, centroid]
  · have some_ : (members (fun i : Fin points.length => assignments.getD i 0) j).Nonempty := by
      rw [← Finset.card_pos, ← counted]
      exact Nat.pos_of_ne_zero none_
    rw [if_neg none_, moved, if_pos some_, mean, ← counted, sum]

/-- The index that is assigned to a point is that of a centroid. -/
theorem Assigns.getD_lt (assigns : Assigns points assignments centroids)
    (i : Fin points.length) : assignments.getD i 0 < centroids.length := by
  have same := List.Forall₂.length_eq assigns
  rw [List.getD_eq_getElem _ _ (by omega)]
  exact List.Forall₂.get assigns i.2 _

/-- Moving the centroids does not raise the inertia. -/
theorem inertiaOf_movedCentroids_le (assigns : Assigns points assignments centroids) :
    inertiaOf points assignments (movedCentroids points assignments centroids) ≤
      inertiaOf points assignments centroids := by
  have same : assignments.length = points.length := (List.Forall₂.length_eq assigns).symm
  rw [inertiaOf_eq_cost same, inertiaOf_eq_cost same]
  calc cost _ _ ((movedCentroids points assignments centroids).getD · 0)
      = cost _ _ (moved (fun i : Fin points.length => points[i])
          (fun i => assignments.getD i 0) (centroids.getD · 0)) :=
        cost_congr _ _ fun i => getD_movedCentroids same (assigns.getD_lt i)
    _ ≤ _ := cost_moved_le _ _ _

/-- Nearest centroids have the least inertia. -/
theorem inertiaOf_le_of_nearest {assignments' : List ℕ}
    (nearest : List.Forall₂ (fun p i => ∃ c, IsNearest centroids p i c) points assignments)
    (assigns : Assigns points assignments' centroids) :
    inertiaOf points assignments centroids ≤ inertiaOf points assignments' centroids := by
  have same := List.Forall₂.length_eq nearest
  have same' := List.Forall₂.length_eq assigns
  rw [inertiaOf_eq_cost same.symm, inertiaOf_eq_cost same'.symm]
  refine cost_le_of_nearest _ _ {j | j < centroids.length} (fun i j inside => ?_)
    assigns.getD_lt
  have inList : (i : ℕ) < assignments.length := by omega
  obtain ⟨c, near⟩ := List.Forall₂.get nearest i.2 inList
  have here : centroids.getD (assignments.getD i 0) 0 = c := by
    rw [List.getD_eq_getElem assignments _ inList, List.getD_eq_getElem?_getD]
    exact congrArg (Option.getD · 0) near.here
  have there : centroids.getD j 0 ∈ centroids := by
    rw [List.getD_eq_getElem _ _ inside]
    exact List.getElem_mem inside
  rw [here]
  exact near.least _ there

end Hansa
