import Mathlib.Topology.MetricSpace.HausdorffDistance
import Hansa.Library.StateErrors
import Hansa.Library.WeightedChoice
import Hansa.Verif.LloydRun

/-!
# The seeds

Over exact numbers the seeding keeps, for every point of the sample, the square of its distance
to the nearest seed, and chooses the next seed by these weights. So the seeds that it returns
follow the law of k-means++, and no point of the sample is a seed twice while another one is at
a distance from all seeds.
-/

namespace Hansa

open Exact (num)
open MeasureTheory Set
open WeightedChoice

variable {dim : ℕ}

/-! ## Distances to the seeds -/

/-- The square of the distance of a point to the nearest seed. -/
noncomputable def seedDistance (seeds : List (Point dim)) (p : Point dim) : ℝ :=
  Metric.infDist p {c | c ∈ seeds} ^ 2

/-- Squares of distances are not negative. -/
theorem seedDistance_nonneg (seeds : List (Point dim)) (p : Point dim) :
    0 ≤ seedDistance seeds p := sq_nonneg _

/-- The distance to the one seed. -/
theorem seedDistance_singleton (c p : Point dim) : seedDistance [c] p = ‖p - c‖ ^ 2 := by
  have single : {c' | c' ∈ [c]} = {c} := Set.ext fun c' => List.mem_singleton
  rw [seedDistance, single, Metric.infDist_singleton, dist_eq_norm]

/-- One more seed is nearer, or it is not. -/
theorem seedDistance_concat {seeds : List (Point dim)} (some_ : seeds ≠ []) (c p : Point dim) :
    seedDistance (seeds ++ [c]) p =
      if ‖p - c‖ ^ 2 < seedDistance seeds p then ‖p - c‖ ^ 2 else seedDistance seeds p := by
  have union : {c' | c' ∈ seeds ++ [c]} = {c' | c' ∈ seeds} ∪ {c} := by
    ext c'
    exact List.mem_append.trans (or_congr_right List.mem_singleton)
  have known : Metric.infEDist p {c' | c' ∈ seeds} ≠ ⊤ :=
    Metric.infEDist_ne_top (List.exists_mem_of_ne_nil seeds some_)
  have least : Metric.infDist p {c' | c' ∈ seeds ++ [c]} =
      min (Metric.infDist p {c' | c' ∈ seeds}) ‖p - c‖ := by
    rw [union, Metric.infDist, Metric.infEDist_union, Metric.infEDist_singleton, ← dist_eq_norm,
      ENNReal.toReal_min known (edist_ne_top p c), dist_edist]
    rfl
  have order : ‖p - c‖ ^ 2 < Metric.infDist p {c' | c' ∈ seeds} ^ 2 ↔
      ‖p - c‖ < Metric.infDist p {c' | c' ∈ seeds} :=
    sq_lt_sq₀ (norm_nonneg _) Metric.infDist_nonneg
  rw [seedDistance, seedDistance, least]
  by_cases nearer : ‖p - c‖ < Metric.infDist p {c' | c' ∈ seeds}
  · rw [if_pos (order.mpr nearer), min_eq_right nearer.le]
  · rw [if_neg (mt order.mp nearer), min_eq_left (not_lt.mp nearer)]

/-- The points at no distance to the seeds are the seeds. -/
theorem seedDistance_eq_zero {seeds : List (Point dim)} (some_ : seeds ≠ []) {p : Point dim} :
    seedDistance seeds p = 0 ↔ p ∈ seeds := by
  have closed : IsClosed {c | c ∈ seeds} := (List.finite_toSet seeds).isClosed
  rw [seedDistance, sq_eq_zero_iff]
  exact (closed.mem_iff_infDist_zero (List.exists_mem_of_ne_nil seeds some_)).symm

/-- The weights of the points, and their sum. -/
noncomputable def seedTotal (points seeds : List (Point dim)) : ℝ :=
  (points.map (seedDistance seeds)).sum

/-- The sum of the weights is not negative. -/
theorem seedTotal_nonneg (points seeds : List (Point dim)) : 0 ≤ seedTotal points seeds :=
  List.sum_nonneg (List.forall_mem_map.mpr fun p _ => seedDistance_nonneg seeds p)

/-- There is no weight left when all points are seeds. -/
theorem seedTotal_eq_zero {points seeds : List (Point dim)} (some_ : seeds ≠ []) :
    seedTotal points seeds = 0 ↔ ∀ p ∈ points, p ∈ seeds := by
  have weights : ∀ w ∈ points.map (seedDistance seeds), 0 ≤ w :=
    List.forall_mem_map.mpr fun p _ => seedDistance_nonneg seeds p
  constructor
  · intro none_ p member
    have zero : seedDistance seeds p = 0 :=
      List.all_zero_of_le_zero_le_of_sum_eq_zero weights none_ (List.mem_map_of_mem member)
    exact (seedDistance_eq_zero some_).mp zero
  · intro all
    exact List.sum_eq_zero (List.forall_mem_map.mpr fun p member =>
      (seedDistance_eq_zero some_).mpr (all p member))

/-! ## The steps of the code -/

/-- The distance that the seeding keeps for a point: infinity while there are no seeds. -/
noncomputable def keptDistance (seeds : List (Point dim)) (p : Point dim) : Exact :=
  if seeds = [] then FloatLike.infinity else num (seedDistance seeds p)

/-- What the seeding keeps behind a seed. -/
theorem keptDistance_concat (seeds : List (Point dim)) (c p : Point dim) :
    keptDistance (seeds ++ [c]) p = num (seedDistance (seeds ++ [c]) p) := if_neg (by simp)

/-- The distances are those to the nearest seed, with one more seed. -/
theorem updateDists_kept (seeds : List (Point dim)) (last : Point dim)
    (points : List (Point dim)) :
    updateDists (row last) (points.map row) (points.map (keptDistance seeds)) =
      .ok (points.map (keptDistance (seeds ++ [last]))) := by
  induction points with
  | nil => rfl
  | cons p points ih =>
    have least : (if FloatLike.lt (num (‖p - last‖ ^ 2)) (keptDistance seeds p) = true
        then num (‖p - last‖ ^ 2) else keptDistance seeds p) =
          keptDistance (seeds ++ [last]) p := by
      rw [keptDistance_concat]
      by_cases none_ : seeds = []
      · subst none_
        rw [keptDistance, if_pos rfl, if_pos (lt_infinity _), List.nil_append,
          seedDistance_singleton]
      · rw [keptDistance, if_neg none_, seedDistance_concat none_]
        by_cases nearer : ‖p - last‖ ^ 2 < seedDistance seeds p
        · rw [if_pos (lt_num.mpr nearer), if_pos nearer]
        · rw [if_neg (mt lt_num.mp nearer), if_neg nearer]
    rw [List.map_cons, List.map_cons, updateDists, squaredDistance_row, ok_bind, ih, ok_bind,
      least]
    rfl

/-- The scan chooses by weight. -/
theorem chooseFrom_num (t : ℝ) (idx : ℕ) (ws : List ℝ) :
    chooseFrom (num t) idx (ws.map num) = (pick t ws).map (idx + ·) := by
  induction ws generalizing t idx with
  | nil => rfl
  | cons w ws ih =>
    have lowered : num t - (widen (num w) : Exact) = num (t - w) := Exact.num_sub t w
    rw [List.map_cons, chooseFrom, lowered, Exact.literal_zero, pick]
    by_cases used : t - w ≤ 0
    · rw [if_pos (le_num.mpr used), if_pos used]
      rfl
    · rw [if_neg (mt le_num.mp used), if_neg used, ih, Option.map_map]
      congr 1
      funext i
      show idx + 1 + i = idx + (i + 1)
      omega

variable {rng : SmallRng Exact} {points : List (Point dim)} {last c : Point dim}
  {seeds : List (Point dim)} {state state' : rng.State} {left : ℕ}

/-- What the loop does with this many seeds left, behind some seeds and a last one. -/
noncomputable abbrev seedRun (rng : SmallRng Exact) (points seeds : List (Point dim))
    (last : Point dim) (state : rng.State) (left : ℕ) :
    Result (List (List Exact) × rng.State) :=
  seedLoop rng (points.map row) ((seeds ++ [last]).map row) (row last)
    (points.map (keptDistance seeds)) state left

/-- The distances behind a seed add up to the weights. -/
theorem sum_kept (points seeds : List (Point dim)) (last : Point dim) :
    FloatLike.sum ((points.map (keptDistance (seeds ++ [last]))).map (widen : Exact → Exact)) =
      num (seedTotal points (seeds ++ [last])) := by
  have same : (points.map (keptDistance (seeds ++ [last]))).map (widen : Exact → Exact) =
      (points.map (seedDistance (seeds ++ [last]))).map num := by
    rw [List.map_map, List.map_map]
    exact List.map_congr_left fun p _ => keptDistance_concat seeds last p
  rw [same, sum_num]
  rfl

/-- When no weight is left, the last seed is repeated. -/
theorem seedRun_repeat (done : seedTotal points (seeds ++ [last]) = 0) :
    seedRun rng points seeds last state (left + 1) =
      seedRun rng points (seeds ++ [last]) last state left := by
  have zero : FloatLike.eq (num (seedTotal points (seeds ++ [last]))) (0.0 : Exact) = true := by
    rw [Exact.literal_zero]
    exact eq_num.mpr done
  rw [seedRun, seedLoop, updateDists_kept, ok_bind]
  simp only [sum_kept]
  rw [if_pos zero, seedRun, @List.map_append _ _ _ (seeds ++ [last])]
  rfl

variable (rng) in
/-- While some weight is left, a threshold is drawn and the next seed is chosen by it. -/
theorem seedRun_choose (some_ : seedTotal points (seeds ++ [last]) ≠ 0) {t : ℝ}
    (drawn : rng.randomReal (num (seedTotal points (seeds ++ [last]))) state = .ok (num t, state'))
    (chosen : choose (seedDistance (seeds ++ [last])) points t = some c) :
    seedRun rng points seeds last state (left + 1) =
      seedRun rng points (seeds ++ [last]) c state' left := by
  have nonzero : ¬ FloatLike.eq (num (seedTotal points (seeds ++ [last]))) (0.0 : Exact) := by
    rw [Exact.literal_zero]
    exact mt eq_num.mp some_
  obtain ⟨i, here, picked⟩ := choose_eq_some_iff.mp chosen
  have kept : points.map (keptDistance (seeds ++ [last])) =
      (points.map (seedDistance (seeds ++ [last]))).map num := by
    rw [List.map_map]
    exact List.map_congr_left fun p _ => keptDistance_concat seeds last p
  have index : (chooseFrom (num t) 0 (points.map (keptDistance (seeds ++ [last])))).getD 0 =
      i := by
    rw [kept, chooseFrom_num, picked]
    exact Nat.zero_add i
  have seed : (points.map row)[i]? = some (row c) := by
    rw [List.getElem?_map, here]
    rfl
  rw [seedRun, seedLoop, updateDists_kept, ok_bind]
  simp only [sum_kept]
  rw [if_neg nonzero, drawn, ok_bind]
  simp only [index, seed]
  rw [seedRun, @List.map_append _ _ _ (seeds ++ [last])]
  rfl

variable (rng) in
/-- The seeding is the loop behind its first seed. -/
theorem kmeansPlusPlusInit_eq_seedRun (k : ℕ) {first : Point dim}
    (here : points[(rng.randomBelow points.length state).1]? = some first) :
    kmeansPlusPlusInit rng (points.map row) k state =
      seedRun rng points [] first (rng.randomBelow points.length state).2 (k - 1) := by
  have seed : (points.map row)[(rng.randomBelow points.length state).1]? = some (row first) := by
    rw [List.getElem?_map, here]
    rfl
  have far : List.replicate points.length (FloatLike.infinity : Exact) =
      points.map (keptDistance []) := List.map_const'.symm
  simp only [kmeansPlusPlusInit, List.length_map, seed, far]
  rfl

/-! ## The seeds are spread -/

/-- What is known of a generator while no draw from a range of real numbers is its start: a draw
below a number is below it, and a draw up to a positive real number is strictly between. -/
structure SmallRng.DrawsInside (rng : SmallRng Exact) : Prop where
  /-- `random_range(0..n)`. -/
  below : ∀ n state, 0 < n → (rng.randomBelow n state).1 < n
  /-- `random_range(0.0..total)`, other than the start of the range. -/
  real : ∀ total state, 0 < total →
    ∃ t state', 0 < t ∧ t < total ∧ rng.randomReal (num total) state = .ok (num t, state')

/-- The number of different points of a list. -/
noncomputable def distinct (points : List (Point dim)) : ℕ := {p | p ∈ points}.ncard

/-- A point that is not in a list is one more. -/
theorem distinct_concat (fresh : c ∉ seeds) : distinct (seeds ++ [c]) = distinct seeds + 1 := by
  have inserted : {p | p ∈ seeds ++ [c]} = insert c {p | p ∈ seeds} := by
    ext p
    rw [mem_insert_iff, or_comm]
    exact List.mem_append.trans (or_congr_right List.mem_singleton)
  rw [distinct, distinct, inserted]
  exact ncard_insert_of_notMem fresh (List.finite_toSet seeds)

/-- A point that is in a list is no other one. -/
theorem distinct_repeat (known : c ∈ seeds) : distinct (seeds ++ [c]) = distinct seeds := by
  have same : {p | p ∈ seeds ++ [c]} = {p | p ∈ seeds} := by
    ext p
    constructor
    · intro member
      rcases List.mem_append.mp member with old | new
      · exact old
      · rw [List.mem_singleton.mp new]
        exact known
    · exact fun old => List.mem_append_left _ old
  rw [distinct, distinct, same]

/-- A part of a list has at most as many different points. -/
theorem distinct_le {part whole : List (Point dim)} (subset : part ⊆ whole) :
    distinct part ≤ distinct whole := ncard_le_ncard subset (List.finite_toSet whole)

/-- As many seeds are different as can be. -/
structure Spread (points seeds : List (Point dim)) : Prop where
  /-- Seeds are points of the sample. -/
  subset : seeds ⊆ points
  /-- No fewer are different. -/
  distinct : distinct seeds = min seeds.length (distinct points)
  /-- No seed is repeated before all points are seeds. -/
  front : (seeds.take (Hansa.distinct points)).Nodup

/-- One point is spread. -/
theorem Spread.singleton (member : c ∈ points) : Spread points [c] := by
  have subset : [c] ⊆ points := List.cons_subset.mpr ⟨member, List.nil_subset _⟩
  have one : Hansa.distinct [c] = 1 := by simp [Hansa.distinct]
  have bound := distinct_le subset
  rw [one] at bound
  refine ⟨subset, by rw [one, List.length_singleton]; omega, ?_⟩
  exact (List.nodup_singleton c).sublist (List.take_sublist _ _)

/-- A seed is repeated when all points are seeds. -/
theorem Spread.repeat (spread : Spread points seeds) (all : ∀ p ∈ points, p ∈ seeds)
    (known : c ∈ seeds) : Spread points (seeds ++ [c]) := by
  have whole : Hansa.distinct seeds = Hansa.distinct points :=
    (distinct_le spread.subset).antisymm (distinct_le all)
  have counted := spread.distinct
  have subset : seeds ++ [c] ⊆ points := List.append_subset.mpr
    ⟨spread.subset, List.cons_subset.mpr ⟨spread.subset known, List.nil_subset _⟩⟩
  refine ⟨subset, ?_, ?_⟩
  · rw [distinct_repeat known, List.length_append, List.length_singleton]
    omega
  · rw [List.take_append_of_le_length (by omega)]
    exact spread.front

/-- A point that is no seed is one more. -/
theorem Spread.add (spread : Spread points seeds) (member : c ∈ points) (fresh : c ∉ seeds) :
    Spread points (seeds ++ [c]) := by
  have subset : seeds ++ [c] ⊆ points :=
    List.append_subset.mpr ⟨spread.subset, List.cons_subset.mpr ⟨member, List.nil_subset _⟩⟩
  have bound := distinct_le subset
  have counted := spread.distinct
  have one := distinct_concat fresh
  have front := spread.front
  rw [List.take_of_length_le (by omega)] at front
  refine ⟨subset, ?_, ?_⟩
  · rw [List.length_append, List.length_singleton]
    omega
  · rw [← List.concat_eq_append]
    exact (front.concat fresh).sublist (List.take_sublist _ _)

/-- The loop keeps the seeds spread. -/
theorem seedRun_spread (draws : rng.DrawsInside) (spread : Spread points (seeds ++ [last]))
    (state : rng.State) (left : ℕ) :
    ∃ seeds' state', seedRun rng points seeds last state left = .ok (seeds'.map row, state') ∧
      seeds'.length = seeds.length + 1 + left ∧ Spread points seeds' := by
  induction left generalizing seeds last state with
  | zero =>
    exact ⟨seeds ++ [last], state, rfl, List.length_append, spread⟩
  | succ left ih =>
    have known : last ∈ seeds ++ [last] := by simp
    have longer : (seeds ++ [last]).length + 1 + left = seeds.length + 1 + (left + 1) := by
      rw [List.length_append, List.length_singleton]
      omega
    have filled : seeds ++ [last] ≠ [] := by simp
    by_cases done : seedTotal points (seeds ++ [last]) = 0
    · have all := (seedTotal_eq_zero filled).mp done
      rw [seedRun_repeat done, ← longer]
      exact ih (spread.repeat all known) state
    · have positive : 0 < seedTotal points (seeds ++ [last]) :=
        (seedTotal_nonneg points (seeds ++ [last])).lt_of_ne' done
      obtain ⟨t, state', above, below, drawn⟩ := draws.real _ state positive
      have some_ : points ≠ [] := List.ne_nil_of_mem (spread.subset known)
      obtain ⟨c, member, chosen, weighs⟩ := exists_choose
        (fun p _ => seedDistance_nonneg (seeds ++ [last]) p) some_ below.le
      have fresh : c ∉ seeds ++ [last] := fun inside =>
        (weighs above).ne' ((seedDistance_eq_zero filled).mpr inside)
      rw [seedRun_choose rng done drawn chosen, ← longer]
      exact ih (spread.add member fresh) state'

/-- Different points are different vectors. -/
theorem row_injective : Function.Injective (row : Point dim → List Exact) := by
  intro p q same
  ext d
  have coordinate := congrFun (List.ofFn_injective same) d
  exact Exact.num.inj coordinate

/-- The vectors of some points are as many as the points. -/
theorem ncard_rows (points : List (Point dim)) :
    {v | v ∈ points.map row}.ncard = distinct points := by
  have image : {v | v ∈ points.map row} = row '' {p | p ∈ points} := by
    ext v
    exact List.mem_map
  rw [image, ncard_image_of_injective _ row_injective, distinct]

/-- Over exact numbers, the seeding returns as many seeds as were asked for, all of them vectors
of the sample, and as many different ones as there can be, which come first: no vector is a seed
twice before all of them are seeds. -/
theorem kmeansPlusPlusInit_spread (draws : rng.DrawsInside) {sample : List (List Exact)}
    (some_ : sample ≠ [])
    (vectors : ∀ v ∈ sample, v.length = dim ∧ ∀ a ∈ v, FloatLike.isFinite a = true) {k : ℕ}
    (positive : 1 ≤ k) (state : rng.State) :
    ∃ seeds state', kmeansPlusPlusInit rng sample k state = .ok (seeds, state') ∧
      seeds.length = k ∧ seeds ⊆ sample ∧
      {v | v ∈ seeds}.ncard = min k {v | v ∈ sample}.ncard ∧
      (seeds.take {v | v ∈ sample}.ncard).Nodup := by
  obtain ⟨points, rfl⟩ := exists_rows vectors
  have filled : 0 < points.length := by
    rw [← List.length_map row]
    exact List.length_pos_iff.mpr some_
  have inside := draws.below points.length state filled
  have here := List.getElem?_eq_getElem inside
  have start : Spread points ([] ++ [points[(rng.randomBelow points.length state).1]]) :=
    Spread.singleton (List.getElem_mem inside)
  obtain ⟨seeds, state', run, length, spread⟩ :=
    seedRun_spread draws start (rng.randomBelow points.length state).2 (k - 1)
  have count : seeds.length = k := by
    rw [length, List.length_nil]
    omega
  refine ⟨seeds.map row, state', (kmeansPlusPlusInit_eq_seedRun rng k here).trans run, ?_,
    List.map_subset row spread.subset, ?_, ?_⟩
  · rw [List.length_map, count]
  · rw [ncard_rows, ncard_rows, spread.distinct, count]
  · rw [ncard_rows, ← List.map_take]
    exact spread.front.map row_injective

/-- A generator that always draws the middle of the range. -/
noncomputable def middleRng : SmallRng Exact where
  State := Unit
  seedFromU64 := fun _ => ()
  randomBelow := fun n state => (n / 2, state)
  randomUpTo := fun n state => (n / 2, state)
  randomReal := fun total state =>
    match total with
    | num total => .ok (num (total / 2), state)
    | _ => .error .panic

/-- The middle of a range is inside the range. -/
theorem middleRng_draws : middleRng.DrawsInside where
  below n _ some_ := Nat.div_lt_self some_ (by decide)
  real total state positive := ⟨total / 2, state, half_pos positive, half_lt_self positive, rfl⟩

/-- Four seeds among four vectors, two of them the same: the first three are different. -/
theorem kmeansPlusPlusInit_spread_sample :
    ∃ seeds state', kmeansPlusPlusInit middleRng [[num 0], [num 1], [num 1], [num 5]] 4 () =
        .ok (seeds, state') ∧ seeds.length = 4 ∧ (seeds.take 3).Nodup := by
  have vectors : ∀ v ∈ [[num 0], [num 1], [num 1], [num 5]],
      v.length = 1 ∧ ∀ a ∈ v, FloatLike.isFinite a = true := by
    intro v member
    simp only [List.mem_cons, List.not_mem_nil, or_false] at member
    rcases member with rfl | rfl | rfl | rfl <;> exact ⟨rfl, by simp [isFinite_iff]⟩
  have three : {v | v ∈ [[num 0], [num 1], [num 1], [num 5]]}.ncard = 3 := by
    have set : {v | v ∈ [[num 0], [num 1], [num 1], [num 5]]} = {[num 0], [num 1], [num 5]} := by
      ext v
      simp
    rw [set, ncard_eq_three]
    exact ⟨_, _, _, by simp, by simp, by simp, rfl⟩
  obtain ⟨seeds, state', run, length, _, _, front⟩ :=
    kmeansPlusPlusInit_spread middleRng_draws (by simp) vectors (k := 4) (by decide) ()
  exact ⟨seeds, state', run, length, three ▸ front⟩

/-! ## The law of the seeds -/

/-- A generator that draws this index first, and these fractions of the ranges of real
numbers. -/
noncomputable abbrev SmallRng.fractions (first : ℕ) : SmallRng Exact where
  State := List ℝ
  seedFromU64 := fun _ => []
  randomBelow := fun _ state => (first, state)
  randomUpTo := fun _ state => (0, state)
  randomReal := fun total state =>
    match total, state with
    | num total, u :: state => .ok (num (total * u), state)
    | _, _ => .error .panic

open Classical in
/-- The chance that k-means++ takes a point as the next seed: the share of the square of its
distance to the nearest seed, as often as the point is in the sample. When all points are seeds,
the last seed is taken. -/
noncomputable def seedChance (points seeds : List (Point dim)) (c : Point dim) : ℝ :=
  if seedTotal points seeds = 0 then if seeds.getLast? = some c then 1 else 0
  else points.count c * seedDistance seeds c / seedTotal points seeds

/-- The chance that k-means++ goes on with these seeds. -/
noncomputable def seedLaw (points : List (Point dim)) :
    List (Point dim) → List (Point dim) → ENNReal
  | _, [] => 1
  | seeds, c :: next => ENNReal.ofReal (seedChance points seeds c) *
      seedLaw points (seeds ++ [c]) next

/-- The fractions that a generator may draw. -/
def IsFractions {n : ℕ} (u : Fin n → ℝ) : Prop := ∀ j, u j ∈ Ico (0 : ℝ) 1

/-- The draws with which the loop goes on with these seeds. -/
def seedDraws (first : ℕ) (points seeds : List (Point dim)) (last : Point dim)
    (next : List (Point dim)) : Set (Fin next.length → ℝ) :=
  {u | IsFractions u ∧ ∃ rest, seedRun (.fractions first) points seeds last (List.ofFn u)
    next.length = .ok ((seeds ++ [last] ++ next).map row, rest)}

/-- All fractions together have measure one. -/
theorem volume_fractions (n : ℕ) : volume {u : Fin n → ℝ | IsFractions u} = 1 := by
  have box : {u : Fin n → ℝ | IsFractions u} = Set.pi univ fun _ => Ico 0 1 := by
    ext u
    exact ⟨fun inside j _ => inside j, fun inside j => inside j trivial⟩
  rw [box, volume_pi_pi]
  simp

/-- When all points are seeds, the last seed is repeated to the end. -/
theorem seedRun_done (rng : SmallRng Exact) (all : ∀ p ∈ points, p ∈ seeds ++ [last])
    (state : rng.State) (left : ℕ) :
    seedRun rng points seeds last state left =
      .ok ((seeds ++ [last] ++ List.replicate left last).map row, state) := by
  induction left generalizing seeds with
  | zero => rw [List.replicate_zero, List.append_nil]; rfl
  | succ left ih =>
    have done := (seedTotal_eq_zero (by simp)).mpr all
    have inside : ∀ p ∈ points, p ∈ seeds ++ [last] ++ [last] := fun p member =>
      List.mem_append_left _ (all p member)
    have later := ih inside
    rw [seedRun_repeat done, later, List.replicate_succ,
      List.append_cons (seeds ++ [last]) last (List.replicate left last)]

/-- When all points are seeds, the law repeats the last seed. -/
theorem seedLaw_done (all : ∀ p ∈ points, p ∈ seeds ++ [last]) (next : List (Point dim)) :
    (next = List.replicate next.length last → seedLaw points (seeds ++ [last]) next = 1) ∧
      (next ≠ List.replicate next.length last → seedLaw points (seeds ++ [last]) next = 0) := by
  induction next generalizing seeds with
  | nil => exact ⟨fun _ => rfl, fun other => absurd rfl other⟩
  | cons c next ih =>
    have done := (seedTotal_eq_zero (by simp)).mpr all
    have known : (seeds ++ [last]).getLast? = some c ↔ last = c := by
      rw [List.getLast?_append, List.getLast?_singleton]
      exact Option.some_inj
    have inside : ∀ p ∈ points, p ∈ seeds ++ [last] ++ [last] := fun p member =>
      List.mem_append_left _ (all p member)
    have later := ih inside
    rw [seedLaw, seedChance, if_pos done, List.length_cons, List.replicate_succ]
    by_cases same : last = c
    · subst same
      rw [if_pos (known.mpr rfl), ENNReal.ofReal_one, one_mul]
      exact ⟨fun whole => later.1 (List.tail_eq_of_cons_eq whole),
        fun other => later.2 fun rest => other (congrArg (last :: ·) rest)⟩
    · rw [if_neg (mt known.mp same), ENNReal.ofReal_zero, zero_mul]
      exact ⟨fun whole => absurd (List.head_eq_of_cons_eq whole).symm same, fun _ => rfl⟩

/-- The seeds that were chosen stay. -/
theorem seedLoop_prefix {sample centroids out : List (List Exact)} {last : List Exact}
    {dists : List Exact}
    (run : seedLoop rng sample centroids last dists state left = .ok (out, state')) :
    centroids <+: out := by
  induction left generalizing centroids last dists state with
  | zero =>
    cases run
    exact List.prefix_rfl
  | succ left ih =>
    rw [seedLoop] at run
    have grown : ∀ seed : List Exact, centroids <+: centroids ++ [seed] := fun seed =>
      List.prefix_append ..
    obtain ⟨dists', _, updated⟩ := Except.bind_eq_ok.mp run
    dsimp only at updated
    split at updated
    · exact (grown _).trans (ih updated)
    · obtain ⟨draw, _, drawn⟩ := Except.bind_eq_ok.mp updated
      split at drawn
      · cases drawn
      · exact (grown _).trans (ih drawn)

/-- The draws with which a seed is chosen. -/
theorem seedDraws_cons {first : ℕ} {next : List (Point dim)}
    (some_ : seedTotal points (seeds ++ [last]) ≠ 0) :
    seedDraws first points seeds last (c :: next) =
      {u | u 0 ∈ {x : ℝ | x ∈ Ico 0 1 ∧ choose (seedDistance (seeds ++ [last])) points
          (seedTotal points (seeds ++ [last]) * x) = some c} ∧
        (Fin.tail u : Fin next.length → ℝ) ∈ seedDraws first points (seeds ++ [last]) c next} := by
  have positive : 0 < seedTotal points (seeds ++ [last]) :=
    (seedTotal_nonneg points (seeds ++ [last])).lt_of_ne' some_
  have filled : points ≠ [] := by
    rintro rfl
    exact some_ rfl
  ext u
  have fractions : IsFractions u ↔ u 0 ∈ Ico (0 : ℝ) 1 ∧ IsFractions (Fin.tail u) :=
    Fin.forall_fin_succ
  have whole : seeds ++ [last] ++ c :: next = seeds ++ [last] ++ [c] ++ next :=
    List.append_cons (seeds ++ [last]) c next
  -- The first draw chooses some point, and the run goes on with it.
  have turn : u 0 ∈ Ico (0 : ℝ) 1 → ∃ c', choose (seedDistance (seeds ++ [last])) points
      (seedTotal points (seeds ++ [last]) * u 0) = some c' ∧
        seedRun (.fractions first) points seeds last (List.ofFn u) (c :: next).length =
          seedRun (.fractions first) points (seeds ++ [last]) c' (List.ofFn (Fin.tail u))
            next.length := by
    intro range
    have below : seedTotal points (seeds ++ [last]) * u 0 ≤ seedTotal points (seeds ++ [last]) :=
      mul_le_of_le_one_right positive.le range.2.le
    obtain ⟨c', _, chosen, _⟩ := exists_choose
      (fun p _ => seedDistance_nonneg (seeds ++ [last]) p) filled below
    have draws : List.ofFn u = u 0 :: List.ofFn (Fin.tail u) := List.ofFn_succ
    refine ⟨c', chosen, ?_⟩
    rw [draws]
    exact seedRun_choose (.fractions first) some_ rfl chosen
  constructor
  · rintro ⟨inside, rest, run⟩
    obtain ⟨range, ranges⟩ := fractions.mp inside
    obtain ⟨c', chosen, step⟩ := turn range
    rw [step, whole] at run
    have front := seedLoop_prefix run
    have same : c' = c := by
      rw [List.prefix_map_iff_of_injective row_injective,
        List.append_assoc (seeds ++ [last]), List.prefix_append_right_inj] at front
      exact List.head_eq_of_cons_eq (List.prefix_iff_eq_take.mp front)
    rw [same] at chosen run
    exact ⟨⟨range, chosen⟩, ranges, rest, run⟩
  · rintro ⟨⟨range, chosen⟩, ⟨ranges, rest, run⟩⟩
    obtain ⟨c', chosen', step⟩ := turn range
    rw [Option.some.inj (chosen'.symm.trans chosen)] at step
    exact ⟨fractions.mpr ⟨range, ranges⟩, rest, by rw [step, run, whole]⟩

/-- From some seeds on, the loop follows the law. -/
theorem volume_seedDraws (first : ℕ) (points seeds : List (Point dim)) (last : Point dim)
    (next : List (Point dim)) :
    volume (seedDraws first points seeds last next) = seedLaw points (seeds ++ [last]) next := by
  induction next generalizing seeds last with
  | nil =>
    have whole : seedDraws first points seeds last [] = {u | IsFractions u} := by
      ext u
      exact and_iff_left ⟨_, by rw [List.append_nil]; rfl⟩
    rw [whole, volume_fractions, seedLaw]
  | cons c next ih =>
    by_cases done : seedTotal points (seeds ++ [last]) = 0
    · -- Nothing is drawn any more: the seeds are the last one, or no draw leads to them.
      have all := (seedTotal_eq_zero (by simp)).mp done
      have law := seedLaw_done all (c :: next)
      have run := seedRun_done (.fractions first) all
      by_cases same : c :: next = List.replicate (c :: next).length last
      · have whole : seedDraws first points seeds last (c :: next) = {u | IsFractions u} := by
          ext u
          exact and_iff_left ⟨_, by rw [run, ← same]⟩
        rw [whole, volume_fractions, law.1 same]
      · have none_ : seedDraws first points seeds last (c :: next) = ∅ := by
          apply eq_empty_of_forall_notMem
          rintro u ⟨-, rest, reached⟩
          rw [run] at reached
          have lists := List.map_injective_iff.mpr row_injective
            (congrArg Prod.fst (Except.ok.inj reached))
          exact same (List.append_cancel_left lists).symm
        rw [none_, measure_empty, law.2 same]
    · have positive : 0 < seedTotal points (seeds ++ [last]) :=
        (seedTotal_nonneg points (seeds ++ [last])).lt_of_ne' done
      have chance := volume_choose
        (fun p _ => seedDistance_nonneg (seeds ++ [last]) p) positive c
      rw [seedDraws_cons done, volume_cons, ih, seedLaw, seedChance, if_neg done]
      exact congrArg (· * _) chance

/-- Over exact numbers, given the first seed and with independent uniform fractions for the other
draws, the seeds of the seeding follow the law of k-means++: each one is a point of the sample
with its share of the squares of the distances to the nearest seed before it. -/
theorem kmeansPlusPlusInit_law {points : List (Point dim)} {first : ℕ} {seed : Point dim}
    (here : points[first]? = some seed) (next : List (Point dim)) :
    volume {u : Fin next.length → ℝ | IsFractions u ∧ ∃ rest,
      kmeansPlusPlusInit (.fractions first) (points.map row) (next.length + 1) (List.ofFn u) =
        .ok ((seed :: next).map row, rest)} = seedLaw points [seed] next := by
  have draws : {u : Fin next.length → ℝ | IsFractions u ∧ ∃ rest,
      kmeansPlusPlusInit (.fractions first) (points.map row) (next.length + 1) (List.ofFn u) =
        .ok ((seed :: next).map row, rest)} = seedDraws first points [] seed next := by
    ext u
    apply and_congr_right
    intro _
    rw [kmeansPlusPlusInit_eq_seedRun (.fractions first) _ here]
    rfl
  rw [draws]
  exact volume_seedDraws first points [] seed next

/-- A point on a line. -/
noncomputable def onLine (x : ℝ) : Point 1 := WithLp.toLp 2 fun _ => x

/-- On a line with points at 0, 1 and 3, and 0 as the first seed, 3 is the second seed with a
chance of nine in ten. -/
theorem kmeansPlusPlusInit_law_sample :
    volume {u : Fin 1 → ℝ | IsFractions u ∧ ∃ rest,
      kmeansPlusPlusInit (.fractions 0) ([onLine 0, onLine 1, onLine 3].map row) 2
        (List.ofFn u) = .ok ([onLine 0, onLine 3].map row, rest)} = ENNReal.ofReal (9 / 10) := by
  have here : [onLine 0, onLine 1, onLine 3][0]? = some (onLine 0) := rfl
  have law := kmeansPlusPlusInit_law here [onLine 3]
  have distance : ∀ x, seedDistance [onLine 0] (onLine x) = x ^ 2 := by
    intro x
    rw [seedDistance_singleton, EuclideanSpace.norm_sq_eq]
    simp [onLine]
  have total : seedTotal [onLine 0, onLine 1, onLine 3] [onLine 0] = 10 := by
    simp only [seedTotal, List.map_cons, List.map_nil, distance]
    norm_num
  have apart : ∀ x, x ≠ 3 → onLine x ≠ onLine 3 := fun x other same =>
    other (congrFun (congrArg WithLp.ofLp same) 0)
  have count : [onLine 0, onLine 1, onLine 3].count (onLine 3) = 1 := by
    rw [List.count_cons_of_ne (apart 0 (by norm_num)),
      List.count_cons_of_ne (apart 1 (by norm_num)), List.count_singleton_self]
  refine law.trans ?_
  rw [seedLaw, seedLaw, seedChance, total, if_neg (by norm_num), count, distance, mul_one]
  norm_num

end Hansa
