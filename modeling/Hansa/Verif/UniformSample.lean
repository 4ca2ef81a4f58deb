import Hansa.Library.Reservoir
import Hansa.SagaBuild

/-!
# The sample is uniform

A generator whose draws are given answers a draw up to an index with the choice for that index,
and every run of the sampling loop is the run of some choices. The positions that are sampled
are read off a stream of positions. The loop takes the steps of reservoir sampling, so every
position of the stream is sampled by the same fraction of the choices.
-/

namespace Hansa

open Reservoir

/-- The generator whose draw up to `i` is `draws i`. -/
abbrev SmallRng.answering (D : Type) (draws : ℕ → ℕ) : SmallRng D where
  State := Unit
  seedFromU64 := fun _ => ()
  randomBelow := fun _ state => (0, state)
  randomUpTo := fun i state => (draws i, state)
  randomReal := fun _ _ => .error .panic

/-- The generator that draws the choice made for each index. -/
abbrev SmallRng.choosing (D : Type) {n : ℕ} (c : Choices n) : SmallRng D :=
  .answering D fun i => if inside : i < n then c ⟨i, inside⟩ else 0

/-- The positions of a stream of this length that are sampled: a stream of the positions is
sampled with the same choices. -/
def sampledPositions (D : Type) (target : ℕ) {n : ℕ} (c : Choices n) : List ℕ :=
  (reservoirSample (.choosing D c) ((List.range n).map fun p => [p]) target ()).1.flatten

variable {F D : Type} {target n seen : ℕ} {out src : List (List F)} {v : List F}

/-! ## The loop -/

/-- One more element of the stream is one more turn of the loop. -/
theorem reservoirLoop_concat (draws : ℕ → ℕ) :
    (reservoirLoop (.answering D draws) target seen out () (src ++ [v])).1 =
      keep target (reservoirLoop (.answering D draws) target seen out () src).1
        (draws (seen + src.length)) v := by
  induction src generalizing seen out with
  | nil =>
    have single : (reservoirLoop (.answering D draws) target seen out () [v]).1 =
        keep target out (draws seen) v := by
      rw [reservoirLoop, keep]
      split <;> rfl
    exact single
  | cons w src ih =>
    rw [List.cons_append, reservoirLoop, reservoirLoop, List.length_cons]
    have index : seen + (src.length + 1) = seen + 1 + src.length := by omega
    rw [index]
    split
    · exact ih
    · exact ih

/-- The loop depends on the draws for its indices alone. -/
theorem reservoirLoop_congr {draws draws' : ℕ → ℕ}
    (same : ∀ i, seen ≤ i → i < seen + src.length → draws i = draws' i) :
    (reservoirLoop (.answering D draws) target seen out () src).1 =
      (reservoirLoop (.answering D draws') target seen out () src).1 := by
  induction src using List.reverseRecOn with
  | nil => rfl
  | append_singleton src v ih =>
    rw [List.length_append, List.length_singleton] at same
    rw [reservoirLoop_concat, reservoirLoop_concat, ih fun i low high => same i low (by omega),
      same _ (Nat.le_add_right ..) (by omega)]

/-- Every run is the run of some draws. -/
theorem exists_answering (rng : SmallRng D) (lawful : ∀ i s, (rng.randomUpTo i s).1 ≤ i)
    (target seen : ℕ) (out src : List (List F)) (state : rng.State) :
    ∃ draws : ℕ → ℕ, (∀ i, draws i ≤ i) ∧ (reservoirLoop rng target seen out state src).1 =
      (reservoirLoop (.answering D draws) target seen out () src).1 := by
  induction src generalizing seen out state with
  | nil => exact ⟨fun _ => 0, fun i => Nat.zero_le i, rfl⟩
  | cons v src ih =>
    by_cases room : out.length < target
    · obtain ⟨draws, inside, same⟩ := ih (seen + 1) (out ++ [v]) state
      refine ⟨draws, inside, ?_⟩
      rw [reservoirLoop, if_pos room, same, reservoirLoop, if_pos room]
    · let place := (rng.randomUpTo seen state).1
      obtain ⟨draws, inside, same⟩ := ih (seen + 1)
        (if place < target then out.set place v else out) (rng.randomUpTo seen state).2
      refine ⟨fun i => if i = seen then place else draws i, fun i => ?_, ?_⟩
      · by_cases here : i = seen
        · rw [here]
          exact le_of_eq_of_le (if_pos rfl) (lawful seen state)
        · exact le_of_eq_of_le (if_neg here) (inside i)
      · rw [reservoirLoop, if_neg room, reservoirLoop, if_neg room]
        simp only [if_true]
        refine same.trans (reservoirLoop_congr fun i low _ => ?_)
        exact (if_neg (by omega)).symm

/-! ## The sample -/

/-- The sample holds the kept positions of the stream. -/
theorem reservoirSample_eq (D : Type) (target : ℕ) (f : ℕ → List F) (c : Choices n) :
    (reservoirSample (.choosing D c) ((List.range n).map f) target ()).1 =
      (kept target n c).map f := by
  induction n with
  | zero => rfl
  | succ n ih =>
    have earlier := ih c.earlier
    rw [reservoirSample] at earlier ⊢
    have index : 0 + ((List.range n).map f).length = n := by simp
    have latest : (if inside : 0 + ((List.range n).map f).length < n + 1 then
        ((c ⟨0 + ((List.range n).map f).length, inside⟩ : Fin _) : ℕ) else 0) = c.latest := by
      rw [dif_pos (by omega)]
      exact congrArg (fun i : Fin (n + 1) => (c i : ℕ)) (Fin.ext index)
    have before : (reservoirLoop (.choosing D c) target 0 [] () ((List.range n).map f)).1 =
        (reservoirLoop (.choosing D c.earlier) target 0 [] () ((List.range n).map f)).1 := by
      refine reservoirLoop_congr fun i _ inside => ?_
      rw [List.length_map, List.length_range, Nat.zero_add] at inside
      rw [dif_pos inside, dif_pos (Nat.lt_succ_of_lt inside)]
      rfl
    rw [List.range_succ, List.map_append, List.map_singleton, reservoirLoop_concat, kept, map_keep,
      ← earlier, before, latest]

/-- The positions that are sampled are those that are kept. -/
theorem sampledPositions_eq (target : ℕ) (c : Choices n) :
    sampledPositions D target c = kept target n c := by
  rw [sampledPositions, reservoirSample_eq, ← List.flatMap_def]
  exact List.flatMap_singleton' _

/-- The sample of a stream holds its elements at the sampled positions. -/
theorem map_reservoirSample (D : Type) (target : ℕ) (src : List (List F))
    (c : Choices src.length) :
    (reservoirSample (.choosing D c) src target ()).1.map some =
      (sampledPositions D target c).map (src[·]?) := by
  have stream : (List.range src.length).map (fun p => src.getD p []) = src :=
    List.ext_getElem (by simp) fun p inside _ => by simp_all
  have sampled := reservoirSample_eq D target (fun p => src.getD p []) c
  rw [stream] at sampled
  rw [sampled, sampledPositions_eq, List.map_map]
  refine List.map_congr_left fun p member => ?_
  have inside := lt_of_mem_kept target src.length c p member
  simp [inside]

/-- The sample of a stream has as many elements as it can, from different positions, and every
position of the stream is sampled by the same fraction of the choices, whatever the generator
whose choices they are. -/
theorem reservoirSample_uniform (D : Type) {F : Type} (target : ℕ) (src : List (List F)) :
    (∀ c : Choices src.length,
      (reservoirSample (.choosing D c) src target ()).1.length = min src.length target ∧
      (sampledPositions D target c).Nodup ∧
      (reservoirSample (.choosing D c) src target ()).1.map some =
        (sampledPositions D target c).map (src[·]?)) ∧
    (∀ p < src.length,
      ((Finset.univ.filter fun c : Choices src.length =>
        p ∈ sampledPositions D target c).card : ℚ) / Fintype.card (Choices src.length) =
          min 1 ((target : ℚ) / src.length)) ∧
    ∀ rng : SmallRng D, (∀ i state, (rng.randomUpTo i state).1 ≤ i) → ∀ state,
      ∃ c : Choices src.length, (reservoirSample rng src target state).1 =
        (reservoirSample (.choosing D c) src target ()).1 := by
  refine ⟨fun c => ⟨?_, ?_, map_reservoirSample D target src c⟩, fun p inside => ?_, ?_⟩
  · have lengths := congrArg List.length (map_reservoirSample D target src c)
    rwa [List.length_map, List.length_map, sampledPositions_eq, length_kept] at lengths
  · rw [sampledPositions_eq]
    exact nodup_kept target src.length c
  · simp_rw [sampledPositions_eq]
    exact fraction_keeping target inside
  · intro rng lawful state
    obtain ⟨draws, inside, same⟩ := exists_answering rng lawful target 0 [] src state
    refine ⟨fun i => ⟨draws i, Nat.lt_succ_of_le (inside i)⟩, same.trans ?_⟩
    refine reservoirLoop_congr fun i _ below => ?_
    rw [Nat.zero_add] at below
    rw [dif_pos below]

end Hansa
