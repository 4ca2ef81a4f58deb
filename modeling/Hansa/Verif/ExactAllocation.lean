import Hansa.Library.Apportionment
import Hansa.Verif.ExactArithmetic
import Hansa.Verif.FairShare
import Hansa.Verif.Instance

/-!
# The exact allocation

Over exact numbers the first pass gives each peer the floor of its proportional share, or the
least budget of a peer. The floors of the shares spend no more than the total, so the first
pass exceeds it by at most the least budget of every peer, and scores in descending order have
shares in descending order. The loops then bring the slots to the total, and every part of the
budget is spent.
-/

namespace Hansa

open Exact (num)
open Apportionment

/-- The larger of two slots. -/
theorem UInt32.toNat_larger (a b : UInt32) : (max a b).toNat = max a.toNat b.toNat := by
  rw [show max a b = if a ≤ b then b else a from rfl]
  split
  · next below => exact (max_eq_right (UInt32.le_iff_toNat_le.mp below)).symm
  · next above =>
    have least := UInt32.lt_iff_toNat_lt.mp (UInt32.not_le.mp above)
    exact (max_eq_left least.le).symm

/-- The weight of each score: its distance from the least score and a small positive number. -/
noncomputable def weights (low : ℝ) (xs : List ℝ) : List ℝ :=
  xs.map fun x => x - low + 1e-3

section Weights

variable {xs : List ℝ} {low : ℝ} {total minPerPeer : UInt32}

/-- Weights of some scores. -/
theorem weights_ne_nil (least : xs.min? = some low) : weights low xs ≠ [] := by
  rintro empty
  rw [List.map_eq_nil_iff.mp empty] at least
  cases least

/-- No weight is below that of the least score. -/
theorem weights_ge (least : xs.min? = some low) : ∀ w ∈ weights low xs, 1e-3 ≤ w := by
  intro w member
  obtain ⟨x, inside, rfl⟩ := List.mem_map.mp member
  have above := (List.min?_eq_some_iff.mp least).2 x inside
  linarith

/-- Weights are positive. -/
theorem weights_pos (least : xs.min? = some low) : ∀ w ∈ weights low xs, 0 < w := by
  intro w member
  have above := weights_ge least w member
  norm_num at above ⊢
  linarith

/-- The shifted scores are the weights. -/
theorem shiftScores_num (least : xs.min? = some low) :
    shiftScores (xs.map num) = (weights low xs).map num := by
  simp only [shiftScores, foldl_min_num least, weights, List.map_map]
  rfl

/-- The slot of a weight in the first pass. -/
noncomputable def slotOf (ws : List ℝ) (total minPerPeer : UInt32) (w : ℝ) : UInt32 :=
  max (UInt32.ofNat ⌊share ws total.toNat w⌋₊) minPerPeer

/-- The first pass gives each peer the floor of its share, or the least budget. -/
theorem firstPass_num (least : xs.min? = some low) (total minPerPeer : UInt32) :
    firstPass (D := Exact) (xs.map num) total minPerPeer =
      (weights low xs).map (slotOf (weights low xs) total minPerPeer) := by
  have positive := weights_pos least
  have sum := sum_pos (weights_ne_nil least) positive
  have whole := total.toNat_lt
  have same : ((weights low xs).map num).map (widen : Exact → Exact) = (weights low xs).map num :=
    List.map_id' _
  simp only [firstPass, shiftScores_num least, same, sum_num, List.map_map]
  apply List.map_congr_left
  intro w member
  have quotient : num w / num (weights low xs).sum * FloatLike.ofNat total.toNat =
      num (share (weights low xs) total.toNat w) := by
    rw [Exact.num_div sum.ne']
    rfl
  have within : ⌊share (weights low xs) total.toNat w⌋₊ ≤ 2 ^ 32 - 1 :=
    (floor_share_le _ positive member).trans (by omega)
  have floored : FloatLike.floorToU32 (num (share (weights low xs) total.toNat w)) =
      UInt32.ofNat ⌊share (weights low xs) total.toNat w⌋₊ :=
    congrArg UInt32.ofNat (min_eq_left within)
  rw [Function.comp_apply, quotient, floored, slotOf]

/-- The value of a slot. -/
theorem toNat_slotOf (least : xs.min? = some low) {w : ℝ} (member : w ∈ weights low xs) :
    (slotOf (weights low xs) total minPerPeer w).toNat =
      max ⌊share (weights low xs) total.toNat w⌋₊ minPerPeer.toNat := by
  have below := floor_share_le total.toNat (weights_pos least) member
  have whole := total.toNat_lt
  rw [slotOf, UInt32.toNat_larger, UInt32.toNat_ofNat_of_lt' (by
    rw [UInt32.size]
    omega)]

/-- The floors of the shares leave slots whose sum is known. -/
theorem totalOf_firstPass (least : xs.min? = some low) :
    totalOf ((weights low xs).map (slotOf (weights low xs) total minPerPeer)) =
      ((weights low xs).map fun w =>
        max ⌊share (weights low xs) total.toNat w⌋₊ minPerPeer.toNat).sum := by
  rw [totalOf, List.map_map]
  exact congrArg List.sum (List.map_congr_left fun w member => toNat_slotOf least member)

/-- The first pass exceeds the total by at most the least budget of every peer. -/
theorem totalOf_firstPass_le (least : xs.min? = some low) (total minPerPeer : UInt32) :
    totalOf ((weights low xs).map (slotOf (weights low xs) total minPerPeer)) ≤
      total.toNat + xs.length * minPerPeer.toNat := by
  have floors := sum_floor_share_le total.toNat (weights_ne_nil least)
    (weights_pos least)
  have each : ∀ w ∈ weights low xs,
      max ⌊share (weights low xs) total.toNat w⌋₊ minPerPeer.toNat ≤
        ⌊share (weights low xs) total.toNat w⌋₊ + minPerPeer.toNat := by
    intro w _
    omega
  have long : (weights low xs).length = xs.length := List.length_map _
  rw [totalOf_firstPass least]
  refine (List.sum_le_sum each).trans ?_
  rw [List.sum_map_add, List.map_const', List.sum_replicate, long, smul_eq_mul]
  exact Nat.add_le_add_right floors _

/-- Where no floor of a share is below the least budget, the first pass does not exceed the
total. -/
theorem totalOf_firstPass_within (least : xs.min? = some low)
    (large : ∀ w ∈ weights low xs,
      minPerPeer.toNat ≤ ⌊share (weights low xs) total.toNat w⌋₊) :
    totalOf ((weights low xs).map (slotOf (weights low xs) total minPerPeer)) ≤ total.toNat := by
  have floors := sum_floor_share_le total.toNat (weights_ne_nil least)
    (weights_pos least)
  rw [totalOf_firstPass least]
  refine (List.sum_le_sum fun w member => ?_).trans floors
  exact (max_eq_left (large w member)).le

/-- Scores in descending order are given slots in descending order, none below the least
budget. -/
theorem fair_firstPass (least : xs.min? = some low) (ordered : xs.Pairwise fun x y => y ≤ x) :
    Fair minPerPeer ((weights low xs).map (slotOf (weights low xs) total minPerPeer)) := by
  constructor
  · have heavier : (weights low xs).Pairwise fun v w => w ≤ v := by
      rw [weights, List.pairwise_map]
      exact ordered.imp fun {x y} held => by linarith
    rw [List.pairwise_map]
    apply heavier.imp_of_mem
    intro v w inV inW lighter
    have more := share_mono total.toNat (weights_ne_nil least) (weights_pos least)
      lighter
    have floors := Nat.floor_mono more
    apply UInt32.le_iff_toNat_le.mpr
    rw [toNat_slotOf least inV, toNat_slotOf least inW]
    omega
  · intro slot member
    obtain ⟨w, inside, rfl⟩ := List.mem_map.mp member
    apply UInt32.le_iff_toNat_le.mpr
    rw [toNat_slotOf least inside]
    exact le_max_right _ _

end Weights

/-! ## The budget -/

/-- Finite scores are real numbers. -/
theorem exists_reals {scored : List (MemberRecord × Exact)}
    (finite : ∀ peer ∈ scored, FloatLike.isFinite peer.2 = true) :
    ∃ xs : List ℝ, scored.map Prod.snd = xs.map num := by
  induction scored with
  | nil => exact ⟨[], rfl⟩
  | cons peer scored ih =>
    obtain ⟨own, others⟩ := List.forall_mem_cons.mp finite
    obtain ⟨x, isNum⟩ := isFinite_iff.mp own
    obtain ⟨xs, rest⟩ := ih others
    refine ⟨x :: xs, ?_⟩
    rw [List.map_cons, List.map_cons, isNum, rest]

/-- Scores of the peers that an allocation considers, as real numbers in descending order. -/
theorem exists_considered {scored : List (MemberRecord × Exact)} {maxPeers : Nat}
    (some_ : scored ≠ []) (capped : maxPeers ≠ 0)
    (finite : ∀ peer ∈ scored, FloatLike.isFinite peer.2 = true)
    (ordered : scored.Pairwise fun a b => FloatLike.le b.2 a.2 = true) :
    ∃ (xs : List ℝ) (low : ℝ), (scored.take maxPeers).map Prod.snd = xs.map num ∧
      xs.min? = some low ∧ xs.Pairwise fun x y => y ≤ x := by
  obtain ⟨xs, isNum⟩ := exists_reals fun peer member =>
    finite peer (List.mem_of_mem_take (i := maxPeers) member)
  have long := congrArg List.length isNum
  rw [List.length_map, List.length_map, List.length_take] at long
  have several := List.length_pos_iff.mpr some_
  obtain ⟨low, least⟩ : ∃ low, xs.min? = some low := by
    apply Option.isSome_iff_exists.mp
    rw [List.isSome_min?_iff, ← List.length_pos_iff]
    omega
  refine ⟨xs, low, isNum, least, ?_⟩
  have kept := ordered.sublist (List.take_sublist maxPeers scored)
  rw [← List.pairwise_map (f := Prod.snd) (R := fun a b => FloatLike.le b a = true), isNum,
    List.pairwise_map] at kept
  exact kept.imp le_num.mp

/-- Real scores in descending order lead to a fair allocation of the whole budget when the
first pass can be summed. -/
theorem proportionalAllocation_num (profile : Profile) {scored : List (MemberRecord × Exact)}
    {total minPerPeer : UInt32} {maxPeers : Nat}
    (runs : ¬ (scored = [] ∨ total = 0 ∨ maxPeers = 0)) (floor : minPerPeer ≤ total)
    (finite : ∀ peer ∈ scored, FloatLike.isFinite peer.2 = true)
    (ordered : scored.Pairwise fun a b => FloatLike.le b.2 a.2 = true)
    (fits : FirstPassFits Exact scored total minPerPeer maxPeers) :
    ∃ allocation, proportionalAllocation Exact profile scored total minPerPeer maxPeers =
        .ok allocation ∧ SpendsFairly scored total minPerPeer maxPeers allocation := by
  obtain ⟨some_, _, capped⟩ := not_or.mp runs |>.imp id not_or.mp
  obtain ⟨xs, low, isNum, least, descends⟩ := exists_considered some_ capped finite ordered
  apply proportionalAllocation_fair profile runs floor fits
  rw [isNum, firstPass_num least]
  exact fair_firstPass least descends

/-- Proportional allocation spends the budget exactly and fairly. -/
theorem proportionalAllocation_spends (profile : Profile)
    {scored : List (MemberRecord × Exact)} {total minPerPeer : UInt32} {maxPeers : Nat}
    (some_ : scored ≠ []) (finite : ∀ peer ∈ scored, FloatLike.isFinite peer.2 = true)
    (ordered : scored.Pairwise fun a b => FloatLike.le b.2 a.2 = true)
    (positive : 1 ≤ total) (floor : minPerPeer ≤ total)
    (fits : total.toNat + (scored.take maxPeers).length * minPerPeer.toNat < 2 ^ 32)
    (capped : 1 ≤ maxPeers) :
    ∃ allocation, proportionalAllocation Exact profile scored total minPerPeer maxPeers =
        .ok allocation ∧ SpendsFairly scored total minPerPeer maxPeers allocation := by
  have nonzero : total ≠ 0 := by
    rintro rfl
    exact absurd positive (by decide)
  have runs : ¬ (scored = [] ∨ total = 0 ∨ maxPeers = 0) := by
    rintro (empty | zero | none_)
    · exact some_ empty
    · exact nonzero zero
    · omega
  apply proportionalAllocation_num profile runs floor finite ordered
  obtain ⟨xs, low, isNum, least, _⟩ :=
    exists_considered some_ (Nat.pos_iff_ne_zero.mp capped) finite ordered
  have long := congrArg List.length isNum
  rw [List.length_map, List.length_map] at long
  have bounded := totalOf_firstPass_le least total minPerPeer
  rw [FirstPassFits, isNum, firstPass_num least]
  rw [long] at fits
  omega

/-- Three peers with scores in descending order. -/
noncomputable def threePeers : List (MemberRecord × Exact) :=
  [(sampleMember 1, num 0.9), (sampleMember 2, num 0.5), (sampleMember 3, num 0.1)]

/-- The whole budget goes to three peers. -/
theorem threePeers_spend :
    ∃ allocation, proportionalAllocation Exact .dev threePeers 30 1 8 = .ok allocation ∧
      SpendsFairly threePeers 30 1 8 allocation := by
  have finite : ∀ peer ∈ threePeers, FloatLike.isFinite peer.2 = true := by
    intro peer member
    simp only [threePeers, List.mem_cons, List.not_mem_nil, or_false] at member
    rcases member with rfl | rfl | rfl <;> rfl
  have ordered : threePeers.Pairwise fun a b => FloatLike.le b.2 a.2 = true := by
    simp only [threePeers, List.pairwise_cons, List.mem_cons, List.not_mem_nil, or_false,
      forall_eq_or_imp, forall_eq, le_num, false_implies, implies_true, List.Pairwise.nil]
    norm_num
  exact proportionalAllocation_spends .dev (List.cons_ne_nil _ _) finite ordered (by decide)
    (by decide) (by decide) (by decide)

/-- Nothing is spent when there is no peer. -/
theorem noPeers_spend_nothing :
    ¬ ∀ (profile : Profile) (scored : List (MemberRecord × Exact)) (total minPerPeer : UInt32)
      (maxPeers : Nat),
      (∀ peer ∈ scored, FloatLike.isFinite peer.2 = true) →
      (scored.Pairwise fun a b => FloatLike.le b.2 a.2 = true) →
      1 ≤ total → minPerPeer ≤ total →
      total.toNat + (scored.take maxPeers).length * minPerPeer.toNat < 2 ^ 32 → 1 ≤ maxPeers →
      ∃ allocation, proportionalAllocation Exact profile scored total minPerPeer maxPeers =
          .ok allocation ∧ SpendsFairly scored total minPerPeer maxPeers allocation := by
  intro claim
  obtain ⟨allocation, computed, fair⟩ := claim .dev [] 1 1 1 (fun _ absent => nomatch absent)
    .nil (by decide) (by decide) (by decide) (by decide)
  have nothing : proportionalAllocation Exact .dev ([] : List (MemberRecord × Exact)) 1 1 1 =
      .ok [] := if_pos (.inl rfl)
  obtain rfl := Except.ok.inj (nothing.symm.trans computed)
  exact absurd fair.spends (by decide)

end Hansa
