import Mathlib.Data.List.GetD
import Mathlib.MeasureTheory.Constructions.Pi
import Mathlib.MeasureTheory.Measure.Lebesgue.Basic

/-!
# Choice by weight

A threshold is lowered by one weight after the other until it is used up, and the index where
this happens is chosen. For a threshold that is uniform between zero and the sum of the weights,
every index is chosen with its share of the sum. The measure of a draw followed by independent
draws is a product.
-/

namespace WeightedChoice

open MeasureTheory Set

/-- The index whose weight uses up a threshold. -/
noncomputable def pick : ℝ → List ℝ → Option ℕ
  | _, [] => none
  | t, w :: ws => if t - w ≤ 0 then some 0 else (pick (t - w) ws).map (· + 1)

variable {ws : List ℝ} {t : ℝ} {i : ℕ}

/-- The sum of the weights in front of an index. -/
def before (ws : List ℝ) (i : ℕ) : ℝ := (ws.take i).sum

@[simp] theorem before_zero (ws : List ℝ) : before ws 0 = 0 := List.sum_nil

@[simp] theorem before_cons (w : ℝ) (ws : List ℝ) (i : ℕ) :
    before (w :: ws) (i + 1) = w + before ws i := List.sum_cons

/-- The sum in front of the next index. -/
theorem before_succ (inside : i < ws.length) : before ws (i + 1) = before ws i + ws[i] := by
  rw [before, before, List.take_succ_eq_append_getElem inside, List.sum_append,
    List.sum_singleton]

section Nonneg

variable (nonneg : ∀ w ∈ ws, 0 ≤ w)

include nonneg

/-- Sums of weights are not negative. -/
theorem before_nonneg (i : ℕ) : 0 ≤ before ws i :=
  List.sum_nonneg fun w member => nonneg w (List.mem_of_mem_take member)

/-- What is in front of an index is at most the whole sum. -/
theorem before_le_sum (i : ℕ) : before ws i ≤ ws.sum := by
  have split : before ws i + (ws.drop i).sum = ws.sum := List.sum_take_add_sum_drop ws i
  have rest : 0 ≤ (ws.drop i).sum :=
    List.sum_nonneg fun w member => nonneg w (List.mem_of_mem_drop member)
  linarith

/-- An index is chosen by the thresholds that end in its weight. -/
theorem pick_eq_some_iff (positive : 0 < t) :
    pick t ws = some i ↔ t ∈ Ioc (before ws i) (before ws (i + 1)) := by
  induction ws generalizing t i with
  | nil => simp [pick, before]
  | cons w ws ih =>
    obtain ⟨weight, weights⟩ := List.forall_mem_cons.mp nonneg
    rw [before_cons, pick]
    by_cases used : t - w ≤ 0
    · rw [if_pos used]
      cases i with
      | zero =>
        rw [before_zero, before_zero]
        exact iff_of_true rfl ⟨positive, by linarith⟩
      | succ i =>
        have later := before_nonneg weights i
        rw [before_cons]
        refine iff_of_false (nofun) fun chosen => ?_
        linarith [chosen.1]
    · have left : 0 < t - w := not_le.mp used
      rw [if_neg used]
      cases i with
      | zero =>
        rw [before_zero, before_zero]
        refine iff_of_false (by simp) fun chosen => ?_
        linarith [chosen.2]
      | succ i =>
        have next : pick (t - w) ws = some i ↔
            t - w ∈ Ioc (before ws i) (before ws (i + 1)) := ih weights left
        rw [before_cons, Option.map_eq_some_iff]
        constructor
        · rintro ⟨j, chosen, same⟩
          rw [Nat.succ.inj same] at chosen
          have between := next.mp chosen
          exact ⟨by linarith [between.1], by linarith [between.2]⟩
        · intro between
          exact ⟨i, next.mpr ⟨by linarith [between.1], by linarith [between.2]⟩, rfl⟩

omit nonneg in
/-- A chosen index is one of the weights. -/
theorem lt_length_of_pick (chosen : pick t ws = some i) : i < ws.length := by
  induction ws generalizing t i with
  | nil => cases chosen
  | cons w ws ih =>
    rw [pick] at chosen
    rw [List.length_cons]
    by_cases used : t - w ≤ 0
    · rw [if_pos used] at chosen
      have first := Option.some.inj chosen
      omega
    · rw [if_neg used] at chosen
      obtain ⟨j, later, same⟩ := Option.map_eq_some_iff.mp chosen
      have bound := ih later
      omega

/-- The weight of a chosen index is positive. -/
theorem pos_of_pick (positive : 0 < t) (chosen : pick t ws = some i) :
    ∃ inside : i < ws.length, 0 < ws.get ⟨i, inside⟩ := by
  have between := (pick_eq_some_iff nonneg positive).mp chosen
  have inside := lt_length_of_pick chosen
  rw [before_succ inside] at between
  have weight : 0 < ws[i] := by linarith [between.1, between.2]
  exact ⟨inside, weight⟩

omit nonneg in
/-- A threshold of at most the sum is used up. -/
theorem exists_pick (some_ : ws ≠ []) (below : t ≤ ws.sum) : ∃ i, pick t ws = some i := by
  induction ws generalizing t with
  | nil => exact absurd rfl some_
  | cons w ws ih =>
    rw [pick]
    by_cases used : t - w ≤ 0
    · exact ⟨0, if_pos used⟩
    · rw [if_neg used]
      rw [List.sum_cons] at below
      have more : ws ≠ [] := by
        rintro rfl
        rw [List.sum_nil] at below
        linarith
      obtain ⟨i, chosen⟩ := ih more (by linarith : t - w ≤ ws.sum)
      exact ⟨i + 1, by rw [chosen]; rfl⟩

/-! ## Uniform thresholds -/

variable (positive : 0 < ws.sum)

include positive

/-- Between zero and one, the uniform draws that choose an index are an interval, up to the
ends. -/
theorem pick_ae_eq (i : ℕ) :
    {u : ℝ | u ∈ Ico 0 1 ∧ pick (ws.sum * u) ws = some i} =ᵐ[volume]
      Ioc (before ws i / ws.sum) (before ws (i + 1) / ws.sum) := by
  have inner : ∀ᵐ u : ℝ ∂volume, u ≠ 0 ∧ u ≠ 1 :=
    (volume.ae_ne 0).and (volume.ae_ne 1)
  filter_upwards [inner] with u ends
  apply propext
  show (u ∈ Ico 0 1 ∧ pick (ws.sum * u) ws = some i) ↔ u ∈ Ioc _ _
  have scaled : ws.sum * u ∈ Ioc (before ws i) (before ws (i + 1)) ↔
      u ∈ Ioc (before ws i / ws.sum) (before ws (i + 1) / ws.sum) := by
    rw [mem_Ioc, mem_Ioc, div_lt_iff₀' positive, le_div_iff₀' positive]
  constructor
  · rintro ⟨inside, chosen⟩
    have above : 0 < u := inside.1.lt_of_ne' ends.1
    exact scaled.mp ((pick_eq_some_iff nonneg (mul_pos positive above)).mp chosen)
  · intro between
    have low : 0 ≤ before ws i / ws.sum := div_nonneg (before_nonneg nonneg i) positive.le
    have high : before ws (i + 1) / ws.sum ≤ 1 :=
      (div_le_one positive).mpr (before_le_sum nonneg (i + 1))
    have above : 0 < u := low.trans_lt between.1
    have below : u < 1 := (between.2.trans high).lt_of_ne ends.2
    exact ⟨⟨above.le, below⟩,
      (pick_eq_some_iff nonneg (mul_pos positive above)).mpr (scaled.mpr between)⟩

/-- An index is chosen with its share of the weights. -/
theorem volume_pick (inside : i < ws.length) :
    volume {u : ℝ | u ∈ Ico 0 1 ∧ pick (ws.sum * u) ws = some i} =
      ENNReal.ofReal (ws[i] / ws.sum) := by
  rw [measure_congr (pick_ae_eq nonneg positive i), Real.volume_Ioc, before_succ inside]
  congr 1
  ring

/-- One of some indices is chosen with the sum of their shares. -/
theorem volume_pick_mem {chosen : Finset ℕ} (inside : ∀ i ∈ chosen, i < ws.length) :
    volume {u : ℝ | u ∈ Ico 0 1 ∧ ∃ i ∈ chosen, pick (ws.sum * u) ws = some i} =
      ENNReal.ofReal ((∑ i ∈ chosen, ws.getD i 0) / ws.sum) := by
  have union : {u : ℝ | u ∈ Ico 0 1 ∧ ∃ i ∈ chosen, pick (ws.sum * u) ws = some i} =
      ⋃ i ∈ chosen, {u : ℝ | u ∈ Ico 0 1 ∧ pick (ws.sum * u) ws = some i} := by
    ext u
    rw [mem_iUnion₂]
    constructor
    · rintro ⟨range, i, member, picked⟩
      exact ⟨i, member, range, picked⟩
    · rintro ⟨i, member, range, picked⟩
      exact ⟨range, i, member, picked⟩
  have apart : (chosen : Set ℕ).Pairwise (Function.onFun (AEDisjoint volume)
      fun i => {u : ℝ | u ∈ Ico 0 1 ∧ pick (ws.sum * u) ws = some i}) := by
    intro i _ j _ other
    apply Disjoint.aedisjoint
    rw [disjoint_left]
    rintro u ⟨-, picked⟩ ⟨-, picked'⟩
    exact other (Option.some.inj (picked.symm.trans picked'))
  have measurable : ∀ i ∈ chosen, NullMeasurableSet
      {u : ℝ | u ∈ Ico 0 1 ∧ pick (ws.sum * u) ws = some i} volume := fun i _ =>
    measurableSet_Ioc.nullMeasurableSet.congr (pick_ae_eq nonneg positive i).symm
  have weight : ∀ i ∈ chosen, ∃ bound : i < ws.length, ws.getD i 0 = ws[i] := fun i member =>
    ⟨inside i member, List.getD_eq_getElem _ _ (inside i member)⟩
  have shares : ∀ i ∈ chosen, 0 ≤ ws.getD i 0 / ws.sum := by
    intro i member
    obtain ⟨bound, value⟩ := weight i member
    rw [value]
    exact div_nonneg (nonneg _ (List.getElem_mem bound)) positive.le
  rw [union, measure_biUnion_finset₀ apart measurable, Finset.sum_div,
    ENNReal.ofReal_sum_of_nonneg shares]
  apply Finset.sum_congr rfl
  intro i member
  obtain ⟨bound, value⟩ := weight i member
  rw [value]
  exact volume_pick nonneg positive bound

end Nonneg

/-! ## Items with weights -/

section Items

variable {α : Type*} (weight : α → ℝ) (items : List α)

/-- The item whose weight uses up a threshold. -/
noncomputable def choose (t : ℝ) : Option α := (pick t (items.map weight)).bind (items[·]?)

variable {weight items} {c : α}

/-- An item is chosen at one of its indices. -/
theorem choose_eq_some_iff :
    choose weight items t = some c ↔
      ∃ i, items[i]? = some c ∧ pick t (items.map weight) = some i := by
  rw [choose, Option.bind_eq_some_iff]
  exact ⟨fun ⟨i, picked, here⟩ => ⟨i, here, picked⟩, fun ⟨i, here, picked⟩ => ⟨i, picked, here⟩⟩

/-- A threshold of at most the sum chooses an item, and the weight of an item that is chosen by
a positive threshold is positive. -/
theorem exists_choose (nonneg : ∀ x ∈ items, 0 ≤ weight x) (some_ : items ≠ [])
    (below : t ≤ (items.map weight).sum) :
    ∃ c ∈ items, choose weight items t = some c ∧ (0 < t → 0 < weight c) := by
  have weights : ∀ w ∈ items.map weight, 0 ≤ w := List.forall_mem_map.mpr nonneg
  obtain ⟨i, picked⟩ := exists_pick (fun none_ => some_ (List.map_eq_nil_iff.mp none_)) below
  have inside : i < items.length := by
    have bound := lt_length_of_pick picked
    rwa [List.length_map] at bound
  refine ⟨items[i], List.getElem_mem inside,
    choose_eq_some_iff.mpr ⟨i, List.getElem?_eq_getElem inside, picked⟩, fun positive => ?_⟩
  obtain ⟨bound, weighs⟩ := pos_of_pick weights positive picked
  rwa [List.get_eq_getElem, List.getElem_map] at weighs

/-- An item is chosen with the share of its weight, as often as it is listed. -/
theorem volume_choose [DecidableEq α] (nonneg : ∀ x ∈ items, 0 ≤ weight x)
    (positive : 0 < (items.map weight).sum) (c : α) :
    volume {u : ℝ | u ∈ Ico 0 1 ∧ choose weight items ((items.map weight).sum * u) = some c} =
      ENNReal.ofReal (items.count c * weight c / (items.map weight).sum) := by
  have weights : ∀ w ∈ items.map weight, 0 ≤ w := List.forall_mem_map.mpr nonneg
  have indices : {u : ℝ | u ∈ Ico 0 1 ∧
      choose weight items ((items.map weight).sum * u) = some c} =
        {u : ℝ | u ∈ Ico 0 1 ∧ ∃ i ∈ (Finset.range items.length).filter (items[·]? = some c),
          pick ((items.map weight).sum * u) (items.map weight) = some i} := by
    ext u
    apply and_congr_right
    intro _
    rw [choose_eq_some_iff]
    apply exists_congr
    intro i
    have bound : items[i]? = some c → i < items.length := fun here =>
      (List.getElem?_eq_some_iff.mp here).1
    rw [Finset.mem_filter, Finset.mem_range]
    tauto
  have inside : ∀ i ∈ (Finset.range items.length).filter (items[·]? = some c),
      i < (items.map weight).length := by
    intro i member
    rw [List.length_map]
    exact Finset.mem_range.mp (Finset.mem_filter.mp member).1
  have total : ∑ i ∈ (Finset.range items.length).filter (items[·]? = some c),
      (items.map weight).getD i 0 = items.count c * weight c := by
    have each : ∀ i : Fin items.length,
        (if items[(i : ℕ)]? = some c then (items.map weight).getD i 0 else 0) =
          if items[(i : ℕ)] = c then weight items[(i : ℕ)] else 0 := by
      intro i
      have here : items[(i : ℕ)]? = some items[(i : ℕ)] := List.getElem?_eq_getElem i.2
      have value : (items.map weight).getD i 0 = weight items[(i : ℕ)] := by
        rw [List.getD_eq_getElem _ _ (by rw [List.length_map]; exact i.2), List.getElem_map]
      by_cases same : items[(i : ℕ)] = c
      · rw [if_pos (here.trans (congrArg some same)), if_pos same, value]
      · have other : items[(i : ℕ)]? ≠ some c := fun found =>
          same (Option.some.inj (here.symm.trans found))
        rw [if_neg other, if_neg same]
    have listed := List.sum_map_eq_nsmul_single c (fun x => if x = c then weight x else 0)
      (l := items) fun x other _ => if_neg other
    rw [Finset.sum_filter, Finset.sum_range, Finset.sum_congr rfl fun i _ => each i,
      Fin.sum_univ_fun_getElem items fun x => if x = c then weight x else 0, listed, if_pos rfl,
      nsmul_eq_mul]
  rw [indices, volume_pick_mem weights positive inside, total]

end Items

/-- A draw and the draws behind it are independent. -/
theorem volume_cons {n : ℕ} (A : Set ℝ) (B : Set (Fin n → ℝ)) :
    volume {u : Fin (n + 1) → ℝ | u 0 ∈ A ∧ Fin.tail u ∈ B} = volume A * volume B := by
  have preserving := volume_preserving_piFinSuccAbove (fun _ : Fin (n + 1) => ℝ) 0
  have product : {u : Fin (n + 1) → ℝ | u 0 ∈ A ∧ Fin.tail u ∈ B} =
      Set.preimage (MeasurableEquiv.piFinSuccAbove (fun _ : Fin (n + 1) => ℝ) 0) (A ×ˢ B) := by
    ext u
    rfl
  rw [product, preserving.measure_preimage_equiv, Measure.volume_eq_prod, Measure.prod_prod]

end WeightedChoice
