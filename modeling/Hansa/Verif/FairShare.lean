import Hansa.Verif.Budget

/-!
# What the loops of an allocation keep

Slots in descending order, none below the floor, stay so while they are brought to the total:
taking one from the last slot above the floor, dropping the last of slots that are all at the
floor, and handing out one at a time from the first slot on. The amount spent then is the
total, and as many slots are left as the total has floors for.
-/

namespace Hansa

/-- Slots in descending order, none of them below the floor. -/
structure Fair (minPerPeer : UInt32) (alloc : List UInt32) : Prop where
  /-- No slot is above an earlier one. -/
  descending : alloc.Pairwise fun x y => y ≤ x
  /-- No slot is below the floor. -/
  floor : ∀ x ∈ alloc, minPerPeer ≤ x

/-- Fair slots after the first are fair. -/
theorem Fair.tail {minPerPeer x : UInt32} {xs : List UInt32} (fair : Fair minPerPeer (x :: xs)) :
    Fair minPerPeer xs :=
  ⟨(List.pairwise_cons.mp fair.descending).2,
    fun y member => fair.floor y (List.mem_cons_of_mem _ member)⟩

/-- Fair slots hold at least a floor each. -/
theorem Fair.length_mul_le {minPerPeer : UInt32} {alloc : List UInt32}
    (fair : Fair minPerPeer alloc) : alloc.length * minPerPeer.toNat ≤ totalOf alloc := by
  induction alloc with
  | nil => exact (Nat.zero_mul _).le
  | cons x xs ih =>
    have rest := ih fair.tail
    have own := UInt32.le_iff_toNat_le.mp (fair.floor x List.mem_cons_self)
    rw [totalOf_cons, List.length_cons, Nat.succ_mul]
    omega

/-! ## Down to the total -/

/-- Slots that are all at the floor hold a floor each. -/
theorem totalOf_floors {minPerPeer : UInt32} {alloc : List UInt32}
    (fair : Fair minPerPeer alloc) (none_ : decrementLast minPerPeer alloc = none) :
    totalOf alloc = alloc.length * minPerPeer.toNat := by
  have least := decrementLast_eq_none none_
  have same : ∀ x ∈ alloc, x = minPerPeer :=
    fun x member => UInt32.le_antisymm (least x member) (fair.floor x member)
  rw [List.eq_replicate_of_mem same]
  simp [totalOf]

/-- Taking one from a slot above the floor. -/
theorem taken_bounds {minPerPeer x : UInt32} (above : minPerPeer < x) :
    minPerPeer ≤ x - 1 ∧ x - 1 ≤ x := by
  have below := UInt32.lt_iff_toNat_lt.mp above
  have value := toNat_sub_one (Nat.zero_lt_of_lt below)
  constructor
  · apply UInt32.le_iff_toNat_le.mpr
    omega
  · apply UInt32.le_iff_toNat_le.mpr
    omega

/-- Taking one leaves fair slots fair. -/
theorem Fair.decrementLast {minPerPeer : UInt32} {alloc rest : List UInt32}
    (fair : Fair minPerPeer alloc) (found : decrementLast minPerPeer alloc = some rest) :
    Fair minPerPeer rest := by
  obtain ⟨front, x, back, rfl, rfl, above, least⟩ := decrementLast_eq_some found
  obtain ⟨left, lower⟩ := taken_bounds above
  obtain ⟨before, others, across⟩ := List.pairwise_append.mp fair.descending
  obtain ⟨floorBefore, floors⟩ := List.forall_mem_append.mp fair.floor
  constructor
  · refine List.pairwise_append.mpr ⟨before, List.pairwise_cons.mpr ⟨?_, others.tail⟩, ?_⟩
    · -- The slots behind are at the floor, and so not above what is left of this one.
      exact fun y member => UInt32.le_trans (least y member) left
    · intro y inFront
      have under := List.forall_mem_cons.mp (across y inFront)
      exact List.forall_mem_cons.mpr ⟨UInt32.le_trans lower under.1, under.2⟩
  · have behind := (List.forall_mem_cons.mp floors).2
    exact List.forall_mem_append.mpr ⟨floorBefore, List.forall_mem_cons.mpr ⟨left, behind⟩⟩

/-- Fair slots without the last are fair. -/
theorem Fair.dropLast {minPerPeer : UInt32} {alloc : List UInt32} (fair : Fair minPerPeer alloc) :
    Fair minPerPeer alloc.dropLast :=
  ⟨fair.descending.sublist (List.dropLast_sublist alloc),
    fun x member => fair.floor x ((List.dropLast_sublist alloc).subset member)⟩

/-- How many of a number of slots a total has floors for. -/
def floorsFor (slots : Nat) (total minPerPeer : UInt32) : Nat :=
  if minPerPeer = 0 then slots else min slots (total.toNat / minPerPeer.toNat)

/-- There are floors for no more than the slots. -/
theorem floorsFor_le (slots : Nat) (total minPerPeer : UInt32) :
    floorsFor slots total minPerPeer ≤ slots := by
  unfold floorsFor
  split
  · exact le_rfl
  · exact min_le_left _ _

/-- A total that is at least the floor has a floor for some slot. -/
theorem floorsFor_pos {slots : Nat} {total minPerPeer : UInt32} (some_ : 0 < slots)
    (floor : minPerPeer ≤ total) : 0 < floorsFor slots total minPerPeer := by
  unfold floorsFor
  split
  · exact some_
  · next least =>
    have above := UInt32.le_iff_toNat_le.mp floor
    have nonzero : 0 < minPerPeer.toNat := Nat.pos_of_ne_zero fun zero =>
      least (UInt32.toNat_inj.mp zero)
    have once := Nat.div_pos above nonzero
    exact lt_min some_ once

/-- Slots that are within the total all have a floor. -/
theorem floorsFor_within {minPerPeer total : UInt32} {alloc : List UInt32}
    (fair : Fair minPerPeer alloc) (within : totalOf alloc ≤ total.toNat) :
    floorsFor alloc.length total minPerPeer = alloc.length := by
  unfold floorsFor
  split
  · rfl
  · next some_ =>
    have positive : 0 < minPerPeer.toNat := Nat.pos_of_ne_zero fun zero =>
      some_ (UInt32.toNat_inj.mp zero)
    have least := fair.length_mul_le
    exact min_eq_left ((Nat.le_div_iff_mul_le positive).mpr (by omega))

/-- Where slots at the floor exceed the total, one of them has no floor. -/
theorem floorsFor_beyond {minPerPeer total : UInt32} {slots : Nat}
    (beyond : total.toNat < (slots + 1) * minPerPeer.toNat) :
    floorsFor (slots + 1) total minPerPeer = floorsFor slots total minPerPeer := by
  have some_ : minPerPeer ≠ 0 := by
    rintro rfl
    simp at beyond
  have positive : 0 < minPerPeer.toNat := Nat.pos_of_ne_zero fun zero =>
    some_ (UInt32.toNat_inj.mp zero)
  have fewer := (Nat.div_lt_iff_lt_mul positive).mpr beyond
  simp only [floorsFor, if_neg some_]
  omega

/-- Slots that are all at the floor and exceed the total are one more than there are floors for. -/
theorem Fair.floorsFor_dropLast {minPerPeer total : UInt32} {alloc : List UInt32}
    (fair : Fair minPerPeer alloc) (none_ : Hansa.decrementLast minPerPeer alloc = none)
    (beyond : total.toNat < totalOf alloc) :
    floorsFor alloc.length total minPerPeer = floorsFor alloc.dropLast.length total minPerPeer := by
  have floors := totalOf_floors fair none_
  have filled : alloc ≠ [] := by
    rintro rfl
    exact absurd beyond (Nat.not_lt_zero _)
  have shorter : alloc.length = alloc.dropLast.length + 1 := by
    have positive := List.length_pos_iff.mpr filled
    rw [List.length_dropLast]
    omega
  rw [shorter]
  apply floorsFor_beyond
  rw [← shorter]
  omega

/-- Trimming fair slots leaves fair slots within the total, as many as there are floors for. -/
theorem trimDown_fair (profile : Profile) (total minPerPeer : UInt32) (alloc : List UInt32)
    (spent : UInt32) (exact_ : spent.toNat = totalOf alloc) (fair : Fair minPerPeer alloc) :
    ∃ alloc' spent', trimDown profile total minPerPeer alloc spent = .ok (alloc', spent') ∧
      spent'.toNat = totalOf alloc' ∧ spent'.toNat ≤ total.toNat ∧ Fair minPerPeer alloc' ∧
      alloc'.length = floorsFor alloc.length total minPerPeer := by
  obtain ⟨alloc', spent', cut, value, within, fair', floors⟩ :=
    trimDown_keeps profile total minPerPeer (P := fun slots => Fair minPerPeer slots ∧
      floorsFor slots.length total minPerPeer = floorsFor alloc.length total minPerPeer)
      (fun slots rest kept found => ⟨kept.1.decrementLast found,
        decrementLast_length found ▸ kept.2⟩)
      (fun slots kept none_ beyond => ⟨kept.1.dropLast,
        (kept.1.floorsFor_dropLast none_ beyond).symm.trans kept.2⟩)
      alloc spent exact_ ⟨fair, rfl⟩
  have each := floorsFor_within fair' (value ▸ within)
  exact ⟨alloc', spent', cut, value, within, fair', each.symm.trans floors⟩

/-! ## Up to the total -/

/-- Slots in descending order, of which some first ones have been given one more than the
others in this round. -/
structure Dealt (ahead : Nat) (alloc : List UInt32) : Prop where
  /-- No slot is above an earlier one. -/
  descending : ∀ (i j : Nat) (x y : UInt32), i < j → alloc[i]? = some x →
    alloc[j]? = some y → y ≤ x
  /-- The slots that are ahead are above the others. -/
  above : ∀ (i j : Nat) (x y : UInt32), i < ahead → ahead ≤ j → alloc[i]? = some x →
    alloc[j]? = some y → y < x

/-- Before a round starts, the slots are in descending order. -/
theorem dealt_zero_iff {alloc : List UInt32} :
    Dealt 0 alloc ↔ alloc.Pairwise fun x y => y ≤ x := by
  rw [List.pairwise_iff_getElem]
  constructor
  · intro dealt i j inI inJ before
    exact dealt.descending i j _ _ before (List.getElem?_eq_getElem inI)
      (List.getElem?_eq_getElem inJ)
  · intro ordered
    refine ⟨fun i j x y before atI atJ => ?_, fun i j x y none_ => absurd none_ (Nat.not_lt_zero i)⟩
    obtain ⟨inI, rfl⟩ := List.getElem?_eq_some_iff.mp atI
    obtain ⟨inJ, rfl⟩ := List.getElem?_eq_some_iff.mp atJ
    exact ordered i j inI inJ before

/-- A round that has reached the end can start again. -/
theorem Dealt.restart {ahead : Nat} {alloc : List UInt32} (dealt : Dealt ahead alloc) :
    Dealt 0 alloc :=
  ⟨dealt.descending, fun i _ _ _ none_ => absurd none_ (Nat.not_lt_zero i)⟩

/-- The next slot in turn is given one. -/
theorem Dealt.deal {ahead : Nat} {alloc : List UInt32} {slot : UInt32}
    (dealt : Dealt ahead alloc) (found : alloc[ahead]? = some slot)
    (raised : (slot + 1).toNat = slot.toNat + 1) :
    Dealt (ahead + 1) (alloc.set ahead (slot + 1)) := by
  have inside : ahead < alloc.length := (List.getElem?_eq_some_iff.mp found).1
  have at_ : ∀ i, (alloc.set ahead (slot + 1))[i]? =
      if ahead = i then some (slot + 1) else alloc[i]? := by
    intro i
    rw [List.getElem?_set]
    by_cases here : ahead = i
    · rw [if_pos here, if_pos here, if_pos (here ▸ inside)]
    · rw [if_neg here, if_neg here]
  constructor
  · intro i j x y before atI atJ
    rw [at_] at atI atJ
    apply UInt32.le_iff_toNat_le.mpr
    split at atI
    · next isI =>
      -- The slot that is raised was not below the later ones.
      obtain rfl := Option.some.inj atI
      rw [if_neg (by omega)] at atJ
      have order := UInt32.le_iff_toNat_le.mp
        (dealt.descending ahead j slot y (by omega) found atJ)
      omega
    · split at atJ
      · next isJ =>
        -- The slots before it are ahead of it in this round.
        obtain rfl := Option.some.inj atJ
        have order := UInt32.lt_iff_toNat_lt.mp
          (dealt.above i ahead x slot (by omega) (le_refl ahead) atI found)
        omega
      · exact UInt32.le_iff_toNat_le.mp (dealt.descending i j x y before atI atJ)
  · intro i j x y isAhead behind atI atJ
    rw [at_] at atI atJ
    rw [if_neg (by omega)] at atJ
    apply UInt32.lt_iff_toNat_lt.mpr
    split at atI
    · obtain rfl := Option.some.inj atI
      have order := UInt32.le_iff_toNat_le.mp
        (dealt.descending ahead j slot y (by omega) found atJ)
      omega
    · exact UInt32.lt_iff_toNat_lt.mp
        (dealt.above i j x y (by omega) (by omega) atI atJ)

/-- The next turn is the next slot's, or the first slot's after the last. -/
theorem Dealt.next {idx : Nat} {alloc : List UInt32} {slot : UInt32}
    (dealt : Dealt (idx % alloc.length) alloc) (found : alloc[idx % alloc.length]? = some slot)
    (raised : (slot + 1).toNat = slot.toNat + 1) :
    Dealt ((idx + 1) % alloc.length) (alloc.set (idx % alloc.length) (slot + 1)) := by
  have dealt' := dealt.deal found raised
  have inside : idx % alloc.length < alloc.length := (List.getElem?_eq_some_iff.mp found).1
  rw [Nat.add_mod_eq_ite]
  by_cases single : alloc.length = 1
  · rw [single, Nat.mod_one, Nat.mod_self]
    simpa [single, Nat.mod_one] using dealt'.restart
  · rw [Nat.mod_eq_of_lt (show 1 < alloc.length by omega)]
    split
    · next wraps =>
      rw [show idx % alloc.length + 1 - alloc.length = 0 by omega]
      exact dealt'.restart
    · exact dealt'

/-- Handing out what is left brings fair slots to the total, and leaves them fair. -/
theorem topUp_fair (profile : Profile) {minPerPeer : UInt32} {alloc : List UInt32} (left : Nat)
    (filled : alloc ≠ []) (fits : totalOf alloc + left < 2 ^ 32) (fair : Fair minPerPeer alloc) :
    ∃ alloc', topUp profile alloc 0 left = .ok alloc' ∧
      totalOf alloc' = totalOf alloc + left ∧ alloc'.length = alloc.length ∧
      Fair minPerPeer alloc' := by
  have round : Dealt (0 % alloc.length) alloc := by
    rw [Nat.zero_mod]
    exact dealt_zero_iff.mpr fair.descending
  have give : ∀ idx slots slot, Dealt (idx % slots.length) slots ∧ (∀ x ∈ slots, minPerPeer ≤ x) →
      slots[idx % slots.length]? = some slot → (slot + 1).toNat = slot.toNat + 1 →
      Dealt ((idx + 1) % (slots.set (idx % slots.length) (slot + 1)).length)
        (slots.set (idx % slots.length) (slot + 1)) ∧
        ∀ x ∈ slots.set (idx % slots.length) (slot + 1), minPerPeer ≤ x := by
    rintro idx slots slot ⟨dealt, floor⟩ found raised
    rw [List.length_set]
    refine ⟨dealt.next found raised, ?_⟩
    intro x member
    rcases List.mem_or_eq_of_mem_set member with old | rfl
    · exact floor x old
    · have least := UInt32.le_iff_toNat_le.mp (floor slot (List.mem_of_getElem? found))
      apply UInt32.le_iff_toNat_le.mpr
      omega
  obtain ⟨idx, alloc', handed, -, whole, long, dealt, floor⟩ :=
    topUp_keeps profile give alloc 0 left fits ⟨round, fair.floor⟩
  exact ⟨alloc', handed, whole filled, long, dealt_zero_iff.mp dealt.restart, floor⟩

/-! ## The allocation -/

section Allocation

variable {F D : Type} [FloatLike F] [FloatLike D] [Widen F D]

/-- The whole budget goes to the first peers, as many as there are floors for, none of them
below the floor or above an earlier one. -/
structure SpendsFairly (scored : List (MemberRecord × F)) (total minPerPeer : UInt32)
    (maxPeers : Nat) (allocation : List PeerAllocation) : Prop where
  /-- The first peers, in their order. -/
  peers : allocation.map PeerAllocation.member =
    (scored.take (floorsFor (min scored.length maxPeers) total minPerPeer)).map Prod.fst
  /-- The whole budget. -/
  spends : (allocation.map fun peer => peer.budget.toNat).sum = total.toNat
  /-- No peer is below the floor. -/
  floor : ∀ peer ∈ allocation, minPerPeer ≤ peer.budget
  /-- No peer is above an earlier one. -/
  descending : allocation.Pairwise fun a b => b.budget ≤ a.budget

omit [FloatLike F] in
/-- The budgets of the peers that slots are paired with. -/
theorem map_budget_zipWith (scored : List (MemberRecord × F)) {alloc : List UInt32}
    (fewer : alloc.length ≤ scored.length) :
    (List.zipWith (fun peer budget => PeerAllocation.mk peer.1 budget) scored alloc).map
      PeerAllocation.budget = alloc := by
  induction scored generalizing alloc with
  | nil => exact (List.eq_nil_of_length_eq_zero (Nat.le_zero.mp fewer)).symm
  | cons peer scored ih =>
    cases alloc with
    | nil => rfl
    | cons x alloc =>
      rw [List.zipWith_cons_cons, List.map_cons, ih (Nat.le_of_succ_le_succ fewer)]

omit [FloatLike F] in
/-- The peers that slots are paired with. -/
theorem map_member_zipWith (scored : List (MemberRecord × F)) (alloc : List UInt32) :
    (List.zipWith (fun peer budget => PeerAllocation.mk peer.1 budget) scored alloc).map
      PeerAllocation.member = (scored.take alloc.length).map Prod.fst := by
  induction scored generalizing alloc with
  | nil => rw [List.take_nil]; rfl
  | cons peer scored ih =>
    cases alloc with
    | nil => rfl
    | cons x alloc =>
      rw [List.zipWith_cons_cons, List.map_cons, ih, List.length_cons, List.take_succ_cons,
        List.map_cons]

/-- There is one slot for each peer in the first pass. -/
theorem length_firstPass (scores : List F) (total minPerPeer : UInt32) :
    (firstPass (D := D) scores total minPerPeer).length = scores.length := by
  simp only [firstPass, shiftScores, List.length_map]

/-- From a first pass that is fair and can be summed, the loops lead to a fair allocation of the
whole budget, in every build. -/
theorem proportionalAllocation_fair (profile : Profile) {scored : List (MemberRecord × F)}
    {total minPerPeer : UInt32} {maxPeers : Nat}
    (runs : ¬ (scored = [] ∨ total = 0 ∨ maxPeers = 0)) (floor : minPerPeer ≤ total)
    (fits : FirstPassFits D scored total minPerPeer maxPeers)
    (fair : Fair minPerPeer (firstPass (D := D) ((scored.take maxPeers).map Prod.snd) total
      minPerPeer)) :
    ∃ allocation, proportionalAllocation D profile scored total minPerPeer maxPeers =
        .ok allocation ∧ SpendsFairly scored total minPerPeer maxPeers allocation := by
  have slots := length_firstPass (D := D) ((scored.take maxPeers).map Prod.snd) total minPerPeer
  rw [List.length_map, List.length_take, min_comm] at slots
  obtain ⟨alloc, pass⟩ : ∃ alloc, firstPass (D := D) ((scored.take maxPeers).map Prod.snd) total
      minPerPeer = alloc := ⟨_, rfl⟩
  rw [FirstPassFits, pass] at fits
  rw [pass] at slots fair
  obtain ⟨some_, positive, capped⟩ := not_or.mp runs |>.imp id not_or.mp
  have room : (0 : UInt32).toNat + totalOf alloc < 2 ^ 32 := by
    rw [UInt32.toNat_zero]
    omega
  obtain ⟨spent, summed, value⟩ := sumU32_fits profile room
  rw [UInt32.toNat_zero, Nat.zero_add] at value
  obtain ⟨trimmed, spent', cut, value', within, fair', long⟩ :=
    trimDown_fair profile total minPerPeer alloc spent value fair
  have whole := total.toNat_lt
  have several : 0 < alloc.length := by
    have peers := List.length_pos_iff.mpr some_
    omega
  have filled : trimmed ≠ [] := by
    rw [← List.length_pos_iff, long]
    exact floorsFor_pos several floor
  obtain ⟨full, handed, isSum, long', fair''⟩ := topUp_fair profile
    (total.toNat - spent'.toNat) filled (by omega) fair'
  have most := floorsFor_le alloc.length total minPerPeer
  have fewer : full.length ≤ (scored.take maxPeers).length := by
    rw [List.length_take, min_comm]
    omega
  have returned : proportionalAllocation D profile scored total minPerPeer maxPeers =
      .ok (List.zipWith (fun peer budget => ⟨peer.1, budget⟩) (scored.take maxPeers) full) := by
    rw [proportionalAllocation, if_neg runs]
    simp only [pass, summed, cut, handed, bind, Except.bind]
  refine ⟨_, returned, ?_⟩
  have budgets := map_budget_zipWith (scored.take maxPeers) fewer
  constructor
  · rw [slots] at long most
    have kept : min full.length maxPeers =
        floorsFor (min scored.length maxPeers) total minPerPeer := by omega
    rw [map_member_zipWith, List.take_take, kept]
  · rw [show (fun peer : PeerAllocation => peer.budget.toNat) =
      UInt32.toNat ∘ PeerAllocation.budget from rfl, ← List.map_map, budgets]
    have sum : totalOf full = total.toNat := by omega
    exact sum
  · intro peer member
    have slot := List.mem_map_of_mem (f := PeerAllocation.budget) member
    rw [budgets] at slot
    exact fair''.floor _ slot
  · have ordered := fair''.descending
    rw [← budgets, List.pairwise_map] at ordered
    exact ordered

end Allocation

end Hansa
