import Hansa.Allocation

/-!
# When an allocation is computed

A release build always computes an allocation. A development build does so exactly when the
first pass can be summed on 32 bits: from then on the amount spent is the true sum of the
slots, so no later step overflows.
-/

namespace Hansa

/-- The sum of the slots, without a bound. -/
def totalOf (alloc : List UInt32) : Nat := (alloc.map UInt32.toNat).sum

/-- One more slot. -/
@[simp] theorem totalOf_cons (x : UInt32) (alloc : List UInt32) :
    totalOf (x :: alloc) = x.toNat + totalOf alloc := by
  simp [totalOf]

/-- Slots in front of others. -/
@[simp] theorem totalOf_append (front back : List UInt32) :
    totalOf (front ++ back) = totalOf front + totalOf back := by
  simp [totalOf]

/-! ## Arithmetic on 32 bits -/

/-- A release build never panics on a sum. -/
theorem addIn_release (x y : UInt32) : UInt32.addIn .release x y = .ok (x + y) :=
  if_neg (fun both => nomatch both.1)

/-- A sum that fits is computed. -/
theorem addIn_ok (profile : Profile) {x y : UInt32} (fits : x.toNat + y.toNat < 2 ^ 32) :
    UInt32.addIn profile x y = .ok (x + y) ∧ (x + y).toNat = x.toNat + y.toNat := by
  refine ⟨if_neg (fun both => absurd both.2 (by omega)), ?_⟩
  rw [UInt32.toNat_add]
  exact Nat.mod_eq_of_lt fits

/-- A difference that exists is computed. -/
theorem subIn_ok (profile : Profile) {x y : UInt32} (fits : y.toNat ≤ x.toNat) :
    UInt32.subIn profile x y = .ok (x - y) ∧ (x - y).toNat = x.toNat - y.toNat := by
  refine ⟨if_neg (fun both => absurd both.2 (by omega)), ?_⟩
  exact UInt32.toNat_sub_of_le _ _ (UInt32.le_iff_toNat_le.mpr fits)

/-- One less than a number that is not zero. -/
theorem toNat_sub_one {x : UInt32} (positive : 0 < x.toNat) : (x - 1).toNat = x.toNat - 1 := by
  have one : (1 : UInt32).toNat ≤ x.toNat := by
    rw [UInt32.toNat_one]
    exact positive
  rw [UInt32.toNat_sub_of_le _ _ (UInt32.le_iff_toNat_le.mpr one), UInt32.toNat_one]

/-- What fits is summed. -/
theorem sumU32_fits (profile : Profile) {acc : UInt32} {alloc : List UInt32}
    (fits : acc.toNat + totalOf alloc < 2 ^ 32) :
    ∃ spent, sumU32 profile acc alloc = .ok spent ∧
      spent.toNat = acc.toNat + totalOf alloc := by
  induction alloc generalizing acc with
  | nil => exact ⟨acc, rfl, rfl⟩
  | cons x alloc ih =>
    rw [totalOf_cons] at fits ⊢
    obtain ⟨added, value⟩ := addIn_ok profile (x := acc) (y := x) (by omega)
    have rest : (acc + x).toNat + totalOf alloc < 2 ^ 32 := by omega
    obtain ⟨spent, summed, isSum⟩ := ih rest
    refine ⟨spent, ?_, by omega⟩
    rw [sumU32, added]
    exact summed

/-- A development build panics on a sum that does not fit. -/
theorem sumU32_panics {acc : UInt32} {alloc : List UInt32}
    (beyond : 2 ^ 32 ≤ acc.toNat + totalOf alloc) : sumU32 .dev acc alloc = .error .panic := by
  induction alloc generalizing acc with
  | nil => exact absurd acc.toNat_lt (not_lt.mpr (by simpa [totalOf] using beyond))
  | cons x alloc ih =>
    rw [totalOf_cons] at beyond
    by_cases fits : acc.toNat + x.toNat < 2 ^ 32
    · obtain ⟨added, value⟩ := addIn_ok .dev fits
      rw [sumU32, added]
      exact ih (by omega)
    · rw [sumU32, UInt32.addIn, if_pos ⟨rfl, not_lt.mp fits⟩]
      rfl

/-- A release build always sums. -/
theorem sumU32_release (acc : UInt32) (alloc : List UInt32) :
    ∃ spent, sumU32 .release acc alloc = .ok spent := by
  induction alloc generalizing acc with
  | nil => exact ⟨acc, rfl⟩
  | cons x alloc ih =>
    obtain ⟨spent, out⟩ := ih (acc + x)
    refine ⟨spent, ?_⟩
    rw [sumU32, addIn_release]
    exact out

/-! ## Bringing the sum to the total -/

/-- Taking one lowers the sum by one. -/
theorem totalOf_decrementLast {minPerPeer : UInt32} {alloc rest : List UInt32}
    (found : decrementLast minPerPeer alloc = some rest) : totalOf alloc = totalOf rest + 1 := by
  obtain ⟨front, x, back, rfl, rfl, above, -⟩ := decrementLast_eq_some found
  have positive : 0 < x.toNat := Nat.zero_lt_of_lt (UInt32.lt_iff_toNat_lt.mp above)
  have value := toNat_sub_one positive
  simp only [totalOf_append, totalOf_cons]
  omega

section Trim

variable {total minPerPeer : UInt32} {alloc : List UInt32} {spent : UInt32}

/-- Trimming takes one from the last slot above the floor. -/
theorem trimDown_take (profile : Profile) {rest : List UInt32}
    (running : total < spent ∧ alloc ≠ [])
    (found : decrementLast minPerPeer alloc = some rest) :
    trimDown profile total minPerPeer alloc spent =
      trimDown profile total minPerPeer rest (spent - 1) := by
  rw [trimDown, dif_pos running]
  split
  · next rest' found' =>
    obtain rfl := Option.some.inj (found.symm.trans found')
    rfl
  · next none_ =>
    rw [found] at none_
    cases none_

/-- Trimming drops the last slot when none is above the floor. -/
theorem trimDown_drop (profile : Profile) (running : total < spent ∧ alloc ≠ [])
    (none_ : decrementLast minPerPeer alloc = none) :
    trimDown profile total minPerPeer alloc spent = (do
      let spent ← UInt32.subIn profile spent (alloc.getLast running.2)
      trimDown profile total minPerPeer alloc.dropLast spent) := by
  rw [trimDown, dif_pos running]
  split
  · next rest found =>
    rw [none_] at found
    cases found
  · rfl

/-- The sum of all slots but the last. -/
theorem totalOf_dropLast (filled : alloc ≠ []) :
    totalOf alloc = totalOf alloc.dropLast + (alloc.getLast filled).toNat := by
  conv_lhs => rw [← List.dropLast_append_getLast filled]
  simp [totalOf]

/-- When trimming is done, the slots are within the total. -/
theorem spent_le_of_done (exact_ : spent.toNat = totalOf alloc)
    (done_ : ¬ (total < spent ∧ alloc ≠ [])) : spent.toNat ≤ total.toNat := by
  by_cases empty : alloc = []
  · rw [exact_, empty]
    exact Nat.zero_le _
  · exact UInt32.le_iff_toNat_le.mp (UInt32.not_lt.mp (fun beyond => done_ ⟨beyond, empty⟩))

end Trim

/-- The rule for trimming: while the amount spent is the true sum, trimming returns, leaves at
most the total, and keeps what taking one from a slot and dropping the last slot keep. -/
theorem trimDown_keeps (profile : Profile) (total minPerPeer : UInt32) {P : List UInt32 → Prop}
    (take : ∀ alloc rest, P alloc → decrementLast minPerPeer alloc = some rest → P rest)
    (drop : ∀ alloc, P alloc → decrementLast minPerPeer alloc = none →
      total.toNat < totalOf alloc → P alloc.dropLast)
    (alloc : List UInt32) (spent : UInt32) (exact_ : spent.toNat = totalOf alloc)
    (start : P alloc) :
    ∃ alloc' spent', trimDown profile total minPerPeer alloc spent = .ok (alloc', spent') ∧
      spent'.toNat = totalOf alloc' ∧ spent'.toNat ≤ total.toNat ∧ P alloc' := by
  induction alloc, spent using trimDown.induct total minPerPeer with
  | case1 alloc spent running rest found ih =>
    have beyond := UInt32.lt_iff_toNat_lt.mp running.1
    have less := totalOf_decrementLast found
    have value := toNat_sub_one (Nat.zero_lt_of_lt beyond)
    rw [trimDown_take profile running found]
    exact ih (by omega) (take alloc rest start found)
  | case2 alloc spent running none_ ih =>
    have beyond := UInt32.lt_iff_toNat_lt.mp running.1
    have last := totalOf_dropLast running.2
    obtain ⟨taken, value⟩ := subIn_ok profile (x := spent) (y := alloc.getLast running.2)
      (by omega)
    rw [trimDown_drop profile running none_, taken]
    exact ih _ (by omega) (drop alloc start none_ (by omega))
  | case3 alloc spent done_ =>
    rw [trimDown, dif_neg done_]
    exact ⟨alloc, spent, rfl, exact_, spent_le_of_done exact_ done_, start⟩

/-- Trimming in a release build always returns. -/
theorem trimDown_release (total minPerPeer : UInt32) (alloc : List UInt32) (spent : UInt32) :
    ∃ out, trimDown .release total minPerPeer alloc spent = .ok out := by
  induction alloc, spent using trimDown.induct total minPerPeer with
  | case1 alloc spent running rest found ih =>
    rw [trimDown_take .release running found]
    exact ih
  | case2 alloc spent running none_ ih =>
    rw [trimDown_drop .release running none_, UInt32.subIn,
      if_neg (fun both => nomatch both.1)]
    exact ih _
  | case3 alloc spent done_ =>
    rw [trimDown, dif_neg done_]
    exact ⟨_, rfl⟩

/-- A slot set anew changes the sum by the difference. -/
theorem totalOf_set {alloc : List UInt32} {i : Nat} {slot : UInt32} (found : alloc[i]? = some slot)
    (new : UInt32) : totalOf (alloc.set i new) + slot.toNat = totalOf alloc + new.toNat := by
  induction alloc generalizing i with
  | nil => cases found
  | cons x xs ih =>
    cases i with
    | zero =>
      obtain rfl := Option.some.inj found
      rw [List.set_cons_zero, totalOf_cons, totalOf_cons]
      omega
    | succ i =>
      have rest := ih (i := i) found
      rw [List.set_cons_succ, totalOf_cons, totalOf_cons]
      omega

/-- A slot is at most the sum. -/
theorem toNat_le_totalOf {alloc : List UInt32} {i : Nat} {slot : UInt32}
    (found : alloc[i]? = some slot) : slot.toNat ≤ totalOf alloc := by
  have less := totalOf_set found 0
  rw [UInt32.toNat_zero] at less
  omega

/-- The rule for handing out what is left: while the sum stays on 32 bits it returns, hands out
no more than is left, and all of it where there is a slot, and keeps what giving one to the slot
in turn keeps. -/
theorem topUp_keeps (profile : Profile) {P : Nat → List UInt32 → Prop}
    (give : ∀ idx alloc slot, P idx alloc → alloc[idx % alloc.length]? = some slot →
      (slot + 1).toNat = slot.toNat + 1 → P (idx + 1) (alloc.set (idx % alloc.length) (slot + 1)))
    (alloc : List UInt32) (idx left : Nat) (fits : totalOf alloc + left < 2 ^ 32)
    (start : P idx alloc) :
    ∃ idx' alloc', topUp profile alloc idx left = .ok alloc' ∧
      totalOf alloc' ≤ totalOf alloc + left ∧
      (alloc ≠ [] → totalOf alloc' = totalOf alloc + left) ∧
      alloc'.length = alloc.length ∧ P idx' alloc' := by
  induction left generalizing alloc idx with
  | zero => exact ⟨idx, alloc, rfl, le_rfl, fun _ => rfl, rfl, start⟩
  | succ left ih =>
    unfold topUp
    cases found : alloc[idx % alloc.length]? with
    | none =>
      have empty : alloc = [] := by
        by_contra filled
        have inside := Nat.mod_lt idx (List.length_pos_iff.mpr filled)
        exact absurd (List.getElem?_eq_none_iff.mp found) (by omega)
      exact ⟨idx, alloc, rfl, Nat.le_add_right _ _, fun filled => absurd empty filled, rfl, start⟩
    | some slot =>
      have below := toNat_le_totalOf found
      have one : slot.toNat + (1 : UInt32).toNat < 2 ^ 32 := by
        rw [UInt32.toNat_one]
        omega
      obtain ⟨added, value⟩ := addIn_ok profile one
      have sum := totalOf_set found (slot + 1)
      have long : (alloc.set (idx % alloc.length) (slot + 1)).length = alloc.length :=
        List.length_set
      rw [UInt32.toNat_one] at value
      obtain ⟨idx', alloc', handed, atMost, whole, length, kept⟩ :=
        ih (alloc.set (idx % alloc.length) (slot + 1)) (idx + 1) (by omega)
          (give idx alloc slot start found value)
      simp only [added]
      refine ⟨idx', alloc', handed, by omega, ?_, length.trans long, kept⟩
      intro filled
      have refilled : alloc.set (idx % alloc.length) (slot + 1) ≠ [] := by
        rw [← List.length_pos_iff, long]
        exact List.length_pos_iff.mpr filled
      have all := whole refilled
      omega

/-- Handing out what is left in a release build always returns. -/
theorem topUp_release (alloc : List UInt32) (idx left : Nat) :
    ∃ alloc', topUp .release alloc idx left = .ok alloc' := by
  induction left generalizing alloc idx with
  | zero => exact ⟨alloc, rfl⟩
  | succ left ih =>
    unfold topUp
    cases alloc[idx % alloc.length]? with
    | none => exact ⟨alloc, rfl⟩
    | some slot =>
      simp only [addIn_release]
      exact ih _ _

/-! ## The allocation -/

/-- Peers are given no more than the slots hold. -/
theorem sum_zipWith_le {F : Type} (scored : List (MemberRecord × F)) (alloc : List UInt32) :
    ((List.zipWith (fun peer budget => PeerAllocation.mk peer.1 budget) scored alloc).map
      (fun peer => peer.budget.toNat)).sum ≤ totalOf alloc := by
  induction scored generalizing alloc with
  | nil => exact Nat.zero_le _
  | cons peer scored ih =>
    cases alloc with
    | nil => exact Nat.zero_le _
    | cons x alloc =>
      rw [List.zipWith_cons_cons, List.map_cons, List.sum_cons, totalOf_cons]
      exact Nat.add_le_add_left (ih alloc) _

section Allocation

variable {F D : Type} [FloatLike F] [FloatLike D] [Widen F D]

/-- The first pass over the scored peers can be summed on 32 bits. -/
def FirstPassFits (D : Type) [FloatLike D] [Widen F D] (scored : List (MemberRecord × F))
    (total minPerPeer : UInt32) (maxPeers : Nat) : Prop :=
  totalOf (firstPass (D := D) ((scored.take maxPeers).map Prod.snd) total minPerPeer) < 2 ^ 32

/-- A first pass that can be summed leads to an allocation of at most the total, in every
build. -/
theorem proportionalAllocation_fits (profile : Profile) {scored : List (MemberRecord × F)}
    {total minPerPeer : UInt32} {maxPeers : Nat}
    (fits : FirstPassFits D scored total minPerPeer maxPeers) :
    ∃ allocation, proportionalAllocation D profile scored total minPerPeer maxPeers =
        .ok allocation ∧
      (allocation.map fun peer => peer.budget.toNat).sum ≤ total.toNat := by
  unfold proportionalAllocation
  split
  · exact ⟨[], rfl, Nat.zero_le _⟩
  · have room : (0 : UInt32).toNat + totalOf (firstPass (D := D)
        ((scored.take maxPeers).map Prod.snd) total minPerPeer) < 2 ^ 32 := by
      simpa [FirstPassFits] using fits
    obtain ⟨spent, summed, value⟩ := sumU32_fits profile room
    rw [UInt32.toNat_zero, Nat.zero_add] at value
    obtain ⟨trimmed, spent', cut, value', below, -⟩ :=
      trimDown_keeps profile total minPerPeer (P := fun _ => True)
        (fun _ _ _ _ => trivial) (fun _ _ _ _ => trivial) _ spent value trivial
    have whole := total.toNat_lt
    obtain ⟨_, full, filled, atMost, -⟩ := topUp_keeps profile (P := fun _ _ => True)
      (fun _ _ _ _ _ _ => trivial) trimmed 0 (total.toNat - spent'.toNat) (by omega) trivial
    simp only [summed, cut, filled, bind, Except.bind]
    exact ⟨_, rfl, (sum_zipWith_le _ _).trans (by omega)⟩

/-- A first pass that can be summed leads to an allocation, and a release build needs none. -/
theorem proportionalAllocation_ok (profile : Profile) {scored : List (MemberRecord × F)}
    {total minPerPeer : UInt32} {maxPeers : Nat}
    (fits : profile = .dev → FirstPassFits D scored total minPerPeer maxPeers) :
    ∃ allocation, proportionalAllocation D profile scored total minPerPeer maxPeers =
      .ok allocation := by
  cases profile with
  | dev =>
    obtain ⟨allocation, computed, -⟩ := proportionalAllocation_fits .dev (fits rfl)
    exact ⟨allocation, computed⟩
  | release =>
    unfold proportionalAllocation
    split
    · exact ⟨[], rfl⟩
    · obtain ⟨spent, summed⟩ := sumU32_release 0
        (firstPass (D := D) ((scored.take maxPeers).map Prod.snd) total minPerPeer)
      obtain ⟨⟨trimmed, spent'⟩, cut⟩ := trimDown_release total minPerPeer
        (firstPass (D := D) ((scored.take maxPeers).map Prod.snd) total minPerPeer) spent
      obtain ⟨full, filled⟩ := topUp_release trimmed 0 (total.toNat - spent'.toNat)
      simp only [summed, cut, filled, bind, Except.bind]
      exact ⟨_, rfl⟩

/-- The first pass of no peers, or of a zero total over few peers, can be summed; otherwise a
development build panics where it cannot be. -/
theorem proportionalAllocation_panics {scored : List (MemberRecord × F)}
    {total minPerPeer : UInt32} {maxPeers : Nat}
    (guarded : ¬ (scored = [] ∨ total = 0 ∨ maxPeers = 0))
    (beyond : ¬ FirstPassFits D scored total minPerPeer maxPeers) :
    proportionalAllocation D .dev scored total minPerPeer maxPeers = .error .panic := by
  have exceeds : 2 ^ 32 ≤ (0 : UInt32).toNat + totalOf (firstPass (D := D)
      ((scored.take maxPeers).map Prod.snd) total minPerPeer) := by
    simpa [FirstPassFits] using beyond
  have panics := sumU32_panics exceeds
  rw [proportionalAllocation, if_neg guarded]
  simp only [panics, bind, Except.bind]

end Allocation

end Hansa
