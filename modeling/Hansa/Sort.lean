import Hansa.Error
import Mathlib.Data.List.Sort

/-!
# Sorting with a comparator

`slice::sort_by` sorts stably when its comparator is a total preorder on the elements. When
it is not, the order of the result is unspecified and the call may panic; `StdSort` is any
implementation of that contract.
-/

namespace Hansa

variable {α : Type}

/-- A comparator that orders the elements of a list consistently. -/
structure TotalPreorderOn (cmp : α → α → Ordering) (xs : List α) : Prop where
  /-- Swapping the arguments swaps the outcome. -/
  swap : ∀ a ∈ xs, ∀ b ∈ xs, cmp a b = (cmp b a).swap
  /-- What is not above something not above a third is not above the third. -/
  trans : ∀ a ∈ xs, ∀ b ∈ xs, ∀ c ∈ xs, cmp a b ≠ .gt → cmp b c ≠ .gt → cmp a c ≠ .gt

instance (cmp : α → α → Ordering) (xs : List α) : Decidable (TotalPreorderOn cmp xs) :=
  decidable_of_iff ((∀ a ∈ xs, ∀ b ∈ xs, cmp a b = (cmp b a).swap) ∧
      ∀ a ∈ xs, ∀ b ∈ xs, ∀ c ∈ xs, cmp a b ≠ .gt → cmp b c ≠ .gt → cmp a c ≠ .gt)
    ⟨fun both => ⟨both.1, both.2⟩, fun order => ⟨order.swap, order.trans⟩⟩

/-- The stable sort by a comparator. -/
def sortStably (cmp : α → α → Ordering) (xs : List α) : List α :=
  xs.mergeSort (fun a b => cmp a b != .gt)

/-- The stable sort reorders the elements. -/
theorem sortStably_perm (cmp : α → α → Ordering) (xs : List α) : (sortStably cmp xs).Perm xs :=
  List.mergeSort_perm _ _

/-- The order that a comparator is on the elements of a list. -/
def belowIn (cmp : α → α → Ordering) (xs : List α) (a b : {x // x ∈ xs}) : Bool :=
  cmp a.1 b.1 != .gt

/-- Sorting the elements with their membership sorts the list. -/
theorem map_mergeSort_belowIn (cmp : α → α → Ordering) (xs : List α) :
    (xs.attach.mergeSort (belowIn cmp xs)).map Subtype.val = sortStably cmp xs := by
  rw [List.map_mergeSort (r := belowIn cmp xs) (s := fun a b => cmp a b != .gt)
    (fun _ _ _ _ => rfl), List.attach_map_subtype_val, sortStably]

section

variable {cmp : α → α → Ordering} {xs : List α}

/-- The order of a consistent comparator is transitive. -/
theorem TotalPreorderOn.belowIn_trans (order : TotalPreorderOn cmp xs) (a b c : {x // x ∈ xs})
    (first : belowIn cmp xs a b = true) (next : belowIn cmp xs b c = true) :
    belowIn cmp xs a c = true := by
  simp only [belowIn, bne_iff_ne] at first next ⊢
  exact order.trans a.1 a.2 b.1 b.2 c.1 c.2 first next

/-- The order of a consistent comparator is total. -/
theorem TotalPreorderOn.belowIn_total (order : TotalPreorderOn cmp xs) (a b : {x // x ∈ xs}) :
    (belowIn cmp xs a b || belowIn cmp xs b a) = true := by
  simp only [belowIn, Bool.or_eq_true, bne_iff_ne]
  rw [order.swap b.1 b.2 a.1 a.2]
  cases cmp a.1 b.1 <;> decide

/-- The stable sort by a consistent comparator leaves no element above a later one. -/
theorem sortStably_pairwise (order : TotalPreorderOn cmp xs) :
    (sortStably cmp xs).Pairwise (fun a b => cmp a b ≠ .gt) := by
  have sorted := List.pairwise_mergeSort order.belowIn_trans order.belowIn_total xs.attach
  rw [← map_mergeSort_belowIn, List.pairwise_map]
  exact sorted.imp (fun {a b} held => bne_iff_ne.mp held)

/-- The stable sort by a consistent comparator keeps the order of elements that are level. -/
theorem sortStably_filter (order : TotalPreorderOn cmp xs) {p : α → Bool}
    (level : ∀ a ∈ xs, ∀ b ∈ xs, p a = true → p b = true → cmp a b ≠ .gt) :
    (sortStably cmp xs).filter p = xs.filter p := by
  -- The level elements are sorted as they stand, so the sort leaves them as a sublist.
  have inOrder : (xs.attach.filter fun a => p a.1).Pairwise
      (fun a b => belowIn cmp xs a b = true) := by
    apply List.pairwise_of_forall_mem_list
    intro a inA b inB
    have isA := (List.mem_filter.mp inA).2
    have isB := (List.mem_filter.mp inB).2
    exact bne_iff_ne.mpr (level a.1 a.2 b.1 b.2 isA isB)
  have part := List.sublist_mergeSort order.belowIn_trans order.belowIn_total inOrder
    List.filter_sublist
  have levels : (xs.attach.filter fun a => p a.1).map Subtype.val = xs.filter p := by
    have pulled := List.filter_map (f := Subtype.val) (p := p) (l := xs.attach)
    rw [List.attach_map_subtype_val] at pulled
    exact pulled.symm
  have moved := (part.map Subtype.val).filter p
  rw [levels, map_mergeSort_belowIn, List.filter_filter] at moved
  simp only [Bool.and_self] at moved
  have count := ((sortStably_perm cmp xs).filter p).length_eq
  exact (moved.eq_of_length count.symm).symm

end

/-- Keys of a linear order compare consistently. -/
theorem totalPreorderOn_compare {κ : Type} [LinearOrder κ] (key : α → κ) (xs : List α) :
    TotalPreorderOn (fun a b => compare (key a) (key b)) xs where
  swap _ _ _ _ := Std.OrientedCmp.eq_swap
  trans _ _ _ _ _ _ first next := by
    rw [compare_le_iff_le] at first next ⊢
    exact first.trans next

/-- `sort_by`: any implementation of its contract. -/
structure StdSort where
  /-- The call. -/
  sortBy : {α : Type} → (α → α → Ordering) → List α → Result (List α)
  /-- With a total preorder, the stable sort is returned. -/
  stable : ∀ {α : Type} (cmp : α → α → Ordering) (xs : List α), TotalPreorderOn cmp xs →
    sortBy cmp xs = .ok (sortStably cmp xs)
  /-- Otherwise the elements are reordered somehow, or the call panics. -/
  unspecified : ∀ {α : Type} (cmp : α → α → Ordering) (xs : List α),
    sortBy cmp xs = .error .panic ∨ ∃ ys, sortBy cmp xs = .ok ys ∧ ys.Perm xs

namespace StdSort

/-- What a sort returns is what it was given, in some order. -/
theorem perm_of_sortBy {sort : StdSort} {cmp : α → α → Ordering}
    {xs ys : List α} (sorted : sort.sortBy cmp xs = .ok ys) : ys.Perm xs := by
  rcases sort.unspecified cmp xs with panics | ⟨zs, returned, moved⟩
  · cases panics.symm.trans sorted
  · obtain rfl := Except.ok.inj (returned.symm.trans sorted)
    exact moved

/-- The implementation that never panics. -/
def lenient : StdSort where
  sortBy cmp xs := .ok (sortStably cmp xs)
  stable _ _ _ := rfl
  unspecified _ _ := .inr ⟨_, rfl, List.mergeSort_perm ..⟩

/-- The implementation that panics whenever it may. -/
def strict : StdSort where
  sortBy cmp xs := if TotalPreorderOn cmp xs then .ok (sortStably cmp xs) else .error .panic
  stable _ _ order := if_pos order
  unspecified cmp xs := by
    split
    · exact .inr ⟨_, rfl, List.mergeSort_perm ..⟩
    · exact .inl rfl

/-- The implementation that panics whenever it may panics on everything else. -/
theorem strict_panics {cmp : α → α → Ordering} {xs : List α} (mixed : ¬ TotalPreorderOn cmp xs) :
    strict.sortBy cmp xs = .error .panic := if_neg mixed

/-- The implementation that panics whenever it may returns on total preorders only. -/
theorem strict_returns {cmp : α → α → Ordering} {xs ys : List α}
    (sorted : strict.sortBy cmp xs = .ok ys) : TotalPreorderOn cmp xs := by
  by_contra none_
  rw [strict_panics none_] at sorted
  cases sorted

end StdSort

end Hansa
