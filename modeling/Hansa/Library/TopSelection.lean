import Mathlib.Data.List.Sort

/-!
# The greatest elements of a pool

A selection of a pool is a first part of the pool in some descending arrangement. Elements
with one key may be arranged in any order, so a pool has several selections of one length; they
have the same keys in the same order, the same elements above the least key that was selected,
and the same elements altogether when nothing was cut.
-/

variable {α κ : Type*} [LinearOrder κ] {key : α → κ} {n : Nat} {pool out out' : List α}

/-- The elements are in descending order of their keys. -/
abbrev Descending (key : α → κ) (xs : List α) : Prop := xs.Pairwise (fun a b => key b ≤ key a)

/-- The first elements of a descending arrangement of the pool. -/
def Selects (key : α → κ) (n : Nat) (pool out : List α) : Prop :=
  ∃ all, all.Perm pool ∧ Descending key all ∧ out = all.take n

/-- Two lists differ in the arrangement of elements with one key alone, and in the choice of
those with the least key where they were cut. -/
structure SameUpToTies (key : α → κ) (n : Nat) (out out' : List α) : Prop where
  /-- The keys are the same. -/
  keys : out.map key = out'.map key
  /-- Above the least key the elements are the same. -/
  above : ∀ k, (∃ a ∈ out, key a < k) →
    (out.filter (fun a => key a = k)).Perm (out'.filter (fun a => key a = k))
  /-- Where nothing was cut, all elements are the same. -/
  uncut : out.length < n → out.Perm out'

namespace Selects

/-- What is selected is in the pool. -/
theorem subset (selects : Selects key n pool out) : out ⊆ pool := by
  obtain ⟨all, arranged, -, rfl⟩ := selects
  exact fun a selected => arranged.subset (List.mem_of_mem_take selected)

/-- Two descending arrangements of one pool have the same keys. -/
theorem map_key_eq {all all' : List α} (moved : all.Perm all') (descends : Descending key all)
    (descends' : Descending key all') : all.map key = all'.map key := by
  refine (moved.map key).eq_of_pairwise (fun a b _ _ below above => le_antisymm above below)
    (List.pairwise_map.mpr descends) (List.pairwise_map.mpr descends')

/-- All elements of the pool above a selected one are selected. -/
theorem filter_perm (selects : Selects key n pool out) {k : κ} (above : ∃ a ∈ out, key a < k) :
    (out.filter (fun a => key a = k)).Perm (pool.filter (fun a => key a = k)) := by
  obtain ⟨all, arranged, descends, rfl⟩ := selects
  obtain ⟨a, selected, below⟩ := above
  have rest : (all.drop n).filter (fun a => key a = k) = [] := by
    refine List.filter_eq_nil_iff.mpr fun b dropped same => ?_
    rw [← List.take_append_drop n all] at descends
    have atMost := (List.pairwise_append.mp descends).2.2 a selected b dropped
    rw [decide_eq_true_eq] at same
    exact absurd (same ▸ atMost) below.not_ge
  have whole := congrArg (List.filter (fun a => decide (key a = k))) (List.take_append_drop n all)
  rw [List.filter_append, rest, List.append_nil] at whole
  rw [whole]
  exact arranged.filter _

/-- Two selections of one pool are the same up to ties. -/
theorem sameUpToTies (first : Selects key n pool out) (second : Selects key n pool out') :
    SameUpToTies key n out out' := by
  have keys : out.map key = out'.map key := by
    obtain ⟨all, arranged, descends, rfl⟩ := first
    obtain ⟨all', arranged', descends', rfl⟩ := second
    rw [List.map_take, List.map_take,
      map_key_eq (arranged.trans arranged'.symm) descends descends']
  refine ⟨keys, fun k above => ?_, fun uncut => ?_⟩
  · have above' : ∃ a ∈ out', key a < k := by
      obtain ⟨a, selected, below⟩ := above
      have inside := List.mem_map_of_mem (f := key) selected
      rw [keys] at inside
      obtain ⟨b, selected', same⟩ := List.mem_map.mp inside
      exact ⟨b, selected', same ▸ below⟩
    exact (first.filter_perm above).trans (second.filter_perm above').symm
  · obtain ⟨all, arranged, -, rfl⟩ := first
    obtain ⟨all', arranged', -, rfl⟩ := second
    have short : all.length ≤ n := by
      rw [List.length_take] at uncut
      omega
    have short' : all'.length ≤ n := by
      rwa [arranged'.length_eq, ← arranged.length_eq]
    rw [List.take_of_length_le short, List.take_of_length_le short']
    exact arranged.trans arranged'.symm

end Selects
