import Mathlib.Algebra.BigOperators.Fin
import Mathlib.Algebra.Order.Field.Basic
import Mathlib.Algebra.Order.Field.Rat
import Mathlib.Data.Fin.Tuple.Basic
import Mathlib.Data.Fintype.BigOperators
import Mathlib.Data.Fintype.Fin
import Mathlib.Data.List.Nodup
import Mathlib.Tactic.Ring

/-!
# Reservoir sampling

A stream is sampled in one pass. The first elements fill the sample. For each later one a place
is drawn among all elements so far, and the element takes that place if the sample has it. The
positions that are kept are different, and counted over all choices each position of the stream
is kept equally often.
-/

namespace Reservoir

/-- One choice for each position of a stream, among the positions up to it. -/
abbrev Choices (n : ℕ) := (i : Fin n) → Fin (i + 1)

/-- The choices before the last. -/
def Choices.earlier {n : ℕ} (c : Choices (n + 1)) : Choices n := fun i => c i.castSucc

/-- The last choice. -/
def Choices.latest {n : ℕ} (c : Choices (n + 1)) : Fin (n + 1) := c (Fin.last n)

/-- Choices are a last choice and those before it. -/
def Choices.split (n : ℕ) : Choices (n + 1) ≃ Fin (n + 1) × Choices n :=
  (Fin.snocEquiv fun i : Fin (n + 1) => Fin (i + 1)).symm

/-- One more element, with the place that was drawn for it. -/
def keep {α : Type*} (target : ℕ) (sample : List α) (place : ℕ) (x : α) : List α :=
  if sample.length < target then sample ++ [x]
  else if place < target then sample.set place x else sample

/-- The positions of a stream that are kept. -/
def kept (target : ℕ) : (n : ℕ) → Choices n → List ℕ
  | 0, _ => []
  | n + 1, c => keep target (kept target n c.earlier) c.latest n

variable {α β : Type*} {target n p : ℕ} {sample : List α} {place : ℕ} {x : α}

/-! ## One element -/

/-- What is kept does not depend on what the elements are. -/
theorem map_keep (f : α → β) :
    (keep target sample place x).map f = keep target (sample.map f) place (f x) := by
  rw [keep, keep, List.length_map]
  split
  · rw [List.map_append, List.map_singleton]
  · split
    · rw [List.map_set]
    · rfl

/-- The sample grows until it is full. -/
theorem length_keep (fits : sample.length ≤ target) :
    (keep target sample place x).length = min (sample.length + 1) target := by
  unfold keep
  split
  · rw [List.length_append, List.length_singleton]
    omega
  · split
    · rw [List.length_set]
      omega
    · omega

/-- What is kept was kept before, or is the new element. -/
theorem mem_of_mem_keep {y : α} (member : y ∈ keep target sample place x) :
    y ∈ sample ∨ y = x := by
  unfold keep at member
  split at member
  · simpa using member
  · split at member
    · exact List.mem_or_eq_of_mem_set member
    · exact .inl member

/-- A new element keeps the sample without repetition. -/
theorem nodup_keep (distinct : sample.Nodup) (fresh : x ∉ sample) :
    (keep target sample place x).Nodup := by
  unfold keep
  split
  · exact List.nodup_append.mpr ⟨distinct, List.nodup_singleton x, by
      rintro y inside _ last rfl
      exact fresh (List.mem_singleton.mp last ▸ inside)⟩
  · split
    · exact distinct.set fresh
    · exact distinct

/-- An element that is not new stays in a full sample unless its own place was drawn. -/
theorem mem_keep_iff [DecidableEq α] (full : sample.length = target) (distinct : sample.Nodup)
    {y : α} (old : y ≠ x) :
    y ∈ keep target sample place x ↔ y ∈ sample ∧ place ≠ sample.idxOf y := by
  rw [keep, if_neg (by omega)]
  split
  · constructor
    · intro member
      obtain ⟨i, bound, same⟩ := List.mem_iff_getElem.mp member
      rw [List.length_set] at bound
      rw [List.getElem_set] at same
      split at same
      · exact absurd same.symm old
      · rename_i apart
        rw [← same, distinct.idxOf_getElem]
        exact ⟨List.getElem_mem bound, apart⟩
    · rintro ⟨inside, apart⟩
      have bound := List.idxOf_lt_length_of_mem inside
      refine List.mem_iff_getElem.mpr ⟨sample.idxOf y, by rwa [List.length_set], ?_⟩
      rw [List.getElem_set_ne apart, List.getElem_idxOf bound]
  · rename_i outside
    refine ⟨fun member => ⟨member, ?_⟩, And.left⟩
    have := List.idxOf_lt_length_of_mem member
    omega

/-- The new element is kept by a full sample exactly when a place of it was drawn. -/
theorem new_mem_keep_iff (full : sample.length = target) (fresh : x ∉ sample) :
    x ∈ keep target sample place x ↔ place < target := by
  rw [keep, if_neg (by omega)]
  split
  · rename_i inside
    exact iff_of_true (List.mem_set (by omega) x) inside
  · rename_i outside
    exact iff_of_false fresh outside

/-! ## The positions that are kept -/

variable (target n) (c : Choices n)

/-- The sample has as many positions as it can. -/
theorem length_kept : (kept target n c).length = min n target := by
  induction n with
  | zero => exact (Nat.zero_min target).symm
  | succ n ih =>
    have before := ih c.earlier
    rw [kept, length_keep (by omega), before]
    omega

/-- Only positions of the stream are kept. -/
theorem lt_of_mem_kept : ∀ p ∈ kept target n c, p < n := by
  induction n with
  | zero => exact fun _ absent => nomatch absent
  | succ n ih =>
    intro p member
    rcases mem_of_mem_keep member with before | rfl
    · exact Nat.lt_succ_of_lt (ih c.earlier p before)
    · exact Nat.lt_succ_self p

/-- The position that comes next is not kept yet. -/
theorem notMem_kept : n ∉ kept target n c := fun member =>
  Nat.lt_irrefl n (lt_of_mem_kept target n c n member)

/-- No position is kept twice. -/
theorem nodup_kept : (kept target n c).Nodup := by
  induction n with
  | zero => exact List.nodup_nil
  | succ n ih => exact nodup_keep (ih c.earlier) (notMem_kept target n c.earlier)

variable {n}

/-- A sample that has room keeps every position. -/
theorem mem_kept_of_le (room : n ≤ target) (inside : p < n) : p ∈ kept target n c := by
  have some_ : kept target n c ⊆ List.range n := fun p member =>
    List.mem_range.mpr (lt_of_mem_kept target n c p member)
  have all : (kept target n c).Perm (List.range n) := by
    apply ((nodup_kept target n c).subperm some_).perm_of_length_le
    rw [length_kept, List.length_range, Nat.min_eq_left room]
  exact all.mem_iff.mpr (List.mem_range.mpr inside)

/-! ## Counting choices -/

/-- Choices are counted by their last one, for each of those before it. -/
theorem card_filter_split (P : Choices (n + 1) → Prop) [DecidablePred P] :
    (Finset.univ.filter P).card = ∑ c : Choices n,
      (Finset.univ.filter fun j : Fin (n + 1) => P ((Choices.split n).symm (j, c))).card := by
  simp_rw [Finset.card_filter]
  rw [← (Choices.split n).symm.sum_comp, Fintype.sum_prod_type_right]

/-- The number of choices. -/
theorem card_choices (n : ℕ) :
    Fintype.card (Choices (n + 1)) = (n + 1) * Fintype.card (Choices n) := by
  rw [Fintype.card_congr (Choices.split n), Fintype.card_prod, Fintype.card_fin]

/-- The positions kept with one more choice. -/
theorem kept_split (j : Fin (n + 1)) :
    kept target (n + 1) ((Choices.split n).symm (j, c)) = keep target (kept target n c) j n := by
  have parts := (Choices.split n).apply_symm_apply (j, c)
  have latest : ((Choices.split n).symm (j, c)).latest = j := congrArg Prod.fst parts
  have earlier : ((Choices.split n).symm (j, c)).earlier = c := congrArg Prod.snd parts
  rw [kept, latest, earlier]

/-- The choices that keep a position. -/
def keeping (target p n : ℕ) : Finset (Choices n) :=
  Finset.univ.filter fun c => p ∈ kept target n c

/-- Each choice that kept an old position keeps it, but for one last choice. -/
theorem card_keeping_succ (full : target ≤ n) (old : p < n) :
    (keeping target p (n + 1)).card = n * (keeping target p n).card := by
  have places : ∀ c : Choices n,
      (Finset.univ.filter fun j : Fin (n + 1) => p ∈ keep target (kept target n c) j n).card =
        if p ∈ kept target n c then n else 0 := by
    intro c
    have length : (kept target n c).length = target := by
      rw [length_kept, Nat.min_eq_right full]
    have stays : ∀ j : Fin (n + 1), p ∈ keep target (kept target n c) j n ↔
        p ∈ kept target n c ∧ (j : ℕ) ≠ (kept target n c).idxOf p := fun j =>
      mem_keep_iff length (nodup_kept target n c) (Nat.ne_of_lt old)
    simp_rw [stays]
    split
    · rename_i member
      have bound := List.idxOf_lt_length_of_mem member
      have single : (Finset.univ.filter fun j : Fin (n + 1) => p ∈ kept target n c ∧
          (j : ℕ) ≠ (kept target n c).idxOf p) =
            Finset.univ.erase ⟨(kept target n c).idxOf p, by omega⟩ := by
        ext j
        simp [member, Fin.ext_iff]
      rw [single, Finset.card_erase_of_mem (Finset.mem_univ _), Finset.card_univ,
        Fintype.card_fin, Nat.add_sub_cancel]
    · rename_i absent
      rw [Finset.filter_false_of_mem (fun j _ both => absent both.1), Finset.card_empty]
  rw [keeping, card_filter_split]
  simp_rw [kept_split, places]
  rw [← Finset.sum_filter, Finset.sum_const, smul_eq_mul, Nat.mul_comm]
  rfl

/-- A new position is kept by as many last choices as the sample has places. -/
theorem card_keeping_last (full : target ≤ n) :
    (keeping target n (n + 1)).card = target * Fintype.card (Choices n) := by
  have places : ∀ c : Choices n,
      (Finset.univ.filter fun j : Fin (n + 1) =>
        n ∈ keep target (kept target n c) j n).card = target := by
    intro c
    have length : (kept target n c).length = target := by
      rw [length_kept, Nat.min_eq_right full]
    have enters : ∀ j : Fin (n + 1), n ∈ keep target (kept target n c) j n ↔ (j : ℕ) < target :=
      fun j => new_mem_keep_iff length (notMem_kept target n c)
    simp_rw [enters]
    rw [Fin.card_filter_val_lt, Nat.min_eq_right (by omega)]
  rw [keeping, card_filter_split]
  simp_rw [kept_split, places]
  rw [Finset.sum_const, Finset.card_univ, smul_eq_mul, Nat.mul_comm]

/-- Once the sample is full, the choices that keep a position are in proportion to its size. -/
theorem card_keeping (full : target ≤ n) (inside : p < n) :
    (keeping target p n).card * n = target * Fintype.card (Choices n) := by
  induction n, full using Nat.le_induction with
  | base =>
    have all : keeping target p target = Finset.univ :=
      Finset.filter_true_of_mem fun c _ => mem_kept_of_le target c (Nat.le_refl _) inside
    rw [all, Finset.card_univ, Nat.mul_comm]
  | succ n full ih =>
    rw [card_choices]
    rcases Nat.lt_succ_iff_lt_or_eq.mp inside with old | rfl
    · calc (keeping target p (n + 1)).card * (n + 1)
          = (keeping target p n).card * n * (n + 1) := by
            rw [card_keeping_succ target full old, Nat.mul_comm n]
        _ = target * ((n + 1) * Fintype.card (Choices n)) := by
            rw [ih old]
            ring
    · rw [card_keeping_last target full]
      ring

/-- Every position is kept by the same fraction of the choices. -/
theorem fraction_keeping (target : ℕ) (inside : p < n) :
    ((keeping target p n).card : ℚ) / Fintype.card (Choices n) = min 1 ((target : ℚ) / n) := by
  have some_ : (0 : ℚ) < Fintype.card (Choices n) := by
    exact_mod_cast Fintype.card_pos
  have positive : (0 : ℚ) < n := by exact_mod_cast Nat.zero_lt_of_lt inside
  rcases Nat.le_total n target with room | full
  · have all : keeping target p n = Finset.univ :=
      Finset.filter_true_of_mem fun c _ => mem_kept_of_le target c room inside
    have more : (1 : ℚ) ≤ target / n := by
      rw [le_div_iff₀ positive, one_mul]
      exact_mod_cast room
    rw [all, Finset.card_univ, div_self some_.ne', min_eq_left more]
  · have less : (target : ℚ) / n ≤ 1 := by
      rw [div_le_one positive]
      exact_mod_cast full
    rw [min_eq_right less, div_eq_div_iff some_.ne' positive.ne']
    exact_mod_cast card_keeping target full inside

end Reservoir
