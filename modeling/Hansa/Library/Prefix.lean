import Mathlib.Data.List.Basic

/-!
# Parts of lists

A loop that stops at the first element that fails a predicate treats the elements that satisfy
it exactly when these come first. `HeldFirst` is that condition; under it the loop's prefix
and suffix are the two filters, and without it the prefix is strictly shorter.
-/

namespace List

variable {α : Type*}

/-- The elements that satisfy `p` come first. -/
def HeldFirst (p : α → Bool) (l : List α) : Prop := l.Pairwise (fun a b => p b → p a)

/-- An element that fails a predicate held first is followed by failures only. -/
theorem HeldFirst.not_of_mem {p : α → Bool} {a : α} {l : List α} (first : HeldFirst p (a :: l))
    (fails : ¬ p a) : ∀ b ∈ l, ¬ p b :=
  fun b member holds => fails ((List.pairwise_cons.mp first).1 b member holds)

/-- The longest prefix that satisfies `p` is all that satisfies it, if and only if that comes
first. -/
theorem takeWhile_eq_filter_iff (p : α → Bool) (l : List α) :
    l.takeWhile p = l.filter p ↔ HeldFirst p l := by
  induction l with
  | nil => exact ⟨fun _ => List.Pairwise.nil, fun _ => rfl⟩
  | cons a l ih =>
    unfold HeldFirst at ih ⊢
    rw [List.pairwise_cons]
    by_cases holds : p a
    · rw [List.takeWhile_cons_of_pos holds, List.filter_cons_of_pos holds, List.cons.injEq, ih]
      simp [holds]
    · rw [List.takeWhile_cons_of_neg holds, List.filter_cons_of_neg holds, eq_comm,
        List.filter_eq_nil_iff]
      constructor
      · intro none_
        refine ⟨fun b member holds => absurd holds (none_ b member), ?_⟩
        exact List.pairwise_of_forall_mem_list
          (fun a _ b member holds => absurd holds (none_ b member))
      · exact fun first b member holds' => holds (first.1 b member holds')

/-- The lengths already tell whether the prefix is everything. -/
theorem length_takeWhile_eq_iff (p : α → Bool) (l : List α) :
    (l.takeWhile p).length = (l.filter p).length ↔ HeldFirst p l := by
  rw [← takeWhile_eq_filter_iff]
  constructor
  · intro same
    have inside : (l.takeWhile p).Sublist (l.filter p) := by
      have kept := (List.takeWhile_sublist p (l := l)).filter p
      rwa [List.filter_eq_self.mpr (List.all_eq_true.mp List.all_takeWhile)] at kept
    exact inside.eq_of_length same
  · exact fun same => congrArg length same

/-- What is left after a prefix held first is everything that fails. -/
theorem HeldFirst.dropWhile_eq {p : α → Bool} {l : List α} (first : HeldFirst p l) :
    l.dropWhile p = l.filter (fun a => !p a) := by
  induction l with
  | nil => rfl
  | cons a l ih =>
    by_cases holds : p a
    · rw [List.dropWhile_cons_of_pos holds, List.filter_cons_of_neg (by simp [holds])]
      exact ih (List.pairwise_cons.mp first).2
    · rw [List.dropWhile_cons_of_neg holds, eq_comm, List.filter_eq_self]
      intro b member
      rcases List.mem_cons.mp member with rfl | later
      · simpa using holds
      · simpa using first.not_of_mem holds b later

/-- In a list that a sublist with an entry comes from, what follows the entry comes after its
first occurrence. -/
theorem Sublist.split_first {x y w : List α} {r : α} (part : (x ++ r :: y).Sublist w) :
    ∃ before after, w = before ++ r :: after ∧ r ∉ before ∧ y.Sublist after := by
  have tail : (r :: y).Sublist w := (List.sublist_append_right x _).trans part
  clear part
  induction w with
  | nil => cases tail
  | cons a w ih =>
    by_cases same : a = r
    · subst same
      exact ⟨[], w, rfl, List.not_mem_nil, List.cons_sublist_cons.mp tail⟩
    · have rest : (r :: y).Sublist w := by
        cases tail with
        | cons _ rest => exact rest
        | cons_cons _ _ => exact absurd rfl same
      obtain ⟨before, after, rfl, fresh, inside⟩ := ih rest
      refine ⟨a :: before, after, rfl, ?_, inside⟩
      rw [List.mem_cons, not_or]
      exact ⟨Ne.symm same, fresh⟩

end List
