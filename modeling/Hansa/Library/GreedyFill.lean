import Mathlib.Data.List.Induction

/-!
# Filling up to a limit

A greedy filling goes through a list and takes every element that keeps what it has taken
within a limit. It takes a prefix, the longest one within the limit, exactly when no element
behind the first that does not fit would fit there.
-/

variable {α : Type*}

/-- The greedy filling, from what is taken already. -/
def fill (within : List α → Prop) [DecidablePred within] (taken : List α) : List α → List α
  | [] => taken
  | x :: xs => if within (taken ++ [x]) then fill within (taken ++ [x]) xs else fill within taken xs

/-- The longest prefix of a list that is within a limit. -/
structure IsLongestPrefix (within : List α → Prop) (xs out : List α) : Prop where
  /-- It is a prefix. -/
  isPrefix : out <+: xs
  /-- It is within the limit. -/
  inside : within out
  /-- No prefix within the limit is longer. -/
  longest : ∀ p, p <+: xs → within p → p.length ≤ out.length

/-- No element behind the first that does not fit would fit there. -/
def StopsAtFirst (within : List α → Prop) (xs : List α) : Prop :=
  ∀ before x behind, xs = before ++ x :: behind → within before → ¬ within (before ++ [x]) →
    ∀ y ∈ behind, ¬ within (before ++ [y])

section

variable {within : List α → Prop}

/-- A limit that holds for a list holds for its prefixes. -/
theorem within_of_append (closed : ∀ xs x, within (xs ++ [x]) → within xs) {xs : List α} :
    ∀ ys, within (xs ++ ys) → within xs := by
  intro ys
  induction ys using List.reverseRecOn with
  | nil =>
    intro whole
    rwa [List.append_nil] at whole
  | append_singleton ys y ih =>
    intro whole
    rw [← List.append_assoc] at whole
    exact ih (closed _ y whole)

variable [DecidablePred within]

/-- What is taken stays within the limit. -/
theorem within_fill {taken : List α} (inside : within taken) (xs : List α) :
    within (fill within taken xs) := by
  induction xs generalizing taken with
  | nil => exact inside
  | cons x xs ih =>
    unfold fill
    split
    · next fits => exact ih fits
    · exact ih inside

variable (within) in
/-- The filling adds elements of the list, in their order. -/
theorem exists_fill_eq (taken xs : List α) :
    ∃ added, added.Sublist xs ∧ fill within taken xs = taken ++ added := by
  induction xs generalizing taken with
  | nil => exact ⟨[], .slnil, (List.append_nil _).symm⟩
  | cons x xs ih =>
    unfold fill
    split
    · obtain ⟨added, part, whole⟩ := ih (taken ++ [x])
      exact ⟨x :: added, part.cons_cons x, by rw [whole, List.append_assoc]; rfl⟩
    · obtain ⟨added, part, whole⟩ := ih taken
      exact ⟨added, part.cons x, whole⟩

/-- The filling of an empty start takes elements of the list, in their order. -/
theorem fill_sublist (xs : List α) : (fill within [] xs).Sublist xs := by
  obtain ⟨added, part, whole⟩ := exists_fill_eq within [] xs
  rw [whole, List.nil_append]
  exact part

/-- A part that is within the limit is taken as it is. -/
theorem fill_append (closed : ∀ xs x, within (xs ++ [x]) → within xs) (taken front : List α)
    (inside : within (taken ++ front)) (rest : List α) :
    fill within taken (front ++ rest) = fill within (taken ++ front) rest := by
  induction front generalizing taken with
  | nil => rw [List.nil_append, List.append_nil]
  | cons x front ih =>
    have shape : taken ++ x :: front = (taken ++ [x]) ++ front := by simp
    have fits : within (taken ++ [x]) := within_of_append closed front (shape ▸ inside)
    rw [List.cons_append, fill, if_pos fits, ih _ (shape ▸ inside), ← shape]

/-- Where nothing fits, nothing is taken. -/
theorem fill_eq_self {taken xs : List α} (none_ : ∀ y ∈ xs, ¬ within (taken ++ [y])) :
    fill within taken xs = taken := by
  induction xs with
  | nil => rfl
  | cons x xs ih =>
    rw [fill, if_neg (none_ x List.mem_cons_self)]
    exact ih fun y member => none_ y (List.mem_cons_of_mem _ member)

/-- Where something fits, something is taken. -/
theorem fill_ne_self {taken xs : List α} {y : α} (member : y ∈ xs)
    (fits : within (taken ++ [y])) : ∃ z added, fill within taken xs = taken ++ z :: added := by
  induction xs with
  | nil => cases member
  | cons x xs ih =>
    unfold fill
    split
    · obtain ⟨added, _, whole⟩ := exists_fill_eq within (taken ++ [x]) xs
      exact ⟨x, added, by rw [whole, List.append_assoc]; rfl⟩
    · next overflows =>
      rcases List.mem_cons.mp member with rfl | later
      · exact absurd fits overflows
      · exact ih later

/-- A list is within the limit, or it overflows at an element. -/
theorem within_or_overflows (start : within []) (xs : List α) :
    within xs ∨ ∃ before x behind, xs = before ++ x :: behind ∧ within before ∧
      ¬ within (before ++ [x]) := by
  induction xs using List.reverseRecOn with
  | nil => exact .inl start
  | append_singleton xs x ih =>
    rcases ih with inside | ⟨before, y, behind, rfl, fits, overflows⟩
    · by_cases whole : within (xs ++ [x])
      · exact .inl whole
      · exact .inr ⟨xs, x, [], rfl, inside, whole⟩
    · exact .inr ⟨before, y, behind ++ [x], by simp, fits, overflows⟩

/-- What does not fit is passed over, so the filling takes the longest prefix exactly when
nothing behind the first that does not fit would fit there. -/
theorem fill_isLongestPrefix_iff (closed : ∀ xs x, within (xs ++ [x]) → within xs)
    (start : within []) {xs : List α} :
    IsLongestPrefix within xs (fill within [] xs) ↔ StopsAtFirst within xs := by
  -- Behind the first that does not fit the filling goes on from what it has.
  have goesOn : ∀ before x behind, within before → ¬ within (before ++ [x]) →
      fill within [] (before ++ x :: behind) = fill within before behind := by
    intro before x behind fits overflows
    rw [fill_append closed [] before (by simpa using fits), List.nil_append, fill, if_neg overflows]
  constructor
  · rintro longest before x behind rfl fits overflows y member again
    rw [goesOn before x behind fits overflows] at longest
    obtain ⟨z, added, whole⟩ := fill_ne_self member again
    rw [whole] at longest
    have aligned := (List.prefix_append_right_inj before).mp longest.isPrefix
    obtain ⟨rfl, _⟩ := List.cons_prefix_cons.mp aligned
    have inside := longest.inside
    have shape : before ++ z :: added = (before ++ [z]) ++ added := by simp
    rw [shape] at inside
    exact overflows (within_of_append closed added inside)
  · intro stops
    rcases within_or_overflows start xs with inside | ⟨before, x, behind, rfl, fits, overflows⟩
    · have all : fill within [] xs = xs := by
        have whole := fill_append closed [] xs inside []
        rwa [List.append_nil, List.nil_append] at whole
      rw [all]
      exact ⟨List.prefix_refl xs, inside, fun p isPrefix _ => isPrefix.length_le⟩
    · have front : fill within [] (before ++ x :: behind) = before := by
        rw [goesOn before x behind fits overflows]
        exact fill_eq_self (stops before x behind rfl fits overflows)
      rw [front]
      refine ⟨List.prefix_append .., fits, ?_⟩
      intro p isPrefix inside
      by_contra longer
      have reach : before ++ [x] <+: p := by
        apply List.prefix_of_prefix_length_le _ isPrefix
        · simp only [List.length_append, List.length_singleton]
          omega
        · exact ⟨behind, by simp⟩
      obtain ⟨rest, rfl⟩ := reach
      exact overflows (within_of_append closed rest inside)

end
