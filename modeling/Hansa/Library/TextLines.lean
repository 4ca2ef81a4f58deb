import Mathlib.Data.List.Basic

/-!
# Lines of a text

A text is split at the symbol that ends a line; a last line may go without it. A text that is
written line by line is split into these lines, as long as no line contains the symbol. Otherwise
it has more lines than were written.
-/

variable {σ : Type*} [DecidableEq σ]

/-- The lines of a text, without the symbol that ends them. -/
def linesOf (eol : σ) : List σ → List (List σ)
  | [] => []
  | c :: rest =>
    if c = eol then [] :: linesOf eol rest
    else match linesOf eol rest with
      | [] => [[c]]
      | line :: lines => (c :: line) :: lines

/-- Lines written one after another, each with its end. -/
def writeLines (eol : σ) (lines : List (List σ)) : List σ := lines.flatMap (· ++ [eol])

variable {eol : σ}

/-- A written line is the first one of the text. -/
theorem linesOf_line {line : List σ} (plain : eol ∉ line) (rest : List σ) :
    linesOf eol (line ++ eol :: rest) = line :: linesOf eol rest := by
  induction line with
  | nil => rw [List.nil_append, linesOf, if_pos rfl]
  | cons c line ih =>
    rw [List.mem_cons, not_or] at plain
    rw [List.cons_append, linesOf, if_neg (Ne.symm plain.1), ih plain.2]

/-- A text written line by line is split into its lines. -/
theorem linesOf_writeLines {lines : List (List σ)} (plain : ∀ line ∈ lines, eol ∉ line) :
    linesOf eol (writeLines eol lines) = lines := by
  induction lines with
  | nil => rfl
  | cons line lines ih =>
    have first := plain line List.mem_cons_self
    have others := ih fun other member => plain other (List.mem_cons_of_mem _ member)
    rw [writeLines, List.flatMap_cons, List.append_assoc, List.singleton_append,
      linesOf_line first]
    exact congrArg _ others

/-- No line contains the symbol that ends it. -/
theorem not_mem_linesOf (text : List σ) {line : List σ} (member : line ∈ linesOf eol text) :
    eol ∉ line := by
  induction text generalizing line with
  | nil => cases member
  | cons c text ih =>
    rw [linesOf] at member
    by_cases ends : c = eol
    · rw [if_pos ends, List.mem_cons] at member
      rcases member with rfl | later
      · exact List.not_mem_nil
      · exact ih later
    · rw [if_neg ends] at member
      cases split : linesOf eol text with
      | nil =>
        rw [split, List.mem_singleton] at member
        rw [member, List.mem_singleton]
        exact Ne.symm ends
      | cons first lines =>
        rw [split, List.mem_cons] at member
        rw [split] at ih
        rcases member with rfl | later
        · rw [List.mem_cons, not_or]
          exact ⟨Ne.symm ends, ih List.mem_cons_self⟩
        · exact ih (List.mem_cons_of_mem _ later)

/-- A piece with an end has one line more than it has ends within. -/
theorem length_linesOf_append (eol : σ) (piece rest : List σ) :
    (linesOf eol (piece ++ eol :: rest)).length =
      piece.count eol + 1 + (linesOf eol rest).length := by
  induction piece with
  | nil =>
    rw [List.nil_append, linesOf, if_pos rfl, List.length_cons, List.count_nil]
    omega
  | cons c piece ih =>
    rw [List.cons_append, linesOf]
    by_cases ends : c = eol
    · rw [if_pos ends, List.length_cons, ih, ends, List.count_cons_self]
      omega
    · rw [if_neg ends, List.count_cons_of_ne ends]
      cases split : linesOf eol (piece ++ eol :: rest) with
      | nil =>
        rw [split] at ih
        simp only [List.length_nil] at ih
        omega
      | cons line lines =>
        rw [split] at ih
        exact ih

/-- What is written has as many lines as were written only if each was one line. -/
theorem length_linesOf_writeLines {lines : List (List σ)} :
    lines.length ≤ (linesOf eol (writeLines eol lines)).length ∧
      ((linesOf eol (writeLines eol lines)).length = lines.length →
        ∀ line ∈ lines, eol ∉ line) := by
  induction lines with
  | nil => exact ⟨Nat.le_refl _, fun _ _ member => absurd member List.not_mem_nil⟩
  | cons line lines ih =>
    obtain ⟨least, plain⟩ := ih
    have count := length_linesOf_append eol line (writeLines eol lines)
    have written : writeLines eol (line :: lines) = line ++ eol :: writeLines eol lines := by
      rw [writeLines, List.flatMap_cons, List.append_assoc, List.singleton_append]
      rfl
    rw [written, count, List.length_cons]
    refine ⟨by omega, fun same other member => ?_⟩
    have none_ : line.count eol = 0 := by omega
    rcases List.mem_cons.mp member with rfl | later
    · exact List.count_eq_zero.mp none_
    · exact plain (by omega) other later
