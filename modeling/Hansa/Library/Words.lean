import Mathlib.Data.List.DropRight

/-!
# Words of a text

The words of a text are the longest runs of symbols that do not separate. Splitting does not
depend on how many separators stand between two words, or at the ends of the text. Words joined
by one separator are read back, so texts made of joined words are equal when their words are.
-/

namespace Words

variable {α : Type*} (separates : α → Bool)

/-- The words of a text. -/
def wordsOf (text : List α) : List (List α) := (text.splitOnP separates).filter (!·.isEmpty)

/-- No symbol of the text separates. -/
def Unbroken (text : List α) : Prop := ∀ c ∈ text, separates c = false

/-- What is appended to the text starts a word of its own. -/
def Ended (text : List α) : Prop := ∀ c ∈ text.getLast?, separates c = true

variable {separates}

/-- Nothing has no words. -/
theorem wordsOf_nil : wordsOf separates [] = [] := rfl

/-- A text without separators is a word. -/
theorem wordsOf_unbroken {word : List α} (plain : Unbroken separates word) (filled : word ≠ []) :
    wordsOf separates word = [word] := by
  have single : word.splitOnP separates = [word] := List.splitOnP_eq_singleton plain
  rw [wordsOf, single]
  exact List.filter_cons_of_pos (by simpa using filled)

/-- A separator stands between words. -/
theorem wordsOf_append_cons (front back : List α) {c : α} (separator : separates c = true) :
    wordsOf separates (front ++ c :: back) = wordsOf separates front ++ wordsOf separates back := by
  rw [wordsOf, List.splitOnP_append_cons front back separator, List.filter_append]
  rfl

/-- One more separator at the end changes no word. -/
theorem wordsOf_concat (text : List α) {c : α} (separator : separates c = true) :
    wordsOf separates (text ++ [c]) = wordsOf separates text := by
  rw [wordsOf_append_cons text [] separator, wordsOf_nil, List.append_nil]

/-- The words of a closed text are those of the text it is continued to. -/
theorem Ended.wordsOf_append {front : List α} (closed : Ended separates front)
    (back : List α) :
    wordsOf separates (front ++ back) = wordsOf separates front ++ wordsOf separates back := by
  rcases List.eq_nil_or_concat front with rfl | ⟨front, c, rfl⟩
  · rfl
  · have separator : separates c = true := closed c (by simp)
    rw [List.concat_eq_append, List.append_assoc, List.singleton_append,
      wordsOf_append_cons front back separator, wordsOf_concat front separator]

/-- A word is not empty, and none of its symbols separates. -/
theorem of_mem_wordsOf {text word : List α} (member : word ∈ wordsOf separates text) :
    word ≠ [] ∧ Unbroken separates word := by
  obtain ⟨part, filled⟩ := List.mem_filter.mp member
  refine ⟨by simpa using filled, ?_⟩
  clear filled member
  induction text generalizing word with
  | nil =>
    rw [List.splitOnP_nil, List.mem_singleton] at part
    rw [part]
    exact fun _ absent => nomatch absent
  | cons c text ih =>
    rw [List.splitOnP_cons_eq_if_modifyHead] at part
    by_cases separator : separates c = true
    · rw [if_pos separator, List.mem_cons] at part
      rcases part with rfl | later
      · exact fun _ absent => nomatch absent
      · exact ih later
    · obtain ⟨first, rest, parts⟩ :=
        List.exists_cons_of_ne_nil (List.splitOnP_ne_nil separates text)
      rw [if_neg separator, parts, List.modifyHead_cons, List.mem_cons] at part
      rcases part with rfl | later
      · have inside : first ∈ text.splitOnP separates := by simp [parts]
        have plain := ih inside
        exact List.forall_mem_cons.mpr ⟨by simpa using separator, plain⟩
      · exact ih (by simp [parts, later])

/-! ## Words joined again -/

/-- The last of the joined words comes behind words that each have a separator behind them. -/
theorem intercalate_concat (space : α) (words : List (List α)) (last : List α) :
    [space].intercalate (words ++ [last]) = words.flatMap (· ++ [space]) ++ last := by
  induction words with
  | nil => simp
  | cons word words ih =>
    rw [List.cons_append, List.intercalate_cons_of_ne_nil (by simp), ih, List.flatMap_cons,
      List.append_assoc, List.append_assoc, List.append_assoc]

/-- Words without the separator that joins them are determined by the joined text. -/
theorem intercalate_inj [BEq α] [LawfulBEq α] {space : α} {words words' : List (List α)}
    (filled : ∀ word ∈ words, word ≠ []) (filled' : ∀ word ∈ words', word ≠ [])
    (plain : ∀ word ∈ words, space ∉ word) (plain' : ∀ word ∈ words', space ∉ word) :
    [space].intercalate words = [space].intercalate words' ↔ words = words' := by
  have nonempty : ∀ {words : List (List α)}, (∀ word ∈ words, word ≠ []) → words ≠ [] →
      [space].intercalate words ≠ [] := by
    intro words filled some_ empty
    obtain ⟨front, last, rfl⟩ := (List.eq_nil_or_concat' words).resolve_left some_
    rw [intercalate_concat] at empty
    exact filled last (by simp) (List.append_eq_nil_iff.mp empty).2
  refine ⟨fun same => ?_, congrArg _⟩
  by_cases none_ : words = []
  · by_contra different
    rw [none_] at same different
    exact nonempty filled' (Ne.symm different) same.symm
  · have none' : words' ≠ [] := by
      rintro rfl
      exact nonempty filled none_ same
    rw [← List.splitOn_intercalate space plain none_, same,
      List.splitOn_intercalate space plain' none']

end Words
