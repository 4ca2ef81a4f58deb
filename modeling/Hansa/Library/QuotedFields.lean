import Mathlib.Data.List.Basic

/-!
# Fields in quotes

A field that contains a quote, or a symbol that may end a field, is written in quotes, with the
quotes inside doubled. A reader that finds a quote in front reads up to the quote that no other
one follows; otherwise it reads up to a symbol that ends fields. It reads every written field,
if such a symbol follows it.
-/

variable {σ : Type*} [DecidableEq σ]

/-- The text with its quotes doubled. -/
def doubleQuotes (quote : σ) (field : List σ) : List σ :=
  field.flatMap fun c => if c = quote then [quote, quote] else [c]

/-- A field as it is written, in quotes if it has to be. -/
def writeField (quote : σ) (ends : σ → Bool) (field : List σ) : List σ :=
  if field.any fun c => c = quote || ends c then quote :: (doubleQuotes quote field ++ [quote])
  else field

/-- The content of a field behind its opening quote, and what follows the closing one. -/
def readQuoted (quote : σ) : List σ → Option (List σ × List σ)
  | [] => none
  | [c] => if c = quote then some ([], []) else none
  | c :: d :: rest =>
    if c = quote then
      if d = quote then (readQuoted quote rest).map fun read => (quote :: read.1, read.2)
      else some ([], d :: rest)
    else (readQuoted quote (d :: rest)).map fun read => (c :: read.1, read.2)

/-- A field, and what follows it. -/
def readField (quote : σ) (ends : σ → Bool) (text : List σ) : Option (List σ × List σ) :=
  if text.head? = some quote then readQuoted quote text.tail
  else some (text.takeWhile (!ends ·), text.dropWhile (!ends ·))

variable {quote : σ} {ends : σ → Bool}

/-- Doubled quotes are read as one up to the closing quote. -/
theorem readQuoted_doubleQuotes (field : List σ) {next : σ} (other : next ≠ quote)
    (rest : List σ) :
    readQuoted quote (doubleQuotes quote field ++ quote :: next :: rest) =
      some (field, next :: rest) := by
  induction field with
  | nil =>
    rw [doubleQuotes, List.flatMap_nil, List.nil_append, readQuoted, if_pos rfl, if_neg other]
  | cons c field ih =>
    rw [doubleQuotes] at ih
    rw [doubleQuotes, List.flatMap_cons]
    by_cases quoted : c = quote
    · rw [if_pos quoted, List.append_assoc, List.cons_append, List.cons_append, List.nil_append,
        readQuoted, if_pos rfl, if_pos rfl, ih, quoted]
      rfl
    · rw [if_neg quoted, List.append_assoc, List.singleton_append]
      cases behind : field.flatMap (fun c => if c = quote then [quote, quote] else [c]) ++
          quote :: next :: rest with
      | nil => exact absurd behind (by simp)
      | cons d text =>
        rw [behind] at ih
        rw [readQuoted, if_neg quoted, ih]
        rfl

omit [DecidableEq σ] in
/-- A field without ends is read up to the next end. -/
theorem span_field {field : List σ} (plain : ∀ c ∈ field, ends c = false) {next : σ}
    (ended : ends next = true) (rest : List σ) :
    (field ++ next :: rest).takeWhile (!ends ·) = field ∧
      (field ++ next :: rest).dropWhile (!ends ·) = next :: rest := by
  have stops : ¬ (!ends next) = true := by
    rw [ended]
    exact Bool.false_ne_true
  have goes : ∀ c ∈ field, (!ends c) = true := by
    intro c member
    rw [plain c member, Bool.not_false]
  constructor
  · rw [List.takeWhile_append_of_pos goes, List.takeWhile_cons_of_neg (p := (!ends ·)) stops,
      List.append_nil]
  · rw [List.dropWhile_append_of_pos goes, List.dropWhile_cons_of_neg (p := (!ends ·)) stops]

/-- Every field is read as it was written. -/
theorem readField_writeField (field : List σ) {next : σ} (ended : ends next = true)
    (other : next ≠ quote) (rest : List σ) :
    readField quote ends (writeField quote ends field ++ next :: rest) =
      some (field, next :: rest) := by
  rw [writeField]
  by_cases quoted : (field.any fun c => c = quote || ends c) = true
  · rw [if_pos quoted, List.cons_append, List.append_assoc, readField, List.head?_cons,
      if_pos rfl, List.tail_cons]
    exact readQuoted_doubleQuotes field other rest
  · rw [if_neg quoted]
    rw [Bool.not_eq_true, List.any_eq_false] at quoted
    have plain : ∀ c ∈ field, c ≠ quote ∧ ends c = false := by
      intro c member
      have neither := quoted c member
      rw [Bool.or_eq_true, not_or, decide_eq_true_iff, Bool.not_eq_true] at neither
      exact neither
    have unquoted : (field ++ next :: rest).head? ≠ some quote := by
      cases field with
      | nil => exact fun same => other (Option.some.inj same)
      | cons c field => exact fun same => (plain c List.mem_cons_self).1 (Option.some.inj same)
    obtain ⟨front, back⟩ := span_field (fun c member => (plain c member).2) ended rest
    rw [readField, if_neg unquoted, front, back]
