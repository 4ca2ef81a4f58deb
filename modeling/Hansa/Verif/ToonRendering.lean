import Hansa.Library.QuotedFields
import Hansa.Verif.RenderedText

/-!
# TOON read back

The TOON form is a header with the number of items, the names of the columns, and a row of three
fields for each item. It is read back by the rules of such a table: a field in quotes runs to the
quote that no other one follows, any other field to the next comma or line end. Whatever the
contents are, the reader finds the number of items and every item's fields.
-/

namespace Hansa

/-! ## The reader -/

/-- A row of the table. -/
structure ToonRow where
  /-- The mark of the origin. -/
  src : String
  /-- The similarity, as it is printed. -/
  sim : String
  /-- The content. -/
  text : String
  deriving DecidableEq

/-- What ends a field that is not in quotes. -/
def endsField (c : Char) : Bool := c = ',' || c = '\n'

/-- What follows a given text. -/
def readLiteral (literal text : List Char) : Option (List Char) :=
  if literal <+: text then some (text.drop literal.length) else none

/-- A field that a given character follows, and what comes behind it. -/
def readFieldUntil (next : Char) (text : List Char) : Option (String × List Char) := do
  let (field, rest) ← readField '"' endsField text
  let rest ← readLiteral [next] rest
  some (String.ofList field, rest)

/-- One row, and what follows it. -/
def readRow (text : List Char) : Option (ToonRow × List Char) := do
  let rest ← readLiteral "  ".toList text
  let (src, rest) ← readFieldUntil ',' rest
  let (sim, rest) ← readFieldUntil ',' rest
  let (text, rest) ← readFieldUntil '\n' rest
  some (⟨src, sim, text⟩, rest)

/-- The rows up to the end of the text, of which there are at most some number. -/
def readRows : Nat → List Char → Option (List ToonRow)
  | _, [] => some []
  | 0, _ :: _ => none
  | fuel + 1, text => do
    let (row, rest) ← readRow text
    let rows ← readRows fuel rest
    some (row :: rows)

/-- The number in the header, and what follows it. -/
def readCount (text : List Char) : Option (Nat × List Char) := do
  let rest ← readLiteral "items[".toList text
  let digits := rest.takeWhile Char.isDigit
  let rest ← readLiteral "]:\n".toList (rest.drop digits.length)
  some (Nat.ofDigitChars 10 digits 0, rest)

/-- The number in the header, and the rows of the table. -/
def parseToon (text : String) : Option (Nat × List ToonRow) := do
  let (count, rest) ← readCount text.toList
  let rest ← readLiteral "  src,sim,text\n".toList rest
  let rows ← readRows rest.length rest
  some (count, rows)

/-! ## Fields -/

/-- A literal is read. -/
theorem readLiteral_append (literal rest : List Char) :
    readLiteral literal (literal ++ rest) = some rest := by
  rw [readLiteral, if_pos (List.prefix_append literal rest), List.drop_left]

/-- A written field is read up to the character that ends it. -/
theorem readFieldUntil_writeField (field : List Char) (next : Char)
    (ended : endsField next = true) (other : next ≠ '"') (rest : List Char) :
    readFieldUntil next (writeField '"' endsField field ++ next :: rest) =
      some (String.ofList field, rest) := by
  have read := readField_writeField field ended other rest
  have literal : readLiteral [next] (next :: rest) = some rest := readLiteral_append [next] rest
  rw [readFieldUntil, read]
  simp only [Option.bind_eq_bind, Option.bind_some, literal]

/-- A plain text is written without quotes. -/
theorem writeField_plain {text : List Char} (plain : Plain text) :
    writeField '"' endsField text = text := by
  rw [writeField, if_neg]
  rw [Bool.not_eq_true, List.any_eq_false]
  intro c member special
  have none_ := plain c member
  simp only [isPlain, endsField, Bool.and_eq_true, Bool.or_eq_true, decide_eq_true_iff] at *
  tauto

/-- A plain text is read up to the comma behind it. -/
theorem readFieldUntil_plain {text : List Char} (plain : Plain text) (rest : List Char) :
    readFieldUntil ',' (text ++ ',' :: rest) = some (String.ofList text, rest) := by
  have read := readFieldUntil_writeField text ',' (by decide) (by decide) rest
  rwa [writeField_plain plain] at read

/-- The quoting rule of the program is that of the reader. -/
theorem toList_csvField (s : String) :
    (csvField s).toList = writeField '"' endsField s.toList := by
  have special : (s.toList.contains ',' || s.toList.contains '"' || s.toList.contains '\n') =
      s.toList.any fun c => c = '"' || endsField c := by
    rw [Bool.eq_iff_iff]
    simp only [Bool.or_eq_true, List.contains_iff_mem, List.any_eq_true, endsField,
      decide_eq_true_iff]
    constructor
    · rintro ((comma | quote) | newline)
      · exact ⟨_, comma, .inr (.inl rfl)⟩
      · exact ⟨_, quote, .inl rfl⟩
      · exact ⟨_, newline, .inr (.inr rfl)⟩
    · rintro ⟨c, member, rfl | rfl | rfl⟩
      · exact .inl (.inr member)
      · exact .inl (.inl member)
      · exact .inr member
  rw [csvField, writeField, special]
  split
  · simp only [String.toList_append, String.toList_ofList]
    rfl
  · rfl

/-! ## Rows -/

/-- The row of an item. -/
def ContextItem.toonRow (item : ContextItem Float32) : ToonRow :=
  ⟨String.singleton (originMark item.origin), fixedText 2 item.similarity, item.content⟩

/-- A row as it is written. -/
def ToonRow.write (row : ToonRow) : List Char :=
  "  ".toList ++ (row.src.toList ++ ',' :: (row.sim.toList ++ ',' ::
    (writeField '"' endsField row.text.toList ++ ['\n'])))

/-- A written row whose first fields are plain is read. -/
theorem readRow_write {row : ToonRow} (src : Plain row.src.toList) (sim : Plain row.sim.toList)
    (rest : List Char) : readRow (row.write ++ rest) = some (row, rest) := by
  have last := readFieldUntil_writeField row.text.toList '\n' (by decide) (by decide) rest
  have written : row.write ++ rest = "  ".toList ++ (row.src.toList ++ ',' ::
      (row.sim.toList ++ ',' :: (writeField '"' endsField row.text.toList ++ '\n' :: rest))) := by
    simp only [ToonRow.write, List.append_assoc, List.cons_append, List.nil_append]
  rw [readRow, written]
  simp only [readLiteral_append, readFieldUntil_plain src, readFieldUntil_plain sim, last,
    Option.bind_eq_bind, Option.bind_some, String.ofList_toList]

/-- Written rows are read one after another, up to the end of the text. -/
theorem readRows_write {rows : List ToonRow}
    (plain : ∀ row ∈ rows, Plain row.src.toList ∧ Plain row.sim.toList) {fuel : Nat}
    (enough : rows.length ≤ fuel) : readRows fuel (rows.flatMap ToonRow.write) = some rows := by
  induction rows generalizing fuel with
  | nil => cases fuel <;> rfl
  | cons row rows ih =>
    obtain ⟨src, sim⟩ := plain row List.mem_cons_self
    have first := readRow_write src sim (rows.flatMap ToonRow.write)
    cases fuel with
    | zero => cases enough
    | succ fuel =>
      have others := ih (fun row member => plain row (List.mem_cons_of_mem _ member))
        (Nat.le_of_succ_le_succ enough)
      have indented : ∃ text, row.write ++ rows.flatMap ToonRow.write = ' ' :: text := ⟨_, rfl⟩
      obtain ⟨text, starts⟩ := indented
      rw [starts] at first
      rw [List.flatMap_cons, starts, readRows, first]
      · simp only [Option.bind_eq_bind, Option.bind_some, others]
      · exact List.cons_ne_nil _ _

/-- There are no more rows than characters. -/
theorem length_le_flatMap_write (rows : List ToonRow) :
    rows.length ≤ (rows.flatMap ToonRow.write).length := by
  induction rows with
  | nil => exact Nat.le_refl _
  | cons row rows ih =>
    have indent : 2 ≤ row.write.length := by
      rw [ToonRow.write, List.length_append]
      exact Nat.le_add_right _ _
    rw [List.flatMap_cons, List.length_append, List.length_cons]
    omega

/-- The number in the header is read. -/
theorem readCount_write (count : Nat) (rest : List Char) :
    readCount ("items[".toList ++ (Nat.toDigits 10 count ++ ("]:\n".toList ++ rest))) =
      some (count, rest) := by
  have digits : (Nat.toDigits 10 count ++ ("]:\n".toList ++ rest)).takeWhile Char.isDigit =
      Nat.toDigits 10 count := by
    have stops : ¬ Char.isDigit ']' = true := by decide
    rw [List.takeWhile_append_of_pos fun _ member =>
      Nat.isDigit_of_mem_toDigits (by decide) (by decide) member]
    show _ ++ (']' :: _).takeWhile Char.isDigit = _
    rw [List.takeWhile_cons_of_neg stops, List.append_nil]
  rw [readCount, readLiteral_append]
  simp only [Option.bind_eq_bind, Option.bind_some, digits, List.drop_left, readLiteral_append,
    Nat.ofDigitChars_ten_toDigits]

/-- The TOON form is a header and the rows of the items. -/
theorem ContextBundle.toList_renderToon (bundle : ContextBundle Float32) :
    bundle.renderToon.toList = "items[".toList ++ (Nat.toDigits 10 bundle.items.length ++
      ("]:\n".toList ++ ("  src,sim,text\n".toList ++
        (bundle.items.map ContextItem.toonRow).flatMap ToonRow.write))) := by
  have row : ∀ item : ContextItem Float32, ("  " ++ String.singleton (originMark item.origin) ++
      "," ++ fixedText 2 item.similarity ++ "," ++ csvField item.content ++ "\n").toList =
        item.toonRow.write := by
    intro item
    simp only [String.toList_append, toList_csvField, ToonRow.write, ContextItem.toonRow,
      List.append_assoc]
    rfl
  rw [renderToon]
  simp only [String.toList_append, toList_toString, String.toList_join, List.flatMap_map,
    List.append_assoc, row]

/-- The TOON form of a bundle is read back as the number of its items and the fields of each. -/
theorem parseToon_renderToon (bundle : ContextBundle Float32) :
    parseToon bundle.renderToon =
      some (bundle.items.length, bundle.items.map fun item =>
        ⟨String.singleton (originMark item.origin), fixedText 2 item.similarity,
          item.content⟩) := by
  have plain : ∀ row ∈ bundle.items.map ContextItem.toonRow,
      Plain row.src.toList ∧ Plain row.sim.toList := by
    intro row member
    obtain ⟨item, _, rfl⟩ := List.mem_map.mp member
    have mark : Plain [originMark item.origin] := by
      intro c member
      rw [List.mem_singleton.mp member]
      exact isPlain_originMark _
    constructor
    · rw [ContextItem.toonRow, String.toList_singleton]
      exact mark
    · exact plain_fixedText 2 item.similarity
  have rows := readRows_write plain (length_le_flatMap_write _)
  rw [parseToon, ContextBundle.toList_renderToon, readCount_write]
  simp only [Option.bind_eq_bind, Option.bind_some, readLiteral_append, rows]
  rfl

end Hansa
