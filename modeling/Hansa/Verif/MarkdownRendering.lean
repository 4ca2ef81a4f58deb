import Hansa.Library.TextLines
import Hansa.Verif.RenderedText

/-!
# Contents stay in their quotes

In markdown an item is a header, and its content in quoted lines. A content is split at its own
line ends first, and every line of it gets the sign of a quote. So whatever the contents are, the
headers are those of the items, and the quoted lines between two headers are those of the one
content between them.
-/

namespace Hansa

/-! ## Lines of a content -/

/-- The pieces of a text, without their line ends, are its lines. -/
theorem splitInclusive_lines (text : List Char) :
    (splitInclusive text).map Prod.fst = linesOf '\n' text := by
  induction text with
  | nil => rfl
  | cons c text ih =>
    rw [splitInclusive, linesOf]
    by_cases ends : c = '\n'
    · rw [if_pos ends, if_pos ends, List.map_cons, ih]
    · rw [if_neg ends, if_neg ends, ← ih]
      cases splitInclusive text <;> rfl

/-- No line of a text has a line end. -/
theorem newline_notMem_strLines {text line : String} (member : line ∈ strLines text) :
    '\n' ∉ line.toList := by
  obtain ⟨piece, inside, rfl⟩ := List.mem_map.mp member
  have plain : '\n' ∉ piece.1 := by
    apply not_mem_linesOf text.toList
    rw [← splitInclusive_lines]
    exact List.mem_map_of_mem inside
  rw [lineText, String.toList_ofList]
  split
  · exact fun ends => plain ((List.dropLast_sublist _).subset ends)
  · exact plain

/-! ## Headers -/

/-- A list of labels has no line end. -/
theorem newline_notMem_intercalate {texts : List String}
    (plain : ∀ text ∈ texts, '\n' ∉ text.toList) :
    '\n' ∉ (", ".intercalate texts).toList := by
  induction texts with
  | nil => exact List.not_mem_nil
  | cons text texts ih =>
    have first := plain text List.mem_cons_self
    have others := ih fun other member => plain other (List.mem_cons_of_mem _ member)
    by_cases last : texts = []
    · rw [last, String.intercalate_singleton]
      exact first
    · have comma : '\n' ∉ ", ".toList := by decide
      rw [String.intercalate_cons_of_ne_nil last, String.toList_append, String.toList_append,
        List.mem_append, List.mem_append]
      rintro ((inText | inComma) | inOthers)
      · exact first inText
      · exact comma inComma
      · exact others inOthers

/-- The label of an item's sources has no line end. -/
theorem newline_notMem_sourcesLabel {F : Type} (item : ContextItem F) :
    '\n' ∉ item.sourcesLabel.toList := by
  have label := fun origin => (plain_originLabel origin).no_newline
  unfold ContextItem.sourcesLabel
  split
  · next first other rest _ =>
    have others : ∀ text ∈ (other :: rest).map originLabel, '\n' ∉ text.toList := by
      intro text member
      obtain ⟨origin, _, rfl⟩ := List.mem_map.mp member
      exact label origin
    have plus : '\n' ∉ " + ".toList := by decide
    rw [String.toList_append, String.toList_append, List.mem_append, List.mem_append]
    rintro ((first | plus') | rest)
    · exact label _ first
    · exact plus plus'
    · exact newline_notMem_intercalate others rest
  · exact label item.origin

/-- A header is one line. -/
theorem newline_notMem_markdownHeader (item : ContextItem Float32) :
    '\n' ∉ (markdownHeader item).toList := by
  have label := newline_notMem_sourcesLabel item
  have similarity := (plain_fixedText 3 item.similarity).no_newline
  have number : ∀ n : Nat, '\n' ∉ (toString n).toList := by
    intro n
    rw [toList_toString]
    exact (plain_toDigits n).no_newline
  have signs : '\n' ∉ "### ".toList ∧ '\n' ∉ " (sim=".toList ∧ '\n' ∉ ", ~".toList ∧
      '\n' ∉ " tokens".toList ∧ '\n' ∉ ")".toList ∧ '\n' ∉ ", ".toList ∧
      '\n' ∉ " sources".toList := by decide
  have sources : '\n' ∉ (if 1 < item.sources.length then
      ", " ++ toString item.sources.length ++ " sources" else "").toList := by
    split
    · simp only [String.toList_append, List.mem_append, number, signs, or_self, not_false_eq_true]
    · exact List.not_mem_nil
  simp only [markdownHeader, String.toList_append, List.mem_append, number, signs, label,
    similarity, sources, or_self, not_false_eq_true]

/-! ## The reader -/

/-- Whether a line is a header. -/
def isHeader (line : List Char) : Bool := "### ".toList.isPrefixOf line

/-- A quoted line without the sign of the quote. -/
def unquote (line : List Char) : Option (List Char) :=
  if "> ".toList.isPrefixOf line then some (line.drop 2) else none

/-- The headers among some lines, each with the quoted lines in front of the next one. -/
def sections : List (List Char) → List (List Char × List (List Char))
  | [] => []
  | line :: lines =>
    if isHeader line then
      (line, (lines.takeWhile (!isHeader ·)).filterMap unquote) :: sections lines
    else sections lines

/-- The lines of an item behind its header: its content in quotes, between empty lines. -/
def ContextItem.quotedLines {F : Type} (item : ContextItem F) : List (List Char) :=
  [] :: ((strLines item.content).map (fun line => "> ".toList ++ line.toList) ++ [[]])

/-- The lines of an item. -/
def ContextItem.markdownLines (item : ContextItem Float32) : List (List Char) :=
  (markdownHeader item).toList :: item.quotedLines

/-- Headers and quotes are those of the items. -/
structure ContextBundle.KeepsQuotes (bundle : ContextBundle Float32) : Prop where
  /-- The lines are those of the items, in order. -/
  lines : linesOf '\n' bundle.renderMarkdown.toList =
    bundle.items.flatMap ContextItem.markdownLines
  /-- The headers among them are one for each item, in order. -/
  headers : (linesOf '\n' bundle.renderMarkdown.toList).filter isHeader =
    bundle.items.map fun item => (markdownHeader item).toList
  /-- A header carries the label of the item's sources. -/
  labels : ∀ item ∈ bundle.items,
    ("### " ++ item.sourcesLabel ++ " (").toList <+: (markdownHeader item).toList
  /-- The quoted lines behind a header are those of the item's content. -/
  quotes : sections (linesOf '\n' bundle.renderMarkdown.toList) =
    bundle.items.map fun item =>
      ((markdownHeader item).toList, (strLines item.content).map String.toList)

/-! ## Sections -/

/-- A header carries the label of the item's sources. -/
theorem label_prefix (item : ContextItem Float32) :
    ("### " ++ item.sourcesLabel ++ " (").toList <+: (markdownHeader item).toList := by
  have split : " (sim=".toList = " (".toList ++ "sim=".toList := by decide
  simp only [markdownHeader, String.toList_append, split, List.append_assoc]
  exact (List.prefix_append_right_inj _).mpr ((List.prefix_append_right_inj _).mpr
    (List.prefix_append _ _))

/-- An item's header is a header. -/
theorem isHeader_markdownHeader (item : ContextItem Float32) :
    isHeader (markdownHeader item).toList = true := by
  have label := label_prefix item
  rw [String.toList_append, String.toList_append, List.append_assoc] at label
  exact List.isPrefixOf_iff_prefix.mpr ((List.prefix_append _ _).trans label)

section Quotes

variable {F : Type} {item : ContextItem F}

/-- The lines behind a header are empty or quoted. -/
theorem mem_quotedLines {line : List Char} (member : line ∈ item.quotedLines) :
    line = [] ∨ ∃ text ∈ strLines item.content, line = "> ".toList ++ text.toList := by
  rw [ContextItem.quotedLines, List.mem_cons, List.mem_append, List.mem_map,
    List.mem_singleton] at member
  rcases member with empty | ⟨text, inside, rfl⟩ | empty
  · exact .inl empty
  · exact .inr ⟨text, inside, rfl⟩
  · exact .inl empty

/-- None of them is a header. -/
theorem isHeader_quotedLines {line : List Char} (member : line ∈ item.quotedLines) :
    isHeader line = false := by
  rcases mem_quotedLines member with rfl | ⟨text, _, rfl⟩
  · rfl
  · rfl

/-- None of them has a line end. -/
theorem newline_notMem_quotedLines {line : List Char} (member : line ∈ item.quotedLines) :
    '\n' ∉ line := by
  rcases mem_quotedLines member with rfl | ⟨text, inside, rfl⟩
  · exact List.not_mem_nil
  · rw [List.mem_append]
    rintro (sign | content)
    · exact absurd sign (by decide)
    · exact newline_notMem_strLines inside content

/-- Without the signs of the quotes they are the lines of the content. -/
theorem filterMap_quotedLines (item : ContextItem F) :
    item.quotedLines.filterMap unquote = (strLines item.content).map String.toList := by
  have quoted : ∀ line : String, unquote ("> ".toList ++ line.toList) = some line.toList :=
    fun _ => rfl
  have empty : unquote [] = none := rfl
  rw [ContextItem.quotedLines, List.filterMap_cons_none empty, List.filterMap_append,
    List.filterMap_map, List.filterMap_cons_none empty, List.filterMap_nil, List.append_nil,
    ← List.filterMap_eq_map]
  exact List.filterMap_congr fun line _ => quoted line

end Quotes

/-- Lines that are no headers start no section. -/
theorem sections_append {front : List (List Char)} (none_ : ∀ line ∈ front, isHeader line = false)
    (rest : List (List Char)) : sections (front ++ rest) = sections rest := by
  induction front with
  | nil => rfl
  | cons line front ih =>
    have first := none_ line List.mem_cons_self
    rw [List.cons_append, sections, first, if_neg Bool.false_ne_true]
    exact ih fun other member => none_ other (List.mem_cons_of_mem _ member)

/-- The sections of the items' lines are their headers and the lines of their contents. -/
theorem sections_markdownLines (items : List (ContextItem Float32)) :
    sections (items.flatMap ContextItem.markdownLines) = items.map fun item =>
      ((markdownHeader item).toList, (strLines item.content).map String.toList) := by
  induction items with
  | nil => rfl
  | cons item items ih =>
    -- The lines up to the next header are those behind the item's own.
    have next : (items.flatMap ContextItem.markdownLines).takeWhile (!isHeader ·) = [] := by
      cases items with
      | nil => rfl
      | cons other items =>
        rw [List.flatMap_cons, ContextItem.markdownLines, List.cons_append,
          List.takeWhile_cons_of_neg]
        rw [isHeader_markdownHeader]
        decide
    have own : (item.quotedLines ++ items.flatMap ContextItem.markdownLines).takeWhile
        (!isHeader ·) = item.quotedLines := by
      rw [List.takeWhile_append_of_pos, next, List.append_nil]
      intro line member
      rw [isHeader_quotedLines member]
      rfl
    rw [List.flatMap_cons, ContextItem.markdownLines, List.cons_append, sections,
      isHeader_markdownHeader, if_pos rfl, own, filterMap_quotedLines,
      sections_append (fun _ member => isHeader_quotedLines member), ih, List.map_cons]

/-- The markdown form is written line by line. -/
theorem ContextBundle.toList_renderMarkdown (bundle : ContextBundle Float32) :
    bundle.renderMarkdown.toList =
      writeLines '\n' (bundle.items.flatMap ContextItem.markdownLines) := by
  have block : ∀ item : ContextItem Float32, (markdownHeader item ++ "\n\n" ++
      String.join ((strLines item.content).map fun line => "> " ++ line ++ "\n") ++ "\n").toList =
        writeLines '\n' item.markdownLines := by
    intro item
    have quoted : ∀ line : String, ("> " ++ line ++ "\n").toList =
        "> ".toList ++ line.toList ++ ['\n'] := by
      intro line
      rw [String.toList_append, String.toList_append]
      rfl
    simp only [String.toList_append, String.toList_join, List.flatMap_map, quoted, writeLines,
      ContextItem.markdownLines, ContextItem.quotedLines, List.flatMap_cons, List.flatMap_append,
      List.flatMap_nil, List.append_nil, List.nil_append, List.append_assoc]
    rfl
  rw [renderMarkdown, String.toList_join, List.flatMap_map, writeLines, List.flatMap_assoc]
  exact List.flatMap_congr fun item _ => block item

/-- Whatever the contents are, the markdown form keeps them in their quotes, behind the headers
of the items. -/
theorem ContextBundle.keepsQuotes (bundle : ContextBundle Float32) : bundle.KeepsQuotes := by
  have plain : ∀ line ∈ bundle.items.flatMap ContextItem.markdownLines, '\n' ∉ line := by
    intro line member
    obtain ⟨item, _, inside⟩ := List.mem_flatMap.mp member
    rcases List.mem_cons.mp inside with rfl | behind
    · exact newline_notMem_markdownHeader item
    · exact newline_notMem_quotedLines behind
  have lines : linesOf '\n' bundle.renderMarkdown.toList =
      bundle.items.flatMap ContextItem.markdownLines := by
    rw [toList_renderMarkdown, linesOf_writeLines plain]
  have block : ∀ item : ContextItem Float32, item.markdownLines.filter isHeader =
      [(markdownHeader item).toList] := by
    intro item
    rw [ContextItem.markdownLines, List.filter_cons_of_pos (isHeader_markdownHeader item),
      List.filter_eq_nil_iff.mpr]
    intro line member
    rw [isHeader_quotedLines member]
    exact Bool.false_ne_true
  refine ⟨lines, ?_, fun item _ => label_prefix item, ?_⟩
  · rw [lines, List.filter_flatMap]
    simp only [block]
    exact List.map_eq_flatMap.symm
  · rw [lines]
    exact sections_markdownLines bundle.items

end Hansa
