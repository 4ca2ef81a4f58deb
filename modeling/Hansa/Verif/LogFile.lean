import Mathlib.Data.List.DropRight
import Hansa.Library.StateErrors
import Hansa.Registry

/-!
# The log as a file of lines

What the registry reads back depends on the bytes of the log alone. This module computes it:
a log splits at its newlines, an appended line is read as one more link exactly when the log
ends in a newline (up to JSON white space), and a rewritten log is read as the links written.
`Lawful` collects what is relied on of the JSON encoder and parser.
-/

namespace Hansa

/-! ## JSON -/

/-- The empty string has no bytes. -/
theorem utf8_empty : utf8 "" = [] := rfl

/-- A white-space byte of JSON. -/
def isJsonSpace (b : UInt8) : Bool := b ∈ [32, 9, 10, 13]

/-- Every path in the link is valid UTF-8, so JSON can carry the link. -/
def Link.IsUtf8 (link : Link) : Prop := link.body.IsUtf8

/-- What the log relies on of `serde_json` and of the derived encoding of `Link`. -/
structure LinkJson.Lawful (json : LinkJson) : Prop where
  /-- A link without an invalid path can be encoded. -/
  encodes : ∀ link : Link, link.IsUtf8 → ∃ text, json.toString link = .ok text
  /-- A path that is not UTF-8 is an error. -/
  refuses : ∀ link : Link, ¬ link.IsUtf8 → ∃ e, json.toString link = .error e
  /-- An encoded link is an object. -/
  object : ∀ link text, json.toString link = .ok text → ∃ fields, text = "\x7b" ++ fields ++ "\x7d"
  /-- An encoded link is on one line. -/
  oneLine : ∀ link text, json.toString link = .ok text → 10 ∉ utf8 text
  /-- An encoded link is read back, also behind JSON white space. -/
  roundTrip : ∀ blank link text, (∀ b ∈ utf8 blank, isJsonSpace b) →
    json.toString link = .ok text → json.fromStr (blank ++ text) = .ok link
  /-- Other white space is no JSON. -/
  strictSpace : ∀ blank link text, isBlank blank → (∃ b ∈ utf8 blank, ¬ isJsonSpace b) →
    json.toString link = .ok text → ∃ e, json.fromStr (blank ++ text) = .error e
  /-- Two objects are not one JSON value. -/
  trailing : ∀ first link link' text, json.fromStr first = .ok link →
    json.toString link' = .ok text → ∃ e, json.fromStr (first ++ text) = .error e
  /-- A path read from JSON is a string. -/
  utf8 : ∀ text link, json.fromStr text = .ok link → link.IsUtf8

namespace LinkJson.Lawful

variable {json : LinkJson} {link : Link} {text : String}

/-- An encoded link is read back. -/
theorem fromStr_toString (lawful : json.Lawful) (encoded : json.toString link = .ok text) :
    json.fromStr text = .ok link := by
  have read := lawful.roundTrip "" link text (by simp [utf8_empty]) encoded
  rwa [String.empty_append] at read

end LinkJson.Lawful

/-! ## Strings as bytes -/

/-- The bytes of a string, character by character. -/
theorem utf8_eq_flatMap (s : String) : utf8 s = s.toList.flatMap String.utf8EncodeChar := by
  obtain ⟨chars, rfl⟩ : ∃ chars, s = String.ofList chars := ⟨s.toList, s.ofList_toList.symm⟩
  simp [utf8, List.utf8Encode]

/-- An ASCII character is one byte. -/
theorem utf8EncodeChar_ascii {mark : Char} (ascii : mark.toNat < 128) :
    String.utf8EncodeChar mark = [UInt8.ofNat mark.toNat] := by
  have small : mark.val.toNat ≤ 127 := Nat.le_of_lt_succ ascii
  rw [String.utf8EncodeChar, if_pos small]
  rfl

/-- A byte below 128 is the whole of its character. -/
theorem char_of_ascii_byte {ch : Char} {b : UInt8} (member : b ∈ String.utf8EncodeChar ch)
    (ascii : b.toNat < 128) : ch.toNat = b.toNat := by
  rw [String.utf8EncodeChar] at member
  split at member
  · rename_i small
    obtain rfl := List.mem_singleton.mp member
    rw [UInt8.toNat_ofNat', Nat.mod_eq_of_lt (by omega)]
    rfl
  · have large : 128 ≤ b.toNat := by
      split at member
      · simp only [List.mem_cons, List.not_mem_nil, or_false] at member
        rcases member with rfl | rfl <;> simp only [UInt8.toNat_ofNat'] <;> omega
      · split at member
        · simp only [List.mem_cons, List.not_mem_nil, or_false] at member
          rcases member with rfl | rfl | rfl <;> simp only [UInt8.toNat_ofNat'] <;> omega
        · simp only [List.mem_cons, List.not_mem_nil, or_false] at member
          rcases member with rfl | rfl | rfl | rfl <;> simp only [UInt8.toNat_ofNat'] <;> omega
    omega

/-- The bytes of a concatenation. -/
theorem utf8_append (s t : String) : utf8 (s ++ t) = utf8 s ++ utf8 t := by
  simp [utf8, String.toByteArray_append]

/-- Blank strings are those whose parts are blank. -/
theorem isBlank_append (s t : String) : isBlank (s ++ t) = (isBlank s && isBlank t) := by
  simp [isBlank, String.toList_append]

/-- An object is not blank, whatever stands around it. -/
theorem isBlank_object (before fields : String) :
    isBlank (before ++ ("\x7b" ++ fields ++ "\x7d")) = false := by
  have brace : isBlank "\x7b" = false := by decide
  simp [isBlank_append, brace]

/-- An object ends in its closing brace. -/
theorem getLast?_object (before fields : String) :
    (utf8 (before ++ ("\x7b" ++ fields ++ "\x7d"))).getLast? = some 125 := by
  have brace : utf8 "\x7d" = [125] := by decide
  rw [← String.append_assoc, ← String.append_assoc, utf8_append, brace, List.getLast?_concat]

/-! ## Lines -/

/-- The bytes end in a newline, or there are none. -/
def Closed (bytes : List UInt8) : Prop := ∀ b ∈ bytes.getLast?, b = 10

/-- Bytes without a newline, unless there are none, are one open line. -/
theorem splitLines_open {line : List UInt8} (inside : 10 ∉ line) (nonempty : line ≠ []) :
    splitLines line = [(line, false)] := by
  induction line with
  | nil => exact absurd rfl nonempty
  | cons b line ih =>
    obtain ⟨here, there⟩ := not_or.mp (List.mem_cons.not.mp inside)
    rw [splitLines, if_neg (Ne.symm here)]
    cases line with
    | nil => rfl
    | cons b' line => rw [ih there (List.cons_ne_nil b' line)]

/-- Bytes without a newline, ended by one, are one closed line. -/
theorem splitLines_ended {line : List UInt8} (inside : 10 ∉ line) :
    splitLines (line ++ [10]) = [(line, true)] := by
  induction line with
  | nil => rfl
  | cons b line ih =>
    obtain ⟨here, there⟩ := not_or.mp (List.mem_cons.not.mp inside)
    rw [List.cons_append, splitLines, if_neg (Ne.symm here), ih there]

/-- Only the empty file has no lines. -/
theorem splitLines_ne_nil {bytes : List UInt8} (nonempty : bytes ≠ []) : splitLines bytes ≠ [] := by
  cases bytes with
  | nil => exact absurd rfl nonempty
  | cons b bytes =>
    rw [splitLines]
    split
    · exact List.cons_ne_nil _ _
    · split <;> exact List.cons_ne_nil _ _

/-- What follows closed bytes has its own lines. -/
theorem splitLines_append {before : List UInt8} (closed : Closed before) (rest : List UInt8) :
    splitLines (before ++ rest) = splitLines before ++ splitLines rest := by
  induction before with
  | nil => rfl
  | cons b before ih =>
    cases before with
    | nil =>
      obtain rfl : b = 10 := closed b rfl
      rfl
    | cons b' before =>
      have tail := ih (fun x last => closed x (by rwa [List.getLast?_cons_cons]))
      rw [List.cons_append, splitLines, splitLines, tail]
      split
      · rfl
      · cases lines : splitLines (b' :: before) with
        | nil => exact absurd lines (splitLines_ne_nil (List.cons_ne_nil b' before))
        | cons first lines => rfl

/-- A file is its closed lines and what stands after the last newline. -/
theorem closed_and_open (bytes : List UInt8) :
    ∃ before line, bytes = before ++ line ∧ Closed before ∧ 10 ∉ line ∧
      line = bytes.rtakeWhile (· ≠ 10) := by
  refine ⟨bytes.rdropWhile (· ≠ 10), bytes.rtakeWhile (· ≠ 10),
    List.rdropWhile_append_rtakeWhile.symm, ?_, ?_, rfl⟩
  · intro b last
    obtain ⟨nonempty, rfl⟩ := List.mem_getLast?_eq_getLast last
    have stops := List.rdropWhile_last_not (· ≠ (10 : UInt8)) bytes nonempty
    simpa using stops
  · intro inside
    simpa using List.mem_rtakeWhile_imp inside

/-! ## Reading -/

/-- What `read_chain` returns, as a function of the log alone. -/
def readLog (json : LinkJson) (path : PathBuf) : Option (List UInt8) → Result (List Link)
  | none => .ok []
  | some bytes => readLines json path 0 (splitLines bytes)

/-- Reading leaves the directory alone. -/
theorem run_readChain (json : LinkJson) (r : FileRegistry) (hansa : HansaId) (dir : HansaDir) :
    (r.readChain json hansa).run dir =
      (FileM.ofResult (readLog json (r.logPath hansa) dir.log)).run dir := by
  simp only [FileRegistry.readChain, EStateM.run_bind, EStateM.run_get]
  cases dir.log <;> rfl

/-- Lines read one list after the other. -/
theorem readLines_append {json : LinkJson} {path : PathBuf}
    {before after : List (List UInt8 × Bool)} {n : Nat} :
    readLines json path n (before ++ after) = (do
      let links ← readLines json path n before
      let others ← readLines json path (n + before.length) after
      .ok (links ++ others)) := by
  induction before generalizing n with
  | nil =>
    simp only [List.nil_append, readLines, List.length_nil, Nat.add_zero, bind, Except.bind]
    cases readLines json path n after <;> rfl
  | cons line before ih =>
    have shift : n + (before.length + 1) = n + 1 + before.length := by omega
    rw [List.cons_append, readLines, readLines, List.length_cons, shift]
    cases fromUtf8 (lineContent line) with
    | none => rfl
    | some text =>
      simp only [ih]
      split
      · rfl
      · cases json.fromStr text with
        | error e => rfl
        | ok link =>
          cases readLines json path (n + 1) before with
          | error fault => rfl
          | ok links =>
            simp only [bind, Except.bind]
            cases readLines json path (n + 1 + before.length) after <;> rfl

/-- Lines are read when the first is text that is blank or one link, and the others are read. -/
theorem readLines_cons_eq_ok {json : LinkJson} {path : PathBuf} {line : List UInt8 × Bool}
    {lines : List (List UInt8 × Bool)} {links : List Link} {n : Nat} :
    readLines json path n (line :: lines) = .ok links ↔
      ∃ text, fromUtf8 (lineContent line) = some text ∧
        (isBlank text = true ∧ readLines json path (n + 1) lines = .ok links ∨
          isBlank text = false ∧ ∃ link others, json.fromStr text = .ok link ∧
            readLines json path (n + 1) lines = .ok others ∧ links = link :: others) := by
  rw [readLines]
  constructor
  · intro read
    cases decoded : fromUtf8 (lineContent line) with
    | none =>
      rw [decoded] at read
      cases read
    | some text =>
      simp only [decoded] at read
      refine ⟨text, rfl, ?_⟩
      by_cases blank : isBlank text
      · rw [if_pos blank] at read
        exact .inl ⟨blank, read⟩
      · rw [if_neg blank] at read
        cases parsed : json.fromStr text with
        | error e =>
          rw [parsed] at read
          cases read
        | ok link =>
          rw [parsed] at read
          obtain ⟨others, rest, same⟩ := Except.bind_eq_ok.mp read
          exact .inr ⟨Bool.eq_false_of_not_eq_true blank, link, others, rfl, rest,
            (Except.ok.inj same).symm⟩
  · rintro ⟨text, decoded, ⟨blank, rest⟩ | ⟨written, link, others, parsed, rest, rfl⟩⟩
    · simp only [decoded, if_pos blank, rest]
    · simp only [decoded, written, Bool.false_eq_true, if_false, parsed, rest, bind, Except.bind]

/-- The links of readable lines do not depend on where the lines stand. -/
theorem readLines_shift {json : LinkJson} {path : PathBuf} {lines : List (List UInt8 × Bool)}
    {links : List Link} {n : Nat} (m : Nat) (read : readLines json path n lines = .ok links) :
    readLines json path m lines = .ok links := by
  induction lines generalizing n m links with
  | nil => exact read
  | cons line lines ih =>
    obtain ⟨text, decoded, ⟨blank, rest⟩ | ⟨written, link, others, parsed, rest, same⟩⟩ :=
      readLines_cons_eq_ok.mp read
    · exact readLines_cons_eq_ok.mpr ⟨text, decoded, .inl ⟨blank, ih (m + 1) rest⟩⟩
    · exact readLines_cons_eq_ok.mpr
        ⟨text, decoded, .inr ⟨written, link, others, parsed, ih (m + 1) rest, same⟩⟩

/-- Two lists of lines are readable together exactly when each is. -/
theorem readLines_append_ok {json : LinkJson} {path : PathBuf}
    {before after : List (List UInt8 × Bool)} {links : List Link} {n : Nat} (m : Nat) :
    readLines json path n (before ++ after) = .ok links ↔
      ∃ first others, readLines json path n before = .ok first ∧
        readLines json path m after = .ok others ∧ links = first ++ others := by
  rw [readLines_append]
  constructor
  · intro read
    obtain ⟨first, one, rest⟩ := Except.bind_eq_ok.mp read
    obtain ⟨others, two, same⟩ := Except.bind_eq_ok.mp rest
    exact ⟨first, others, one, readLines_shift m two, (Except.ok.inj same).symm⟩
  · rintro ⟨first, others, one, two, rfl⟩
    simp only [one, readLines_shift (n + before.length) two, bind, Except.bind]

/-- Links that were read have valid paths. -/
theorem isUtf8_of_readLines {json : LinkJson} (lawful : json.Lawful) {path : PathBuf}
    {lines : List (List UInt8 × Bool)} {links : List Link} {n : Nat}
    (read : readLines json path n lines = .ok links) : ∀ link ∈ links, link.IsUtf8 := by
  induction lines generalizing n links with
  | nil =>
    obtain rfl := Except.ok.inj read
    exact fun _ none => nomatch none
  | cons line lines ih =>
    obtain ⟨text, -, ⟨-, rest⟩ | ⟨-, link, others, parsed, rest, rfl⟩⟩ :=
      readLines_cons_eq_ok.mp read
    · exact ih rest
    · intro link' member
      rcases List.mem_cons.mp member with rfl | member
      · exact lawful.utf8 text _ parsed
      · exact ih rest link' member

/-! ## Appending -/

/-- What stands after the last newline is JSON white space, so a line may be appended. -/
def Appendable (bytes : List UInt8) : Prop := ∀ b ∈ bytes.rtakeWhile (· ≠ 10), isJsonSpace b

instance (bytes : List UInt8) : Decidable (Appendable bytes) :=
  inferInstanceAs (Decidable (∀ b ∈ bytes.rtakeWhile (· ≠ 10), isJsonSpace b = true))

/-- A log that ends in a newline can be appended to. -/
theorem appendable_concat (bytes : List UInt8) : Appendable (bytes ++ [10]) := by
  intro b member
  rw [List.rtakeWhile_concat_neg _ _ _ (by decide)] at member
  cases member

/-- The line that an encoded link makes behind an open line of text. -/
theorem readLines_encoded {json : LinkJson} (lawful : json.Lawful) (path : PathBuf) {link : Link}
    {text : String} (encoded : json.toString link = .ok text) (before : String) (n : Nat) :
    readLines json path n [(utf8 before ++ utf8 text, true)] =
      match json.fromStr (before ++ text) with
      | .error e => fail (.registryMalformed
          (path.toStringLossy ++ ":" ++ toString (n + 1) ++ ": " ++ e))
      | .ok link => .ok [link] := by
  obtain ⟨fields, rfl⟩ := lawful.object link text encoded
  have content : lineContent (utf8 before ++ utf8 ("\x7b" ++ fields ++ "\x7d"), true) =
      utf8 (before ++ ("\x7b" ++ fields ++ "\x7d")) := by
    rw [← utf8_append, lineContent, if_neg]
    simp only [getLast?_object, Option.some.injEq]
    decide
  rw [readLines, content, fromUtf8_utf8]
  simp only [isBlank_object, readLines]
  rfl

/-- An open line that was read is blank, or holds one link. -/
theorem readLines_openLine {json : LinkJson} {path : PathBuf} {line : List UInt8} {n : Nat}
    {links : List Link} (read : readLines json path n [(line, false)] = .ok links) :
    ∃ prior, line = utf8 prior ∧ (isBlank prior = true ∧ links = [] ∨
      ∃ other, json.fromStr prior = .ok other ∧ links = [other]) := by
  have content : lineContent (line, false) = line := if_neg (fun no => nomatch no.1)
  obtain ⟨prior, decoded, ⟨blank, rest⟩ | ⟨-, other, others, parsed, rest, rfl⟩⟩ :=
    readLines_cons_eq_ok.mp read
  · rw [content] at decoded
    exact ⟨prior, eq_utf8_of_fromUtf8 decoded, .inl ⟨blank, (Except.ok.inj rest).symm⟩⟩
  · rw [content] at decoded
    obtain rfl := Except.ok.inj rest
    exact ⟨prior, eq_utf8_of_fromUtf8 decoded, .inr ⟨other, parsed, rfl⟩⟩

/-- An appended line is read as one more link exactly when the log may be appended to; else
the log can no longer be read. -/
theorem readLog_append {json : LinkJson} (lawful : json.Lawful) {path : PathBuf}
    (bytes : List UInt8) {chain : List Link} {link : Link} {text : String}
    (read : readLog json path (some bytes) = .ok chain) (encoded : json.toString link = .ok text) :
    (Appendable bytes →
      readLog json path (some (bytes ++ utf8 text ++ [10])) = .ok (chain ++ [link])) ∧
    (¬ Appendable bytes →
      ∀ chain', readLog json path (some (bytes ++ utf8 text ++ [10])) ≠ .ok chain') := by
  obtain ⟨before, line, whole, closed, inside, isTail⟩ := closed_and_open bytes
  have appendable : Appendable bytes ↔ ∀ b ∈ line, isJsonSpace b := by rw [isTail]; rfl
  have inside' : 10 ∉ line ++ utf8 text := by
    simpa [inside] using lawful.oneLine link text encoded
  have lines' : splitLines (bytes ++ utf8 text ++ [10]) =
      splitLines before ++ [(line ++ utf8 text, true)] := by
    rw [whole, List.append_assoc, List.append_assoc, splitLines_append closed,
      ← List.append_assoc line, splitLines_ended inside']
  have lines : splitLines bytes = splitLines before ++ splitLines line := by
    rw [whole, splitLines_append closed]
  rw [readLog, lines, readLines_append_ok 0] at read
  obtain ⟨first, others, one, two, rfl⟩ := read
  rw [appendable]
  simp only [readLog, lines']
  cases line with
  | nil =>
    obtain rfl := Except.ok.inj two
    refine ⟨fun _ => ?_, fun unspaced => absurd (fun _ none => nomatch none) unspaced⟩
    refine (readLines_append_ok 0).mpr ⟨first, [link], one, ?_, by simp⟩
    have own := readLines_encoded lawful path encoded "" 0
    rwa [String.empty_append, lawful.fromStr_toString encoded] at own
  | cons b line =>
    rw [splitLines_open inside (List.cons_ne_nil b line)] at two
    obtain ⟨prior, isPrior, held⟩ := readLines_openLine two
    have own := readLines_encoded lawful path encoded prior 0
    rw [← isPrior] at own
    constructor
    · intro spaced
      have joined := lawful.roundTrip prior link text (isPrior ▸ spaced) encoded
      rw [joined] at own
      refine (readLines_append_ok 0).mpr ⟨first, [link], one, own, ?_⟩
      rcases held with ⟨-, rfl⟩ | ⟨other, parsed, -⟩
      · rw [List.append_nil]
      · obtain ⟨e, refused⟩ := lawful.trailing prior other link text parsed encoded
        rw [refused] at joined
        cases joined
    · intro unspaced chain' read'
      obtain ⟨-, others', -, two', -⟩ := (readLines_append_ok 0).mp read'
      have refused : ∃ e, json.fromStr (prior ++ text) = .error e := by
        rcases held with ⟨blank, -⟩ | ⟨other, parsed, -⟩
        · refine lawful.strictSpace prior link text blank ?_ encoded
          by_contra none
          exact unspaced fun b member =>
            by_contra fun other => none ⟨b, isPrior ▸ member, other⟩
        · exact lawful.trailing prior other link text parsed encoded
      obtain ⟨e, refused⟩ := refused
      rw [own, refused] at two'
      cases two'

/-- A file of one encoded link is read as that link. -/
theorem readLog_single {json : LinkJson} (lawful : json.Lawful) (path : PathBuf) {link : Link}
    {text : String} (encoded : json.toString link = .ok text) :
    readLog json path (some (utf8 text ++ [10])) = .ok [link] :=
  (readLog_append lawful [] rfl encoded).1 (fun _ none => nomatch none)

end Hansa
