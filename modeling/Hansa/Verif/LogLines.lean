import Hansa.Verif.RegistryRun

/-!
# A log in the middle of a write

Between two writes of a registry call the log holds encoded links, a line each, and behind them
a first part of one more line. Such bytes have one reading: what is closed by a newline is a
number of links, and what follows is read as a link only when all of its text is there. A log
that grows keeps what was read of it.
-/

namespace Hansa

variable {json : LinkJson} {path : PathBuf}

/-- No proper first part of an encoded link is the text of a link. -/
def LinkJson.PrefixFree (json : LinkJson) : Prop :=
  ∀ link text part, json.toString link = .ok text → utf8 part <+: utf8 text → part ≠ text →
    ∃ e, json.fromStr part = .error e

/-- The bytes are the links, encoded in a line each. -/
def Written (json : LinkJson) (bytes : List UInt8) (links : List Link) : Prop :=
  FileRegistry.chainBuffer json links = .ok bytes

/-- The bytes are a first part of an encoded link. -/
def Begun (json : LinkJson) (part : List UInt8) : Prop :=
  part = [] ∨ ∃ link text, json.toString link = .ok text ∧ part <+: utf8 text

/-- The bytes are encoded links in a line each, and a first part of one more. -/
def Lined (json : LinkJson) (bytes : List UInt8) : Prop :=
  ∃ front part links, bytes = front ++ part ∧ Written json front links ∧ Begun json part

/-! ## Lines of links -/

/-- No links are no bytes. -/
theorem written_nil : Written json [] [] := rfl

/-- The line of the first link, and the other lines. -/
theorem written_cons {bytes : List UInt8} {link : Link} {links : List Link} :
    Written json bytes (link :: links) ↔
      ∃ text rest, json.toString link = .ok text ∧ Written json rest links ∧
        bytes = utf8 text ++ [10] ++ rest := by
  rw [Written, FileRegistry.chainBuffer]
  constructor
  · intro written
    cases encoded : json.toString link with
    | error e =>
      rw [encoded] at written
      cases written
    | ok text =>
      rw [encoded] at written
      obtain ⟨rest, others, same⟩ := Except.bind_eq_ok.mp written
      exact ⟨text, rest, rfl, others, (Except.ok.inj same).symm⟩
  · rintro ⟨text, rest, encoded, others, rfl⟩
    rw [encoded]
    exact Except.bind_eq_ok.mpr ⟨rest, others, rfl⟩

/-- One link is one line. -/
theorem written_single {link : Link} {text : String} (encoded : json.toString link = .ok text) :
    Written json (utf8 text ++ [10]) [link] :=
  written_cons.mpr ⟨text, [], encoded, written_nil, (List.append_nil _).symm⟩

/-- Lines one after the other are links one after the other. -/
theorem Written.append {front back : List UInt8} {first others : List Link}
    (one : Written json front first) (two : Written json back others) :
    Written json (front ++ back) (first ++ others) := by
  induction first generalizing front with
  | nil =>
    obtain rfl := Except.ok.inj one
    exact two
  | cons link first ih =>
    obtain ⟨text, rest, encoded, written, rfl⟩ := written_cons.mp one
    rw [List.append_assoc]
    exact written_cons.mpr ⟨text, rest ++ back, encoded, ih written, rfl⟩

/-- The lines behind the first links are the other links. -/
theorem Written.behind {front back : List UInt8} {first others : List Link}
    (one : Written json front first) (both : Written json (front ++ back) (first ++ others)) :
    Written json back others := by
  induction first generalizing front with
  | nil =>
    obtain rfl := Except.ok.inj one
    exact both
  | cons link first ih =>
    obtain ⟨text, rest, encoded, written, rfl⟩ := written_cons.mp one
    obtain ⟨text', rest', encoded', written', same⟩ := written_cons.mp both
    obtain rfl := Except.ok.inj (encoded.symm.trans encoded')
    rw [List.append_assoc] at same
    exact ih written (List.append_cancel_left same ▸ written')

/-- Bytes that end in a newline are closed. -/
theorem closed_concat (bytes : List UInt8) : Closed (bytes ++ [10]) := by
  intro b last
  rw [List.getLast?_concat] at last
  exact (Option.some.inj last).symm

/-- No bytes are closed. -/
theorem closed_nil : Closed [] := fun _ none_ => nomatch none_

/-- Closed bytes behind others close them. -/
theorem Closed.append {front back : List UInt8} (one : Closed front) (two : Closed back) :
    Closed (front ++ back) := by
  cases back with
  | nil => rwa [List.append_nil]
  | cons b back =>
    intro b' last
    rw [List.getLast?_append_of_ne_nil _ (List.cons_ne_nil b back)] at last
    exact two b' last

/-- Lines of links are closed. -/
theorem Written.closed {bytes : List UInt8} {links : List Link}
    (written : Written json bytes links) : Closed bytes := by
  induction links generalizing bytes with
  | nil =>
    obtain rfl := Except.ok.inj written
    exact closed_nil
  | cons link links ih =>
    obtain ⟨text, rest, -, others, rfl⟩ := written_cons.mp written
    exact (closed_concat _).append (ih others)

/-- Lines of links are read as the links, wherever they stand. -/
theorem Written.read (lawful : json.Lawful) {bytes : List UInt8} {links : List Link}
    (written : Written json bytes links) (n : Nat) :
    readLines json path n (splitLines bytes) = .ok links := by
  induction links generalizing bytes with
  | nil =>
    obtain rfl := Except.ok.inj written
    rfl
  | cons link links ih =>
    obtain ⟨text, rest, encoded, others, rfl⟩ := written_cons.mp written
    rw [splitLines_append (closed_concat _)]
    refine (readLines_append_ok n).mpr ⟨[link], links, ?_, ih others, rfl⟩
    exact readLines_shift n (readLog_single lawful path encoded)

/-- An encoded link begins with a brace. -/
theorem utf8_encoded (lawful : json.Lawful) {link : Link} {text : String}
    (encoded : json.toString link = .ok text) : ∃ rest, utf8 text = 123 :: rest := by
  obtain ⟨fields, isText⟩ := lawful.object link text encoded
  refine ⟨utf8 (fields ++ "\x7d"), ?_⟩
  rw [isText, String.append_assoc, utf8_append]
  rfl

/-- A text without its newline is read as its link. -/
theorem readLines_text (lawful : json.Lawful) {link : Link} {text : String}
    (encoded : json.toString link = .ok text) (n : Nat) :
    readLines json path n (splitLines (utf8 text)) = .ok [link] := by
  obtain ⟨rest, brace⟩ := utf8_encoded lawful encoded
  have nonempty : utf8 text ≠ [] := brace ▸ List.cons_ne_nil _ _
  rw [splitLines_open (lawful.oneLine link text encoded) nonempty]
  obtain ⟨fields, isText⟩ := lawful.object link text encoded
  have content : lineContent (utf8 text, false) = utf8 text := if_neg fun no => nomatch no.1
  have visible : isBlank text = false := by
    have object := isBlank_object "" fields
    rwa [String.empty_append, ← isText] at object
  exact readLines_cons_eq_ok.mpr ⟨text, by rw [content, fromUtf8_utf8], .inr ⟨visible, link, [],
    lawful.fromStr_toString encoded, rfl, rfl⟩⟩

/-! ## First parts -/

/-- A begun line has no newline. -/
theorem Begun.inside (lawful : json.Lawful) {part : List UInt8} (begun : Begun json part) :
    10 ∉ part := by
  rcases begun with rfl | ⟨link, text, encoded, front⟩
  · exact List.not_mem_nil
  · exact fun member => lawful.oneLine link text encoded (front.subset member)

/-- The end of lines and an open line can be told in one way. -/
theorem closed_open_inj {front front' part part' : List UInt8} (closed : Closed front)
    (closed' : Closed front') (inside : 10 ∉ part) (inside' : 10 ∉ part')
    (same : front ++ part = front' ++ part') : front = front' ∧ part = part' := by
  have ends : ∀ {front part : List UInt8}, Closed front → 10 ∉ part →
      (front ++ part).rtakeWhile (· ≠ 10) = part := by
    intro front part closed inside
    have plain : ∀ b ∈ part.reverse, decide (b ≠ 10) = true := by
      intro b member
      simp only [decide_eq_true_eq]
      rintro rfl
      exact inside (List.mem_reverse.mp member)
    rw [List.rtakeWhile, List.reverse_append, List.takeWhile_append_of_pos plain]
    have stops : front.reverse.takeWhile (fun b => decide (b ≠ 10)) = [] := by
      cases last : front.reverse with
      | nil => rfl
      | cons b rest =>
        have isLast : b = 10 := by
          apply closed b
          rw [← List.head?_reverse, last]
          rfl
        rw [List.takeWhile_cons_of_neg (by simp [isLast])]
    rw [stops, List.append_nil, List.reverse_reverse]
  have parts : part = part' := by rw [← ends closed inside, same, ends closed' inside']
  subst parts
  exact ⟨List.append_cancel_right same, rfl⟩

/-- A closed first part of lines and an open line is a first part of the lines. -/
theorem prefix_of_closed {front bytes part : List UInt8} (closed : Closed front)
    (inside : 10 ∉ part) (isFront : front <+: bytes ++ part) : front <+: bytes := by
  obtain ⟨rest, same⟩ := isFront
  rcases List.append_eq_append_iff.mp same with ⟨more, isBytes, -⟩ | ⟨more, isFront, isPart⟩
  · exact ⟨more, isBytes.symm⟩
  · cases more with
    | nil => exact ⟨[], by rw [isFront, List.append_nil, List.append_nil]⟩
    | cons b more =>
      -- Its last byte would be a newline of the open line.
      have nonempty := List.cons_ne_nil b more
      have last := closed ((b :: more).getLast nonempty) (by
        rw [isFront, List.getLast?_append_of_ne_nil _ nonempty,
          List.getLast?_eq_some_getLast nonempty]
        rfl)
      refine absurd ?_ inside
      rw [isPart]
      exact List.mem_append_left _ (last ▸ List.getLast_mem nonempty)

/-- A closed first part of lines of links is a number of lines. -/
theorem Written.front (lawful : json.Lawful) {front bytes : List UInt8} {links : List Link}
    (written : Written json bytes links) (closed : Closed front) (isFront : front <+: bytes) :
    ∃ first others rest, links = first ++ others ∧ bytes = front ++ rest ∧
      Written json front first ∧ Written json rest others := by
  obtain ⟨rest, rfl⟩ := isFront
  induction links generalizing front with
  | nil =>
    obtain ⟨rfl, rfl⟩ := List.append_eq_nil_iff.mp (Except.ok.inj written).symm
    exact ⟨[], [], [], rfl, rfl, written_nil, written_nil⟩
  | cons link links ih =>
    obtain ⟨text, behind, encoded, others, same⟩ := written_cons.mp written
    cases front with
    | nil => exact ⟨[], link :: links, rest, rfl, rfl, written_nil, written⟩
    | cons b front =>
      -- The first line of the part is the line of the first link.
      have oneLine := lawful.oneLine link text encoded
      have long : utf8 text ++ [10] <+: b :: front := by
        rcases List.append_eq_append_iff.mp same with ⟨more, isLine, -⟩ | ⟨more, isMore, -⟩
        · have short : b :: front <+: utf8 text ++ [10] := ⟨more, isLine.symm⟩
          rcases List.prefix_concat_iff.mp short with all | inner
          · rw [all]
          · have nonempty := List.cons_ne_nil b front
            have last := closed ((b :: front).getLast nonempty)
              (List.getLast?_eq_some_getLast nonempty)
            exact absurd (inner.subset (last ▸ List.getLast_mem nonempty)) oneLine
        · exact ⟨more, isMore.symm⟩
      obtain ⟨more, isMore⟩ := long
      rw [← isMore, List.append_assoc] at same
      have closedMore : Closed more := by
        intro x last
        apply closed x
        rw [← isMore]
        cases more with
        | nil => cases last
        | cons y more => rwa [List.getLast?_append_of_ne_nil _ (List.cons_ne_nil y more)]
      obtain ⟨first, others', rest', rfl, both, one, two⟩ :=
        ih closedMore (by rw [List.append_cancel_left same]; exact others)
      obtain rfl := List.append_cancel_left both
      refine ⟨link :: first, others', rest, rfl, rfl, ?_, two⟩
      exact written_cons.mpr ⟨text, more, encoded, one, isMore.symm⟩

/-- Bytes are lines of one list of links. -/
theorem Written.unique (lawful : json.Lawful) {bytes : List UInt8} {links links' : List Link}
    (one : Written json bytes links) (two : Written json bytes links') : links = links' := by
  have read : readLines json ⟨[]⟩ 0 (splitLines bytes) = .ok links := one.read lawful 0
  exact Except.ok.inj (read.symm.trans (two.read lawful 0))

/-! ## What a reader makes of a log -/

/-- Lines of links are a log. -/
theorem Written.lined {bytes : List UInt8} {links : List Link}
    (written : Written json bytes links) : Lined json bytes :=
  ⟨bytes, [], links, (List.append_nil bytes).symm, written, .inl rfl⟩

/-- More closed bytes of a log are more links. -/
theorem Lined.more (lawful : json.Lawful) {bytes front more : List UInt8} {links : List Link}
    (lined : Lined json bytes) (written : Written json front links) (closed : Closed more)
    (isFront : front ++ more <+: bytes) :
    ∃ others, Written json more others ∧ Written json (front ++ more) (links ++ others) := by
  obtain ⟨whole, part, all, rfl, writtenAll, begun⟩ := lined
  have inFront := prefix_of_closed (written.closed.append closed) (begun.inside lawful) isFront
  obtain ⟨some_, -, -, -, -, writtenSome, -⟩ :=
    writtenAll.front lawful (written.closed.append closed) inFront
  obtain ⟨links', others, rest, rfl, same, writtenFront, writtenRest⟩ :=
    writtenSome.front lawful written.closed (List.prefix_append _ _)
  obtain rfl := written.unique lawful writtenFront
  obtain rfl := List.append_cancel_left same
  exact ⟨others, writtenRest, writtenSome⟩

/-- The open line of a log was begun. -/
theorem Lined.openLine (lawful : json.Lawful) {front line : List UInt8}
    (lined : Lined json (front ++ line)) (closed : Closed front) (inside : 10 ∉ line) :
    Begun json line := by
  obtain ⟨whole, part, links, same, written, begun⟩ := lined
  obtain ⟨rfl, rfl⟩ := closed_open_inj closed written.closed inside (begun.inside lawful) same
  exact begun

/-- A begun line that is read is all of its text. -/
theorem Begun.read (lawful : json.Lawful) (free : json.PrefixFree) {line : List UInt8}
    (begun : Begun json line) (nonempty : line ≠ []) {links : List Link} {n : Nat}
    (read : readLines json path n [(line, false)] = .ok links) :
    ∃ link text, json.toString link = .ok text ∧ line = utf8 text ∧ links = [link] := by
  rcases begun with rfl | ⟨link, text, encoded, front⟩
  · exact absurd rfl nonempty
  obtain ⟨prior, rfl, ⟨blank, -⟩ | ⟨other, parsed, rfl⟩⟩ := readLines_openLine read
  · obtain ⟨rest, brace⟩ := utf8_encoded lawful encoded
    cases decoded : utf8 prior with
    | nil => exact absurd decoded nonempty
    | cons b more =>
      obtain rfl : b = 123 := by
        rw [decoded, brace] at front
        exact (List.cons_prefix_cons.mp front).1
      -- The text begins with a brace, which is no white space.
      have member : (123 : UInt8) ∈ prior.toList.flatMap String.utf8EncodeChar := by
        rw [← utf8_eq_flatMap, decoded]
        exact List.mem_cons_self
      obtain ⟨ch, isChar, byte⟩ := List.mem_flatMap.mp member
      have isBrace := char_of_ascii_byte byte (by decide)
      have space := List.all_eq_true.mp blank ch isChar
      rw [isWhitespace, isBrace] at space
      exact absurd space (by decide)
  · by_cases whole : prior = text
    · subst whole
      obtain rfl := Except.ok.inj (parsed.symm.trans (lawful.fromStr_toString encoded))
      exact ⟨other, prior, encoded, rfl, rfl⟩
    · obtain ⟨e, refused⟩ := free link text prior encoded front whole
      cases parsed.symm.trans refused

/-- Two encoded links, one at the front of the other, are one. -/
theorem text_eq_of_prefix (lawful : json.Lawful) (free : json.PrefixFree) {link link' : Link}
    {text text' : String} (encoded : json.toString link = .ok text)
    (encoded' : json.toString link' = .ok text') (front : utf8 text <+: utf8 text') :
    text = text' := by
  by_contra different
  obtain ⟨e, refused⟩ := free link' text' text encoded' front different
  cases (lawful.fromStr_toString encoded).symm.trans refused

/-- A link's text at the front of a line is the text of the line, and its newline follows. -/
theorem text_eq_of_line (lawful : json.Lawful) (free : json.PrefixFree) {link link' : Link}
    {text text' : String} (encoded : json.toString link = .ok text)
    (encoded' : json.toString link' = .ok text') {rest behind : List UInt8}
    (same : utf8 text ++ rest = utf8 text' ++ 10 :: behind) :
    text = text' ∧ rest = 10 :: behind := by
  have oneLine := lawful.oneLine link text encoded
  have front : utf8 text <+: utf8 text' := by
    rcases List.append_eq_append_iff.mp same with ⟨extra, isText, -⟩ | ⟨extra, isText, after⟩
    · exact ⟨extra, isText.symm⟩
    · cases extra with
      | nil => exact ⟨[], by rw [isText, List.append_nil, List.append_nil]⟩
      | cons b extra =>
        obtain ⟨rfl, -⟩ := List.cons.inj after
        refine absurd ?_ oneLine
        rw [isText]
        exact List.mem_append_right _ List.mem_cons_self
  obtain rfl := text_eq_of_prefix lawful free encoded encoded' front
  exact ⟨rfl, List.append_cancel_left same⟩

/-- A link's text at the front of lines of links is the text of the first. -/
theorem Written.head (lawful : json.Lawful) (free : json.PrefixFree) {bytes : List UInt8}
    {links : List Link} {link : Link} {text : String} (written : Written json bytes links)
    (encoded : json.toString link = .ok text) (front : utf8 text <+: bytes) :
    links.head? = some link := by
  cases links with
  | nil =>
    obtain rfl := Except.ok.inj written
    obtain ⟨rest, brace⟩ := utf8_encoded lawful encoded
    rw [brace, List.prefix_nil] at front
    cases front
  | cons link' links =>
    obtain ⟨text', behind, encoded', -, rfl⟩ := written_cons.mp written
    obtain ⟨rest, same⟩ := front
    rw [List.append_assoc] at same
    obtain ⟨rfl, -⟩ := text_eq_of_line lawful free encoded encoded' same
    have back := lawful.fromStr_toString encoded
    rw [lawful.fromStr_toString encoded'] at back
    exact congrArg some (Except.ok.inj back)

/-- Behind all of a link's text a log goes on with the newline. -/
theorem Lined.newline (lawful : json.Lawful) (free : json.PrefixFree) {front rest : List UInt8}
    {links : List Link} {link : Link} {text : String} (written : Written json front links)
    (encoded : json.toString link = .ok text)
    (lined : Lined json (front ++ utf8 text ++ rest)) (nonempty : rest ≠ []) :
    ∃ behind, rest = 10 :: behind := by
  obtain ⟨whole, part, all, same, writtenAll, begun⟩ := lined
  have isFront : front <+: whole ++ part := by
    rw [← same, List.append_assoc]
    exact List.prefix_append _ _
  have inFront := prefix_of_closed written.closed (begun.inside lawful) isFront
  obtain ⟨first, others, lines, -, rfl, -, writtenLines⟩ :=
    writtenAll.front lawful written.closed inFront
  rw [List.append_assoc, List.append_assoc] at same
  have tail := List.append_cancel_left same
  cases others with
  | nil =>
    -- The text is all of the line that was begun, so nothing follows it.
    obtain rfl := Except.ok.inj writtenLines
    rcases begun with rfl | ⟨link', text', encoded', isPart⟩
    · exact absurd (List.append_eq_nil_iff.mp tail).2 nonempty
    · have front' : utf8 text <+: utf8 text' := (show _ <+: part from ⟨rest, tail⟩).trans isPart
      obtain rfl := text_eq_of_prefix lawful free encoded encoded' front'
      have short := isPart.length_le
      have sum := congrArg List.length tail
      rw [List.length_append, List.nil_append] at sum
      exact absurd (List.length_eq_zero_iff.mp (by omega)) nonempty
  | cons link' others =>
    obtain ⟨text', more, encoded', -, rfl⟩ := written_cons.mp writtenLines
    rw [List.append_assoc, List.append_assoc] at tail
    exact ⟨more ++ part, (text_eq_of_line lawful free encoded encoded' tail).2⟩

/-- The first link that is read of a log stands at its front. -/
theorem Lined.head (lawful : json.Lawful) (free : json.PrefixFree) {bytes : List UInt8}
    {links : List Link} {link : Link} (lined : Lined json bytes)
    (read : readLog json path (some bytes) = .ok links) (first : links.head? = some link) :
    ∃ text, json.toString link = .ok text ∧ utf8 text <+: bytes := by
  obtain ⟨front, part, all, rfl, written, begun⟩ := lined
  rw [readLog, splitLines_append written.closed, readLines_append_ok 0] at read
  obtain ⟨one, others, readFront, readPart, rfl⟩ := read
  obtain rfl := Except.ok.inj ((written.read lawful 0).symm.trans readFront)
  cases all with
  | cons link' all =>
    obtain rfl := Option.some.inj first
    obtain ⟨text, rest, encoded, -, rfl⟩ := written_cons.mp written
    refine ⟨text, encoded, ?_⟩
    rw [List.append_assoc, List.append_assoc]
    exact List.prefix_append _ _
  | nil =>
    obtain rfl := Except.ok.inj written
    by_cases nothing : part = []
    · subst nothing
      obtain rfl := Except.ok.inj readPart
      cases first
    · rw [splitLines_open (begun.inside lawful) nothing] at readPart
      obtain ⟨link', text, encoded, rfl, rfl⟩ := begun.read lawful free nothing readPart
      obtain rfl := Option.some.inj first
      exact ⟨text, encoded, List.prefix_rfl⟩

end Hansa
