import Mathlib.Data.List.Chain
import Hansa.Context

/-!
# Sentences cut and joined

The splitter leaves the end mark with the sentence, and the join puts a period behind every
sentence but the last. So a rebuilt text is split back into the sentences it was built from
exactly when there is at most one of them.
-/

namespace Hansa

/-! ## The splitter -/

/-- The splitter does not cut between these neighbours. -/
def Joined (c next : Char) : Prop := ¬ (isSentenceEnd c && (next = ' ' || next = '\n')) = true

/-- The text ends with an end mark. -/
def EndsSentence (chars : List Char) : Prop := chars.getLast?.any isSentenceEnd = true

instance (chars : List Char) : Decidable (EndsSentence chars) :=
  inferInstanceAs (Decidable (_ = true))

/-- White space ends no sentence. -/
theorem joined_of_cut {c next : Char}
    (cut : (isSentenceEnd c && (next = ' ' || next = '\n')) = true) (later : Char) :
    Joined next later := by
  simp only [Bool.and_eq_true, Bool.or_eq_true, decide_eq_true_eq] at cut
  rcases cut.2 with rfl | rfl <;> simp [Joined, isSentenceEnd]

/-- The pieces make up the text. -/
theorem splitLoop_flatten (current rest : List Char) :
    (splitLoop current rest).flatten = current ++ rest := by
  fun_induction splitLoop current rest with
  | case1 => rfl
  | case2 current filled => simp
  | case3 current c => simp
  | case4 current c next rest cut ih => simp [ih]
  | case5 current c next rest whole ih => simp [ih]

/-- No piece is cut again. -/
theorem splitLoop_uncut {current rest : List Char} (uncut : current.IsChain Joined)
    (meets : ∀ x ∈ current.getLast?, ∀ y ∈ rest.head?, Joined x y) :
    ∀ piece ∈ splitLoop current rest, piece.IsChain Joined := by
  have extend : ∀ {current : List Char} {c : Char}, current.IsChain Joined →
      (∀ x ∈ current.getLast?, Joined x c) → (current ++ [c]).IsChain Joined := by
    intro current c uncut meets
    refine List.isChain_append.mpr ⟨uncut, List.isChain_singleton c, ?_⟩
    intro x last y head
    obtain rfl : c = y := by simpa using head
    exact meets x last
  fun_induction splitLoop current rest with
  | case1 => exact fun _ absent => nomatch absent
  | case2 current filled =>
    intro piece member
    obtain rfl := List.mem_singleton.mp member
    exact uncut
  | case3 current c =>
    intro piece member
    obtain rfl := List.mem_singleton.mp member
    exact extend uncut fun x last => meets x last c rfl
  | case4 current c next rest cut ih =>
    have first := extend uncut fun x last => meets x last c rfl
    have later := ih (List.isChain_singleton next) (by
      intro x last y _
      obtain rfl : next = x := by simpa using last
      exact joined_of_cut cut y)
    exact List.forall_mem_cons.mpr ⟨first, later⟩
  | case5 current c next rest whole ih =>
    apply ih (extend uncut fun x last => meets x last c rfl)
    intro x last y head
    obtain rfl : c = x := by simpa using last
    obtain rfl : next = y := by simpa using head
    exact whole

/-- A text that is not cut is one piece. -/
theorem splitLoop_whole (current : List Char) {rest : List Char} (uncut : rest.IsChain Joined)
    (filled : current ++ rest ≠ []) : splitLoop current rest = [current ++ rest] := by
  fun_induction splitLoop current rest with
  | case1 => exact absurd rfl filled
  | case2 current _ => rw [List.append_nil]
  | case3 current c => rfl
  | case4 current c next rest cut ih =>
    exact absurd cut (List.isChain_cons_cons.mp uncut).1
  | case5 current c next rest whole ih =>
    rw [ih (List.isChain_cons_cons.mp uncut).2 (by simp), List.append_assoc]
    rfl

/-- The first piece reaches to the first cut. -/
theorem splitLoop_cut (current : List Char) {front : List Char} (rest : List Char) {c : Char}
    (uncut : (front ++ [c]).IsChain Joined) (ends : isSentenceEnd c = true) :
    splitLoop current (front ++ c :: ' ' :: rest) =
      (current ++ front ++ [c]) :: splitLoop [' '] rest := by
  induction front generalizing current with
  | nil =>
    rw [List.nil_append, splitLoop, if_pos (by simp [ends]), List.append_nil]
  | cons x front ih =>
    have shape : ∃ next later, front ++ [c] = next :: later ∧
        front ++ c :: ' ' :: rest = next :: (later ++ ' ' :: rest) := by
      cases front with
      | nil => exact ⟨c, [], rfl, rfl⟩
      | cons y front => exact ⟨y, front ++ [c], rfl, by simp⟩
    obtain ⟨next, later, short, long⟩ := shape
    rw [List.cons_append, short] at uncut
    have joined := (List.isChain_cons_cons.mp uncut).1
    have tail := ih (current ++ [x]) (by
      rw [short]
      exact (List.isChain_cons_cons.mp uncut).2)
    rw [List.cons_append, long, splitLoop, if_neg joined, ← long, tail]
    simp

/-- What stands in front of a text goes with its first piece. -/
theorem splitLoop_front (front current rest : List Char) (filled : current ++ rest ≠ []) :
    ∃ piece pieces, splitLoop current rest = piece :: pieces ∧
      splitLoop (front ++ current) rest = (front ++ piece) :: pieces := by
  fun_induction splitLoop current rest with
  | case1 => exact absurd rfl filled
  | case2 current some_ =>
    refine ⟨current, [], rfl, ?_⟩
    rw [splitLoop, if_neg (by simp [some_])]
  | case3 current c => exact ⟨current ++ [c], [], rfl, by rw [splitLoop, List.append_assoc]⟩
  | case4 current c next rest cut ih =>
    refine ⟨current ++ [c], splitLoop [next] rest, rfl, ?_⟩
    rw [splitLoop, if_pos cut, List.append_assoc]
  | case5 current c next rest whole ih =>
    obtain ⟨piece, pieces, split, split'⟩ := ih (by simp)
    refine ⟨piece, pieces, split, ?_⟩
    rw [splitLoop, if_neg whole, List.append_assoc, split']

/-! ## Trimmed sentences -/

/-- `trim`, on characters. -/
def trimChars (chars : List Char) : List Char :=
  ((chars.dropWhile isWhitespace).reverse.dropWhile isWhitespace).reverse

/-- The characters of a trimmed text. -/
theorem toList_trim (text : String) : (trim text).toList = trimChars text.toList :=
  String.toList_ofList

/-- Trimming leaves a part of the text. -/
theorem trimChars_part (chars : List Char) : trimChars chars <:+: chars := by
  have back : (chars.dropWhile isWhitespace).reverse.dropWhile isWhitespace <:+
      (chars.dropWhile isWhitespace).reverse := List.dropWhile_suffix _
  have front : trimChars chars <+: chars.dropWhile isWhitespace := by
    rw [trimChars, ← List.reverse_suffix, List.reverse_reverse]
    exact back
  exact front.isInfix.trans (List.dropWhile_suffix _).isInfix

/-- No white space stands at the ends. -/
def Trimmed (chars : List Char) : Prop :=
  (∀ c ∈ chars.head?, isWhitespace c = false) ∧ ∀ c ∈ chars.getLast?, isWhitespace c = false

/-- A list whose head does not satisfy the predicate is not shortened. -/
theorem dropWhile_eq_self {chars : List Char}
    (plain : ∀ c ∈ chars.head?, isWhitespace c = false) :
    chars.dropWhile isWhitespace = chars := by
  cases chars with
  | nil => rfl
  | cons c chars => rw [List.dropWhile_cons_of_neg (by simp [plain c rfl])]

/-- A trimmed text is not trimmed further. -/
theorem Trimmed.trimChars_eq {chars : List Char} (trimmed : Trimmed chars) :
    trimChars chars = chars := by
  have back : ∀ c ∈ chars.reverse.head?, isWhitespace c = false := by
    rw [List.head?_reverse]
    exact trimmed.2
  rw [trimChars, dropWhile_eq_self trimmed.1, dropWhile_eq_self back, List.reverse_reverse]

/-- Trimming leaves no white space at the ends. -/
theorem trimmed_trimChars (chars : List Char) : Trimmed (trimChars chars) := by
  have plainHead : ∀ l : List Char, ∀ c ∈ (l.dropWhile isWhitespace).head?,
      isWhitespace c = false := by
    intro l c head
    have stops := List.head?_dropWhile_not isWhitespace l
    rw [Option.mem_def.mp head] at stops
    simpa using stops
  constructor
  · intro c head
    have front : trimChars chars <+: chars.dropWhile isWhitespace := by
      rw [trimChars, ← List.reverse_suffix, List.reverse_reverse]
      exact List.dropWhile_suffix _
    obtain ⟨tail, whole⟩ := front
    have inside : c ∈ (chars.dropWhile isWhitespace).head? := by
      rw [← whole, List.head?_append, Option.mem_def.mp head]
      rfl
    exact plainHead chars c inside
  · intro c last
    rw [trimChars, List.getLast?_reverse] at last
    exact plainHead _ c last

/-! ## The sentences of a text -/

/-- The trimmed sentences of a text that are not empty. -/
def sentencesOf (content : String) : List String :=
  ((splitSentences content).map trim).filter (· ≠ "")

/-- A sentence as the splitter and the trimming leave it. -/
structure IsSentence (sentence : String) : Prop where
  /-- It is not empty. -/
  filled : sentence.toList ≠ []
  /-- It has no white space at its ends. -/
  trimmed : Trimmed sentence.toList
  /-- The splitter does not cut it. -/
  uncut : sentence.toList.IsChain Joined

/-- The sentences of a text are not cut again. -/
theorem isSentence_of_mem {content sentence : String} (member : sentence ∈ sentencesOf content) :
    IsSentence sentence := by
  obtain ⟨inside, filled⟩ := List.mem_filter.mp member
  obtain ⟨piece, cut, rfl⟩ := List.mem_map.mp inside
  obtain ⟨chars, split, rfl⟩ := List.mem_map.mp cut
  have uncut : chars.IsChain Joined :=
    splitLoop_uncut .nil (fun _ absent => nomatch absent) chars split
  refine ⟨?_, ?_, ?_⟩
  · rw [decide_eq_true_eq] at filled
    exact fun empty => filled (String.toList_eq_nil_iff.mp empty)
  · rw [toList_trim]
    exact trimmed_trimChars _
  · rw [toList_trim, String.toList_ofList]
    exact uncut.infix (trimChars_part chars)

/-- A sentence is its own sentence. -/
theorem IsSentence.sentencesOf_eq {sentence : String} (isSentence : IsSentence sentence) :
    sentencesOf sentence = [sentence] := by
  have one : splitSentences sentence = [sentence] := by
    have whole := splitLoop_whole [] isSentence.uncut isSentence.filled
    rw [splitSentences, whole, List.nil_append, List.map_singleton, String.ofList_toList]
  have same : trim sentence = sentence := by
    apply String.toList_inj.mp
    rw [toList_trim, isSentence.trimmed.trimChars_eq]
  have filled : sentence ≠ "" := fun empty => isSentence.filled (String.toList_eq_nil_iff.mpr empty)
  rw [sentencesOf, one, List.map_singleton, same, List.filter_cons_of_pos (by simpa using filled)]
  rfl

/-- A sentence is no longer than its text. -/
theorem length_of_mem_sentencesOf {content sentence : String}
    (member : sentence ∈ sentencesOf content) :
    sentence.toList.length ≤ content.toList.length := by
  obtain ⟨inside, _⟩ := List.mem_filter.mp member
  obtain ⟨piece, cut, rfl⟩ := List.mem_map.mp inside
  obtain ⟨chars, split, rfl⟩ := List.mem_map.mp cut
  have piecewise : chars.Sublist content.toList := by
    have whole := splitLoop_flatten [] content.toList
    rw [List.nil_append] at whole
    have inWhole := List.sublist_flatten_of_mem split
    rwa [whole] at inWhole
  rw [toList_trim, String.toList_ofList]
  exact (trimChars_part chars).length_le.trans piecewise.length_le

/-! ## What the loop keeps -/

/-- One turn of the loop on a trimmed sentence. -/
def keepTrimmed (key : String → Bytes 32) (s : Sentences) (sentence : String) : Sentences :=
  if s.seen.contains (key sentence) then { s with dropped := s.dropped + 1 }
  else { s with seen := s.seen ++ [key sentence], keptParts := s.keptParts ++ [sentence] }

variable {key : String → Bytes 32} {seen : List (Bytes 32)} {content : String}

/-- The loop runs over the trimmed sentences. -/
theorem keepSentences_eq (key : String → Bytes 32) (seen : List (Bytes 32)) (content : String) :
    keepSentences key seen content =
      (sentencesOf content).foldl (keepTrimmed key) ⟨[], 0, seen⟩ := by
  have turn : keepSentence key = fun s sentence =>
      if trim sentence ≠ "" then keepTrimmed key s (trim sentence) else s := by
    funext s sentence
    by_cases empty : trim sentence = ""
    · simp [keepSentence, empty]
    · simp [keepSentence, keepTrimmed, empty]
  rw [keepSentences, turn, sentencesOf, List.foldl_filter, List.foldl_map]
  simp only [decide_eq_true_eq]

/-- What a run of the loop over sentences keeps and drops. -/
structure Keeps (key : String → Bytes 32) (seen : List (Bytes 32)) (sentences : List String)
    (s : Sentences) : Prop where
  /-- Sentences are kept in their order. -/
  part : s.keptParts.Sublist sentences
  /-- The keys of kept sentences are remembered. -/
  remembers : s.seen = seen ++ s.keptParts.map key
  /-- A kept sentence was not seen before. -/
  fresh : ∀ t ∈ s.keptParts, key t ∉ seen
  /-- No two kept sentences have one key. -/
  distinct : (s.keptParts.map key).Nodup
  /-- Every sentence is seen afterwards. -/
  covers : ∀ t ∈ sentences, key t ∈ s.seen
  /-- Every sentence is kept or counted. -/
  counts : s.dropped + s.keptParts.length = sentences.length

/-- What the loop keeps and drops of trimmed sentences. -/
theorem foldl_keepTrimmed_keeps (key : String → Bytes 32) (seen : List (Bytes 32))
    (sentences : List String) :
    Keeps key seen sentences (sentences.foldl (keepTrimmed key) ⟨[], 0, seen⟩) := by
  induction sentences using List.reverseRecOn with
  | nil =>
    exact ⟨.slnil, (List.append_nil _).symm, nofun, List.nodup_nil, nofun, rfl⟩
  | append_singleton sentences t ih =>
    rw [List.foldl_concat]
    generalize sentences.foldl (keepTrimmed key) ⟨[], 0, seen⟩ = s at ih
    by_cases known : key t ∈ s.seen
    · rw [keepTrimmed, if_pos (List.contains_iff_mem.mpr known)]
      have counts := ih.counts
      refine ⟨ih.part.trans (List.sublist_append_left _ _), ih.remembers, ih.fresh, ih.distinct,
        ?_, ?_⟩
      · intro u member
        rcases List.mem_append.mp member with earlier | last
        · exact ih.covers u earlier
        · obtain rfl := List.mem_singleton.mp last
          exact known
      · show s.dropped + 1 + s.keptParts.length = _
        rw [List.length_append, List.length_singleton]
        omega
    · rw [keepTrimmed, if_neg (mt List.contains_iff_mem.mp known)]
      have counts := ih.counts
      have notKnown := known
      rw [ih.remembers, List.mem_append, not_or] at notKnown
      refine ⟨ih.part.append (List.Sublist.refl [t]), ?_, ?_, ?_, ?_, ?_⟩
      · show s.seen ++ [key t] = seen ++ (s.keptParts ++ [t]).map key
        rw [ih.remembers, List.map_append, List.append_assoc]
        rfl
      · intro u member
        rcases List.mem_append.mp member with earlier | last
        · exact ih.fresh u earlier
        · obtain rfl := List.mem_singleton.mp last
          exact notKnown.1
      · show ((s.keptParts ++ [t]).map key).Nodup
        rw [List.map_append, List.map_singleton, ← List.concat_eq_append]
        exact ih.distinct.concat notKnown.2
      · intro u member
        rcases List.mem_append.mp member with earlier | last
        · exact List.mem_append_left _ (ih.covers u earlier)
        · obtain rfl := List.mem_singleton.mp last
          exact List.mem_append_right _ List.mem_cons_self
      · show s.dropped + (s.keptParts ++ [t]).length = _
        rw [List.length_append, List.length_append, List.length_singleton]
        omega

/-- What the loop keeps and drops. -/
theorem keepSentences_keeps (key : String → Bytes 32) (seen : List (Bytes 32)) (content : String) :
    Keeps key seen (sentencesOf content) (keepSentences key seen content) := by
  rw [keepSentences_eq]
  exact foldl_keepTrimmed_keeps key seen (sentencesOf content)

/-- A key is kept exactly when a sentence has it and it was not seen before. -/
theorem Keeps.key_mem_iff {sentences : List String} {s : Sentences}
    (keeps : Keeps key seen sentences s) (k : Bytes 32) :
    k ∈ s.keptParts.map key ↔ k ∈ sentences.map key ∧ k ∉ seen := by
  constructor
  · intro member
    obtain ⟨t, kept, rfl⟩ := List.mem_map.mp member
    exact ⟨List.mem_map_of_mem (keeps.part.subset kept), keeps.fresh t kept⟩
  · rintro ⟨member, new⟩
    obtain ⟨t, inside, rfl⟩ := List.mem_map.mp member
    have seenNow := keeps.covers t inside
    rw [keeps.remembers, List.mem_append] at seenNow
    exact seenNow.resolve_left new

/-- The first sentence that is kept is the first that was not seen. -/
theorem head?_keptParts (key : String → Bytes 32) (seen : List (Bytes 32)) (content : String) :
    (keepSentences key seen content).keptParts.head? =
      (sentencesOf content).find? fun t => key t ∉ seen := by
  rw [keepSentences_eq]
  induction sentencesOf content using List.reverseRecOn with
  | nil => rfl
  | append_singleton sentences t ih =>
    have keeps := foldl_keepTrimmed_keeps key seen sentences
    rw [List.foldl_concat, List.find?_append, ← ih]
    generalize sentences.foldl (keepTrimmed key) ⟨[], 0, seen⟩ = s at keeps
    have remembers := keeps.remembers
    by_cases known : key t ∈ s.seen
    · rw [keepTrimmed, if_pos (List.contains_iff_mem.mpr known)]
      cases kept : s.keptParts with
      | nil =>
        rw [kept, List.map_nil, List.append_nil] at remembers
        rw [remembers] at known
        simp [known]
      | cons first rest => rfl
    · rw [keepTrimmed, if_neg (mt List.contains_iff_mem.mp known)]
      rw [remembers, List.mem_append, not_or] at known
      cases s.keptParts <;> simp [known.1]

/-! ## The rebuilt text -/

/-- A sentence with an end mark, a period where it had none. -/
def closeSentence (sentence : String) : String :=
  if EndsSentence sentence.toList then sentence else sentence ++ "."

/-- The sentences, the last one with an end mark. -/
def closeLast : List String → List String
  | [] => []
  | [sentence] => [closeSentence sentence]
  | sentence :: next :: rest => sentence :: closeLast (next :: rest)

/-- A sentence with a period behind it is a sentence. -/
theorem IsSentence.period {sentence : String} (isSentence : IsSentence sentence) :
    IsSentence (sentence ++ ".") := by
  have chars : (sentence ++ ".").toList = sentence.toList ++ ['.'] := String.toList_append
  refine ⟨?_, ⟨?_, ?_⟩, ?_⟩ <;> rw [chars]
  · simp
  · intro c head
    apply isSentence.trimmed.1
    rw [List.head?_append] at head
    obtain ⟨first, atHead⟩ := Option.isSome_iff_exists.mp
      (List.isSome_head?.mpr isSentence.filled)
    rw [atHead] at head ⊢
    exact head
  · intro c last
    obtain rfl : '.' = c := by simpa using last
    decide
  · refine List.isChain_append.mpr ⟨isSentence.uncut, List.isChain_singleton _, ?_⟩
    intro x _ y head
    obtain rfl : '.' = y := by simpa using head
    simp [Joined]

/-- A closed sentence is a sentence. -/
theorem IsSentence.closeSentence {sentence : String} (isSentence : IsSentence sentence) :
    IsSentence (closeSentence sentence) := by
  unfold Hansa.closeSentence
  split
  · exact isSentence
  · exact isSentence.period

/-- A closed sentence ends with an end mark. -/
theorem endsSentence_closeSentence (sentence : String) :
    EndsSentence (closeSentence sentence).toList := by
  unfold closeSentence
  split
  · assumption
  · rw [String.toList_append]
    simp [EndsSentence, isSentenceEnd]

/-- Closing a closed sentence changes nothing. -/
theorem closeSentence_idem (sentence : String) :
    closeSentence (closeSentence sentence) = closeSentence sentence :=
  if_pos (endsSentence_closeSentence sentence)

/-- A closed sentence is at most one character longer. -/
theorem length_closeSentence_le (sentence : String) :
    (closeSentence sentence).toList.length ≤ sentence.toList.length + 1 := by
  unfold closeSentence
  split
  · omega
  · rw [String.toList_append, List.length_append]
    exact le_rfl

/-- A text rebuilt from one sentence is the closed sentence. -/
theorem rebuild_singleton {sentence : String} (isSentence : IsSentence sentence) :
    rebuild [sentence] = closeSentence sentence := by
  have single : ". ".intercalate [sentence] = sentence := by
    apply String.toList_inj.mp
    rw [String.toList_intercalate, List.map_singleton, List.intercalate_singleton]
  have filled : sentence ≠ "" := fun empty => isSentence.filled (String.toList_eq_nil_iff.mpr empty)
  rw [rebuild, single, if_neg filled]
  rfl

/-- A text rebuilt from several sentences has a period behind the first one, whatever ends it. -/
theorem rebuild_cons_cons (first second : String) (rest : List String) :
    ∃ tail, (rebuild (first :: second :: rest)).toList = first.toList ++ '.' :: ' ' :: tail := by
  have joined : (". ".intercalate (first :: second :: rest)).toList =
      first.toList ++ '.' :: ' ' :: (". ".intercalate (second :: rest)).toList := by
    rw [String.toList_intercalate, List.map_cons, List.map_cons, List.intercalate_cons_cons,
      String.toList_intercalate, List.map_cons]
    simp
  have filled : ". ".intercalate (first :: second :: rest) ≠ "" := by
    intro empty
    rw [empty] at joined
    simp at joined
  unfold rebuild
  rw [if_neg filled]
  split
  · exact ⟨_, joined⟩
  · refine ⟨(". ".intercalate (second :: rest)).toList ++ ['.'], ?_⟩
    rw [String.toList_append, joined]
    simp

/-- A text rebuilt from several sentences is the first with a period, and the text rebuilt from
the others. -/
theorem toList_rebuild (first : String) {second : String} (rest : List String)
    (filled : second.toList ≠ []) : (rebuild (first :: second :: rest)).toList =
      first.toList ++ '.' :: ' ' :: (rebuild (second :: rest)).toList := by
  have joined : (". ".intercalate (first :: second :: rest)).toList =
      first.toList ++ '.' :: ' ' :: (". ".intercalate (second :: rest)).toList := by
    rw [String.toList_intercalate, List.map_cons, List.map_cons, List.intercalate_cons_cons,
      String.toList_intercalate, List.map_cons]
    simp
  obtain ⟨c, tail, later⟩ : ∃ c tail, (". ".intercalate (second :: rest)).toList = c :: tail := by
    refine List.exists_cons_of_ne_nil ?_
    rw [String.toList_intercalate, List.map_cons]
    cases rest with
    | nil => simpa using filled
    | cons third rest => simp [List.intercalate_cons_cons]
  have some_ : ". ".intercalate (first :: second :: rest) ≠ "" := by
    intro empty
    rw [empty] at joined
    simp at joined
  have some' : ". ".intercalate (second :: rest) ≠ "" := by
    intro empty
    rw [empty] at later
    simp at later
  have last : (". ".intercalate (first :: second :: rest)).toList.getLast? =
      (". ".intercalate (second :: rest)).toList.getLast? := by
    have split : first.toList ++ '.' :: ' ' :: c :: tail =
        (first.toList ++ ['.', ' ']) ++ (c :: tail) := by simp
    rw [joined, later, split, List.getLast?_append_of_ne_nil _ (List.cons_ne_nil c tail)]
  unfold rebuild
  rw [if_neg some_, if_neg some', last]
  split
  · exact joined
  · rw [String.toList_append, String.toList_append, joined, List.append_assoc]
    rfl

/-- The sentences of a text rebuilt from sentences: each but the last with one more period, and
the last one closed. -/
def marked : List String → List String
  | [] => []
  | [sentence] => [closeSentence sentence]
  | sentence :: next :: rest => (sentence ++ ".") :: marked (next :: rest)

/-- A marked sentence is a part, or a part with a period. -/
theorem mem_marked {parts : List String} {r : String} (member : r ∈ marked parts) :
    r ∈ parts ∨ ∃ t ∈ parts, r = t ++ "." := by
  induction parts using marked.induct with
  | case1 => cases member
  | case2 sentence =>
    obtain rfl := List.mem_singleton.mp member
    unfold closeSentence
    split
    · exact .inl List.mem_cons_self
    · exact .inr ⟨sentence, List.mem_cons_self, rfl⟩
  | case3 sentence next rest ih =>
    rcases List.mem_cons.mp member with rfl | later
    · exact .inr ⟨sentence, List.mem_cons_self, rfl⟩
    · rcases ih later with inside | ⟨t, inside, is⟩
      · exact .inl (List.mem_cons_of_mem _ inside)
      · exact .inr ⟨t, List.mem_cons_of_mem _ inside, is⟩

/-- Marking keeps the number of sentences. -/
theorem length_marked (parts : List String) : (marked parts).length = parts.length := by
  induction parts using marked.induct with
  | case1 => rfl
  | case2 sentence => rfl
  | case3 sentence next rest ih => rw [marked, List.length_cons, ih]; rfl

/-- At most one sentence, which ends with an end mark, is all that marking leaves as it is, under
any size that a period increases. -/
theorem sum_marked {size : String → ℕ} (grows : ∀ t, size t < size (t ++ "."))
    (parts : List String) :
    (parts.map size).sum ≤ ((marked parts).map size).sum ∧
      (((marked parts).map size).sum = (parts.map size).sum →
        parts.length ≤ 1 ∧ ∀ t ∈ parts, EndsSentence t.toList) := by
  induction parts using marked.induct with
  | case1 => exact ⟨le_rfl, fun _ => ⟨Nat.zero_le 1, fun _ absent => nomatch absent⟩⟩
  | case2 sentence =>
    have more := grows sentence
    by_cases ends : EndsSentence sentence.toList
    · rw [marked, closeSentence, if_pos ends]
      refine ⟨le_rfl, fun _ => ⟨le_rfl, fun t member => ?_⟩⟩
      exact List.mem_singleton.mp member ▸ ends
    · simp only [marked, closeSentence, if_neg ends, List.map_cons, List.map_nil, List.sum_cons,
        List.sum_nil]
      exact ⟨by omega, fun same => by omega⟩
  | case3 sentence next rest ih =>
    have more := grows sentence
    have atLeast := ih.1
    simp only [marked, List.map_cons, List.sum_cons] at atLeast ⊢
    exact ⟨by omega, fun same => by omega⟩

/-- If marking permutes the keys of sentences, then there is at most one sentence, and it ends
with an end mark. -/
theorem closed_of_perm {key : String → Bytes 32} {size : String → ℕ}
    (grows : ∀ t, size t < size (t ++ ".")) {parts : List String} (distinct : (parts.map key).Nodup)
    (apart : ∀ s ∈ parts, ∀ t ∈ parts, key (s ++ ".") = key t → size (s ++ ".") = size t)
    (perm : ((marked parts).map key).Perm (parts.map key)) :
    parts.length ≤ 1 ∧ ∀ t ∈ parts, EndsSentence t.toList := by
  apply (sum_marked grows parts).2
  -- The size of the part with a key.
  let sizeOf (k : Bytes 32) : ℕ := ((parts.find? (key · = k)).map size).getD 0
  have known : ∀ t ∈ parts, sizeOf (key t) = size t := by
    intro t member
    obtain ⟨t', found⟩ := Option.isSome_iff_exists.mp
      (List.find?_isSome (p := (key · = key t)).mpr ⟨t, member, decide_eq_true rfl⟩)
    have same : key t' = key t := by simpa using List.find?_some found
    obtain rfl := List.inj_on_of_nodup_map distinct (List.mem_of_find?_eq_some found) member same
    simp only [sizeOf, found, Option.map_some, Option.getD_some]
  have sizes : ∀ r ∈ marked parts, sizeOf (key r) = size r := by
    intro r member
    obtain ⟨t, inside, same⟩ := List.mem_map.mp (perm.mem_iff.mp (List.mem_map_of_mem member))
    rw [← same, known t inside]
    rcases mem_marked member with part | ⟨s, part, rfl⟩
    · rw [List.inj_on_of_nodup_map distinct inside part same]
    · exact (apart s part t inside same.symm).symm
  have sums := (perm.map sizeOf).sum_nat
  simp only [List.map_map, Function.comp_def] at sums
  rwa [List.map_congr_left sizes, List.map_congr_left known] at sums

/-- Behind a period and a space the next sentences begin. -/
theorem sentencesOf_period {sentence text : String} {rest : List Char}
    (isSentence : IsSentence sentence) (filled : rest ≠ [])
    (shape : text.toList = sentence.toList ++ '.' :: ' ' :: rest) :
    sentencesOf text = (sentence ++ ".") :: sentencesOf (String.ofList rest) := by
  have chars : (sentence ++ ".").toList = sentence.toList ++ ['.'] := String.toList_append
  have closed := isSentence.period
  have uncut := closed.uncut
  rw [chars] at uncut
  have cut := splitLoop_cut [] rest uncut (by decide)
  have same : trim (String.ofList (sentence.toList ++ ['.'])) = sentence ++ "." := by
    apply String.toList_inj.mp
    rw [toList_trim, String.toList_ofList, ← chars, closed.trimmed.trimChars_eq]
  have some_ : sentence ++ "." ≠ "" := fun empty =>
    closed.filled (String.toList_eq_nil_iff.mpr empty)
  obtain ⟨piece, pieces, split, split'⟩ := splitLoop_front [' '] [] rest filled
  have blank : trim (String.ofList ([' '] ++ piece)) = trim (String.ofList piece) := by
    apply String.toList_inj.mp
    rw [toList_trim, toList_trim, String.toList_ofList, String.toList_ofList, trimChars, trimChars,
      List.singleton_append, List.dropWhile_cons_of_pos (by decide)]
  rw [List.append_nil] at split'
  rw [sentencesOf, splitSentences, shape, cut, split', sentencesOf, splitSentences,
    String.toList_ofList, split]
  simp only [List.nil_append, List.map_cons, same, blank]
  rw [List.filter_cons_of_pos (by simp [some_])]

/-- A rebuilt text is split into the marked sentences. -/
theorem sentencesOf_rebuild {parts : List String} (sentences : ∀ t ∈ parts, IsSentence t) :
    sentencesOf (rebuild parts) = marked parts := by
  induction parts using marked.induct with
  | case1 => rfl
  | case2 sentence =>
    have isSentence := sentences sentence List.mem_cons_self
    rw [rebuild_singleton isSentence, isSentence.closeSentence.sentencesOf_eq]
    rfl
  | case3 sentence next rest ih =>
    have later := ih fun t member => sentences t (List.mem_cons_of_mem _ member)
    have shape := toList_rebuild sentence rest
      (sentences next (List.mem_cons_of_mem _ List.mem_cons_self)).filled
    have filled : (rebuild (next :: rest)).toList ≠ [] := by
      intro empty
      rw [String.toList_eq_nil_iff.mp empty] at later
      cases rest <;> cases later
    rw [sentencesOf_period (sentences sentence List.mem_cons_self) filled shape,
      String.ofList_toList, later]
    rfl

/-- The text behind deduplication is rebuilt from the sentences that are kept. -/
theorem content_dedupSentences (key : String → Bytes 32) (content : String)
    (seen : List (Bytes 32)) : (dedupSentences key content seen).content =
      rebuild (keepSentences key seen content).keptParts := rfl

/-- Deduplication only removes text: the rebuilt text is split into the sentences that were
kept, where the last may have gained a period; it is rebuilt to itself; and it is at most one
character longer than a text without repeated sentences. -/
structure OnlyRemoves (key : String → Bytes 32) (content : String) (seen : List (Bytes 32)) :
    Prop where
  /-- The sentences of the rebuilt text are those that were kept. -/
  splits : sentencesOf (dedupSentences key content seen).content =
      (keepSentences key seen content).keptParts ∨
    sentencesOf (dedupSentences key content seen).content =
      closeLast (keepSentences key seen content).keptParts
  /-- Running on the rebuilt text changes nothing. -/
  idempotent : (dedupSentences key (dedupSentences key content seen).content []).content =
    (dedupSentences key content seen).content
  /-- The text hardly grows. -/
  short : ((sentencesOf content).map key).Nodup →
    (dedupSentences key content seen).content.toList.length ≤ content.toList.length + 1

/-- At most one sentence of the text is new. -/
def OneNewSentence (key : String → Bytes 32) (content : String) (seen : List (Bytes 32)) : Prop :=
  ∀ s ∈ sentencesOf content, ∀ t ∈ sentencesOf content, key s ∉ seen → key t ∉ seen →
    key s = key t

/-- A list with more than one element starts with two. -/
theorem exists_cons_cons {α : Type} {xs : List α} (several : ¬ xs.length ≤ 1) :
    ∃ a b rest, xs = a :: b :: rest := by
  rcases xs with _ | ⟨a, _ | ⟨b, rest⟩⟩
  · exact absurd (Nat.zero_le 1) several
  · exact absurd le_rfl several
  · exact ⟨a, b, rest, rfl⟩

/-- Several sentences are kept exactly when several are new. -/
theorem Keeps.length_le_one_iff {s : Sentences} (keeps : Keeps key seen (sentencesOf content) s) :
    s.keptParts.length ≤ 1 ↔ OneNewSentence key content seen := by
  constructor
  · intro few t inT u inU newT newU
    have keptT := (keeps.key_mem_iff _).mpr ⟨List.mem_map_of_mem inT, newT⟩
    have keptU := (keeps.key_mem_iff _).mpr ⟨List.mem_map_of_mem inU, newU⟩
    obtain ⟨a, inA, sameA⟩ := List.mem_map.mp keptT
    obtain ⟨b, inB, sameB⟩ := List.mem_map.mp keptU
    have single : a = b := by
      generalize s.keptParts = kept at few inA inB
      rcases kept with _ | ⟨c, _ | ⟨d, rest⟩⟩
      · cases inA
      · exact (List.mem_singleton.mp inA).trans (List.mem_singleton.mp inB).symm
      · simp at few
    rw [← sameA, ← sameB, single]
  · intro one
    by_contra several
    obtain ⟨a, b, rest, shape⟩ := exists_cons_cons several
    have inA : a ∈ s.keptParts := shape ▸ List.mem_cons_self
    have inB : b ∈ s.keptParts := shape ▸ List.mem_cons_of_mem _ List.mem_cons_self
    have same := one a (keeps.part.subset inA) b (keeps.part.subset inB) (keeps.fresh a inA)
      (keeps.fresh b inB)
    have distinct := keeps.distinct
    rw [shape, List.map_cons, List.map_cons, same, List.nodup_cons] at distinct
    exact distinct.1 List.mem_cons_self

/-- Deduplication only removes text exactly when at most one sentence of the text is new. -/
theorem dedupSentences_onlyRemoves_iff (key : String → Bytes 32) (content : String)
    (seen : List (Bytes 32)) :
    OnlyRemoves key content seen ↔ OneNewSentence key content seen := by
  have keeps := keepSentences_keeps key seen content
  have rebuilt := content_dedupSentences key content seen
  have sentence : ∀ t ∈ (keepSentences key seen content).keptParts, IsSentence t :=
    fun t kept => isSentence_of_mem (keeps.part.subset kept)
  rw [← keeps.length_le_one_iff]
  constructor
  · intro removes
    by_contra several
    obtain ⟨a, b, rest, shape⟩ := exists_cons_cons several
    have split := sentencesOf_rebuild sentence
    have head : (sentencesOf (rebuild (a :: b :: rest))).head? = some (a ++ ".") := by
      rw [← shape, split, shape]
      rfl
    have longer : a ++ "." ≠ a := by
      intro same
      have lengths := congrArg (fun t : String => t.toList.length) same
      simp at lengths
    have splits := removes.splits
    rw [rebuilt, shape] at splits
    rcases splits with same | same
    · rw [same] at head
      exact longer (Option.some.inj head).symm
    · rw [same] at head
      exact longer (Option.some.inj head).symm
  · intro few
    rcases shape : (keepSentences key seen content).keptParts with _ | ⟨t, _ | ⟨u, rest⟩⟩
    · have empty : (dedupSentences key content seen).content = "" := by
        rw [rebuilt, shape]
        rfl
      refine ⟨.inl ?_, ?_, ?_⟩
      · rw [empty, shape]
        rfl
      · rw [empty]
        rfl
      · rw [empty]
        exact fun _ => Nat.zero_le _
    · have kept : t ∈ (keepSentences key seen content).keptParts := shape ▸ List.mem_cons_self
      have isSentence := sentence t kept
      have closed : (dedupSentences key content seen).content = closeSentence t := by
        rw [rebuilt, shape, rebuild_singleton isSentence]
      have again : (keepSentences key [] (closeSentence t)).keptParts = [closeSentence t] := by
        rw [keepSentences_eq, isSentence.closeSentence.sentencesOf_eq]
        rfl
      refine ⟨.inr ?_, ?_, ?_⟩
      · rw [closed, shape, isSentence.closeSentence.sentencesOf_eq]
        rfl
      · rw [closed, content_dedupSentences, again, rebuild_singleton isSentence.closeSentence,
          closeSentence_idem]
      · intro _
        have inside := length_of_mem_sentencesOf (keeps.part.subset kept)
        have grown := length_closeSentence_le t
        rw [closed]
        omega
    · rw [shape] at few
      simp at few

/-- An environment for samples: a hash that keeps 32 bytes, lower case in ASCII, and a sort
that never panics. -/
def plainEnv : ContextEnv where
  profile := .dev
  sort := .lenient
  crypto :=
    { blake3 := fun bytes => Vector.ofFn fun i => bytes.getD i 0
      verifyingKey := fun skipper => ⟨skipper.seed⟩
      signBytes := fun _ _ => ⟨Vector.replicate 64 0⟩
      verifyStrict := fun _ _ _ => false }
  toLowercase := fun c => [c.toLower]

/-- Of two sentences, the first gets a second period. -/
theorem dedupSentences_adds :
    (dedupSentences plainEnv.key "A. B." []).content = "A.. B." ∧
      ¬ OnlyRemoves plainEnv.key "A. B." [] := by
  refine ⟨by decide +kernel, ?_⟩
  intro removes
  rcases removes.splits with same | same
  · exact absurd same (by decide +kernel)
  · exact absurd same (by decide +kernel)

end Hansa
