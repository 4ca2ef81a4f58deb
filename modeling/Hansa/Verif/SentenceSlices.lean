import Hansa.Verif.LogFile
import Hansa.Verif.SentenceText

/-!
# Sentences cut at byte offsets

The splitter reads bytes and cuts the string at offsets. A byte that it looks for is the whole
of its character, so it finds the same cuts as a splitter of characters, and its offsets lie
between characters. The loop stands at the start of a character whenever it can cut, and has
the text up to the last cut in its pieces.
-/

namespace Hansa

/-- The bytes of characters. -/
def encoded (chars : List Char) : List UInt8 := chars.flatMap String.utf8EncodeChar

variable {front current rest : List Char} {c next : Char}

/-- The bytes of a string. -/
theorem utf8_ofList (chars : List Char) : utf8 (String.ofList chars) = encoded chars := by
  rw [utf8_eq_flatMap, String.toList_ofList, encoded]

/-- The bytes of a string with these characters. -/
theorem utf8_of_toList {content : String} {chars : List Char} (shape : content.toList = chars) :
    utf8 content = encoded chars := by
  rw [← utf8_ofList, ← shape, String.ofList_toList]

/-- The bytes of a concatenation. -/
@[simp] theorem encoded_append (front back : List Char) :
    encoded (front ++ back) = encoded front ++ encoded back := List.flatMap_append

/-- The bytes of a character and what follows it. -/
@[simp] theorem encoded_cons (c : Char) (rest : List Char) :
    encoded (c :: rest) = String.utf8EncodeChar c ++ encoded rest := List.flatMap_cons

/-- No characters have no bytes. -/
@[simp] theorem encoded_nil : encoded [] = [] := rfl

/-! ## Bytes and characters -/

/-- A character has bytes. -/
theorem utf8EncodeChar_length_pos (c : Char) : 0 < (String.utf8EncodeChar c).length :=
  List.length_pos_iff.mpr String.utf8EncodeChar_ne_nil

/-- The first byte of a character is not one of its later bytes. -/
theorem isContinuation_first (positive : 0 < (String.utf8EncodeChar c).length) :
    isContinuation (String.utf8EncodeChar c)[0] = false := by
  have each : ∀ n : Fin 256, UInt8.IsUTF8FirstByte (UInt8.ofNat n) →
      isContinuation (UInt8.ofNat n) = false := by
    decide +kernel
  have first : (String.utf8EncodeChar c)[0].IsUTF8FirstByte :=
    UInt8.isUTF8FirstByte_getElem_utf8EncodeChar.mpr rfl
  generalize (String.utf8EncodeChar c)[0] = b at first ⊢
  have here := each ⟨b.toNat, b.toNat_lt⟩
  rw [UInt8.ofNat_toNat] at here
  exact here first

/-- The bytes of a character behind those of the characters in front of it. -/
theorem getElem?_encoded (front rest : List Char) {k : Nat}
    (inside : k < (String.utf8EncodeChar c).length) :
    (encoded (front ++ c :: rest))[(encoded front).length + k]? =
      some (String.utf8EncodeChar c)[k] := by
  rw [encoded_append, List.getElem?_append_right (Nat.le_add_right ..), Nat.add_sub_cancel_left,
    encoded_cons, List.getElem?_append_left inside, List.getElem?_eq_getElem inside]

/-- A byte of a character is that of an ASCII character only in that character. -/
theorem byte_eq_iff {b : UInt8} (member : b ∈ String.utf8EncodeChar c) (mark : Char)
    (ascii : mark.toNat < 128) : b = UInt8.ofNat mark.toNat ↔ c = mark := by
  have value : (UInt8.ofNat mark.toNat).toNat = mark.toNat := by
    rw [UInt8.toNat_ofNat', Nat.mod_eq_of_lt (by omega)]
  constructor
  · rintro rfl
    have same := char_of_ascii_byte member (by rw [value]; exact ascii)
    exact Char.toNat_inj.mp (same.trans value)
  · rintro rfl
    rw [utf8EncodeChar_ascii ascii] at member
    exact List.mem_singleton.mp member

/-- The end marks among bytes and among characters. -/
theorem endByte_eq {b : UInt8} (member : b ∈ String.utf8EncodeChar c) :
    (b = 46 || b = 33 || b = 63 : Bool) = isSentenceEnd c := by
  have period := byte_eq_iff member '.' (by decide)
  have exclamation := byte_eq_iff member '!' (by decide)
  have question := byte_eq_iff member '?' (by decide)
  rw [isSentenceEnd, ← decide_eq_decide.mpr period, ← decide_eq_decide.mpr exclamation,
    ← decide_eq_decide.mpr question]
  rfl

/-- A space or a line feed among bytes and among characters. -/
theorem spaceByte_eq {b : UInt8} (member : b ∈ String.utf8EncodeChar c) :
    (b = 32 || b = 10 : Bool) = (c = ' ' || c = '\n' : Bool) := by
  have space := byte_eq_iff member ' ' (by decide)
  have line := byte_eq_iff member '\n' (by decide)
  rw [← decide_eq_decide.mpr space, ← decide_eq_decide.mpr line]
  rfl

/-- An end mark is one byte. -/
theorem length_of_isSentenceEnd (ends : isSentenceEnd c = true) :
    (String.utf8EncodeChar c).length = 1 := by
  simp only [isSentenceEnd, Bool.or_eq_true, decide_eq_true_eq] at ends
  rcases ends with (rfl | rfl) | rfl <;> rfl

/-- Between two characters is a boundary. -/
theorem isCharBoundary_encoded (front back : List Char) :
    isCharBoundary (encoded (front ++ back)) (encoded front).length = true := by
  cases back with
  | nil => simp [isCharBoundary]
  | cons c back =>
    have positive := utf8EncodeChar_length_pos c
    have byte := getElem?_encoded front back positive
    rw [Nat.add_zero] at byte
    rw [isCharBoundary, byte, Option.any_some, isContinuation_first, Bool.not_false, Bool.or_true]

/-- A slice between characters has the characters in between. -/
theorem sliceText_encoded {content : String} {front piece back : List Char}
    (shape : content.toList = front ++ piece ++ back) :
    sliceText content (encoded front).length (encoded (front ++ piece)).length =
      .ok (String.ofList piece) := by
  have starts := isCharBoundary_encoded front (piece ++ back)
  have stops := isCharBoundary_encoded (front ++ piece) back
  rw [← List.append_assoc] at starts
  have bytes : (encoded (front ++ piece ++ back)).extract (encoded front).length
      (encoded (front ++ piece)).length = utf8 (String.ofList piece) := by
    rw [utf8_ofList]
    simp [List.extract_eq_take_drop]
  rw [sliceText, utf8_of_toList shape, if_pos ⟨by simp, starts, stops⟩, bytes, fromUtf8_utf8]

/-- The bytes of a character end a sentence where the character does. -/
theorem endsSentenceAt_encoded (front rest : List Char) {k : Nat}
    (inside : k < (String.utf8EncodeChar c).length) :
    endsSentenceAt (encoded (front ++ c :: rest)) ((encoded front).length + k) =
      (isSentenceEnd c && rest.head?.any fun next => next = ' ' || next = '\n') := by
  rw [endsSentenceAt, getElem?_encoded front rest inside, Option.any_some,
    endByte_eq (List.getElem_mem inside)]
  by_cases ends : isSentenceEnd c = true
  · have single := length_of_isSentenceEnd ends
    obtain rfl : k = 0 := by omega
    cases rest with
    | nil => simp [encoded_append front, single]
    | cons next rest =>
      have positive := utf8EncodeChar_length_pos next
      have behind : (encoded front).length + 0 + 1 = (encoded (front ++ [c])).length + 0 := by
        simp [single]
      have split : front ++ c :: next :: rest = front ++ [c] ++ next :: rest := by simp
      rw [split, behind, getElem?_encoded _ _ positive, Option.any_some,
        spaceByte_eq (List.getElem_mem positive), List.head?_cons, Option.any_some]
  · rw [Bool.eq_false_of_not_eq_true ends, Bool.false_and, Bool.false_and]

/-! ## The loop -/

/-- The loop passes over bytes that end no sentence. -/
theorem scanSentences_skip (content : String) (start : Nat) (out : List String) {i j : Nat}
    (ordered : i ≤ j) (inside : j ≤ (utf8 content).length)
    (whole : ∀ k, i ≤ k → k < j → endsSentenceAt (utf8 content) k = false) :
    scanSentences content start i out = scanSentences content start j out := by
  induction j, ordered using Nat.le_induction with
  | base => rfl
  | succ j ordered ih =>
    rw [ih (by omega) fun k low high => whole k low (by omega), scanSentences, if_pos (by omega),
      if_neg (by simp [whole j ordered (by omega)])]

/-- The loop passes over a character that ends no sentence. -/
theorem scanSentences_char {content : String} (shape : content.toList = front ++ c :: rest)
    (start : Nat) (out : List String)
    (whole : (isSentenceEnd c && rest.head?.any fun next => next = ' ' || next = '\n') = false) :
    scanSentences content start (encoded front).length out =
      scanSentences content start (encoded (front ++ [c])).length out := by
  have bytes := utf8_of_toList shape
  apply scanSentences_skip
  · simp
  · simp [bytes]
  · intro k low high
    obtain ⟨k, rfl⟩ := Nat.exists_eq_add_of_le low
    rw [bytes, endsSentenceAt_encoded front rest, whole]
    simpa using high

/-- Behind the text, the loop takes what is left as the last piece. -/
theorem scanSentences_end {content : String} (shape : content.toList = front ++ current)
    (out : List String) :
    scanSentences content (encoded front).length (encoded (front ++ current)).length out =
      .ok (out ++ (if current = [] then [] else [current]).map String.ofList) := by
  have piece := sliceText_encoded (shape.trans (List.append_nil _).symm)
  rw [scanSentences, utf8_of_toList shape, if_neg (Nat.lt_irrefl _)]
  cases current with
  | nil => simp
  | cons c current =>
    have some_ : (encoded front).length < (encoded (front ++ c :: current)).length := by
      have := utf8EncodeChar_length_pos c
      simp only [encoded_append, encoded_cons, List.length_append]
      omega
    rw [if_pos some_, piece]
    rfl

/-- At a cut, the loop takes a piece and goes on behind the character that follows. -/
theorem scanSentences_cut {content : String}
    (shape : content.toList = front ++ current ++ c :: next :: rest) (out : List String)
    (cut : (isSentenceEnd c && (next = ' ' || next = '\n')) = true) :
    scanSentences content (encoded front).length (encoded (front ++ current)).length out =
      scanSentences content (encoded (front ++ current ++ [c])).length
        (encoded (front ++ current ++ [c] ++ [next])).length
        (out ++ [String.ofList (current ++ [c])]) := by
  obtain ⟨ends, spaces⟩ := Bool.and_eq_true_iff.mp cut
  have space : (String.utf8EncodeChar next).length = 1 := by
    simp only [Bool.or_eq_true, decide_eq_true_eq] at spaces
    rcases spaces with rfl | rfl <;> rfl
  have starts : (encoded (front ++ current ++ [c])).length =
      (encoded (front ++ current)).length + 1 := by
    simp [encoded_append front, length_of_isSentenceEnd ends, Nat.add_assoc]
  have after : (encoded (front ++ current ++ [c] ++ [next])).length =
      (encoded (front ++ current)).length + 1 + 1 := by
    rw [encoded_append, List.length_append, starts]
    simp [space]
  have bytes := utf8_of_toList shape
  have inside : (encoded (front ++ current)).length < (utf8 content).length := by
    have some_ := utf8EncodeChar_length_pos c
    rw [bytes, encoded_append (front ++ current), List.length_append, encoded_cons,
      List.length_append]
    omega
  have here : endsSentenceAt (utf8 content) (encoded (front ++ current)).length = true := by
    have byte := endsSentenceAt_encoded (front ++ current) (next :: rest)
      (utf8EncodeChar_length_pos c)
    rw [Nat.add_zero] at byte
    rw [bytes, byte]
    exact cut
  have piece : sliceText content (encoded front).length
      (encoded (front ++ current ++ [c])).length = .ok (String.ofList (current ++ [c])) := by
    rw [List.append_assoc]
    have parts : content.toList = front ++ (current ++ [c]) ++ next :: rest := by
      rw [shape]
      simp
    exact sliceText_encoded parts
  rw [scanSentences, if_pos inside, if_pos here, ← starts, piece, after, ← starts]
  rfl

/-- The loop at the start of a character finds the pieces that the splitter of characters
finds. -/
theorem scanSentences_eq {content : String} (shape : content.toList = front ++ current ++ rest)
    (out : List String) :
    scanSentences content (encoded front).length (encoded (front ++ current)).length out =
      .ok (out ++ (splitLoop current rest).map String.ofList) := by
  fun_induction splitLoop current rest generalizing front out with
  | case1 =>
    rw [List.append_nil] at shape
    exact scanSentences_end shape out
  | case2 current filled =>
    rw [List.append_nil] at shape
    rw [scanSentences_end shape, if_neg filled]
  | case3 current c =>
    rw [scanSentences_char shape _ _ (by simp), List.append_assoc,
      scanSentences_end (shape.trans (List.append_assoc ..)), if_neg (by simp)]
  | case4 current c next rest cut ih =>
    rw [scanSentences_cut shape out cut, ih (by rw [shape]; simp), List.append_assoc]
    rfl
  | case5 current c next rest whole ih =>
    have longer : content.toList = front ++ (current ++ [c]) ++ next :: rest := by
      rw [shape]
      simp
    have later := ih longer out
    rw [scanSentences_char shape _ _ (by simpa using whole), List.append_assoc, later]

/-- The splitter never cuts inside a character, and cuts like a splitter of characters. -/
theorem splitSentencesBytes_eq (content : String) :
    splitSentencesBytes content = .ok (splitSentences content) := by
  have whole : content.toList = [] ++ [] ++ content.toList := rfl
  exact scanSentences_eq whole []

/-! ## The pieces -/

/-- The piece ends with an end mark, and the text that follows starts with a space or a line
feed. -/
def CutBetween (piece later : List Char) : Prop :=
  EndsSentence piece ∧ ∃ next ∈ later.head?, next = ' ' ∨ next = '\n'

/-- The first piece starts with the sentence read so far. -/
theorem head?_flatten_splitLoop (filled : current ≠ []) (rest : List Char) :
    (splitLoop current rest).flatten.head? = current.head? := by
  rw [splitLoop_flatten, List.head?_append_of_ne_nil _ filled]

/-- Every piece has something in it. -/
theorem splitLoop_filled (current rest : List Char) :
    ∀ piece ∈ splitLoop current rest, piece ≠ [] := by
  fun_induction splitLoop current rest with
  | case1 => simp
  | case2 current filled => simpa using filled
  | case3 current c => simp
  | case4 current c next rest cut ih => exact List.forall_mem_cons.mpr ⟨by simp, ih⟩
  | case5 current c next rest whole ih => exact ih

/-- Between two neighbouring pieces there is a cut. -/
theorem splitLoop_cutBetween {current rest : List Char} {front back : List (List Char)}
    {piece : List Char} (parts : splitLoop current rest = front ++ piece :: back)
    (more : back ≠ []) : CutBetween piece back.flatten := by
  have several : ∀ {front : List (List Char)} {last : List Char},
      [last] ≠ front ++ piece :: back := by
    intro front last single
    have lengths := congrArg List.length single
    have some_ := List.length_pos_iff.mpr more
    simp only [List.length_append, List.length_cons, List.length_nil] at lengths
    omega
  fun_induction splitLoop current rest generalizing front with
  | case1 => simp at parts
  | case2 current filled => exact absurd parts several
  | case3 current c => exact absurd parts several
  | case4 current c next rest cut ih =>
    cases front with
    | nil =>
      obtain ⟨rfl, rfl⟩ := List.cons.inj parts
      obtain ⟨ends, spaces⟩ := Bool.and_eq_true_iff.mp cut
      refine ⟨by simp [EndsSentence, ends], next, ?_, by simpa using spaces⟩
      rw [head?_flatten_splitLoop (by simp)]
      rfl
    | cons first front => exact ih (List.cons.inj parts).2
  | case5 current c next rest whole ih => exact ih parts

/-- The characters of joined pieces. -/
theorem toList_join_ofList (pieces : List (List Char)) :
    (String.join (pieces.map String.ofList)).toList = pieces.flatten := by
  rw [String.toList_join, List.flatMap_map, ← List.flatMap_id']
  exact List.flatMap_congr fun chars _ => String.toList_ofList

/-- The splitter cuts every string between characters into pieces that are not empty and make
up the string. Every piece with a piece behind it ends with an end mark, and a space or a line
feed follows. -/
theorem splitSentences_total_lossless (content : String) :
    ∃ pieces, splitSentencesBytes content = .ok pieces ∧ (∀ piece ∈ pieces, piece ≠ "") ∧
      String.join pieces = content ∧
      ∀ front piece back, pieces = front ++ piece :: back → back ≠ [] →
        CutBetween piece.toList (String.join back).toList := by
  refine ⟨splitSentences content, splitSentencesBytes_eq content, ?_, ?_, ?_⟩
  · intro piece member
    obtain ⟨chars, inside, rfl⟩ := List.mem_map.mp member
    exact fun empty => splitLoop_filled [] _ chars inside (String.ofList_eq_empty_iff.mp empty)
  · apply String.toList_inj.mp
    rw [splitSentences, toList_join_ofList, splitLoop_flatten, List.nil_append]
  · intro front piece back parts more
    obtain ⟨_, _, split, rfl, rest⟩ := List.map_eq_append_iff.mp parts
    obtain ⟨chars, later, rfl, rfl, rfl⟩ := List.map_eq_cons_iff.mp rest
    rw [String.toList_ofList, toList_join_ofList]
    exact splitLoop_cutBetween split (by simpa using more)

end Hansa
