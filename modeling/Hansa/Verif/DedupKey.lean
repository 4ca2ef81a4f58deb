import Hansa.HeadCache
import Hansa.Library.Words
import Hansa.Verif.SentenceText

/-!
# What the dedup key identifies

The loop that normalises a text remembers whether the character before was white space, and
writes a space only behind something. At every point it has written the words so far in lower
case: those that are closed with a space behind each, and the open one. The text that is hashed
is then the words in lower case, joined by single spaces.
-/

namespace Hansa

open Words

/-- What is known of `char::to_lowercase`: it yields one or more characters, and no white space
for what is no white space. -/
structure LowersWords (toLowercase : Char → List Char) : Prop where
  /-- It yields something. -/
  filled : ∀ c, toLowercase c ≠ []
  /-- It yields no white space. -/
  plain : ∀ c, isWhitespace c = false → Unbroken isWhitespace (toLowercase c)

/-- The words of a text in lower case. -/
def loweredWords (toLowercase : Char → List Char) (content : String) : List String :=
  (splitWhitespace content).map fun word => String.ofList (word.toList.flatMap toLowercase)

/-- The text that `blake3_normalised` hashes. -/
def ContextEnv.normalised (env : ContextEnv) (content : String) : String :=
  trimEnd (String.ofList (normaliseLoop env.toLowercase false [] content.toList))

/-! ## Words in lower case -/

section Lowered

variable {toLowercase : Char → List Char} (lowers : LowersWords toLowercase)

include lowers

/-- A word in lower case is not empty. -/
theorem LowersWords.flatMap_ne_nil {word : List Char} (filled : word ≠ []) :
    word.flatMap toLowercase ≠ [] := by
  intro empty
  obtain ⟨c, rest, rfl⟩ := List.exists_cons_of_ne_nil filled
  rw [List.flatMap_cons] at empty
  exact lowers.filled c (List.append_eq_nil_iff.mp empty).1

/-- A word in lower case has no white space. -/
theorem LowersWords.plain_flatMap {word : List Char} (plain : Unbroken isWhitespace word) :
    Unbroken isWhitespace (word.flatMap toLowercase) := by
  intro d member
  obtain ⟨c, inside, yielded⟩ := List.mem_flatMap.mp member
  exact lowers.plain c (plain c inside) d yielded

end Lowered

/-! ## The loop -/

/-- One turn of the loop, as a step of its two pieces of state. -/
def normaliseStep (toLowercase : Char → List Char) (s : Bool × List Char) (c : Char) :
    Bool × List Char :=
  if isWhitespace c then
    (true, if !s.1 && !s.2.isEmpty then s.2 ++ [' '] else s.2)
  else (false, s.2 ++ toLowercase c)

/-- The loop takes its steps one after another. -/
theorem normaliseLoop_eq (toLowercase : Char → List Char) (s : Bool × List Char)
    (chars : List Char) :
    normaliseLoop toLowercase s.1 s.2 chars = (chars.foldl (normaliseStep toLowercase) s).2 := by
  induction chars generalizing s with
  | nil => rfl
  | cons c chars ih =>
    rw [List.foldl_cons, normaliseLoop, ← ih, normaliseStep]
    split <;> rfl

/-- What the loop has written of a text: the words of a closed front, each with a space behind
it, and the open word behind that front. -/
structure Normalises (toLowercase : Char → List Char) (front word : List Char)
    (s : Bool × List Char) : Prop where
  /-- The front is closed. -/
  closed : Ended isWhitespace front
  /-- The open word has no white space. -/
  plain : Unbroken isWhitespace word
  /-- In an open word, the last character was no white space. -/
  inside : word ≠ [] → s.1 = false
  /-- Between words, it was white space, or there was none. -/
  between : word = [] → s.1 = true ∨ front = []
  /-- The words so far are written in lower case. -/
  written : s.2 = ((wordsOf isWhitespace front).map (·.flatMap toLowercase)).flatMap (· ++ [' ']) ++
    word.flatMap toLowercase

variable {toLowercase : Char → List Char} {front word : List Char} {s : Bool × List Char}

/-- White space closes an open word. -/
theorem Normalises.space (lowers : LowersWords toLowercase)
    (now : Normalises toLowercase front word s) {c : Char} (white : isWhitespace c = true) :
    Normalises toLowercase (front ++ word ++ [c]) [] (normaliseStep toLowercase s c) := by
  have words : wordsOf isWhitespace (front ++ word ++ [c]) =
      wordsOf isWhitespace front ++ wordsOf isWhitespace word := by
    rw [wordsOf_concat _ white, now.closed.wordsOf_append]
  rw [normaliseStep, if_pos white]
  refine ⟨fun d last => ?_, (fun _ absent => nomatch absent), (fun some_ => absurd rfl some_),
    (fun _ => .inl rfl), ?_⟩
  · rw [List.getLast?_concat] at last
    rw [← Option.some.inj last]
    exact white
  rw [words, List.flatMap_nil, List.append_nil]
  by_cases open_ : word = []
  · have idle : (!s.1 && !s.2.isEmpty) = false := by
      rcases now.between open_ with true_ | none_
      · rw [true_]
        rfl
      · have empty : s.2 = [] := by
          rw [now.written, none_, open_]
          rfl
        rw [empty]
        exact Bool.and_false _
    have same := now.written
    rw [open_, List.flatMap_nil, List.append_nil] at same
    simp only [idle, Bool.false_eq_true, if_false]
    rw [same, open_, wordsOf_nil, List.append_nil]
  · have some_ : s.2 ≠ [] := by
      rw [now.written]
      exact fun empty => lowers.flatMap_ne_nil open_ (List.append_eq_nil_iff.mp empty).2
    have busy : (!s.1 && !s.2.isEmpty) = true := by
      rw [now.inside open_]
      simpa using some_
    simp only [busy, if_true]
    rw [now.written, wordsOf_unbroken now.plain open_, List.map_append, List.flatMap_append,
      List.append_assoc]
    simp

/-- What is no white space goes to the open word. -/
theorem Normalises.letter (now : Normalises toLowercase front word s) {c : Char}
    (plain : isWhitespace c = false) :
    Normalises toLowercase front (word ++ [c]) (normaliseStep toLowercase s c) := by
  rw [normaliseStep, if_neg (by simp [plain])]
  refine ⟨now.closed, List.forall_mem_append.mpr ⟨now.plain, by simpa using plain⟩, fun _ => rfl,
    fun none_ => by simp at none_, ?_⟩
  rw [now.written, List.flatMap_append, List.append_assoc]
  simp

/-- At every point the loop has written the words so far. -/
theorem normalises_foldl (lowers : LowersWords toLowercase) (chars : List Char) :
    ∃ front word, front ++ word = chars ∧ Normalises toLowercase front word
      (chars.foldl (normaliseStep toLowercase) (false, [])) := by
  induction chars using List.reverseRecOn with
  | nil =>
    exact ⟨[], [], rfl, (fun _ absent => nomatch absent), (fun _ absent => nomatch absent),
      (fun _ => rfl), (fun _ => .inr rfl), rfl⟩
  | append_singleton chars c ih =>
    obtain ⟨front, word, rfl, now⟩ := ih
    rw [List.foldl_concat]
    by_cases white : isWhitespace c = true
    · exact ⟨_, [], List.append_nil _, now.space lowers white⟩
    · exact ⟨front, word ++ [c], (List.append_assoc ..).symm,
        now.letter (Bool.eq_false_of_not_eq_true white)⟩

/-! ## The text that is hashed -/

/-- A text behind its trailing white space. -/
theorem trimEnd_concat {chars tail : List Char} {c : Char} (plain : isWhitespace c = false)
    (white : ∀ d ∈ tail, isWhitespace d = true) :
    trimEnd (String.ofList (chars ++ [c] ++ tail)) = String.ofList (chars ++ [c]) := by
  have dropped : (chars ++ [c] ++ tail).rdropWhile isWhitespace = chars ++ [c] := by
    induction tail using List.reverseRecOn with
    | nil =>
      rw [List.append_nil]
      exact List.rdropWhile_concat_neg _ _ _ (by simp [plain])
    | append_singleton tail d ih =>
      rw [← List.append_assoc, List.rdropWhile_concat_pos _ _ _ (white d (by simp))]
      exact ih fun e member => white e (by simp [member])
  rw [trimEnd, String.toList_ofList]
  exact congrArg String.ofList dropped

/-- A period at the end makes the normalised text longer. -/
theorem ContextEnv.length_normalised_period (env : ContextEnv)
    (period : env.toLowercase '.' = ['.']) (content : String) :
    (env.normalised content).toList.length < (env.normalised (content ++ ".")).toList.length := by
  have plain : isWhitespace '.' = false := by decide
  have step : normaliseLoop env.toLowercase false [] (content ++ ".").toList =
      normaliseLoop env.toLowercase false [] content.toList ++ ['.'] := by
    have written := normaliseLoop_eq env.toLowercase (false, [])
    rw [written, written, String.toList_append, List.foldl_append]
    simp [normaliseStep, period, plain]
  have ended : trimEnd (String.ofList
      (normaliseLoop env.toLowercase false [] content.toList ++ ['.'] ++ [])) =
      String.ofList (normaliseLoop env.toLowercase false [] content.toList ++ ['.']) :=
    trimEnd_concat plain fun _ absent => nomatch absent
  rw [List.append_nil] at ended
  have shorter : (env.normalised content).toList.length ≤
      (normaliseLoop env.toLowercase false [] content.toList).length := by
    rw [ContextEnv.normalised, trimEnd, String.toList_ofList, String.toList_ofList,
      List.length_reverse]
    exact (List.dropWhile_sublist _).length_le.trans (List.length_reverse).le
  have longer : (env.normalised (content ++ ".")).toList.length =
      (normaliseLoop env.toLowercase false [] content.toList).length + 1 := by
    rw [ContextEnv.normalised, step, ended, String.toList_ofList, List.length_append]
    rfl
  omega

/-- Words in lower case, joined and with a space behind them, are trimmed to the joined words. -/
theorem trimEnd_intercalate (lowers : LowersWords toLowercase) {words : List (List Char)}
    (filled : ∀ word ∈ words, word ≠ []) (plain : ∀ word ∈ words, Unbroken isWhitespace word)
    {tail : List Char} (white : ∀ d ∈ tail, isWhitespace d = true)
    (between : words = [] → tail = []) :
    trimEnd (String.ofList ([' '].intercalate (words.map (·.flatMap toLowercase)) ++ tail)) =
      String.ofList ([' '].intercalate (words.map (·.flatMap toLowercase))) := by
  rcases List.eq_nil_or_concat' words with rfl | ⟨words, last, rfl⟩
  · rw [between rfl]
    rfl
  · have some_ := lowers.flatMap_ne_nil (filled last (by simp))
    obtain ⟨chars, c, ends⟩ := (List.eq_nil_or_concat' _).resolve_left some_
    have letter : isWhitespace c = false :=
      lowers.plain_flatMap (plain last (by simp)) c (by simp [ends])
    rw [List.map_append, List.map_singleton, intercalate_concat, ends, ← List.append_assoc]
    exact trimEnd_concat letter white

/-- The words of a text, as characters. -/
theorem splitWhitespace_eq (content : String) :
    splitWhitespace content = (wordsOf isWhitespace content.toList).map String.ofList := by
  rw [splitWhitespace, wordsOf]
  refine congrArg _ (List.filter_congr fun part _ => ?_)
  cases part <;> rfl

/-- The words of a text in lower case, as characters. -/
theorem loweredWords_eq (toLowercase : Char → List Char) (content : String) :
    loweredWords toLowercase content =
      ((wordsOf isWhitespace content.toList).map (·.flatMap toLowercase)).map String.ofList := by
  rw [loweredWords, splitWhitespace_eq, List.map_map, List.map_map]
  exact List.map_congr_left fun word _ => by simp

/-- The words of a text in lower case, joined by spaces. -/
theorem intercalate_loweredWords (toLowercase : Char → List Char) (content : String) :
    " ".intercalate (loweredWords toLowercase content) = String.ofList ([' '].intercalate
      ((wordsOf isWhitespace content.toList).map (·.flatMap toLowercase))) := by
  have space : " ".toList = [' '] := String.toList_ofList
  apply String.toList_inj.mp
  rw [String.toList_intercalate, loweredWords_eq, space, String.toList_ofList, List.map_map]
  exact congrArg _ (List.map_id'' (fun _ => String.toList_ofList) _)

/-- The text that is hashed consists of the words in lower case, joined by single spaces. -/
theorem ContextEnv.normalised_eq (env : ContextEnv) (lowers : LowersWords env.toLowercase)
    (content : String) :
    env.normalised content = " ".intercalate (loweredWords env.toLowercase content) := by
  obtain ⟨front, word, whole, now⟩ := normalises_foldl lowers content.toList
  have written := (normaliseLoop_eq env.toLowercase (false, []) content.toList).trans now.written
  have words : wordsOf isWhitespace content.toList =
      wordsOf isWhitespace front ++ wordsOf isWhitespace word := by
    rw [← whole, now.closed.wordsOf_append]
  have trimmed : ∀ tail : List Char, (∀ d ∈ tail, isWhitespace d = true) →
      (wordsOf isWhitespace content.toList = [] → tail = []) →
      trimEnd (String.ofList ([' '].intercalate ((wordsOf isWhitespace content.toList).map
        (·.flatMap env.toLowercase)) ++ tail)) =
          " ".intercalate (loweredWords env.toLowercase content) := by
    intro tail white between
    rw [intercalate_loweredWords]
    exact trimEnd_intercalate lowers (fun w member => (of_mem_wordsOf member).1)
      (fun w member => (of_mem_wordsOf member).2) white between
  rw [normalised, written]
  by_cases open_ : word = []
  · -- The text ends between words: the last of them has a space behind it.
    rw [open_, wordsOf_nil, List.append_nil] at words
    rw [open_, List.flatMap_nil, List.append_nil, ← words]
    rcases List.eq_nil_or_concat' (wordsOf isWhitespace content.toList) with none_ | ⟨ws, w, some_⟩
    · have idle := trimmed [] (fun _ absent => nomatch absent) (fun _ => rfl)
      rw [none_] at idle ⊢
      exact idle
    · have space := trimmed [' '] (by simp; decide) (by simp [some_])
      rw [some_, List.map_append, List.map_singleton] at space ⊢
      rw [intercalate_concat, List.append_assoc] at space
      rw [List.flatMap_append, List.flatMap_singleton]
      exact space
  · -- The text ends in a word.
    have closing := trimmed [] (fun _ absent => nomatch absent) (fun _ => rfl)
    rw [words, wordsOf_unbroken now.plain open_, List.map_append, List.map_singleton,
      intercalate_concat, List.append_nil] at closing
    exact closing

/-- The words of a text in lower case have something in them, and no space. -/
theorem of_mem_lowered (lowers : LowersWords toLowercase) (content : String) :
    ∀ word ∈ (wordsOf isWhitespace content.toList).map (·.flatMap toLowercase),
      word ≠ [] ∧ ' ' ∉ word := by
  intro lowered member
  obtain ⟨word, inside, rfl⟩ := List.mem_map.mp member
  obtain ⟨filled, plain⟩ := of_mem_wordsOf inside
  refine ⟨lowers.flatMap_ne_nil filled, fun space => ?_⟩
  exact absurd (lowers.plain_flatMap plain ' ' space) (by decide)

/-- Texts have the same normalised text when they have the same words in lower case. -/
theorem ContextEnv.normalised_inj (env : ContextEnv) (lowers : LowersWords env.toLowercase)
    (a b : String) :
    env.normalised a = env.normalised b ↔
      loweredWords env.toLowercase a = loweredWords env.toLowercase b := by
  rw [env.normalised_eq lowers, env.normalised_eq lowers, intercalate_loweredWords,
    intercalate_loweredWords, String.ofList_inj, loweredWords_eq, loweredWords_eq,
    (List.map_injective_iff.mpr fun _ _ => String.ofList_inj.mp).eq_iff]
  exact intercalate_inj (fun word member => (of_mem_lowered lowers a word member).1)
    (fun word member => (of_mem_lowered lowers b word member).1)
    (fun word member => (of_mem_lowered lowers a word member).2)
    (fun word member => (of_mem_lowered lowers b word member).2)

/-- The text that is hashed consists of the words in lower case, joined by single spaces. Among
contents whose normalised texts have different hashes, the key tells exactly which have the same
words in lower case. -/
theorem ContextEnv.key_identifies_words (env : ContextEnv)
    (lowers : LowersWords env.toLowercase) :
    (∀ content, env.key content = env.crypto.blake3 (utf8 (env.normalised content)) ∧
      env.normalised content = " ".intercalate (loweredWords env.toLowercase content)) ∧
    ∀ contents : Set String,
      Set.InjOn env.crypto.blake3 ((fun content => utf8 (env.normalised content)) '' contents) →
      ∀ a ∈ contents, ∀ b ∈ contents,
        (env.key a = env.key b ↔
          loweredWords env.toLowercase a = loweredWords env.toLowercase b) := by
  refine ⟨fun content => ⟨rfl, env.normalised_eq lowers content⟩, ?_⟩
  intro contents injective a memberA b memberB
  rw [← env.normalised_inj lowers a b]
  constructor
  · intro same
    exact utf8_injective (injective (Set.mem_image_of_mem _ memberA)
      (Set.mem_image_of_mem _ memberB) same)
  · intro same
    exact congrArg (fun text => env.crypto.blake3 (utf8 text)) same

/-- The lower case of an ASCII letter. -/
theorem toNat_toLower {c : Char} (upper : c.val ≥ 'A'.val ∧ c.val ≤ 'Z'.val) :
    c.toLower.toNat = c.toNat + 32 := by
  have value : c.toLower.val = c.val + ('a'.val - 'A'.val) := congrArg Char.val (dif_pos upper)
  have most : c.val.toNat ≤ 90 := UInt32.le_iff_toNat_le.mp upper.2
  have shift : ('a'.val - 'A'.val).toNat = 32 := rfl
  rw [Char.toNat, value, UInt32.toNat_add, shift, Nat.mod_eq_of_lt (by omega)]
  rfl

/-- Lower case in ASCII yields no white space. -/
theorem lowersWords_plainEnv : LowersWords plainEnv.toLowercase := by
  refine ⟨fun c => List.cons_ne_nil _ _, fun c plain d member => ?_⟩
  have lowered : d = c.toLower := List.mem_singleton.mp member
  rw [lowered]
  by_cases upper : c.val ≥ 'A'.val ∧ c.val ≤ 'Z'.val
  · have least : 65 ≤ c.toNat := UInt32.le_iff_toNat_le.mp upper.1
    have most : c.toNat ≤ 90 := UInt32.le_iff_toNat_le.mp upper.2
    have value := toNat_toLower upper
    simp [isWhitespace]
    omega
  · have same : c.toLower = c := dif_neg upper
    rw [same]
    exact plain

/-- Leading, trailing and repeated white space and upper case do not change the key. -/
theorem ContextEnv.key_identifies_words_sample :
    plainEnv.key " Hello\t\n World " = plainEnv.key "hello world" := by
  refine ((plainEnv.key_identifies_words lowersWords_plainEnv).2
    {" Hello\t\n World ", "hello world"} ?_ _ (by simp) _ (by simp)).mpr (by decide +kernel)
  rintro _ ⟨a, memberA, rfl⟩ _ ⟨b, memberB, rfl⟩ _
  rcases memberA with rfl | rfl <;> rcases memberB with rfl | rfl <;> decide +kernel

end Hansa
