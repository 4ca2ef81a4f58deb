import Mathlib.Data.List.TakeWhile
import Hansa.Verif.ContextBudget
import Hansa.Verif.SentenceText

/-!
# What becomes of every hit

A hit becomes an item, or a counter says why it did not. The one exception is a payload without
any text under sentence deduplication: it is dropped as redundant without a sentence that could
be counted.
-/

namespace Hansa

/-! ## Blank text -/

/-- Trimming a text leaves nothing exactly when the text is blank. -/
theorem trim_eq_empty_iff (text : String) : trim text = "" ↔ isBlank text = true := by
  rw [← String.toList_eq_nil_iff, toList_trim, isBlank, List.all_eq_true, trimChars,
    List.reverse_eq_nil_iff, List.dropWhile_eq_nil_iff]
  constructor
  · intro blank ch member
    by_contra plain
    have kept : ch ∈ text.toList.dropWhile isWhitespace := by
      have split := List.takeWhile_append_dropWhile (p := isWhitespace) (l := text.toList)
      rw [← split, List.mem_append] at member
      rcases member with front | back
      · exact absurd (List.mem_takeWhile_imp front) plain
      · exact back
    exact plain (blank ch (List.mem_reverse.mpr kept))
  · intro blank ch member
    have suffix : text.toList.dropWhile isWhitespace <:+ text.toList := List.dropWhile_suffix _
    exact blank ch (suffix.subset (List.mem_reverse.mp member))

/-- A text has no sentences exactly when it is blank. -/
theorem sentencesOf_eq_nil_iff (content : String) :
    sentencesOf content = [] ↔ isBlank content = true := by
  have whole := splitLoop_flatten [] content.toList
  rw [List.nil_append] at whole
  rw [sentencesOf, List.filter_eq_nil_iff, isBlank, List.all_eq_true]
  constructor
  · intro none_ ch member
    rw [← whole] at member
    obtain ⟨piece, split, inside⟩ := List.mem_flatten.mp member
    have trimmed := none_ (trim (String.ofList piece))
      (List.mem_map_of_mem (List.mem_map_of_mem split))
    have blank : isBlank (String.ofList piece) = true := by
      rw [← trim_eq_empty_iff]
      simpa using trimmed
    rw [isBlank, String.toList_ofList, List.all_eq_true] at blank
    exact blank ch inside
  · intro blank sentence member
    obtain ⟨text, inside, rfl⟩ := List.mem_map.mp member
    obtain ⟨piece, split, rfl⟩ := List.mem_map.mp inside
    have empty : trim (String.ofList piece) = "" := by
      rw [trim_eq_empty_iff, isBlank, String.toList_ofList, List.all_eq_true]
      intro ch inPiece
      apply blank ch
      rw [← whole]
      exact List.mem_flatten.mpr ⟨piece, split, inPiece⟩
    simp [empty]

/-- A text that is rebuilt from sentences is blank exactly when there is none. -/
theorem trim_rebuild_eq_empty_iff {parts : List String} (sentences : ∀ t ∈ parts, IsSentence t) :
    trim (rebuild parts) = "" ↔ parts = [] := by
  constructor
  · intro empty
    rw [trim_eq_empty_iff, isBlank, List.all_eq_true] at empty
    rcases parts with _ | ⟨t, rest⟩
    · rfl
    · exfalso
      have isSentence := sentences t List.mem_cons_self
      obtain ⟨c, atHead⟩ := Option.isSome_iff_exists.mp (List.isSome_head?.mpr isSentence.filled)
      have plain := isSentence.trimmed.1 c atHead
      have inside : c ∈ t.toList := List.mem_of_mem_head? atHead
      have kept : c ∈ (rebuild (t :: rest)).toList := by
        rcases rest with _ | ⟨u, rest⟩
        · rw [rebuild_singleton isSentence, closeSentence]
          split
          · exact inside
          · rw [String.toList_append]
            exact List.mem_append_left _ inside
        · obtain ⟨tail, text⟩ := rebuild_cons_cons t u rest
          rw [text]
          exact List.mem_append_left _ inside
      rw [empty c kept] at plain
      cases plain
  · rintro rfl
    decide

namespace ContextBuilder

variable {F : Type} {b : ContextBuilder F} {env : ContextEnv}

/-- What sentence deduplication leaves of a hit is blank exactly when no sentence is kept. -/
theorem textAt_blank_iff (on : b.sentenceDedup = true) {st : FilterState F}
    {hit : MembraneHit F} : trim (b.textAt env st hit).content = "" ↔
      (keepSentences env.key st.seenSentence (rawText hit)).keptParts = [] := by
  have text : b.textAt env st hit = dedupSentences env.key (rawText hit) st.seenSentence :=
    if_pos on
  have keeps := keepSentences_keeps env.key st.seenSentence (rawText hit)
  rw [text, content_dedupSentences]
  exact trim_rebuild_eq_empty_iff fun t kept => isSentence_of_mem (keeps.part.subset kept)

/-- A hit of which nothing is left has lost all its sentences. -/
theorem dropped_of_blank (on : b.sentenceDedup = true) {st : FilterState F}
    {hit : MembraneHit F} (empty : trim (b.textAt env st hit).content = "") :
    (b.textAt env st hit).dropped = (sentencesOf (rawText hit)).length := by
  have text : b.textAt env st hit = dedupSentences env.key (rawText hit) st.seenSentence :=
    if_pos on
  have keeps := keepSentences_keeps env.key st.seenSentence (rawText hit)
  have counts := keeps.counts
  rw [(textAt_blank_iff on).mp empty, List.length_nil, Nat.add_zero] at counts
  rw [text]
  exact counts

end ContextBuilder

/-! ## The accounts -/

variable {F : Type}

/-- The hit was emptied: all its sentences, one at least, were redundant. -/
def Exit.isEmptied : Exit F → Bool
  | .redundant text => 0 < text.dropped
  | _ => false

/-- The hit left without a trace. -/
def Exit.isUncounted : Exit F → Bool
  | .redundant text => text.dropped = 0
  | _ => false

namespace ContextBuilder

variable [FloatLike F] (b : ContextBuilder F) (env : ContextEnv)

/-- The number of hits before an index that leave by some exits. -/
def leaving (p : Exit F → Bool) (i : Nat) : Nat :=
  (List.range i).countP fun j => (b.exitAt env j).any p

/-- Every hit is an item or counted, and a hit that was emptied is counted by its sentences. -/
structure Accounts (bundle : ContextBundle F) : Prop where
  /-- Every hit is accounted for. -/
  total : bundle.items.length + bundle.droppedBelowThreshold + bundle.droppedDuplicates +
    bundle.droppedSemanticDuplicates + bundle.droppedOverBudget +
      b.leaving env Exit.isEmptied b.hits.length = b.hits.length
  /-- Each emptied hit contributes a sentence. -/
  emptied : b.leaving env Exit.isEmptied b.hits.length ≤ bundle.droppedRedundantSentences

/-- No payload without text reaches sentence deduplication. -/
def NoBlank : Prop :=
  b.sentenceDedup = true → ∀ i hit, b.hits[i]? = some hit → b.Reaches hit →
    b.IsNew env (b.filterAt env i) hit → isBlank (rawText hit) = false

variable {b env}

/-- One hit more. -/
theorem leaving_succ {p : Exit F → Bool} {i : Nat} {exit : Exit F}
    (left : b.exitAt env i = some exit) :
    b.leaving env p (i + 1) = b.leaving env p i + if p exit then 1 else 0 := by
  rw [leaving, List.range_succ, List.countP_append, List.countP_singleton, left, Option.any_some]
  rfl

variable (b env) in
/-- Before each hit the counters account for the hits so far, but for those that left without a
trace. -/
theorem filterAt_accounts : ∀ i ≤ b.hits.length,
    (b.filterAt env i).eligible.length + (b.filterAt env i).bundle.droppedBelowThreshold +
      (b.filterAt env i).bundle.droppedDuplicates +
      (b.filterAt env i).bundle.droppedSemanticDuplicates + b.leaving env Exit.isEmptied i +
      b.leaving env Exit.isUncounted i = i ∧
    b.leaving env Exit.isEmptied i ≤ (b.filterAt env i).bundle.droppedRedundantSentences := by
  apply filterAt_induction (P := fun i st =>
    st.eligible.length + st.bundle.droppedBelowThreshold + st.bundle.droppedDuplicates +
      st.bundle.droppedSemanticDuplicates + b.leaving env Exit.isEmptied i +
      b.leaving env Exit.isUncounted i = i ∧
    b.leaving env Exit.isEmptied i ≤ st.bundle.droppedRedundantSentences)
  · exact ⟨rfl, le_rfl⟩
  · intro i hit exit found left leaves before
    obtain ⟨total, emptied⟩ := before
    rw [leaving_succ left, leaving_succ left]
    cases leaves with
    | belowThreshold low =>
      simp only [leave, Exit.isEmptied, Exit.isUncounted, Bool.false_eq_true, if_false]
      omega
    | duplicate reaches on seen =>
      simp only [leave, Exit.isEmptied, Exit.isUncounted, Bool.false_eq_true, if_false,
        List.length_modify]
      omega
    | semanticDuplicate reaches isNew filled near =>
      simp only [leave, Exit.isEmptied, Exit.isUncounted, Bool.false_eq_true, if_false,
        List.length_modify]
      omega
    | kept reaches isNew filled far =>
      simp only [leave, Exit.isEmptied, Exit.isUncounted, Bool.false_eq_true, if_false,
        List.length_append, List.length_singleton]
      omega
    | redundant reaches isNew on empty =>
      simp only [leave, Exit.isEmptied, Exit.isUncounted, decide_eq_true_eq]
      by_cases none_ : (b.textAt env (b.filterAt env i) hit).dropped = 0
      · rw [if_neg (by omega), if_pos none_]
        omega
      · rw [if_pos (by omega), if_neg none_]
        omega

/-- A hit leaves without a trace exactly when it is blank, new, and sentences are
deduplicated. -/
theorem isUncounted_iff {st : FilterState F} {hit : MembraneHit F} {exit : Exit F}
    (leaves : b.Leaves env st hit exit) : exit.isUncounted = true ↔
      b.sentenceDedup = true ∧ b.Reaches hit ∧ b.IsNew env st hit ∧
        isBlank (rawText hit) = true := by
  have filledText : ∀ on : b.sentenceDedup = true, isBlank (rawText hit) = true →
      trim (b.textAt env st hit).content = "" := by
    intro on blank
    have keeps := keepSentences_keeps env.key st.seenSentence (rawText hit)
    rw [textAt_blank_iff on]
    have none_ := (sentencesOf_eq_nil_iff _).mpr blank
    have part := keeps.part
    rw [none_] at part
    exact List.sublist_nil.mp part
  cases leaves with
  | belowThreshold low => simp [Exit.isUncounted, low]
  | duplicate reaches on seen =>
    have old : ¬ b.IsNew env st hit := fun isNew => isNew on _ seen rfl
    simp [Exit.isUncounted, old]
  | semanticDuplicate reaches isNew filled near =>
    have other : ¬ (b.sentenceDedup = true ∧ isBlank (rawText hit) = true) :=
      fun both => filled ⟨both.1, filledText both.1 both.2⟩
    simp only [Exit.isUncounted, Bool.false_eq_true, false_iff]
    exact fun all => other ⟨all.1, all.2.2.2⟩
  | kept reaches isNew filled far =>
    have other : ¬ (b.sentenceDedup = true ∧ isBlank (rawText hit) = true) :=
      fun both => filled ⟨both.1, filledText both.1 both.2⟩
    simp only [Exit.isUncounted, Bool.false_eq_true, false_iff]
    exact fun all => other ⟨all.1, all.2.2.2⟩
  | redundant reaches isNew on empty =>
    simp only [Exit.isUncounted, decide_eq_true_eq, dropped_of_blank on empty,
      List.length_eq_zero_iff, sentencesOf_eq_nil_iff]
    exact ⟨fun blank => ⟨on, reaches, isNew, blank⟩, fun all => all.2.2.2⟩

/-- No hit leaves without a trace exactly when no payload without text reaches sentence
deduplication. -/
theorem leaving_isUncounted_iff :
    b.leaving env Exit.isUncounted b.hits.length = 0 ↔ b.NoBlank env := by
  rw [leaving, List.countP_eq_zero]
  constructor
  · intro none_ on i hit found reaches isNew
    have inside := (List.getElem?_eq_some_iff.mp found).1
    have absent := none_ i (List.mem_range.mpr inside)
    have left : b.exitAt env i = some (b.exit env (b.filterAt env i) hit) := by
      rw [exitAt, found]
      rfl
    rw [left, Option.any_some, isUncounted_iff (b.leaves env _ hit)] at absent
    by_contra blank
    exact absent ⟨on, reaches, isNew, by simpa using blank⟩
  · intro noBlank i inRange uncounted
    obtain ⟨exit, left⟩ := exists_exitAt b env (List.mem_range.mp inRange)
    obtain ⟨hit, found, leaves⟩ := leaves_of_exitAt left
    rw [left, Option.any_some, isUncounted_iff leaves] at uncounted
    obtain ⟨on, reaches, isNew, blank⟩ := uncounted
    rw [noBlank on i hit found reaches isNew] at blank
    cases blank

/-- A bundle accounts for every hit exactly when no payload without text reached sentence
deduplication. -/
theorem build_accounts_iff {bundle : ContextBundle F} (built : b.build env = .ok bundle) :
    b.Accounts env bundle ↔ b.NoBlank env := by
  obtain ⟨ranked, sorted, filled⟩ := Except.bind_eq_ok.mp built
  obtain ⟨count, same⟩ := foldlM_budgetStep_counts filled
  obtain ⟨noItems, _, noOver⟩ := filter_bundle b env
  obtain ⟨total, emptied⟩ := filterAt_accounts b env b.hits.length le_rfl
  rw [filterAt_length] at total emptied
  have eligible := (StdSort.perm_of_sortBy sorted).length_eq
  rw [noItems, noOver, List.length_nil, eligible] at count
  rw [← leaving_isUncounted_iff]
  constructor
  · intro accounts
    have all := accounts.total
    rw [same.belowThreshold, same.duplicates, same.semanticDuplicates] at all
    omega
  · intro none_
    refine ⟨?_, ?_⟩
    · rw [same.belowThreshold, same.duplicates, same.semanticDuplicates]
      omega
    · rw [same.redundantSentences]
      exact emptied

/-- The bundle of three texts is built, and whether it accounts for them depends on them. -/
theorem crowded_accounts_iff : ∃ bundle, crowded.build plainEnv = .ok bundle ∧
    (crowded.Accounts plainEnv bundle ↔ crowded.NoBlank plainEnv) := by
  obtain ⟨bundle, built, _⟩ :=
    build_fill crowded_scored.1 (Nat.lt_of_lt_of_le crowded_scored.2 (Nat.sub_le _ _))
  exact ⟨bundle, built, build_accounts_iff built⟩

/-- A payload of one space, under sentence deduplication. -/
def blankHit : ContextBuilder Float32 :=
  { fromHits [sampleHit .local 0.9 " " none] with sentenceDedup := true }

/-- The payload of one space changes neither the items nor a counter. -/
theorem blankHit_vanishes : ∃ bundle, blankHit.build plainEnv = .ok bundle ∧
    bundle.items = [] ∧ bundle.droppedBelowThreshold = 0 ∧ bundle.droppedDuplicates = 0 ∧
      bundle.droppedSemanticDuplicates = 0 ∧ bundle.droppedOverBudget = 0 ∧
      bundle.droppedRedundantSentences = 0 ∧ ¬ blankHit.Accounts plainEnv bundle := by
  have none_ : (blankHit.filter plainEnv).eligible = [] :=
    List.eq_nil_of_length_eq_zero (by decide +kernel)
  have ranked : blankHit.rank plainEnv = .ok [] := by
    rw [rank, none_, plainEnv.sort.stable _ _ ⟨nofun, nofun⟩, sortStably, List.mergeSort_nil]
  have built : blankHit.build plainEnv = .ok (blankHit.filter plainEnv).bundle := by
    rw [build, ranked]
    rfl
  have noItems := (filter_bundle blankHit plainEnv).1
  refine ⟨_, built, noItems, by decide +kernel, by decide +kernel, by decide +kernel,
    by decide +kernel, by decide +kernel, ?_⟩
  intro accounts
  have total := accounts.total
  rw [noItems] at total
  exact absurd total (by decide +kernel)

end ContextBuilder

end Hansa
