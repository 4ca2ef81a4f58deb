import Hansa.Library.GreedyFill
import Hansa.Library.StateErrors
import Hansa.Verif.ContextFilter
import Hansa.Verif.FloatLaws
import Hansa.Verif.SentenceText

/-!
# Ranking and budgets

The last two phases sort the items by their scores and fill the bundle while the budgets last.
An item that does not fit is passed over and the filling goes on, so a bundle is the longest
prefix of the ranking exactly when nothing behind the first item that does not fit would fit.
-/

namespace Hansa

namespace ContextBuilder

variable {F : Type} {b : ContextBuilder F} {env : ContextEnv}

/-! ## One item -/

/-- The tokens of items. -/
def tokensOf (items : List (ContextItem F)) : Nat := (items.map fun item => item.tokens.toNat).sum

variable (b) in
/-- Items are within both budgets. -/
def Within (items : List (ContextItem F)) : Prop :=
  (∀ budget ∈ b.tokenBudget, tokensOf items ≤ budget.toNat) ∧
    ∀ cap ∈ b.recordBudget, items.length ≤ cap

instance : DecidablePred b.Within := fun items =>
  decidable_of_iff ((b.tokenBudget.all fun budget => tokensOf items ≤ budget.toNat) = true ∧
      (b.recordBudget.all fun cap => items.length ≤ cap) = true)
    (by simp only [Within, Option.all_eq_true, decide_eq_true_eq, Option.mem_def])

/-- What is within the budgets is within them without its last item. -/
theorem within_of_concat (items : List (ContextItem F)) (item : ContextItem F)
    (inside : b.Within (items ++ [item])) : b.Within items := by
  refine ⟨fun budget on => ?_, fun cap on => ?_⟩
  · have sum := inside.1 budget on
    rw [tokensOf, List.map_append, List.sum_append] at sum
    exact (Nat.le_add_right _ _).trans sum
  · have count := inside.2 cap on
    rw [List.length_append, List.length_singleton] at count
    omega

/-- The bundle with one more item. -/
def push (bundle : ContextBundle F) (item : ContextItem F) : ContextBundle F :=
  { bundle with totalTokens := bundle.totalTokens + item.tokens, items := bundle.items ++ [item] }

/-- The bundle that passed over an item. -/
def pass (bundle : ContextBundle F) : ContextBundle F :=
  { bundle with droppedOverBudget := bundle.droppedOverBudget + 1 }

/-- An item is put into the bundle or passed over. -/
theorem budgetStep_cases {bundle next : ContextBundle F} {item : ContextItem F}
    (admitted : b.budgetStep env bundle item = .ok next) :
    next = pass bundle ∨ next = push bundle item := by
  obtain ⟨over_, _, admitted⟩ := Except.bind_eq_ok.mp admitted
  split at admitted
  · exact .inl (Except.ok.inj admitted).symm
  · split at admitted
    · exact .inl (Except.ok.inj admitted).symm
    · obtain ⟨total, added, admitted⟩ := Except.bind_eq_ok.mp admitted
      rw [UInt64.addIn_ok added] at admitted
      exact .inr (Except.ok.inj admitted).symm

variable (b env) in
/-- Where tokens can be summed, an item is put into the bundle exactly when the bundle stays
within the budgets. -/
theorem budgetStep_eq {bundle : ContextBundle F} (item : ContextItem F)
    (total : bundle.totalTokens.toNat = tokensOf bundle.items)
    (fits : tokensOf bundle.items + item.tokens.toNat < 2 ^ 64) :
    b.budgetStep env bundle item =
      .ok (if b.Within (bundle.items ++ [item]) then push bundle item else pass bundle) := by
  rw [← total] at fits
  have sum : UInt64.addIn env.profile bundle.totalTokens item.tokens =
      .ok (bundle.totalTokens + item.tokens) := UInt64.addIn_eq fits
  have value : (bundle.totalTokens + item.tokens).toNat = tokensOf (bundle.items ++ [item]) := by
    rw [UInt64.toNat_add, Nat.mod_eq_of_lt fits, total, tokensOf, tokensOf, List.map_append,
      List.sum_append]
    rfl
  have overTokens : b.overTokens env bundle item =
      .ok (decide (∃ budget ∈ b.tokenBudget,
        budget.toNat < tokensOf (bundle.items ++ [item]))) := by
    unfold overTokens
    cases b.tokenBudget with
    | none => simp
    | some budget =>
      simp only [sum, bind, Except.bind, UInt64.lt_iff_toNat_lt, value]
      simp
  have overRecords : b.recordBudget.any (· ≤ bundle.items.length) =
      decide (∃ cap ∈ b.recordBudget, cap < (bundle.items ++ [item]).length) := by
    rw [List.length_append, List.length_singleton]
    cases b.recordBudget with
    | none => simp
    | some cap =>
      simp only [Option.mem_some_iff, exists_eq_left', Option.any_some]
      exact decide_eq_decide.mpr Nat.lt_succ_iff.symm
  unfold budgetStep
  simp only [overTokens, overRecords, sum, bind, Except.bind]
  by_cases tokens : ∃ budget ∈ b.tokenBudget, budget.toNat < tokensOf (bundle.items ++ [item])
  · have outside : ¬ b.Within (bundle.items ++ [item]) := by
      obtain ⟨budget, on, more⟩ := tokens
      exact fun within => absurd (within.1 budget on) (by omega)
    simp only [tokens, outside, decide_true, if_true, if_false, pass]
  · by_cases records : ∃ cap ∈ b.recordBudget, cap < (bundle.items ++ [item]).length
    · have outside : ¬ b.Within (bundle.items ++ [item]) := by
        obtain ⟨cap, on, more⟩ := records
        exact fun within => absurd (within.2 cap on) (by omega)
      simp only [tokens, records, outside, decide_true, decide_false, if_true, if_false, pass,
        Bool.false_eq_true]
    · have within : b.Within (bundle.items ++ [item]) := by
        push Not at tokens records
        exact ⟨tokens, records⟩
      simp only [tokens, records, within, decide_false, if_true, if_false, push,
        Bool.false_eq_true]

/-! ## All items -/

/-- The counters of the filter. -/
structure SameCounters (bundle out : ContextBundle F) : Prop where
  /-- Byte duplicates. -/
  duplicates : out.droppedDuplicates = bundle.droppedDuplicates
  /-- Hits below the threshold. -/
  belowThreshold : out.droppedBelowThreshold = bundle.droppedBelowThreshold
  /-- Redundant sentences. -/
  redundantSentences : out.droppedRedundantSentences = bundle.droppedRedundantSentences
  /-- Semantic duplicates. -/
  semanticDuplicates : out.droppedSemanticDuplicates = bundle.droppedSemanticDuplicates

/-- Every item is put into the bundle or counted, and the counters of the filter stay. -/
theorem foldlM_budgetStep_counts {items : List (ContextItem F)} {bundle out : ContextBundle F}
    (filled : items.foldlM (b.budgetStep env) bundle = .ok out) :
    out.items.length + out.droppedOverBudget =
      bundle.items.length + bundle.droppedOverBudget + items.length ∧ SameCounters bundle out := by
  induction items generalizing bundle with
  | nil =>
    obtain rfl := Except.ok.inj filled
    exact ⟨rfl, ⟨rfl, rfl, rfl, rfl⟩⟩
  | cons item items ih =>
    rw [List.foldlM_cons] at filled
    obtain ⟨next, admitted, filled⟩ := Except.bind_eq_ok.mp filled
    obtain ⟨count, same⟩ := ih filled
    rcases budgetStep_cases admitted with rfl | rfl
    · refine ⟨?_, same.1, same.2, same.3, same.4⟩
      simp only [pass, List.length_cons] at count ⊢
      omega
    · refine ⟨?_, same.1, same.2, same.3, same.4⟩
      simp only [push, List.length_append, List.length_cons, List.length_nil] at count ⊢
      omega

/-- Without budgets every item is put into the bundle. -/
theorem foldlM_budgetStep_unlimited (tokens : b.tokenBudget = none)
    (records : b.recordBudget = none)
    {items : List (ContextItem F)} {bundle out : ContextBundle F}
    (filled : items.foldlM (b.budgetStep env) bundle = .ok out) :
    out.items = bundle.items ++ items := by
  induction items generalizing bundle with
  | nil =>
    obtain rfl := Except.ok.inj filled
    exact (List.append_nil _).symm
  | cons item items ih =>
    rw [List.foldlM_cons] at filled
    obtain ⟨next, admitted, filled⟩ := Except.bind_eq_ok.mp filled
    rw [ih filled]
    simp only [budgetStep, overTokens, tokens, records, Option.any_none, bind, Except.bind,
      Bool.false_eq_true, if_false] at admitted
    have next_items : next.items = bundle.items ++ [item] := by
      split at admitted
      · cases admitted
      · obtain rfl := Except.ok.inj admitted
        rfl
    rw [next_items, List.append_assoc]
    rfl

variable (b env) in
/-- Where tokens can be summed, the bundle is the greedy filling within the budgets. -/
theorem foldlM_budgetStep_fill (items : List (ContextItem F)) {bundle : ContextBundle F}
    (total : bundle.totalTokens.toNat = tokensOf bundle.items)
    (fits : tokensOf bundle.items + tokensOf items < 2 ^ 64) (inside : b.Within bundle.items) :
    ∃ out, items.foldlM (b.budgetStep env) bundle = .ok out ∧
      out.items = fill b.Within bundle.items items ∧
      out.totalTokens.toNat = tokensOf out.items := by
  induction items generalizing bundle with
  | nil => exact ⟨bundle, rfl, rfl, total⟩
  | cons item items ih =>
    have sum : tokensOf (item :: items) = item.tokens.toNat + tokensOf items := List.sum_cons
    have admitted := budgetStep_eq b env item total (by omega)
    rw [List.foldlM_cons, admitted, fill]
    by_cases more : b.Within (bundle.items ++ [item])
    · rw [if_pos more, if_pos more]
      have pushed : tokensOf (push bundle item).items = tokensOf bundle.items +
          item.tokens.toNat := by
        simp [push, tokensOf]
      apply ih
      · rw [pushed, ← total]
        show (bundle.totalTokens + item.tokens).toNat = _
        rw [UInt64.toNat_add, Nat.mod_eq_of_lt (by omega)]
      · omega
      · exact more
    · rw [if_neg more, if_neg more]
      have still : tokensOf (pass bundle).items + tokensOf items < 2 ^ 64 := by
        show tokensOf bundle.items + _ < _
        omega
      exact ih total still inside

/-! ## The bundle -/

variable [FloatLike F]

variable (b env) in
/-- The items in the order in which they are filled in. -/
def ranking : List (ContextItem F) :=
  sortStably (fun x y => descending (b.ranker x) (b.ranker y)) (b.filter env).eligible

/-- Items that stand in descending order are ranked as they stand. -/
theorem ranking_eq_self (ordered : (b.filter env).eligible.Pairwise fun x y =>
    descending (b.ranker x) (b.ranker y) ≠ .gt) : b.ranking env = (b.filter env).eligible :=
  List.mergeSort_of_pairwise (ordered.imp bne_iff_ne.mpr)

variable (b env) in
/-- The filter leaves the items and the total of the bundle alone. -/
theorem filterAt_bundle : ∀ i ≤ b.hits.length, (b.filterAt env i).bundle.items = [] ∧
    (b.filterAt env i).bundle.totalTokens = 0 ∧
      (b.filterAt env i).bundle.droppedOverBudget = 0 := by
  apply filterAt_induction (P := fun _ st => st.bundle.items = [] ∧ st.bundle.totalTokens = 0 ∧
    st.bundle.droppedOverBudget = 0)
  · exact ⟨rfl, rfl, rfl⟩
  · intro i hit exit _ _ _ before
    cases exit <;> exact before

variable (b env) in
/-- The bundle that the budget phase starts with is empty. -/
theorem filter_bundle : (b.filter env).bundle.items = [] ∧ (b.filter env).bundle.totalTokens = 0 ∧
    (b.filter env).bundle.droppedOverBudget = 0 := by
  have last := filterAt_bundle b env b.hits.length le_rfl
  rwa [filterAt_length] at last

variable [LawfulFloat F]

variable (b env) in
/-- No item has NaN for its score. -/
def Scored : Prop := ∀ item ∈ (b.filter env).eligible, (LawfulFloat.place (b.ranker item)).isSome

/-- Items with numbers for scores are ranked stably. -/
theorem rank_eq (scored : b.Scored env) : b.rank env = .ok (b.ranking env) :=
  env.sort.stable _ _ (LawfulFloat.totalPreorderOn_descending scored)

/-- Where scores are numbers and tokens can be summed, the bundle is the greedy filling of the
ranking. -/
theorem build_fill (scored : b.Scored env)
    (small : tokensOf (b.filter env).eligible < 2 ^ 64) :
    ∃ bundle, b.build env = .ok bundle ∧ bundle.items = fill b.Within [] (b.ranking env) ∧
      bundle.totalTokens.toNat = tokensOf bundle.items := by
  obtain ⟨noItems, noTokens, _⟩ := filter_bundle b env
  have same : tokensOf (b.ranking env) = tokensOf (b.filter env).eligible := by
    have moved := (sortStably_perm (fun x y => descending (b.ranker x) (b.ranker y))
      (b.filter env).eligible).map fun item => item.tokens.toNat
    exact moved.sum_nat
  have start : b.Within (b.filter env).bundle.items := by
    rw [noItems]
    exact ⟨fun _ _ => Nat.zero_le _, fun _ _ => Nat.zero_le _⟩
  have total : (b.filter env).bundle.totalTokens.toNat = tokensOf (b.filter env).bundle.items := by
    rw [noItems, noTokens]
    rfl
  have fits : tokensOf (b.filter env).bundle.items + tokensOf (b.ranking env) < 2 ^ 64 := by
    rw [noItems, same]
    simpa [tokensOf] using small
  have run := foldlM_budgetStep_fill b env (b.ranking env) total fits start
  rw [noItems] at run
  obtain ⟨bundle, filled, items, sum⟩ := run
  refine ⟨bundle, ?_, items, sum⟩
  rw [build, rank_eq scored]
  exact filled

/-- The bundle is the longest prefix of the ranking within the budgets exactly when no item
behind the first that does not fit would fit in its place. -/
theorem build_longestPrefix_iff (scored : b.Scored env)
    (small : tokensOf (b.filter env).eligible < 2 ^ 64 - 1) :
    (∃ bundle, b.build env = .ok bundle ∧
        IsLongestPrefix b.Within (b.ranking env) bundle.items) ↔
      StopsAtFirst b.Within (b.ranking env) := by
  obtain ⟨bundle, built, items, _⟩ := build_fill scored (by omega)
  have start : b.Within [] := ⟨fun _ _ => Nat.zero_le _, fun _ _ => Nat.zero_le _⟩
  rw [← fill_isLongestPrefix_iff within_of_concat start, ← items]
  constructor
  · rintro ⟨bundle', built', longest⟩
    obtain rfl := Except.ok.inj (built.symm.trans built')
    exact longest
  · exact fun longest => ⟨bundle, built, longest⟩

/-- A hit for samples. -/
def sampleHit (origin : HitOrigin) (similarity : Float32) (text : String)
    (embedding : Option (List Float32)) : MembraneHit Float32 where
  recordId := 0
  similarity := similarity
  origin := origin
  payload := utf8 text
  embedding := embedding

/-- A peer for samples. -/
def samplePeer : HitOrigin := .remote ⟨Vector.replicate 16 1⟩

/-- Three texts, a token each character, and room for the first and the last. -/
def crowded : ContextBuilder Float32 :=
  { fromHits [sampleHit .local 0.9 "aaa" (some [1.0, 0.0]),
      sampleHit samplePeer 0.8 "bbbbb" (some [0.0, 1.0]), sampleHit .local 0.7 "cc" none] with
    tokenBudget := some 5
    semanticDedup := some 0.9
    tokenizer := fun text => UInt64.ofNat text.toList.length }

/-- The scores of the sample are numbers, and its tokens can be summed. -/
theorem crowded_scored : crowded.Scored plainEnv ∧
    tokensOf (crowded.filter plainEnv).eligible < 2 ^ 64 - 1 := by
  unfold Scored
  decide +kernel

/-- Whether the bundle of the sample is the longest prefix depends on its texts. -/
theorem crowded_longestPrefix_iff :
    (∃ bundle, crowded.build plainEnv = .ok bundle ∧
        IsLongestPrefix crowded.Within (crowded.ranking plainEnv) bundle.items) ↔
      StopsAtFirst crowded.Within (crowded.ranking plainEnv) :=
  build_longestPrefix_iff crowded_scored.1 crowded_scored.2

/-- The text behind the one that does not fit is put into the bundle. -/
theorem crowded_skips : ∃ bundle, crowded.build plainEnv = .ok bundle ∧
    bundle.items.map ContextItem.content = ["aaa", "cc"] ∧
      ¬ IsLongestPrefix crowded.Within (crowded.ranking plainEnv) bundle.items := by
  obtain ⟨bundle, built, items, _⟩ :=
    build_fill crowded_scored.1 (Nat.lt_of_lt_of_le crowded_scored.2 (Nat.sub_le _ _))
  have ranked : crowded.ranking plainEnv = (crowded.filter plainEnv).eligible :=
    ranking_eq_self (by decide +kernel)
  rw [ranked] at items ⊢
  have contents : bundle.items.map ContextItem.content = ["aaa", "cc"] := by
    rw [items]
    decide +kernel
  have all : (crowded.filter plainEnv).eligible.map ContextItem.content =
      ["aaa", "bbbbb", "cc"] := by
    decide +kernel
  refine ⟨bundle, built, contents, ?_⟩
  intro longest
  have isPrefix := longest.isPrefix.map ContextItem.content
  rw [contents, all] at isPrefix
  exact absurd isPrefix (by decide)

end ContextBuilder

end Hansa
