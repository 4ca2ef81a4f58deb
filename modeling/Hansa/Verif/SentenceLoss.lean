import Hansa.Verif.DedupKey
import Hansa.Verif.Provenance

/-!
# Sentences that are lost

Sentence deduplication remembers the sentences of a hit before the embedding of the hit is
compared. The sentences of a hit that is then dropped as a semantic duplicate count as seen,
although no item contains them, and are cut out of every later hit. What is left of a hit is
joined with periods, so that of several sentences all but the last gain one, and are other
sentences in the item. Each sentence stands in the item of the first hit that contains it
exactly when neither happens.
-/

namespace Hansa

variable {F : Type}

/-- A key is seen behind the loop exactly when it was seen before or a sentence has it. -/
theorem Keeps.mem_seen_iff {key : String → Bytes 32} {seen : List (Bytes 32)}
    {sentences : List String} {s : Sentences} (keeps : Keeps key seen sentences s)
    (k : Bytes 32) : k ∈ s.seen ↔ k ∈ seen ∨ k ∈ sentences.map key := by
  rw [keeps.remembers, List.mem_append, keeps.key_mem_iff]
  constructor
  · rintro (before | ⟨now, _⟩)
    · exact .inl before
    · exact .inr now
  · rintro (before | now)
    · exact .inl before
    · by_cases known : k ∈ seen
      · exact .inl known
      · exact .inr ⟨now, known⟩

/-- The exit is behind sentence deduplication. -/
def Exit.isDeduplicated : Exit F → Bool
  | .redundant _ => true
  | .semanticDuplicate _ _ => true
  | .kept _ _ => true
  | _ => false

namespace ContextBuilder

variable [FloatLike F] (b : ContextBuilder F) (env : ContextEnv)

/-- The item that the hit with an index becomes, without its sources. -/
def itemAt (i : Nat) : Option (ContextItem F) := do
  let hit ← b.hits[i]?
  let exit ← b.exitAt env i
  let text ← exit.keptText
  some (b.itemOf env hit text.content).core

/-- The keys of the sentences of a hit. -/
def keysOf (hit : MembraneHit F) : List (Bytes 32) := (sentencesOf (rawText hit)).map env.key

/-- The hit with an index is not below the threshold, no byte duplicate and no semantic
duplicate. -/
def Qualifies (i : Nat) (hit : MembraneHit F) : Prop :=
  b.hits[i]? = some hit ∧ ((∃ text, b.exitAt env i = some (.redundant text)) ∨
    ∃ text unit, b.exitAt env i = some (.kept text unit))

/-- The hit with an index was dropped as a semantic duplicate. -/
def SemanticallyDropped (i : Nat) (hit : MembraneHit F) : Prop :=
  b.hits[i]? = some hit ∧ ∃ text winner, b.exitAt env i = some (.semanticDuplicate text winner)

/-- The keys of the sentences of an item. -/
def itemKeys (item : ContextItem F) : List (Bytes 32) := (sentencesOf item.content).map env.key

/-- No hit before an index that qualifies contains a sentence with a key. -/
def IsFirst (i : Nat) (k : Bytes 32) : Prop :=
  ∀ j < i, ∀ hit, b.Qualifies env j hit → k ∉ keysOf env hit

/-- The first hit that qualifies and contains a sentence with a key. -/
structure FirstWith (k : Bytes 32) (j : Nat) (hit : MembraneHit F) : Prop where
  /-- The hit qualifies. -/
  qualifies : b.Qualifies env j hit
  /-- It contains the sentence. -/
  contains : k ∈ keysOf env hit
  /-- No earlier one does. -/
  first : b.IsFirst env j k

/-- Each sentence of a hit that qualifies stands exactly once among the items, in the item of
the first such hit that contains it. -/
structure Lossless (bundle : ContextBundle F) : Prop where
  /-- The items are those of the kept hits. -/
  items : (bundle.items.map ContextItem.core).Perm
    ((List.range b.hits.length).filterMap (b.itemAt env))
  /-- The item of the first hit with a sentence contains it once. -/
  once : ∀ k j hit, b.FirstWith env k j hit →
    ∃ item, b.itemAt env j = some item ∧ (itemKeys env item).count k = 1
  /-- No other item does. -/
  nowhereElse : ∀ k j hit, b.FirstWith env k j hit → ∀ i item, i ≠ j →
    b.itemAt env i = some item → k ∉ itemKeys env item

/-- No sentence of a semantic duplicate occurs in a later hit that qualifies, unless one before
the duplicate contains it. -/
def NothingLost : Prop :=
  ∀ i hit, b.SemanticallyDropped env i hit → ∀ k ∈ keysOf env hit, ∀ j hit', i < j →
    b.Qualifies env j hit' → k ∈ keysOf env hit' →
    ∃ l < i, ∃ hit'', b.Qualifies env l hit'' ∧ k ∈ keysOf env hit''

/-- Each hit that qualifies has at most one sentence that no earlier one contains, and that
sentence ends with an end mark. -/
structure OneClosed : Prop where
  /-- Sentences that stand first in one hit have one key. -/
  one : ∀ j hit, b.Qualifies env j hit → ∀ s ∈ sentencesOf (rawText hit),
    ∀ t ∈ sentencesOf (rawText hit), b.IsFirst env j (env.key s) → b.IsFirst env j (env.key t) →
    env.key s = env.key t
  /-- The first of them ends with an end mark. -/
  closed : ∀ j hit, b.Qualifies env j hit → ∀ front s back,
    sentencesOf (rawText hit) = front ++ s :: back → b.IsFirst env j (env.key s) →
    (∀ t ∈ front, ¬ b.IsFirst env j (env.key t)) → EndsSentence s.toList

/-- What is assumed of lower case and of the hash: a period stays one, and a sentence with one
more period has the key of a sentence of the same hit only if they are normalised to one
text. -/
structure Separates : Prop where
  /-- A period has no lower case. -/
  period : env.toLowercase '.' = ['.']
  /-- The hash does not collide on these texts. -/
  apart : ∀ hit ∈ b.hits, ∀ s ∈ sentencesOf (rawText hit), ∀ t ∈ sentencesOf (rawText hit),
    env.key (s ++ ".") = env.key t → env.normalised (s ++ ".") = env.normalised t

variable {b env}

/-! ## Items of hits -/

/-- The item at an index, by the exit of its hit. -/
theorem itemAt_eq {i : Nat} {hit : MembraneHit F} {exit : Exit F}
    (found : b.hits[i]? = some hit) (left : b.exitAt env i = some exit) :
    b.itemAt env i = exit.keptText.map fun text => (b.itemOf env hit text.content).core := by
  rw [itemAt, found, left]
  cases shape : exit.keptText <;> simp [shape]

variable (b env) in
/-- The items are those of the hits so far. -/
theorem filterAt_items : ∀ i ≤ b.hits.length,
    (b.filterAt env i).eligible.map ContextItem.core =
      (List.range i).filterMap (b.itemAt env) := by
  apply filterAt_induction (P := fun i st => st.eligible.map ContextItem.core =
    (List.range i).filterMap (b.itemAt env))
  · rfl
  · intro i hit exit found left leaves before
    have more : (List.range (i + 1)).filterMap (b.itemAt env) =
        (List.range i).filterMap (b.itemAt env) ++ (b.itemAt env i).toList := by
      rw [List.range_succ, List.filterMap_append]
      cases shape : b.itemAt env i <;> simp [shape]
    rw [more, itemAt_eq found left, ← before]
    cases leaves with
    | belowThreshold => exact (List.append_nil _).symm
    | redundant => exact (List.append_nil _).symm
    | duplicate =>
      exact (ContextItem.map_core_modify ..).trans (List.append_nil _).symm
    | semanticDuplicate =>
      exact (ContextItem.map_core_modify ..).trans (List.append_nil _).symm
    | kept =>
      rw [leave, List.map_append]
      rfl

/-- A hit with an item was kept. -/
theorem qualifies_of_itemAt {i : Nat} {hit : MembraneHit F} {item : ContextItem F}
    (found : b.hits[i]? = some hit) (has : b.itemAt env i = some item) :
    b.Qualifies env i hit ∧ ∃ text unit, b.exitAt env i = some (.kept text unit) ∧
      item = (b.itemOf env hit text.content).core := by
  obtain ⟨exit, left⟩ := exists_exitAt b env (List.getElem?_eq_some_iff.mp found).1
  rw [itemAt_eq found left] at has
  cases exit with
  | kept text unit =>
    exact ⟨⟨found, .inr ⟨text, unit, left⟩⟩, text, unit, left, (Option.some.inj has).symm⟩
  | belowThreshold | duplicate | redundant | semanticDuplicate => cases has

/-- The text of a hit that is kept is rebuilt from its parts. -/
theorem content_of_kept (on : b.sentenceDedup = true) {i : Nat} {hit : MembraneHit F}
    {text : Deduped} {unit : Option (List F)} (found : b.hits[i]? = some hit)
    (left : b.exitAt env i = some (.kept text unit)) :
    text.content = rebuild (b.partsAt env i hit) := by
  obtain ⟨hit', found', leaves⟩ := leaves_of_exitAt left
  obtain rfl := Option.some.inj (found.symm.trans found')
  cases leaves
  rw [textAt, textOf, if_pos on, content_dedupSentences, partsAt]

/-! ## Sentences seen -/

variable (b env) in
/-- A hit before an index reached sentence deduplication and contains a sentence with a key. -/
def SeenBefore (i : Nat) (k : Bytes 32) : Prop :=
  ∃ j < i, ∃ hit, (b.Qualifies env j hit ∨ b.SemanticallyDropped env j hit) ∧ k ∈ keysOf env hit

/-- A hit reached sentence deduplication exactly when its exit says so. -/
theorem reached_iff {i : Nat} {hit : MembraneHit F} {exit : Exit F}
    (found : b.hits[i]? = some hit) (left : b.exitAt env i = some exit) :
    b.Qualifies env i hit ∨ b.SemanticallyDropped env i hit ↔ exit.isDeduplicated = true := by
  rw [Qualifies, SemanticallyDropped, left]
  cases exit <;> simp [Exit.isDeduplicated, found]

/-- Which sentences are seen before the next hit. -/
theorem seenBefore_succ {i : Nat} {hit : MembraneHit F} {exit : Exit F}
    (found : b.hits[i]? = some hit) (left : b.exitAt env i = some exit) {k : Bytes 32} :
    b.SeenBefore env (i + 1) k ↔
      b.SeenBefore env i k ∨ exit.isDeduplicated = true ∧ k ∈ keysOf env hit := by
  constructor
  · rintro ⟨j, below, hit', reached, inside⟩
    rcases Nat.lt_succ_iff_lt_or_eq.mp below with earlier | rfl
    · exact .inl ⟨j, earlier, hit', reached, inside⟩
    · have found' : b.hits[j]? = some hit' := reached.elim And.left And.left
      obtain rfl := Option.some.inj (found.symm.trans found')
      exact .inr ⟨(reached_iff found left).mp reached, inside⟩
  · rintro (⟨j, below, rest⟩ | ⟨deduplicated, inside⟩)
    · exact ⟨j, Nat.lt_succ_of_lt below, rest⟩
    · exact ⟨i, Nat.lt_succ_self i, hit, (reached_iff found left).mpr deduplicated, inside⟩

omit [FloatLike F] in
/-- The sentences seen behind a hit that reaches sentence deduplication. -/
theorem mem_seen_textAt_iff (on : b.sentenceDedup = true) {st : FilterState F}
    {hit : MembraneHit F} {k : Bytes 32} :
    k ∈ (b.textAt env st hit).seen ↔ k ∈ st.seenSentence ∨ k ∈ keysOf env hit := by
  have text : (b.textAt env st hit).seen =
      (keepSentences env.key st.seenSentence (rawText hit)).seen := by
    rw [textAt, textOf, if_pos on]
    rfl
  rw [text]
  exact (keepSentences_keeps ..).mem_seen_iff k

/-- The sentences seen before a hit are those of the hits that reached sentence
deduplication. -/
theorem filterAt_seen (on : b.sentenceDedup = true) : ∀ i ≤ b.hits.length, ∀ k,
    k ∈ (b.filterAt env i).seenSentence ↔ b.SeenBefore env i k := by
  apply filterAt_induction (P := fun i st => ∀ k, k ∈ st.seenSentence ↔ b.SeenBefore env i k)
  · intro k
    constructor
    · exact fun absent => nomatch absent
    · rintro ⟨j, below, _⟩
      cases below
  · intro i hit exit found left leaves before k
    rw [seenBefore_succ found left, ← before]
    cases leaves with
    | belowThreshold => simp [leave, Exit.isDeduplicated]
    | duplicate => simp [leave, Exit.isDeduplicated]
    | redundant => simp [leave, Exit.isDeduplicated, mem_seen_textAt_iff on]
    | semanticDuplicate => simp [leave, Exit.isDeduplicated, mem_seen_textAt_iff on]
    | kept => simp [leave, Exit.isDeduplicated, mem_seen_textAt_iff on]

/-- A sentence stands in a part of a hit exactly when the hit contains it and no earlier hit that
reached sentence deduplication does. -/
theorem mem_partsAt_iff (on : b.sentenceDedup = true) {i : Nat} {hit : MembraneHit F}
    (found : b.hits[i]? = some hit) (k : Bytes 32) :
    k ∈ (b.partsAt env i hit).map env.key ↔
      k ∈ keysOf env hit ∧ ¬ b.SeenBefore env i k := by
  have below := (List.getElem?_eq_some_iff.mp found).1
  rw [← filterAt_seen on i (Nat.le_of_lt below)]
  exact (keepSentences_keeps ..).key_mem_iff k

/-- A hit that qualifies and has a part is kept. -/
theorem exists_itemAt (on : b.sentenceDedup = true) {i : Nat} {hit : MembraneHit F}
    (qualifies : b.Qualifies env i hit) (filled : b.partsAt env i hit ≠ []) :
    ∃ item, b.itemAt env i = some item := by
  obtain ⟨found, ⟨text, left⟩ | ⟨text, unit, left⟩⟩ := qualifies
  · obtain ⟨hit', found', leaves⟩ := leaves_of_exitAt left
    obtain rfl := Option.some.inj (found.symm.trans found')
    cases leaves with
    | redundant reaches isNew _ empty => exact absurd ((textAt_blank_iff on).mp empty) filled
  · exact ⟨_, itemAt_eq found left⟩

/-- Where a hit contains a sentence and qualifies, a first one does. -/
theorem exists_firstWith {k : Bytes 32} {j : Nat} {hit : MembraneHit F}
    (qualifies : b.Qualifies env j hit) (contains : k ∈ keysOf env hit) :
    ∃ i ≤ j, ∃ hit', b.FirstWith env k i hit' := by
  induction j using Nat.strong_induction_on generalizing hit with
  | _ j ih =>
    by_cases earlier : ∃ i < j, ∃ hit', b.Qualifies env i hit' ∧ k ∈ keysOf env hit'
    · obtain ⟨i, below, hit', qualifies', contains'⟩ := earlier
      obtain ⟨l, atMost, first⟩ := ih i below qualifies' contains'
      exact ⟨l, atMost.trans (Nat.le_of_lt below), first⟩
    · refine ⟨j, le_rfl, hit, qualifies, contains, ?_⟩
      exact fun i below hit' qualifies' contains' => earlier ⟨i, below, hit', qualifies', contains'⟩

/-! ## The bundle -/

/-- When nothing is lost, a sentence of a hit that qualifies is unseen before it exactly when no
earlier hit that qualifies contains it. -/
theorem not_seenBefore_iff (nothing : b.NothingLost env) {j : Nat} {hit : MembraneHit F}
    (qualifies : b.Qualifies env j hit) {k : Bytes 32} (contains : k ∈ keysOf env hit) :
    ¬ b.SeenBefore env j k ↔ b.IsFirst env j k := by
  constructor
  · intro unseen i below hit' qualifies' inside
    exact unseen ⟨i, below, hit', .inl qualifies', inside⟩
  · rintro first ⟨i, below, hit', reached, inside⟩
    rcases reached with qualifies' | dropped
    · exact first i below hit' qualifies' inside
    · obtain ⟨l, before, hit'', qualifies'', contains''⟩ :=
        nothing i hit' dropped k inside j hit below qualifies contains
      exact first l (before.trans below) hit'' qualifies'' contains''

/-- The sentences of an item are the marked parts of its hit. -/
theorem itemKeys_eq (on : b.sentenceDedup = true) {i : Nat} {hit : MembraneHit F}
    {item : ContextItem F} (found : b.hits[i]? = some hit) (has : b.itemAt env i = some item) :
    itemKeys env item = (marked (b.partsAt env i hit)).map env.key := by
  obtain ⟨_, text, unit, left, rfl⟩ := qualifies_of_itemAt found has
  have content : (b.itemOf env hit text.content).core.content =
      rebuild (b.partsAt env i hit) := content_of_kept on found left
  rw [itemKeys, content, sentencesOf_rebuild]
  exact fun t kept => isSentence_of_mem ((keepSentences_keeps ..).part.subset kept)

/-- When nothing is lost and joining changes no sentence, the sentences of an item are the parts
of its hit. -/
theorem itemKeys_of_oneClosed (on : b.sentenceDedup = true) (nothing : b.NothingLost env)
    (oneClosed : b.OneClosed env) {i : Nat} {hit : MembraneHit F} {item : ContextItem F}
    (found : b.hits[i]? = some hit) (has : b.itemAt env i = some item) :
    itemKeys env item = (b.partsAt env i hit).map env.key := by
  have qualifies := (qualifies_of_itemAt found has).1
  have below := (List.getElem?_eq_some_iff.mp found).1
  have keeps := keepSentences_keeps env.key (b.filterAt env i).seenSentence (rawText hit)
  -- A sentence of the hit is unseen exactly when it stands there first.
  have unseen : ∀ t ∈ sentencesOf (rawText hit),
      env.key t ∉ (b.filterAt env i).seenSentence ↔ b.IsFirst env i (env.key t) := by
    intro t member
    rw [filterAt_seen on i (Nat.le_of_lt below)]
    exact not_seenBefore_iff nothing qualifies (List.mem_map_of_mem member)
  have few : (b.partsAt env i hit).length ≤ 1 := by
    apply keeps.length_le_one_iff.mpr
    intro s inS t inT newS newT
    exact oneClosed.one i hit qualifies s inS t inT ((unseen s inS).mp newS)
      ((unseen t inT).mp newT)
  rw [itemKeys_eq on found has]
  rcases shape : b.partsAt env i hit with _ | ⟨t, _ | ⟨u, rest⟩⟩
  · rfl
  · have head := head?_keptParts env.key (b.filterAt env i).seenSentence (rawText hit)
    rw [← partsAt, shape, List.head?_cons] at head
    obtain ⟨new, front, back, split, seen⟩ := List.find?_eq_some_iff_append.mp head.symm
    have inside : ∀ s ∈ front ++ t :: back, s ∈ sentencesOf (rawText hit) := fun s => split ▸ id
    have ends := oneClosed.closed i hit qualifies front t back split
      ((unseen t (inside t (by simp))).mp (by simpa using new)) (by
        intro s member first
        have notNew := (unseen s (inside s (List.mem_append_left _ member))).mpr first
        simp only [decide_not, Bool.not_not, decide_eq_true_eq] at seen
        exact notNew (seen s member))
    rw [marked, closeSentence, if_pos ends]
  · rw [shape] at few
    simp at few

/-- Without budgets, each sentence of a hit that qualifies stands once among the items when
nothing is lost and joining changes no sentence. -/
theorem lossless_of_oneClosed (on : b.sentenceDedup = true) (tokens : b.tokenBudget = none)
    (records : b.recordBudget = none) {bundle : ContextBundle F}
    (built : b.build env = .ok bundle) (nothing : b.NothingLost env)
    (oneClosed : b.OneClosed env) : b.Lossless env bundle := by
  refine ⟨?_, ?_, ?_⟩
  · have items := filterAt_items b env b.hits.length le_rfl
    rw [filterAt_length] at items
    rw [← items]
    exact (items_perm tokens records built).map _
  · intro k j hit isFirst
    have found := isFirst.qualifies.1
    have inside : k ∈ (b.partsAt env j hit).map env.key := by
      rw [mem_partsAt_iff on found]
      exact ⟨isFirst.contains,
        (not_seenBefore_iff nothing isFirst.qualifies isFirst.contains).mpr isFirst.first⟩
    have filled : b.partsAt env j hit ≠ [] := by
      intro empty
      rw [empty] at inside
      cases inside
    obtain ⟨item, has⟩ := exists_itemAt on isFirst.qualifies filled
    refine ⟨item, has, ?_⟩
    rw [itemKeys_of_oneClosed on nothing oneClosed found has]
    exact List.count_eq_one_of_mem (keepSentences_keeps ..).distinct inside
  · intro k j hit isFirst i item other has member
    obtain ⟨hit', found⟩ : ∃ hit', b.hits[i]? = some hit' := by
      rcases found : b.hits[i]? with _ | hit'
      · rw [itemAt, found] at has
        cases has
      · exact ⟨hit', rfl⟩
    rw [itemKeys_of_oneClosed on nothing oneClosed found has, mem_partsAt_iff on found] at member
    obtain ⟨contains, unseen⟩ := member
    rcases Nat.lt_or_gt_of_ne other with earlier | later
    · exact isFirst.first i earlier hit' (qualifies_of_itemAt found has).1 contains
    · exact unseen ⟨j, later, hit, .inl isFirst.qualifies, isFirst.contains⟩

/-- In a lossless bundle, the sentences of an item are the parts of its hit up to order. -/
theorem Lossless.perm_parts (on : b.sentenceDedup = true) {bundle : ContextBundle F}
    (lossless : b.Lossless env bundle) {j : Nat} {hit : MembraneHit F} {item : ContextItem F}
    (found : b.hits[j]? = some hit) (has : b.itemAt env j = some item) :
    ((marked (b.partsAt env j hit)).map env.key).Perm ((b.partsAt env j hit).map env.key) := by
  have distinct : ((b.partsAt env j hit).map env.key).Nodup := (keepSentences_keeps ..).distinct
  have covered : (b.partsAt env j hit).map env.key ⊆
      (marked (b.partsAt env j hit)).map env.key := by
    intro k member
    obtain ⟨contains, unseen⟩ := (mem_partsAt_iff on found k).mp member
    have first : b.IsFirst env j k := fun i below hit' qualifies inside =>
      unseen ⟨i, below, hit', .inl qualifies, inside⟩
    obtain ⟨item', has', once⟩ :=
      lossless.once k j hit ⟨(qualifies_of_itemAt found has).1, contains, first⟩
    rw [itemKeys_eq on found has'] at once
    exact List.one_le_count_iff.mp (Nat.le_of_eq once.symm)
  refine ((List.subperm_of_subset distinct covered).perm_of_length_le ?_).symm
  rw [List.length_map, List.length_map, length_marked]

/-- A lossless bundle loses no sentence to a semantic duplicate. -/
theorem Lossless.nothingLost (on : b.sentenceDedup = true) {bundle : ContextBundle F}
    (lossless : b.Lossless env bundle) : b.NothingLost env := by
  intro i hit dropped k inside j hit' later qualifies contains
  obtain ⟨l, atMost, first, isFirst⟩ := exists_firstWith qualifies contains
  by_cases before : l < i
  · exact ⟨l, before, first, isFirst.qualifies, isFirst.contains⟩
  · exfalso
    have behind : i < l := by
      rcases Nat.lt_or_eq_of_le (Nat.not_lt.mp before) with behind | rfl
      · exact behind
      · obtain ⟨_, text, winner, left⟩ := dropped
        rcases isFirst.qualifies.2 with ⟨_, left'⟩ | ⟨_, _, left'⟩ <;> cases left.symm.trans left'
    have found := isFirst.qualifies.1
    obtain ⟨item, has, once⟩ := lossless.once k l first isFirst
    rw [itemKeys_eq on found has] at once
    have part := (lossless.perm_parts on found has).mem_iff.mp
      (List.one_le_count_iff.mp (Nat.le_of_eq once.symm))
    exact ((mem_partsAt_iff on found k).mp part).2 ⟨i, behind, hit, .inr dropped, inside⟩

/-- In a lossless bundle joining changes no sentence. -/
theorem Lossless.oneClosed (on : b.sentenceDedup = true) (separates : b.Separates env)
    {bundle : ContextBundle F} (lossless : b.Lossless env bundle) : b.OneClosed env := by
  have nothing := lossless.nothingLost on
  -- A hit that qualifies has at most one part, which is closed.
  have closed : ∀ j hit, b.Qualifies env j hit → (b.partsAt env j hit).length ≤ 1 ∧
      ∀ t ∈ b.partsAt env j hit, EndsSentence t.toList := by
    intro j hit qualifies
    by_cases filled : b.partsAt env j hit = []
    · rw [filled]
      exact ⟨Nat.zero_le 1, fun _ absent => nomatch absent⟩
    · obtain ⟨item, has⟩ := exists_itemAt on qualifies filled
      have keeps := keepSentences_keeps env.key (b.filterAt env j).seenSentence (rawText hit)
      refine closed_of_perm (fun t => env.length_normalised_period separates.period t)
        keeps.distinct ?_ (lossless.perm_parts on qualifies.1 has)
      intro s inS t inT same
      rw [separates.apart hit (List.mem_of_getElem? qualifies.1) s (keeps.part.subset inS) t
        (keeps.part.subset inT) same]
  have unseen : ∀ j hit, b.Qualifies env j hit → ∀ t ∈ sentencesOf (rawText hit),
      env.key t ∉ (b.filterAt env j).seenSentence ↔ b.IsFirst env j (env.key t) := by
    intro j hit qualifies t member
    rw [filterAt_seen on j (Nat.le_of_lt (List.getElem?_eq_some_iff.mp qualifies.1).1)]
    exact not_seenBefore_iff nothing qualifies (List.mem_map_of_mem member)
  constructor
  · intro j hit qualifies s inS t inT firstS firstT
    have keeps := keepSentences_keeps env.key (b.filterAt env j).seenSentence (rawText hit)
    exact keeps.length_le_one_iff.mp (closed j hit qualifies).1 s inS t inT
      ((unseen j hit qualifies s inS).mpr firstS) ((unseen j hit qualifies t inT).mpr firstT)
  · intro j hit qualifies front s back split first before
    have inside : ∀ t ∈ front ++ s :: back, t ∈ sentencesOf (rawText hit) := fun t => split ▸ id
    have head := head?_keptParts env.key (b.filterAt env j).seenSentence (rawText hit)
    have found : (sentencesOf (rawText hit)).find?
        (fun t => env.key t ∉ (b.filterAt env j).seenSentence) = some s := by
      refine List.find?_eq_some_iff_append.mpr ⟨?_, front, back, split, ?_⟩
      · exact decide_eq_true ((unseen j hit qualifies s (inside s (by simp))).mpr first)
      · intro t member
        have known := mt (unseen j hit qualifies t (inside t (List.mem_append_left _ member))).mp
          (before t member)
        simpa using known
    rw [found] at head
    exact (closed j hit qualifies).2 s (List.mem_of_mem_head? head)

/-- A bundle without budgets contains every sentence of the hits that qualify once, in the item
of the first such hit, when no semantic duplicate takes a sentence from a later hit and joining
changes no sentence; and only then, where the hash tells the sentences apart. -/
theorem build_lossless_iff (on : b.sentenceDedup = true) (tokens : b.tokenBudget = none)
    (records : b.recordBudget = none) {bundle : ContextBundle F}
    (built : b.build env = .ok bundle) :
    (b.NothingLost env ∧ b.OneClosed env → b.Lossless env bundle) ∧
      (b.Separates env →
        (b.Lossless env bundle ↔ b.NothingLost env ∧ b.OneClosed env)) := by
  have enough (closed : b.NothingLost env ∧ b.OneClosed env) : b.Lossless env bundle :=
    lossless_of_oneClosed on tokens records built closed.1 closed.2
  refine ⟨enough, fun separates => ⟨fun lossless => ?_, enough⟩⟩
  exact ⟨lossless.nothingLost on, lossless.oneClosed on separates⟩

/-- A sentence that first stands in a semantic duplicate, and again in a later hit. -/
def shadowed : ContextBuilder Float32 :=
  { fromHits [sampleHit .local 0.9 "A." (some [1.0]), sampleHit samplePeer 0.8 "B." (some [1.0]),
      sampleHit samplePeer 0.7 "B. C." none] with
    sentenceDedup := true
    semanticDedup := some 0.9 }

/-- The sample is built. -/
theorem shadowed_built : ∃ bundle, shadowed.build plainEnv = .ok bundle := by
  have ranked : shadowed.Scored plainEnv ∧
      tokensOf (shadowed.filter plainEnv).eligible < 2 ^ 64 := by
    unfold Scored
    decide +kernel
  obtain ⟨bundle, built, _⟩ := build_fill ranked.1 ranked.2
  exact ⟨bundle, built⟩

/-- The hash of the sample tells its sentences apart. -/
theorem shadowed_separates : shadowed.Separates plainEnv := ⟨by decide, by decide +kernel⟩

/-- Whether the bundle of the sample is lossless depends on its hits. -/
theorem shadowed_lossless_iff : ∃ bundle, shadowed.build plainEnv = .ok bundle ∧
    (shadowed.Lossless plainEnv bundle ↔
      shadowed.NothingLost plainEnv ∧ shadowed.OneClosed plainEnv) := by
  obtain ⟨bundle, built⟩ := shadowed_built
  exact ⟨bundle, built, (build_lossless_iff rfl rfl rfl built).2 shadowed_separates⟩

/-- The second sentence stands in no item, although the third hit contains it. -/
theorem shadowed_loses : ∃ bundle, shadowed.build plainEnv = .ok bundle ∧
    (bundle.items.map ContextItem.content).Perm ["A.", "C."] ∧
      ¬ shadowed.Lossless plainEnv bundle := by
  obtain ⟨bundle, built⟩ := shadowed_built
  have contents : (shadowed.filter plainEnv).eligible.map ContextItem.content = ["A.", "C."] := by
    decide +kernel
  have moved := (items_perm rfl rfl built).map ContextItem.content
  rw [contents] at moved
  refine ⟨bundle, built, moved, ?_⟩
  intro lossless
  obtain ⟨text, unit, third⟩ : ∃ text unit, shadowed.exitAt plainEnv 2 = some (.kept text unit) :=
    Exit.exists_kept (by decide +kernel)
  have absent : plainEnv.key "B." ∉ keysOf plainEnv (sampleHit .local 0.9 "A." (some [1.0])) := by
    decide +kernel
  have isFirst : shadowed.FirstWith plainEnv (plainEnv.key "B.") 2
      (sampleHit samplePeer 0.7 "B. C." none) := by
    have inside : plainEnv.key "B." ∈ keysOf plainEnv (sampleHit samplePeer 0.7 "B. C." none) := by
      decide +kernel
    refine ⟨⟨rfl, .inr ⟨text, unit, third⟩⟩, inside, ?_⟩
    intro i below hit qualifies
    match i, below with
    | 0, _ =>
      obtain rfl := Option.some.inj qualifies.1
      exact absent
    | 1, _ =>
      have dropped : (shadowed.exitAt plainEnv 1).any Exit.isAttributed = true ∧
          ((shadowed.exitAt plainEnv 1).bind Exit.keptText).isSome = false := by
        decide +kernel
      rcases qualifies.2 with ⟨_, left⟩ | ⟨_, _, left⟩
      · rw [left] at dropped
        cases dropped.1
      · rw [left] at dropped
        cases dropped.2
  obtain ⟨item, has, once⟩ := lossless.once _ 2 _ isFirst
  have keys : (shadowed.itemAt plainEnv 2).map (itemKeys plainEnv) = some [plainEnv.key "C."] := by
    decide +kernel
  rw [has, Option.map_some, Option.some.injEq] at keys
  rw [keys] at once
  exact absurd once (by decide +kernel)

end ContextBuilder

end Hansa
