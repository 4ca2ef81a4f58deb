import Hansa.Verif.ContextAccounting

/-!
# Where items come from

An item lists its own origin first and the origins of the byte and semantic duplicates that
were dropped for it. A hit of which sentence deduplication leaves nothing is dropped without an
attribution, so its origin is listed only if another hit of that origin was kept or attributed.
-/

namespace Hansa

variable {F : Type}

/-- The exit makes or names an item that lists the hit's origin. -/
def Exit.isAttributed : Exit F → Bool
  | .duplicate _ => true
  | .semanticDuplicate _ _ => true
  | .kept _ _ => true
  | _ => false

/-- The text of a hit that becomes an item. -/
def Exit.keptText : Exit F → Option Deduped
  | .kept text _ => some text
  | _ => none

/-- An exit with a text that is kept keeps the hit. -/
theorem Exit.exists_kept {exit : Option (Exit F)}
    (has : (exit.bind Exit.keptText).isSome = true) :
    ∃ text unit, exit = some (.kept text unit) := by
  rcases exit with _ | exit
  · cases has
  · cases exit with
    | kept text unit => exact ⟨text, unit, rfl⟩
    | belowThreshold | duplicate | redundant | semanticDuplicate => cases has

/-- An emptied hit was redundant. -/
theorem Exit.exists_redundant {exit : Option (Exit F)}
    (emptied : exit.any Exit.isEmptied = true) : ∃ text, exit = some (.redundant text) := by
  rcases exit with _ | exit
  · cases emptied
  · cases exit with
    | redundant text => exact ⟨text, rfl⟩
    | belowThreshold | duplicate | kept | semanticDuplicate => cases emptied

namespace ContextBuilder

variable [FloatLike F] (b : ContextBuilder F) (env : ContextEnv)

/-- A hit before an index was kept or attributed, and came from an origin. -/
def AttributedBefore (i : Nat) (origin : HitOrigin) : Prop :=
  ∃ j < i, ∃ hit exit, b.hits[j]? = some hit ∧ b.exitAt env j = some exit ∧
    exit.isAttributed = true ∧ hit.origin = origin

/-- The sentences of which the item of a hit is rebuilt, if the hit is kept. -/
def partsAt (i : Nat) (hit : MembraneHit F) : List String :=
  (keepSentences env.key (b.filterAt env i).seenSentence (rawText hit)).keptParts

/-- An item that was added before an index contains a sentence with a key. -/
def InItemBefore (i : Nat) (k : Bytes 32) : Prop :=
  ∃ j < i, ∃ hit text unit, b.hits[j]? = some hit ∧ b.exitAt env j = some (.kept text unit) ∧
    k ∈ (b.partsAt env j hit).map env.key

/-- The hit with an index was dropped because all its sentences, one at least, occurred in
items. -/
def Emptied (i : Nat) (hit : MembraneHit F) : Prop :=
  b.hits[i]? = some hit ∧ (∃ text, b.exitAt env i = some (.redundant text)) ∧
    sentencesOf (rawText hit) ≠ [] ∧
    ∀ s ∈ sentencesOf (rawText hit), b.InItemBefore env i (env.key s)

/-- The hit with an index was dropped by one of the three deduplications. -/
def Collapsed (i : Nat) (hit : MembraneHit F) : Prop :=
  (b.hits[i]? = some hit ∧ ∃ winner, b.exitAt env i = some (.duplicate winner)) ∨
    (b.hits[i]? = some hit ∧
      ∃ text winner, b.exitAt env i = some (.semanticDuplicate text winner)) ∨
    b.Emptied env i hit

/-- The items list the origins of everything that was collapsed, their own first, and none
twice. -/
structure KeepsProvenance (bundle : ContextBundle F) : Prop where
  /-- The origin of a collapsed hit is listed. -/
  listed : ∀ i hit, b.Collapsed env i hit → ∃ item ∈ bundle.items, hit.origin ∈ item.sources
  /-- The own origin comes first. -/
  own : ∀ item ∈ bundle.items, item.sources.head? = some item.origin
  /-- No origin is listed twice. -/
  distinct : ∀ item ∈ bundle.items, item.sources.Nodup

/-- Every hit that sentence deduplication emptied shares its origin with a hit that was kept or
attributed. -/
def EmptiedAttributed : Prop :=
  ∀ i hit, b.Emptied env i hit → b.AttributedBefore env b.hits.length hit.origin

variable {b env}

/-- Who is attributed before the next hit. -/
theorem attributedBefore_succ {i : Nat} {hit : MembraneHit F} {exit : Exit F}
    (found : b.hits[i]? = some hit) (left : b.exitAt env i = some exit) {origin : HitOrigin} :
    b.AttributedBefore env (i + 1) origin ↔
      b.AttributedBefore env i origin ∨ exit.isAttributed = true ∧ hit.origin = origin := by
  constructor
  · rintro ⟨j, below, hit', exit', found', left', attributed, same⟩
    rcases Nat.lt_succ_iff_lt_or_eq.mp below with earlier | rfl
    · exact .inl ⟨j, earlier, hit', exit', found', left', attributed, same⟩
    · obtain rfl := Option.some.inj (found.symm.trans found')
      obtain rfl := Option.some.inj (left.symm.trans left')
      exact .inr ⟨attributed, same⟩
  · rintro (⟨j, below, rest⟩ | ⟨attributed, same⟩)
    · exact ⟨j, Nat.lt_succ_of_lt below, rest⟩
    · exact ⟨i, Nat.lt_succ_self i, hit, exit, found, left, attributed, same⟩

omit [FloatLike F] in
/-- The sources of the items behind an attribution. -/
theorem sources_modify {items : List (ContextItem F)} {winner : Nat}
    (inside : winner < items.length) {origin other : HitOrigin} :
    (∃ item ∈ items.modify winner (ContextItem.attributed origin), other ∈ item.sources) ↔
      (∃ item ∈ items, other ∈ item.sources) ∨ origin = other := by
  constructor
  · rintro ⟨item, member, listed⟩
    obtain ⟨j, item', atIndex, rfl⟩ := mem_modify.mp member
    have inItems := List.mem_of_getElem? atIndex
    split at listed
    · rcases ContextItem.mem_sources_attributed.mp listed with listed | rfl
      · exact .inl ⟨item', inItems, listed⟩
      · exact .inr rfl
    · exact .inl ⟨item', inItems, listed⟩
  · rintro (⟨item, member, listed⟩ | rfl)
    · obtain ⟨j, atIndex⟩ := List.mem_iff_getElem?.mp member
      refine ⟨_, mem_modify.mpr ⟨j, item, atIndex, rfl⟩, ?_⟩
      split
      · exact ContextItem.mem_sources_attributed.mpr (.inl listed)
      · exact listed
    · have atIndex := List.getElem?_eq_getElem inside
      refine ⟨_, mem_modify.mpr ⟨winner, _, atIndex, rfl⟩, ?_⟩
      rw [if_pos rfl]
      exact ContextItem.mem_sources_attributed.mpr (.inr rfl)

variable (b env) in
/-- The items list exactly the origins of the hits that were kept or attributed. -/
theorem filterAt_sources : ∀ i ≤ b.hits.length, ∀ origin,
    (∃ item ∈ (b.filterAt env i).eligible, origin ∈ item.sources) ↔
      b.AttributedBefore env i origin := by
  apply filterAt_induction (P := fun i st => ∀ origin,
    (∃ item ∈ st.eligible, origin ∈ item.sources) ↔ b.AttributedBefore env i origin)
  · intro origin
    constructor
    · rintro ⟨_, absent, _⟩
      cases absent
    · rintro ⟨j, below, _⟩
      cases below
  · intro i hit exit found left leaves before origin
    rw [attributedBefore_succ found left, ← before]
    cases leaves with
    | belowThreshold low => simp [leave, Exit.isAttributed]
    | redundant reaches isNew on empty => simp [leave, Exit.isAttributed]
    | duplicate reaches on seen =>
      have inside := winner_lt found (.duplicate reaches on seen) (.inl rfl)
      rw [leave, sources_modify inside]
      simp [Exit.isAttributed]
    | semanticDuplicate reaches isNew filled near =>
      have inside := winner_lt found (.semanticDuplicate reaches isNew filled near)
        (.inr ⟨_, rfl⟩)
      rw [leave, sources_modify inside]
      simp [Exit.isAttributed]
    | kept reaches isNew filled far =>
      rw [leave]
      simp only [List.mem_append, List.mem_singleton, or_and_right, exists_or, exists_eq_left,
        itemOf, Exit.isAttributed, true_and]
      exact or_congr Iff.rfl eq_comm

variable (b env) in
/-- Items list their own origin first and no origin twice. -/
theorem filterAt_own : ∀ i ≤ b.hits.length, ∀ item ∈ (b.filterAt env i).eligible,
    item.sources.head? = some item.origin ∧ item.sources.Nodup := by
  apply filterAt_induction (P := fun _ st => ∀ item ∈ st.eligible,
    item.sources.head? = some item.origin ∧ item.sources.Nodup)
  · exact fun _ absent => nomatch absent
  · intro i hit exit found left leaves before
    have attributed : ∀ winner, ∀ item ∈ (b.filterAt env i).eligible.modify winner
        (ContextItem.attributed hit.origin),
        item.sources.head? = some item.origin ∧ item.sources.Nodup := by
      intro winner item member
      obtain ⟨j, item', atIndex, rfl⟩ := mem_modify.mp member
      have held := before item' (List.mem_of_getElem? atIndex)
      split
      · exact ⟨ContextItem.head?_attributed held.1, ContextItem.nodup_attributed held.2⟩
      · exact held
    cases leaves with
    | belowThreshold => exact before
    | redundant => exact before
    | duplicate => exact attributed _
    | semanticDuplicate => exact attributed _
    | kept reaches isNew filled far =>
      intro item member
      rcases List.mem_append.mp member with earlier | last
      · exact before item earlier
      · obtain rfl := List.mem_singleton.mp last
        exact ⟨rfl, List.nodup_singleton _⟩

/-- Without budgets the bundle holds the items of the filter. -/
theorem items_perm (tokens : b.tokenBudget = none) (records : b.recordBudget = none)
    {bundle : ContextBundle F} (built : b.build env = .ok bundle) :
    bundle.items.Perm (b.filter env).eligible := by
  obtain ⟨ranked, sorted, filled⟩ := Except.bind_eq_ok.mp built
  have all := foldlM_budgetStep_unlimited tokens records filled
  rw [(filter_bundle b env).1, List.nil_append] at all
  rw [all]
  exact StdSort.perm_of_sortBy sorted

/-- A bundle without budgets keeps the provenance of collapsed duplicates exactly when every
hit that sentence deduplication emptied shares its origin with a hit that was kept or
attributed. -/
theorem build_keepsProvenance_iff (tokens : b.tokenBudget = none) (records : b.recordBudget = none)
    {bundle : ContextBundle F} (built : b.build env = .ok bundle) :
    b.KeepsProvenance env bundle ↔ b.EmptiedAttributed env := by
  have moved := items_perm tokens records built
  have sources := filterAt_sources b env b.hits.length le_rfl
  have own := filterAt_own b env b.hits.length le_rfl
  rw [filterAt_length] at sources own
  have listed : ∀ origin, (∃ item ∈ bundle.items, origin ∈ item.sources) ↔
      b.AttributedBefore env b.hits.length origin := by
    intro origin
    rw [← sources]
    constructor
    · exact fun ⟨item, member, inside⟩ => ⟨item, moved.subset member, inside⟩
    · exact fun ⟨item, member, inside⟩ => ⟨item, moved.symm.subset member, inside⟩
  constructor
  · intro keeps i hit emptied
    exact (listed hit.origin).mp (keeps.listed i hit (.inr (.inr emptied)))
  · intro attributed
    refine ⟨?_, fun item member => (own item (moved.subset member)).1,
      fun item member => (own item (moved.subset member)).2⟩
    intro i hit collapsed
    rw [listed]
    rcases collapsed with ⟨found, winner, left⟩ | ⟨found, text, winner, left⟩ | emptied
    · exact ⟨i, lt_of_exitAt left, hit, _, found, left, rfl, rfl⟩
    · exact ⟨i, lt_of_exitAt left, hit, _, found, left, rfl, rfl⟩
    · exact attributed i hit emptied

/-- A hit of a peer with the sentences of a local hit in another order. -/
def reordered : ContextBuilder Float32 :=
  { fromHits [sampleHit .local 0.9 "A. B." none, sampleHit samplePeer 0.8 "B. A." none] with
    sentenceDedup := true }

/-- The sample is built. -/
theorem reordered_built : ∃ bundle, reordered.build plainEnv = .ok bundle := by
  have ranked : reordered.Scored plainEnv ∧
      tokensOf (reordered.filter plainEnv).eligible < 2 ^ 64 := by
    unfold Scored
    decide +kernel
  obtain ⟨bundle, built, _⟩ := build_fill ranked.1 ranked.2
  exact ⟨bundle, built⟩

/-- Whether the bundle of the sample keeps its provenance depends on its hits. -/
theorem reordered_keepsProvenance_iff : ∃ bundle, reordered.build plainEnv = .ok bundle ∧
    (reordered.KeepsProvenance plainEnv bundle ↔ reordered.EmptiedAttributed plainEnv) := by
  obtain ⟨bundle, built⟩ := reordered_built
  exact ⟨bundle, built, build_keepsProvenance_iff rfl rfl built⟩

/-- The peer of the sample is listed nowhere. -/
theorem reordered_forgets : ∃ bundle, reordered.build plainEnv = .ok bundle ∧
    (∀ item ∈ bundle.items, item.sources = [.local]) ∧
      ¬ reordered.KeepsProvenance plainEnv bundle := by
  obtain ⟨bundle, built⟩ := reordered_built
  have moved := items_perm rfl rfl built
  have sources : ∀ item ∈ bundle.items, item.sources = [.local] := by
    intro item member
    have all : ∀ item ∈ (reordered.filter plainEnv).eligible, item.sources = [.local] := by
      decide +kernel
    exact all item (moved.subset member)
  refine ⟨bundle, built, sources, ?_⟩
  intro keeps
  obtain ⟨text, unit, first⟩ : ∃ text unit, reordered.exitAt plainEnv 0 = some (.kept text unit) :=
    Exit.exists_kept (by decide +kernel)
  have second : ∃ text, reordered.exitAt plainEnv 1 = some (.redundant text) :=
    Exit.exists_redundant (by decide +kernel)
  have known : ∀ s ∈ sentencesOf (rawText (sampleHit samplePeer 0.8 "B. A." none)),
      plainEnv.key s ∈ (reordered.partsAt plainEnv 0
        (sampleHit .local 0.9 "A. B." none)).map plainEnv.key := by
    decide +kernel
  have emptied : reordered.Emptied plainEnv 1 (sampleHit samplePeer 0.8 "B. A." none) := by
    refine ⟨rfl, second, by decide +kernel, ?_⟩
    intro s inside
    exact ⟨0, Nat.zero_lt_one, _, text, unit, rfl, first, known s inside⟩
  obtain ⟨item, member, listed⟩ := keeps.listed 1 _ (.inr (.inr emptied))
  rw [sources item member] at listed
  exact absurd listed (by decide)

end ContextBuilder

end Hansa
