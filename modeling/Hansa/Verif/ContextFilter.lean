import Hansa.Context

/-!
# The filter, hit by hit

Every hit leaves the body of the filter loop by one of five exits. What an exit presupposes is
stated once, and so is what it does to the state; the invariants of the filter follow from the
two. The sources of an item grow after the item was added, so what never changes is stated of
the items without their sources.
-/

namespace Hansa

/-! ## Items without their sources -/

namespace ContextItem

variable {F : Type}

/-- The item without its sources. -/
def core (item : ContextItem F) : ContextItem F := { item with sources := [] }

@[simp] theorem core_attributed (origin : HitOrigin) (item : ContextItem F) :
    (item.attributed origin).core = item.core := rfl

/-- Attributing an origin to an item changes no item otherwise. -/
theorem map_core_modify (items : List (ContextItem F)) (winner : Nat) (origin : HitOrigin) :
    (items.modify winner (attributed origin)).map core = items.map core := by
  apply List.ext_getElem?
  intro i
  rw [List.getElem?_map, List.getElem?_map, List.getElem?_modify]
  cases items[i]? with
  | none => rfl
  | some item =>
    by_cases here : winner = i
    · simp [here]
    · simp [here]

/-- Attribution keeps the first source. -/
theorem head?_attributed {origin : HitOrigin} {item : ContextItem F}
    (own : item.sources.head? = some item.origin) :
    (item.attributed origin).sources.head? = some item.origin := by
  unfold attributed attributeSource
  split
  · exact own
  · rw [List.head?_append, own]
    rfl

/-- Attribution repeats no source. -/
theorem nodup_attributed {origin : HitOrigin} {item : ContextItem F}
    (distinct : item.sources.Nodup) : (item.attributed origin).sources.Nodup := by
  unfold attributed attributeSource
  split
  · exact distinct
  · next absent =>
    rw [← List.concat_eq_append]
    exact distinct.concat absent

/-- Attribution adds the origin to the sources. -/
theorem mem_sources_attributed {origin other : HitOrigin} {item : ContextItem F} :
    other ∈ (item.attributed origin).sources ↔ other ∈ item.sources ∨ other = origin := by
  unfold attributed attributeSource
  split
  · next present =>
    refine ⟨.inl, ?_⟩
    rintro (listed | rfl)
    · exact listed
    · exact present
  · simp

end ContextItem

/-- The elements of a modified list. -/
theorem mem_modify {α : Type} {xs : List α} {i : Nat} {f : α → α} {y : α} :
    y ∈ xs.modify i f ↔ ∃ j x, xs[j]? = some x ∧ y = if i = j then f x else x := by
  rw [List.mem_iff_getElem?]
  constructor
  · rintro ⟨j, found⟩
    rw [List.getElem?_modify] at found
    obtain ⟨x, atIndex, rfl⟩ := Option.map_eq_some_iff.mp found
    exact ⟨j, x, atIndex, rfl⟩
  · rintro ⟨j, x, atIndex, rfl⟩
    exact ⟨j, by rw [List.getElem?_modify, atIndex]; rfl⟩

namespace ContextBuilder

variable {F : Type} [FloatLike F] (b : ContextBuilder F) (env : ContextEnv)

/-! ## One hit -/

/-- The text of a hit's payload. -/
def rawText (hit : MembraneHit F) : String := fromUtf8Lossy hit.payload

/-- The text that a hit would have as an item. -/
def textAt (st : FilterState F) (hit : MembraneHit F) : Deduped :=
  b.textOf env st.seenSentence (rawText hit)

/-- The hit reaches the threshold. -/
def Reaches (hit : MembraneHit F) : Prop := FloatLike.lt hit.similarity b.minSimilarity = false

/-- Deduplication is off, or no item has the key of the hit's payload. -/
def IsNew (st : FilterState F) (hit : MembraneHit F) : Prop :=
  b.dedup = true → ∀ seen ∈ st.seenRecord, seen.1 ≠ env.key (rawText hit)

/-- What each exit presupposes. -/
inductive Leaves (st : FilterState F) (hit : MembraneHit F) : Exit F → Prop where
  /-- The hit is below the threshold. -/
  | belowThreshold (low : ¬ b.Reaches hit) : Leaves st hit .belowThreshold
  /-- An item has the key of the payload. -/
  | duplicate {winner : Nat} (reaches : b.Reaches hit) (on : b.dedup = true)
      (seen : (env.key (rawText hit), winner) ∈ st.seenRecord) :
      Leaves st hit (.duplicate winner)
  /-- Sentence deduplication leaves no text. -/
  | redundant (reaches : b.Reaches hit) (isNew : b.IsNew env st hit)
      (on : b.sentenceDedup = true) (empty : trim (b.textAt env st hit).content = "") :
      Leaves st hit (.redundant (b.textAt env st hit))
  /-- An item has a unit vector near that of the hit. -/
  | semanticDuplicate {winner : Nat} (reaches : b.Reaches hit) (isNew : b.IsNew env st hit)
      (filled : ¬ (b.sentenceDedup = true ∧ trim (b.textAt env st hit).content = ""))
      (near : ∃ unit, (unit, winner) ∈ st.seenUnitVecs) :
      Leaves st hit (.semanticDuplicate (b.textAt env st hit) winner)
  /-- The hit is none of these. -/
  | kept (reaches : b.Reaches hit) (isNew : b.IsNew env st hit)
      (filled : ¬ (b.sentenceDedup = true ∧ trim (b.textAt env st hit).content = ""))
      (far : b.nearDuplicate (b.unitOf hit) st.seenUnitVecs = none) :
      Leaves st hit (.kept (b.textAt env st hit) (b.unitOf hit))

/-- The exit that is taken is one whose presuppositions hold. -/
theorem leaves (st : FilterState F) (hit : MembraneHit F) :
    b.Leaves env st hit (b.exit env st hit) := by
  unfold exit
  split
  · next low => exact .belowThreshold (by rw [Reaches, low]; simp)
  · next reaches =>
    have reaches : b.Reaches hit := by simpa [Reaches] using reaches
    dsimp only
    split
    · next key winner found =>
      split at found
      · next on =>
        have same : key = env.key (rawText hit) := by
          simpa [rawText] using List.find?_some found
        exact .duplicate reaches on (same ▸ List.mem_of_find?_eq_some found)
      · cases found
    · next found =>
      have isNew : b.IsNew env st hit := by
        intro on seen member
        rw [if_pos on] at found
        simpa [rawText] using List.find?_eq_none.mp found seen member
      split
      · next empty => exact .redundant reaches isNew empty.1 empty.2
      · next filled =>
        split
        · next winner near =>
          refine .semanticDuplicate reaches isNew filled ?_
          simp only [nearDuplicate, Option.bind_eq_bind, Option.bind_eq_some_iff] at near
          obtain ⟨_, _, _, _, ⟨unit, index⟩, found, same⟩ := near
          obtain rfl : index = winner := Option.some.inj same
          exact ⟨unit, List.mem_of_find?_eq_some found⟩
        · next far => exact .kept reaches isNew filled far

/-! ## All hits -/

/-- The filter before the hit with this index. -/
def filterAt (i : Nat) : FilterState F := (b.hits.take i).foldl (b.filterHit env) .start

/-- How the hit with this index leaves. -/
def exitAt (i : Nat) : Option (Exit F) := b.hits[i]?.map (b.exit env (b.filterAt env i))

/-- The filter behind all hits. -/
theorem filterAt_length : b.filterAt env b.hits.length = b.filter env := by
  rw [filterAt, List.take_length, filter]

variable {b env}

/-- The filter behind a hit. -/
theorem filterAt_succ {i : Nat} {hit : MembraneHit F} (found : b.hits[i]? = some hit) :
    b.filterAt env (i + 1) =
      b.leave env (b.filterAt env i) hit (b.exit env (b.filterAt env i) hit) := by
  rw [filterAt, List.take_add_one, found, Option.toList_some, List.foldl_concat]
  rfl

/-- What holds before the first hit and is kept at every hit holds before each hit. -/
theorem filterAt_induction {P : Nat → FilterState F → Prop} (start : P 0 .start)
    (step : ∀ i hit exit, b.hits[i]? = some hit → b.exitAt env i = some exit →
      b.Leaves env (b.filterAt env i) hit exit → P i (b.filterAt env i) →
      P (i + 1) (b.leave env (b.filterAt env i) hit exit)) :
    ∀ i ≤ b.hits.length, P i (b.filterAt env i) := by
  intro i
  induction i with
  | zero => exact fun _ => start
  | succ i ih =>
    intro below
    have found : b.hits[i]? = some b.hits[i] := List.getElem?_eq_getElem below
    rw [filterAt_succ found]
    have left : b.exitAt env i = some (b.exit env (b.filterAt env i) b.hits[i]) := by
      rw [exitAt, found]
      rfl
    exact step i _ _ found left (b.leaves env _ _) (ih (Nat.le_of_succ_le below))

/-- A hit that leaves is a hit, and its exit is one whose presuppositions hold. -/
theorem leaves_of_exitAt {i : Nat} {exit : Exit F} (left : b.exitAt env i = some exit) :
    ∃ hit, b.hits[i]? = some hit ∧ b.Leaves env (b.filterAt env i) hit exit := by
  obtain ⟨hit, found, rfl⟩ := Option.map_eq_some_iff.mp left
  exact ⟨hit, found, b.leaves env _ _⟩

variable (b env) in
/-- Every hit leaves. -/
theorem exists_exitAt {i : Nat} (inside : i < b.hits.length) :
    ∃ exit, b.exitAt env i = some exit := by
  rw [exitAt, List.getElem?_eq_getElem inside]
  exact ⟨_, rfl⟩

/-- Only hits leave. -/
theorem lt_of_exitAt {i : Nat} {exit : Exit F} (left : b.exitAt env i = some exit) :
    i < b.hits.length := by
  obtain ⟨hit, found, _⟩ := leaves_of_exitAt left
  exact (List.getElem?_eq_some_iff.mp found).1

/-! ## What the filter remembers -/

variable (b env)

/-- The unit vector of an item, as the filter compares it. -/
def itemUnit (item : ContextItem F) : Option (List F) :=
  if b.semanticDedup.isSome then item.embedding.bind Context.unitNormalise else none

/-- A later item is not near an earlier one. -/
def Far (earlier later : ContextItem F) : Prop :=
  ∀ threshold ∈ b.semanticDedup, ∀ u ∈ b.itemUnit earlier, ∀ v ∈ b.itemUnit later,
    FloatLike.le threshold (Context.dot v u) = false

/-- The memory of the filter is that of its items, and these are duplicates of each other in no
sense that is checked. -/
structure Tracks (st : FilterState F) : Prop where
  /-- The keys are those of the items. -/
  records : ∀ k w, (k, w) ∈ st.seenRecord ↔
    ∃ item, (st.eligible.map ContextItem.core)[w]? = some item ∧ item.dedupKey = k
  /-- The unit vectors are those of the items. -/
  vectors : ∀ u w, (u, w) ∈ st.seenUnitVecs ↔
    ∃ item, (st.eligible.map ContextItem.core)[w]? = some item ∧ b.itemUnit item = some u
  /-- Deduplicated items have different keys. -/
  distinct : b.dedup = true →
    ((st.eligible.map ContextItem.core).map ContextItem.dedupKey).Nodup
  /-- No item is near an earlier one. -/
  far : (st.eligible.map ContextItem.core).Pairwise b.Far
  /-- Tokens are counted in the text that is stored. -/
  tokens : ∀ item ∈ st.eligible.map ContextItem.core, item.tokens = b.tokenizer item.content

variable {b env}

/-- The elements of a list with one more. -/
theorem getElem?_concat_iff {α : Type} {xs : List α} {x y : α} {w : Nat} :
    (xs ++ [x])[w]? = some y ↔ xs[w]? = some y ∨ w = xs.length ∧ y = x := by
  rcases Nat.lt_trichotomy w xs.length with inside | rfl | outside
  · rw [List.getElem?_append_left inside]
    have other : w ≠ xs.length := by omega
    simp [other]
  · simp [eq_comm]
  · have none_ : (xs ++ [x])[w]? = none := by
      rw [List.getElem?_eq_none_iff, List.length_append, List.length_singleton]
      omega
    have none' : xs[w]? = none := List.getElem?_eq_none_iff.mpr (by omega)
    have other : w ≠ xs.length := by omega
    simp [none_, none', other]

/-- A memory of what is at each index, with what is at the index of one more element. -/
theorem mem_append_iff_concat {α β : Type} {xs : List α} {x : α} {Shows : α → β → Prop}
    {memory added : List (β × Nat)}
    (earlier : ∀ k w, (k, w) ∈ memory ↔ ∃ y, xs[w]? = some y ∧ Shows y k)
    (own : ∀ k w, (k, w) ∈ added ↔ w = xs.length ∧ Shows x k) (k : β) (w : Nat) :
    (k, w) ∈ memory ++ added ↔ ∃ y, (xs ++ [x])[w]? = some y ∧ Shows y k := by
  rw [List.mem_append, earlier, own]
  simp only [getElem?_concat_iff, or_and_right, exists_or]
  refine or_congr Iff.rfl ?_
  constructor
  · rintro ⟨rfl, shown⟩
    exact ⟨x, ⟨rfl, rfl⟩, shown⟩
  · rintro ⟨_, ⟨rfl, rfl⟩, shown⟩
    exact ⟨rfl, shown⟩

/-- A text that is near no remembered vector is far from every item. -/
theorem Tracks.far_of_nearDuplicate {st : FilterState F} (tracks : b.Tracks st)
    {earlier later : ContextItem F}
    (far : b.nearDuplicate (b.itemUnit later) st.seenUnitVecs = none)
    (member : earlier ∈ st.eligible.map ContextItem.core) : b.Far earlier later := by
  intro threshold on u ofEarlier v ofLater
  obtain ⟨w, atIndex⟩ := List.mem_iff_getElem?.mp member
  have remembered := (tracks.vectors u w).mpr ⟨earlier, atIndex, ofEarlier⟩
  rw [Option.mem_def] at on ofLater
  simp only [nearDuplicate, on, ofLater, Option.bind_eq_bind, Option.bind_some,
    Option.bind_eq_none_iff] at far
  by_contra near
  cases found : st.seenUnitVecs.find? fun other => FloatLike.le threshold (Context.dot v other.1)
    with
  | none => exact List.find?_eq_none.mp found _ remembered (by simpa using near)
  | some other => cases far other found

/-- What the filter remembers of an item that it adds. -/
theorem Tracks.add {st : FilterState F} {hit : MembraneHit F} {text : Deduped}
    (tracks : b.Tracks st) (isNew : b.IsNew env st hit)
    (far : b.nearDuplicate (b.unitOf hit) st.seenUnitVecs = none) :
    b.Tracks (b.leave env st hit (.kept text (b.unitOf hit))) := by
  have cores : (b.leave env st hit (.kept text (b.unitOf hit))).eligible.map ContextItem.core =
      st.eligible.map ContextItem.core ++ [(b.itemOf env hit text.content).core] := by
    rw [leave, List.map_append, List.map_singleton]
  have unit : b.itemUnit (b.itemOf env hit text.content).core = b.unitOf hit := rfl
  have count : (st.eligible.map ContextItem.core).length = st.eligible.length := List.length_map _
  constructor
  · rw [cores]
    refine mem_append_iff_concat tracks.records fun k w => ?_
    rw [count, List.mem_singleton, Prod.mk.injEq, and_comm]
    exact and_congr_right fun _ => eq_comm
  · rw [cores]
    refine mem_append_iff_concat tracks.vectors fun u w => ?_
    rw [count, unit]
    cases own : b.unitOf hit with
    | none => exact iff_of_false List.not_mem_nil fun both => nomatch both.2
    | some v =>
      show (u, w) ∈ [(v, st.eligible.length)] ↔ _
      rw [List.mem_singleton, Prod.mk.injEq, Option.some.injEq, and_comm]
      exact and_congr_right fun _ => eq_comm
  · intro on
    rw [cores, List.map_append, List.map_singleton, ← List.concat_eq_append]
    refine (tracks.distinct on).concat ?_
    intro known
    obtain ⟨item, member, same⟩ := List.mem_map.mp known
    obtain ⟨w, atIndex⟩ := List.mem_iff_getElem?.mp member
    exact isNew on _ ((tracks.records _ w).mpr ⟨item, atIndex, same⟩) rfl
  · rw [cores]
    refine List.pairwise_append.mpr ⟨tracks.far, List.pairwise_singleton .., ?_⟩
    intro earlier member later last
    obtain rfl := List.mem_singleton.mp last
    exact tracks.far_of_nearDuplicate far member
  · intro item member
    rw [cores, List.mem_append, List.mem_singleton] at member
    rcases member with earlier | rfl
    · exact tracks.tokens item earlier
    · rfl

variable (b env) in
/-- The memory of the filter is that of its items, at every hit. -/
theorem filterAt_tracks : ∀ i ≤ b.hits.length, b.Tracks (b.filterAt env i) := by
  apply filterAt_induction (P := fun _ st => b.Tracks st)
  · exact ⟨by simp [FilterState.start], by simp [FilterState.start],
      fun _ => List.nodup_nil, .nil, nofun⟩
  · intro i hit exit found left leaves tracks
    have attributed : ∀ st' : FilterState F, st'.seenRecord = (b.filterAt env i).seenRecord →
        st'.seenUnitVecs = (b.filterAt env i).seenUnitVecs →
        st'.eligible.map ContextItem.core = (b.filterAt env i).eligible.map ContextItem.core →
        b.Tracks st' := by
      intro st' records vectors cores
      constructor
      · rw [records, cores]
        exact tracks.records
      · rw [vectors, cores]
        exact tracks.vectors
      · rw [cores]
        exact tracks.distinct
      · rw [cores]
        exact tracks.far
      · rw [cores]
        exact tracks.tokens
    cases leaves with
    | belowThreshold => exact attributed _ rfl rfl rfl
    | duplicate => exact attributed _ rfl rfl (ContextItem.map_core_modify ..)
    | redundant => exact attributed _ rfl rfl rfl
    | semanticDuplicate => exact attributed _ rfl rfl (ContextItem.map_core_modify ..)
    | kept reaches isNew filled far => exact tracks.add isNew far

/-- The item that a hit duplicates exists. -/
theorem winner_lt {i winner : Nat} {hit : MembraneHit F} {exit : Exit F}
    (found : b.hits[i]? = some hit) (leaves : b.Leaves env (b.filterAt env i) hit exit)
    (wins : exit = .duplicate winner ∨ ∃ text, exit = .semanticDuplicate text winner) :
    winner < (b.filterAt env i).eligible.length := by
  have below : i < b.hits.length := (List.getElem?_eq_some_iff.mp found).1
  have tracks := filterAt_tracks b env i (Nat.le_of_lt below)
  have inside : ∃ item, ((b.filterAt env i).eligible.map ContextItem.core)[winner]? =
      some item := by
    cases leaves with
    | duplicate reaches on seen =>
      rcases wins with same | ⟨_, same⟩
      · obtain rfl := Exit.duplicate.inj same
        obtain ⟨item, atIndex, _⟩ := (tracks.records _ _).mp seen
        exact ⟨item, atIndex⟩
      · cases same
    | semanticDuplicate reaches isNew filled near =>
      rcases wins with same | ⟨_, same⟩
      · cases same
      · obtain ⟨_, rfl⟩ := Exit.semanticDuplicate.inj same
        obtain ⟨unit, seen⟩ := near
        obtain ⟨item, atIndex, _⟩ := (tracks.vectors _ _).mp seen
        exact ⟨item, atIndex⟩
    | belowThreshold | redundant | kept => rcases wins with same | ⟨_, same⟩ <;> cases same
  obtain ⟨item, atIndex⟩ := inside
  have bound := (List.getElem?_eq_some_iff.mp atIndex).1
  rwa [List.length_map] at bound

end ContextBuilder

end Hansa
