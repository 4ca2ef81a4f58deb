import Hansa.Verif.ContextBudget

/-!
# What holds of every bundle

A bundle stays within its budgets, counts the tokens of what it stores, is in the order of its
scores, and has no two items that the filter would have told apart as duplicates. The filter
compares a hit with the items before it, so the last needs that a product of two vectors does
not depend on their order.
-/

namespace Hansa

/-- What an item keeps of its hit. -/
def ContextItem.record {F : Type} (item : ContextItem F) :
    HitOrigin × UInt64 × F × Option (List F) :=
  (item.origin, item.recordId, item.similarity, item.embedding)

/-- What an item keeps of a hit. -/
def MembraneHit.record {F : Type} (hit : MembraneHit F) :
    HitOrigin × UInt64 × F × Option (List F) :=
  (hit.origin, hit.recordId, hit.similarity, hit.embedding)

variable {F : Type} [FloatLike F]

/-- A product of two vectors does not depend on their order. -/
theorem Context.dot_comm [LawfulFloat F] (u v : List F) : Context.dot u v = Context.dot v u := by
  have products : List.zipWith (· * ·) u v = List.zipWith (· * ·) v u :=
    List.zipWith_comm_of_comm LawfulFloat.mul_comm
  unfold Context.dot
  by_cases same : u.length = v.length
  · rw [if_neg (not_not.mpr same), if_neg (not_not.mpr same.symm), products]
  · rw [if_pos same, if_pos (Ne.symm same)]

namespace ContextBuilder

variable {b : ContextBuilder F} {env : ContextEnv}

/-- A bundle is within its budgets, in order, and without duplicates. -/
structure Sound (b : ContextBuilder F) (bundle : ContextBundle F) : Prop where
  /-- The total is the sum of the items' tokens. -/
  total : bundle.totalTokens.toNat = tokensOf bundle.items
  /-- The total is within the token budget. -/
  tokenBudget : ∀ budget ∈ b.tokenBudget, bundle.totalTokens ≤ budget
  /-- Tokens are counted in the text that is stored. -/
  counted : ∀ item ∈ bundle.items, item.tokens = b.tokenizer item.content
  /-- The number of items is within the record budget. -/
  recordBudget : ∀ cap ∈ b.recordBudget, bundle.items.length ≤ cap
  /-- No item has a larger score than an earlier one. -/
  ranked : bundle.items.Pairwise fun earlier later =>
    FloatLike.le (b.ranker later) (b.ranker earlier) = true
  /-- Items with one score are in the order of their hits. -/
  stable : ∀ score, ((bundle.items.filter fun item =>
    FloatLike.eq (b.ranker item) score).map ContextItem.record).Sublist
      (b.hits.map MembraneHit.record)
  /-- Deduplicated items have different keys. -/
  distinct : b.dedup = true → (bundle.items.map ContextItem.dedupKey).Nodup
  /-- No two items are near each other. -/
  far : ∀ threshold ∈ b.semanticDedup, bundle.items.Pairwise fun x y =>
    ∀ u ∈ x.embedding.bind Context.unitNormalise, ∀ v ∈ y.embedding.bind Context.unitNormalise,
      FloatLike.le threshold (Context.dot u v) = false

variable (b env) in
/-- The items stand in the order of their hits. -/
theorem filterAt_records : ∀ i ≤ b.hits.length,
    ((b.filterAt env i).eligible.map ContextItem.record).Sublist
      ((b.hits.take i).map MembraneHit.record) := by
  apply filterAt_induction (P := fun i st =>
    (st.eligible.map ContextItem.record).Sublist ((b.hits.take i).map MembraneHit.record))
  · exact List.nil_sublist _
  · intro i hit exit found left leaves before
    have attributed : ∀ winner, ((b.filterAt env i).eligible.modify winner
        (ContextItem.attributed hit.origin)).map ContextItem.record =
        (b.filterAt env i).eligible.map ContextItem.record := by
      intro winner
      have cores := congrArg (List.map ContextItem.record)
        (ContextItem.map_core_modify (b.filterAt env i).eligible winner hit.origin)
      rwa [List.map_map, List.map_map] at cores
    have longer : ((b.filterAt env i).eligible.map ContextItem.record).Sublist
        ((b.hits.take (i + 1)).map MembraneHit.record) :=
      before.trans ((List.take_sublist_take_left (Nat.le_succ i)).map _)
    cases leaves with
    | belowThreshold => exact longer
    | redundant => exact longer
    | duplicate reaches on seen =>
      rw [leave, attributed]
      exact longer
    | semanticDuplicate reaches isNew filled near =>
      rw [leave, attributed]
      exact longer
    | kept reaches isNew filled far =>
      rw [leave, List.map_append, List.take_add_one, found, List.map_append]
      exact before.append (List.Sublist.refl _)

/-- The items of the filter stand in the order of their hits. -/
theorem filter_records : ((b.filter env).eligible.map ContextItem.record).Sublist
    (b.hits.map MembraneHit.record) := by
  have last := filterAt_records b env b.hits.length le_rfl
  rwa [filterAt_length, List.take_length] at last

variable (b env) in
/-- The memory of the filter behind all hits is that of its items. -/
theorem filter_tracks : b.Tracks (b.filter env) := by
  have last := filterAt_tracks b env b.hits.length le_rfl
  rwa [filterAt_length] at last

variable [LawfulFloat F]

/-- A number is not larger than one that stands before it in descending order. -/
theorem le_of_descending {x y : F} (numbers : (LawfulFloat.place x).isSome ∧
    (LawfulFloat.place y).isSome) (ordered : descending x y ≠ .gt) :
    FloatLike.le y x = true := by
  obtain ⟨p, atX⟩ := Option.isSome_iff_exists.mp numbers.1
  obtain ⟨q, atY⟩ := Option.isSome_iff_exists.mp numbers.2
  rw [LawfulFloat.descending_place atX atY] at ordered
  rw [FloatLike.le, LawfulFloat.partialCmp_place, atX, atY]
  simpa [Ordering.isLE_iff_ne_gt] using ordered

/-- Numbers equal to one number are level in descending order. -/
theorem descending_of_eq {x y z : F} (first : FloatLike.eq x z = true)
    (second : FloatLike.eq y z = true) : descending x y ≠ .gt := by
  have places : ∀ {w : F}, FloatLike.eq w z = true →
      ∃ p, LawfulFloat.place w = some p ∧ LawfulFloat.place z = some p := by
    intro w same
    rw [FloatLike.eq, LawfulFloat.partialCmp_place] at same
    cases atW : LawfulFloat.place w with
    | none =>
      rw [atW] at same
      cases same
    | some p =>
      cases atZ : LawfulFloat.place z with
      | none =>
        rw [atW, atZ] at same
        cases same
      | some q =>
        rw [atW, atZ] at same
        have level : compare p q = .eq := by simpa using same
        rw [compare_eq_iff_eq.mp level]
        exact ⟨q, rfl, rfl⟩
  obtain ⟨p, atX, atZ⟩ := places first
  obtain ⟨q, atY, atZ'⟩ := places second
  obtain rfl := Option.some.inj (atZ.symm.trans atZ')
  rw [LawfulFloat.descending_place atX atY, compare_eq_iff_eq.mpr rfl]
  decide

/-- No two items of the filter are near each other, in whichever order they are compared. -/
theorem eligible_far (threshold : F) (on : threshold ∈ b.semanticDedup) :
    (b.filter env).eligible.Pairwise fun x y =>
      ∀ u ∈ x.embedding.bind Context.unitNormalise, ∀ v ∈ y.embedding.bind Context.unitNormalise,
        FloatLike.le threshold (Context.dot u v) = false := by
  have far := List.pairwise_map.mp (filter_tracks b env).far
  refine far.imp ?_
  intro x y apart u ofX v ofY
  have units : ∀ item : ContextItem F, b.itemUnit item.core =
      item.embedding.bind Context.unitNormalise := by
    intro item
    rw [itemUnit, Option.mem_def.mp on]
    rfl
  rw [Context.dot_comm]
  exact apart threshold on u (by rw [units]; exact ofX) v (by rw [units]; exact ofY)

/-- Every bundle is sound. -/
theorem build_sound (scored : b.Scored env)
    (small : tokensOf (b.filter env).eligible < 2 ^ 64 - 1) :
    ∃ bundle, b.build env = .ok bundle ∧ b.Sound bundle := by
  obtain ⟨bundle, built, items, total⟩ := build_fill scored (by omega)
  have inside : b.Within bundle.items := by
    rw [items]
    exact within_fill ⟨fun _ _ => Nat.zero_le _, fun _ _ => Nat.zero_le _⟩ _
  have part : bundle.items.Sublist (b.ranking env) := by
    rw [items]
    exact fill_sublist _
  have moved : (b.ranking env).Perm (b.filter env).eligible := sortStably_perm _ _
  have order := LawfulFloat.totalPreorderOn_descending scored
  have tracks := filter_tracks b env
  refine ⟨bundle, built, total, ?_, ?_, inside.2, ?_, ?_, ?_, ?_⟩
  · intro budget on
    rw [UInt64.le_iff_toNat_le, total]
    exact inside.1 budget on
  · intro item member
    have eligible := moved.subset (part.subset member)
    exact tracks.tokens item.core (List.mem_map_of_mem eligible)
  · refine ((sortStably_pairwise order).sublist part).imp_of_mem ?_
    intro earlier later inEarlier inLater ordered
    have first := scored earlier (moved.subset (part.subset inEarlier))
    have second := scored later (moved.subset (part.subset inLater))
    exact le_of_descending ⟨first, second⟩ ordered
  · intro score
    have level := sortStably_filter order (p := fun item => FloatLike.eq (b.ranker item) score)
      fun _ _ _ _ first second => descending_of_eq first second
    have kept := part.filter fun item => FloatLike.eq (b.ranker item) score
    rw [show (b.ranking env).filter _ = _ from level] at kept
    exact ((kept.trans List.filter_sublist).map _).trans filter_records
  · intro on
    have keys := tracks.distinct on
    rw [List.map_map] at keys
    have sorted : ((b.ranking env).map ContextItem.dedupKey).Nodup :=
      (moved.map _).nodup_iff.mpr keys
    exact sorted.sublist (part.map _)
  · intro threshold on
    have symmetric : ∀ {x y : ContextItem F},
        (∀ u ∈ x.embedding.bind Context.unitNormalise,
          ∀ v ∈ y.embedding.bind Context.unitNormalise,
          FloatLike.le threshold (Context.dot u v) = false) →
        ∀ u ∈ y.embedding.bind Context.unitNormalise,
          ∀ v ∈ x.embedding.bind Context.unitNormalise,
          FloatLike.le threshold (Context.dot u v) = false := by
      intro x y apart u ofY v ofX
      rw [Context.dot_comm]
      exact apart v ofX u ofY
    exact ((moved.pairwise_iff symmetric).mpr (eligible_far threshold on)).sublist part

/-- The bundle of three texts is sound. -/
theorem crowded_sound : ∃ bundle, crowded.build plainEnv = .ok bundle ∧ crowded.Sound bundle :=
  build_sound crowded_scored.1 crowded_scored.2

end ContextBuilder

end Hansa
