import Hansa.Verif.ContextBudget
import Hansa.Verif.Contribution

/-!
# Rankings with NaN

The merge of a query and the ranking of a bundle sort with a comparator that takes NaN to be
equal to everything. That is an order only if there is no NaN, or if all numbers are equal. With
any other list the sort may return the elements in any order, and it may panic.
-/

namespace Hansa

variable {F : Type} [FloatLike F] [LawfulFloat F]

section

variable {α : Type} (f : α → F) (xs : List α)

/-- The numbers among the scores are in non-increasing order. -/
def RankedBy : Prop := xs.Pairwise fun a b =>
  ∀ x ∈ LawfulFloat.place (f a), ∀ y ∈ LawfulFloat.place (f b), y ≤ x

/-- No score is NaN, or those that are not are all equal. -/
def Rankable : Prop :=
  (∀ a ∈ xs, (LawfulFloat.place (f a)).isSome) ∨ ∀ a ∈ xs, ∀ b ∈ xs,
    ∀ x ∈ LawfulFloat.place (f a), ∀ y ∈ LawfulFloat.place (f b), x = y

/-- Every implementation of `sort_by` returns, with the numbers in non-increasing order. -/
def SortSurvives : Prop :=
  ∀ sort : StdSort, ∃ sorted, sort.sortBy (fun a b => descending (f a) (f b)) xs = .ok sorted ∧
    RankedBy f sorted

end

section

variable {α : Type} {f : α → F} {xs : List α}

/-- Descending order is consistent exactly on what can be ranked. -/
theorem totalPreorderOn_iff_rankable :
    TotalPreorderOn (fun a b => descending (f a) (f b)) xs ↔ Rankable f xs := by
  rw [LawfulFloat.totalPreorderOn_descending_iff]
  refine or_congr Iff.rfl ?_
  constructor
  · intro atMost a inA b inB x atA y atB
    exact le_antisymm (atMost a inA b inB x y atA atB) (atMost b inB a inA y x atB atA)
  · intro equal a inA b inB x y atA atB
    exact (equal a inA b inB x atA y atB).le

/-- A sort by scores survives exactly what can be ranked. -/
theorem sortSurvives_iff : SortSurvives f xs ↔ Rankable f xs := by
  rw [← totalPreorderOn_iff_rankable]
  constructor
  · intro survives
    obtain ⟨sorted, returned, _⟩ := survives .strict
    exact StdSort.strict_returns returned
  · intro order sort
    refine ⟨_, sort.stable _ _ order, ?_⟩
    refine (sortStably_pairwise order).imp ?_
    intro a b ordered x atA y atB
    rw [LawfulFloat.descending_place atA atB] at ordered
    exact not_lt.mp fun above => ordered (compare_gt_iff_gt.mpr above)

end

/-! ## The merge of a query -/

/-- The final merge returns, its numbers are in non-increasing order, and no number that is cut
is larger than one that is kept. -/
def MergeSurvives (localHits remote : List (MembraneHit F)) : Prop :=
  ∀ sort : StdSort, ∃ merged, finalMerge sort localHits remote = .ok merged ∧
    RankedBy MembraneHit.similarity merged ∧
    ∀ cap : UInt32, ∀ kept ∈ truncateToBudget merged cap, ∀ cut ∈ merged.drop cap.toNat,
      ∀ x ∈ LawfulFloat.place kept.similarity, ∀ y ∈ LawfulFloat.place cut.similarity, y ≤ x

/-- The final merge survives exactly the similarities that can be ranked. -/
theorem mergeSurvives_iff (localHits remote : List (MembraneHit F)) :
    MergeSurvives localHits remote ↔
      Rankable MembraneHit.similarity (localHits ++ remote) := by
  rw [← sortSurvives_iff]
  constructor
  · intro survives sort
    obtain ⟨merged, returned, ranked, _⟩ := survives sort
    exact ⟨merged, returned, ranked⟩
  · intro survives sort
    obtain ⟨merged, returned, ranked⟩ := survives sort
    refine ⟨merged, returned, ranked, ?_⟩
    intro cap kept inKept cut inCut
    have split : RankedBy MembraneHit.similarity
        (merged.take cap.toNat ++ merged.drop cap.toNat) := by
      rw [List.take_append_drop]
      exact ranked
    exact (List.pairwise_append.mp split).2.2 kept inKept cut inCut

/-! ## The ranking of a bundle -/

/-- The items of a bundle are ranked, with the numbers among their scores in non-increasing
order. -/
def ContextBuilder.RankSurvives (b : ContextBuilder F) (env : ContextEnv) : Prop :=
  ∀ sort : StdSort, ∃ ranked, b.rank { env with sort } = .ok ranked ∧ RankedBy b.ranker ranked

omit [LawfulFloat F] in
/-- The filter does not sort. -/
theorem ContextBuilder.filter_sort (b : ContextBuilder F) (env : ContextEnv) (sort : StdSort) :
    b.filter { env with sort } = b.filter env := rfl

/-- The ranking of a bundle survives exactly the scores that can be ranked. -/
theorem ContextBuilder.rankSurvives_iff (b : ContextBuilder F) (env : ContextEnv) :
    b.RankSurvives env ↔ Rankable b.ranker (b.filter env).eligible := by
  rw [← sortSurvives_iff]
  rfl

/-- Both rankings survive exactly scores without NaN, and numbers that are all equal. -/
theorem rankings_survive_iff :
    (∀ localHits remote : List (MembraneHit F), MergeSurvives localHits remote ↔
      Rankable MembraneHit.similarity (localHits ++ remote)) ∧
    ∀ (b : ContextBuilder F) (env : ContextEnv),
      b.RankSurvives env ↔ Rankable b.ranker (b.filter env).eligible :=
  ⟨mergeSurvives_iff, ContextBuilder.rankSurvives_iff⟩

/-- Two hits of different similarity with a NaN between them. -/
def nanHits : List (MembraneHit Float32) :=
  [ContextBuilder.sampleHit .local 0.1 "a" none,
    ContextBuilder.sampleHit ContextBuilder.samplePeer (0.0 / 0.0) "b" none,
    ContextBuilder.sampleHit ContextBuilder.samplePeer 0.2 "c" none]

/-- A sort that panics whenever it may panics on the merge of the three hits and on the ranking
of their bundle. -/
theorem nanHits_panics :
    finalMerge .strict (nanHits.take 1) (nanHits.drop 1) = .error .panic ∧
      (ContextBuilder.fromHits nanHits).rank { plainEnv with sort := .strict } =
        .error .panic ∧
      ¬ MergeSurvives (nanHits.take 1) (nanHits.drop 1) ∧
      ¬ (ContextBuilder.fromHits nanHits).RankSurvives plainEnv := by
  have merge : finalMerge .strict (nanHits.take 1) (nanHits.drop 1) = .error .panic :=
    StdSort.strict_panics (by decide +kernel)
  have rank : (ContextBuilder.fromHits nanHits).rank { plainEnv with sort := .strict } =
      .error .panic := by
    rw [ContextBuilder.rank, ContextBuilder.filter_sort]
    exact StdSort.strict_panics (by decide +kernel)
  refine ⟨merge, rank, ?_, ?_⟩
  · intro survives
    obtain ⟨merged, returned, _⟩ := survives .strict
    cases merge.symm.trans returned
  · intro survives
    obtain ⟨ranked, returned, _⟩ := survives .strict
    cases rank.symm.trans returned

end Hansa
