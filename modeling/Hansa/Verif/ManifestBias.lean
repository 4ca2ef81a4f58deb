import Hansa.Handle
import Hansa.Verif.Contribution
import Hansa.Verif.ExactAllocation
import Hansa.Verif.ExactScore

/-!
# What a better manifest does to a peer

The membrane multiplies a peer's saga score by the usefulness factor of its manifest, drops the
peers below the threshold, sorts the others and splits the remote budget over them in that
order. Over exact numbers the ranking descends and the budgets follow it, so of two peers with
the same score the one with the greater factor comes first, exactly when that score is
positive. A cosine may be negative, and then the greater factor pushes a peer down.
-/

namespace Hansa

open Exact (num)
open Apportionment

variable {q : MembraneQuery Exact} {env : QueryEnv Exact}

/-! ## The ranking -/

/-- A score that the membrane keeps. -/
def MembraneQuery.Passes (q : MembraneQuery Exact) (score : Exact) : Prop :=
  (FloatLike.isFinite score && FloatLike.le q.minSimilarity score) = true

/-- The order in which the scored peers are allocated a budget. -/
def MembraneQuery.Ranks (q : MembraneQuery Exact) (env : QueryEnv Exact)
    (ranking : List (MemberRecord × Exact)) : Prop :=
  ∃ scored, q.scored env = .ok scored ∧
    env.sort.sortBy (fun a b => descending a.2 b.2) scored = .ok ranking

/-- What a step returns is among what the steps return. -/
theorem mapM_mem {α β : Type} {f : α → Result β} {xs : List α} {ys : List β}
    (out : xs.mapM f = .ok ys) {x : α} (member : x ∈ xs) : ∃ y ∈ ys, f x = .ok y := by
  induction xs generalizing ys with
  | nil => cases member
  | cons z xs ih =>
    rw [List.mapM_cons] at out
    obtain ⟨y, first, out⟩ := Except.bind_eq_ok.mp out
    obtain ⟨zs, rest, out⟩ := Except.bind_eq_ok.mp out
    obtain rfl := Except.ok.inj out
    rcases List.mem_cons.mp member with rfl | later
    · exact ⟨y, List.mem_cons_self, first⟩
    · obtain ⟨y', inside, computed⟩ := ih rest later
      exact ⟨y', List.mem_cons_of_mem _ inside, computed⟩

/-- A peer that is ranked passes, and is no more than three halves away from zero. -/
theorem MembraneQuery.Ranks.bounded {ranking : List (MemberRecord × Exact)}
    (ranks : q.Ranks env ranking) {peer : MemberRecord × Exact} (member : peer ∈ ranking) :
    q.Passes peer.2 ∧ ∃ x : ℝ, peer.2 = num x ∧ |x| ≤ 3 / 2 := by
  obtain ⟨scored, out, sorted⟩ := ranks
  obtain ⟨scores, computed, out⟩ := Except.bind_eq_ok.mp out
  obtain rfl := Except.ok.inj out
  obtain ⟨inside, passes⟩ := List.mem_filter.mp ((StdSort.perm_of_sortBy sorted).subset member)
  refine ⟨passes, ?_⟩
  obtain ⟨source, _, isScore⟩ := mem_of_mapM computed inside
  obtain ⟨base, scored, isScore⟩ := Except.bind_eq_ok.mp isScore
  obtain rfl := Except.ok.inj isScore
  obtain ⟨f, factor, least, most⟩ :=
    usefulnessFactor_bounds (env.manifests.read source.1.tenantId) env.now
  rw [Bool.and_eq_true, factor] at passes
  rw [factor]
  -- A special score stays special under the factor, and does not pass.
  cases base with
  | nan => cases passes.1
  | infinite s =>
    have special : (Exact.infinite s * num f).isNum = false := Exact.isNum_mul rfl
    exact absurd passes.1 (Bool.eq_false_iff.mp special)
  | num x =>
    have unit := scoreSaga_unit scored x rfl
    refine ⟨x * f, rfl, ?_⟩
    rw [abs_mul, abs_of_pos (show 0 < f by linarith)]
    calc |x| * f ≤ 1 * (3 / 2) := by gcongr
      _ = 3 / 2 := one_mul _

/-- Every peer whose score passes is ranked. -/
theorem MembraneQuery.Ranks.complete {ranking : List (MemberRecord × Exact)}
    (ranks : q.Ranks env ranking) {peer : MemberRecord × Saga Exact} (known : peer ∈ q.sagas)
    (other : peer.1.tenantId ≠ q.localTenantId) {score : MemberRecord × Exact}
    (out : q.biasedScore env peer = .ok score) (passes : q.Passes score.2) : score ∈ ranking := by
  obtain ⟨scored, isScored, sorted⟩ := ranks
  obtain ⟨scores, computed, isScored⟩ := Except.bind_eq_ok.mp isScored
  obtain rfl := Except.ok.inj isScored
  have asked : peer ∈ q.sagas.filter fun peer => peer.1.tenantId ≠ q.localTenantId :=
    List.mem_filter.mpr ⟨known, by simpa using other⟩
  obtain ⟨score', inside, out'⟩ := mapM_mem computed asked
  obtain rfl := Except.ok.inj (out.symm.trans out')
  exact (StdSort.perm_of_sortBy sorted).mem_iff.mpr (List.mem_filter.mpr ⟨inside, passes⟩)

/-- Scores descend in the ranking. -/
theorem MembraneQuery.Ranks.descends {ranking : List (MemberRecord × Exact)}
    (ranks : q.Ranks env ranking) :
    ranking.Pairwise fun a b => FloatLike.le b.2 a.2 = true := by
  have numbers : ∀ peer ∈ ranking, ∃ x : ℝ, peer.2 = num x := fun peer member =>
    (ranks.bounded member).2.imp fun _ both => both.1
  obtain ⟨scored, out, sorted⟩ := ranks
  have moved := StdSort.perm_of_sortBy sorted
  have order : TotalPreorderOn (fun a b : MemberRecord × Exact => descending a.2 b.2) scored := by
    apply LawfulFloat.totalPreorderOn_descending
    intro peer member
    obtain ⟨x, isNum⟩ := numbers peer (moved.mem_iff.mpr member)
    rw [isNum]
    rfl
  have stable := env.sort.stable _ _ order
  obtain rfl := Except.ok.inj (stable.symm.trans sorted)
  apply (sortStably_pairwise order).imp_of_mem
  intro a b inA inB below
  obtain ⟨x, isX⟩ := numbers a inA
  obtain ⟨y, isY⟩ := numbers b inB
  rw [isX, isY] at below ⊢
  exact le_num.mpr (descending_num.mp below)

/-! ## The budgets -/

/-- The budget of the peer at a rank, none when the peer is not asked. -/
def budgetAt (allocation : List PeerAllocation) (rank : Nat) : Nat :=
  (allocation[rank]?).elim 0 fun peer => peer.budget.toNat

/-- Budgets in descending order descend with the rank. -/
theorem budgetAt_antitone {allocation : List PeerAllocation}
    (ordered : allocation.Pairwise fun a b => b.budget ≤ a.budget) {i j : Nat} (before : i < j) :
    budgetAt allocation j ≤ budgetAt allocation i := by
  unfold budgetAt
  cases later : allocation[j]? with
  | none => exact Nat.zero_le _
  | some b =>
    obtain ⟨inJ, rfl⟩ := List.getElem?_eq_some_iff.mp later
    have inI : i < allocation.length := before.trans inJ
    rw [List.getElem?_eq_getElem inI]
    exact UInt32.le_iff_toNat_le.mp (List.pairwise_iff_getElem.mp ordered i j inI inJ before)

/-- Scores within three halves of zero have a first pass that can be summed: a total close to
the end of 32 bits gives everyone a share of at least one. -/
theorem firstPassFits_bounded {ranking : List (MemberRecord × Exact)} {total : UInt32}
    (some_ : ranking ≠ [])
    (bounded : ∀ peer ∈ ranking, ∃ x : ℝ, peer.2 = num x ∧ |x| ≤ 3 / 2)
    (descends : ranking.Pairwise fun a b => FloatLike.le b.2 a.2 = true) :
    FirstPassFits Exact ranking total 1 defaultMaxPeers := by
  have finite : ∀ peer ∈ ranking, FloatLike.isFinite peer.2 = true := fun peer member =>
    isFinite_iff.mpr ((bounded peer member).imp fun _ both => both.1)
  obtain ⟨xs, low, isNum, least, _⟩ :=
    exists_considered some_ (show defaultMaxPeers ≠ 0 by decide) finite descends
  have long := congrArg List.length isNum
  rw [List.length_map, List.length_map, List.length_take] at long
  have few : xs.length ≤ 8 := long ▸ min_le_left _ _
  have whole := total.toNat_lt
  rw [FirstPassFits, isNum, firstPass_num least]
  by_cases small : total.toNat + 8 < 2 ^ 32
  · have sum := totalOf_firstPass_le least total 1
    rw [UInt32.toNat_one] at sum
    omega
  · have unit : ∀ x ∈ xs, |x| ≤ 3 / 2 := by
      intro x member
      have scored : num x ∈ (ranking.take defaultMaxPeers).map Prod.snd := by
        rw [isNum]
        exact List.mem_map_of_mem member
      obtain ⟨peer, inside, isX⟩ := List.mem_map.mp scored
      obtain ⟨y, isY, within⟩ := bounded peer (List.mem_of_mem_take inside)
      obtain rfl := Exact.num.inj (isX.symm.trans isY)
      exact within
    have most : ∀ w ∈ weights low xs, w ≤ 3.001 := by
      intro w member
      obtain ⟨x, inside, rfl⟩ := List.mem_map.mp member
      have above := (abs_le.mp (unit x inside)).2
      have below := (abs_le.mp (unit low (List.min?_eq_some_iff.mp least).1)).1
      norm_num
      linarith
    have large : (weights low xs).length * (3.001 : ℝ) ≤ 1e-3 * total.toNat := by
      have eight : ((weights low xs).length : ℝ) ≤ 8 := by
        rw [weights, List.length_map]
        exact_mod_cast few
      have huge : (4294967288 : ℝ) ≤ total.toNat := by
        have bound : 4294967288 ≤ total.toNat := by omega
        exact_mod_cast bound
      norm_num
      linarith
    have shares : ∀ w ∈ weights low xs,
        (1 : UInt32).toNat ≤ ⌊share (weights low xs) total.toNat w⌋₊ := fun w member =>
      one_le_floor_share _ (weights_pos least) (weights_ge least) most large member
    exact (totalOf_firstPass_within least shares).trans_lt whole

section Allocation

variable {ranking : List (MemberRecord × Exact)}

/-- The ranking is what the budget is split over. -/
theorem MembraneQuery.Ranks.allocation_eq (ranks : q.Ranks env ranking) :
    q.allocation Exact env = proportionalAllocation Exact env.profile ranking
      q.budget.maxRemoteRecords 1 defaultMaxPeers := by
  obtain ⟨scored, out, sorted⟩ := ranks
  rw [MembraneQuery.allocation, out]
  simp only [bind, Except.bind, sorted]

/-- A remote budget is spent fairly over a ranking. -/
theorem MembraneQuery.Ranks.spends (ranks : q.Ranks env ranking) (some_ : ranking ≠ [])
    (positive : q.budget.maxRemoteRecords ≠ 0) :
    ∃ allocation, q.allocation Exact env = .ok allocation ∧
      SpendsFairly ranking q.budget.maxRemoteRecords 1 defaultMaxPeers allocation := by
  have bounded : ∀ peer ∈ ranking, ∃ x : ℝ, peer.2 = num x ∧ |x| ≤ 3 / 2 :=
    fun peer member => (ranks.bounded member).2
  have finite : ∀ peer ∈ ranking, FloatLike.isFinite peer.2 = true := fun peer member =>
    isFinite_iff.mpr ((bounded peer member).imp fun _ both => both.1)
  have descends := ranks.descends
  have floor : (1 : UInt32) ≤ q.budget.maxRemoteRecords := by
    have nonzero : q.budget.maxRemoteRecords.toNat ≠ 0 :=
      fun zero => positive (UInt32.toNat_inj.mp zero)
    apply UInt32.le_iff_toNat_le.mpr
    rw [UInt32.toNat_one]
    omega
  have runs : ¬ (ranking = [] ∨ q.budget.maxRemoteRecords = 0 ∨ defaultMaxPeers = 0) := by
    rintro (empty | zero | none_)
    · exact some_ empty
    · exact positive zero
    · cases none_
  rw [ranks.allocation_eq]
  exact proportionalAllocation_num env.profile runs floor finite descends
    (firstPassFits_bounded some_ bounded descends)

/-- Every ranking is allocated, and budgets descend with the rank. -/
theorem MembraneQuery.Ranks.allocates (ranks : q.Ranks env ranking) :
    ∃ allocation, q.allocation Exact env = .ok allocation ∧
      allocation.Pairwise fun a b => b.budget ≤ a.budget := by
  by_cases runs : ranking = [] ∨ q.budget.maxRemoteRecords = 0
  · rw [ranks.allocation_eq]
    exact ⟨[], if_pos (runs.imp id .inl), .nil⟩
  · obtain ⟨some_, positive⟩ := not_or.mp runs
    obtain ⟨allocation, computed, fair⟩ := ranks.spends some_ positive
    exact ⟨allocation, computed, fair.descending⟩

end Allocation

/-! ## The two peers -/

/-- The usefulness factor of a peer. -/
noncomputable def QueryEnv.factor (env : QueryEnv Exact) (peer : MemberRecord × Saga Exact) :
    Exact :=
  (env.manifests.read peer.1.tenantId).usefulnessFactor env.now

/-- One scored peer is better off than another: its score is greater, it passes whenever the
other one does, and then it comes before the other and is allocated no less. -/
structure MembraneQuery.Favours (q : MembraneQuery Exact) (env : QueryEnv Exact)
    (better worse : MemberRecord × Exact) : Prop where
  /-- The score is greater. -/
  score : FloatLike.lt worse.2 better.2 = true
  /-- Whatever the threshold, it passes whenever the other one does. -/
  passes : q.Passes worse.2 → q.Passes better.2
  /-- It is ranked whenever the other one is, and before it. -/
  before : ∀ ranking, q.Ranks env ranking → worse ∈ ranking → better ∈ ranking ∧
    ∀ i j : Nat, ranking[i]? = some better → ranking[j]? = some worse → i < j
  /-- It is allocated no less. -/
  budget : ∀ ranking, q.Ranks env ranking → ∃ allocation,
    q.allocation Exact env = .ok allocation ∧
      ∀ i j : Nat, ranking[i]? = some better → ranking[j]? = some worse →
        budgetAt allocation j ≤ budgetAt allocation i

/-- A greater score makes a peer better off. -/
theorem MembraneQuery.favours_of_lt {better : MemberRecord × Saga Exact}
    {b w : MemberRecord × Exact} (known : better ∈ q.sagas)
    (other : better.1.tenantId ≠ q.localTenantId) (isB : q.biasedScore env better = .ok b)
    (realB : ∃ x : ℝ, b.2 = num x) (realW : ∃ y : ℝ, w.2 = num y)
    (above : FloatLike.lt w.2 b.2 = true) : q.Favours env b w := by
  obtain ⟨x, isX⟩ := realB
  obtain ⟨y, isY⟩ := realW
  have order : y < x := by
    rw [isX, isY] at above
    exact lt_num.mp above
  have passes : q.Passes w.2 → q.Passes b.2 := by
    intro kept
    rw [Passes, isY, Bool.and_eq_true] at kept
    rw [Passes, isX, Bool.and_eq_true]
    obtain ⟨p, r, atP, atR, below⟩ := LawfulFloat.le_iff.mp kept.2
    have least : r ≤ (x : EReal) := by
      obtain rfl := Option.some.inj (show some (y : EReal) = some r from atR)
      exact (EReal.coe_lt_coe_iff.mpr order).le
    exact ⟨rfl, LawfulFloat.le_iff.mpr ⟨p, (x : EReal), atP, rfl, below.trans least⟩⟩
  have before : ∀ ranking, q.Ranks env ranking → ∀ i j : Nat, ranking[i]? = some b →
      ranking[j]? = some w → i < j := by
    intro ranking ranks i j atI atJ
    by_contra behind
    obtain ⟨inI, isB⟩ := List.getElem?_eq_some_iff.mp atI
    obtain ⟨inJ, isW⟩ := List.getElem?_eq_some_iff.mp atJ
    have same : i ≠ j := by
      rintro rfl
      rw [isB] at isW
      rw [isW, isY] at isX
      exact order.ne (Exact.num.inj isX)
    have least := List.pairwise_iff_getElem.mp ranks.descends j i inJ inI (by omega)
    rw [isB, isW, isX, isY] at least
    exact order.not_ge (le_num.mp least)
  refine ⟨above, passes, fun ranking ranks member => ⟨?_, before ranking ranks⟩,
    fun ranking ranks => ?_⟩
  · exact ranks.complete known other isB (passes (ranks.bounded member).1)
  · obtain ⟨allocation, computed, descends⟩ := ranks.allocates
    exact ⟨allocation, computed, fun i j atI atJ =>
      budgetAt_antitone descends (before ranking ranks i j atI atJ)⟩

/-- A factor multiplies the score of a peer. -/
theorem biasedScore_num {peer : MemberRecord × Saga Exact} {s : ℝ}
    (scored : scoreSaga env.profile peer.2 q.embedding = .ok (num s)) :
    q.biasedScore env peer = .ok (peer.1, num s * env.factor peer) := by
  rw [MembraneQuery.biasedScore, scored]
  rfl

/-- Of two peers with the same saga score, the one with the greater usefulness factor is better
off if and only if the score is positive. -/
theorem MembraneQuery.favours_iff {better worse : MemberRecord × Saga Exact}
    {b w : MemberRecord × Exact} {s : ℝ} (known : better ∈ q.sagas)
    (other : better.1.tenantId ≠ q.localTenantId)
    (scoredB : scoreSaga env.profile better.2 q.embedding = .ok (num s))
    (scoredW : scoreSaga env.profile worse.2 q.embedding = .ok (num s))
    (useful : FloatLike.lt (env.factor worse) (env.factor better) = true)
    (isB : q.biasedScore env better = .ok b) (isW : q.biasedScore env worse = .ok w) :
    q.Favours env b w ↔ 0 < s := by
  obtain ⟨f, factorB, _⟩ :=
    usefulnessFactor_bounds (env.manifests.read better.1.tenantId) env.now
  obtain ⟨g, factorW, _⟩ :=
    usefulnessFactor_bounds (env.manifests.read worse.1.tenantId) env.now
  have order : g < f := by
    rw [QueryEnv.factor, QueryEnv.factor, factorB, factorW] at useful
    exact lt_num.mp useful
  have valueB : b.2 = num (s * f) := by
    obtain rfl := Except.ok.inj ((biasedScore_num scoredB).symm.trans isB)
    exact congrArg (num s * ·) factorB
  have valueW : w.2 = num (s * g) := by
    obtain rfl := Except.ok.inj ((biasedScore_num scoredW).symm.trans isW)
    exact congrArg (num s * ·) factorW
  constructor
  · intro favours
    have above := favours.score
    rw [valueB, valueW, lt_num] at above
    by_contra negative
    have reversed := mul_le_mul_of_nonpos_left order.le (not_lt.mp negative)
    exact above.not_ge reversed
  · intro positive
    have above : FloatLike.lt w.2 b.2 = true := by
      rw [valueB, valueW, lt_num]
      exact mul_lt_mul_of_pos_left order positive
    exact q.favours_of_lt known other isB ⟨_, valueB⟩ ⟨_, valueW⟩ above

/-! ## A cold peer and a neutral one -/

/-- A saga of one centroid in one dimension. -/
noncomputable def exactSaga (x : ℝ) : Saga Exact where
  tenantId := sampleTenant 7
  builtAt := 0
  recordCount := 1
  embeddingDim := 1
  centroids := [⟨1, [num x]⟩]
  tags := []

/-- A query for the positive direction over two peers with the same saga, and a budget of one
record. -/
noncomputable def twoPeers (x : ℝ) : MembraneQuery Exact where
  localTenant := ⟨1, 0, [], fun _ _ _ => .ok []⟩
  localTenantId := sampleTenant 9
  peerOpener := Handle.placeholderOpener
  embedding := [num 1]
  members := []
  sagas := [(sampleMember 1, exactSaga x), (sampleMember 2, exactSaga x)]
  topK := 10
  budget := .flat 1
  minSimilarity := -FloatLike.infinity
  localOnly := false
  deadline := none

/-- The first peer returned sixty hits, none of them useful; the second one was never asked. -/
def coldManifests : ManifestStore := fun peer =>
  if peer = sampleTenant 1 then some ⟨sampleTenant 1, 0, 60, 0⟩ else none

/-- What the query depends on: a development build and these manifests. -/
noncomputable def coldEnv : QueryEnv Exact where
  profile := .dev
  now := 0
  sort := .lenient
  schedule := .byFinish id
  manifests := coldManifests

/-- The saga scores with its one component. -/
theorem scoreSaga_exactSaga {x : ℝ} (square : x * x = 1) :
    scoreSaga .dev (exactSaga x) [num 1] = .ok (num x) := by
  have sums : cosineSums (0.0 : Exact) 0.0 0.0 [num 1] [num x] = .ok (num x, num 1, num 1) := by
    rw [Exact.literal_zero]
    simp [cosineSums, square]
  have root : FloatLike.sqrt (num 1) * FloatLike.sqrt (num 1) = num 1 := by
    show Exact.sqrt (num 1) * Exact.sqrt (num 1) = num 1
    rw [Exact.sqrt_num zero_le_one, Real.sqrt_one, Exact.num_mul, mul_one]
  have nonzero : FloatLike.eq (num 1) (num 0) = false :=
    Bool.eq_false_iff.mpr fun same => one_ne_zero (eq_num.mp same)
  have cosine : cosineSimilarity .dev [num 1] [num x] = .ok (num x) := by
    rw [cosineSimilarity, if_neg (by simp), sums, Exact.literal_zero]
    simp only [bind, Except.bind, nonzero, Bool.or_self, Bool.false_eq_true, if_false, root,
      Exact.num_div one_ne_zero, div_one]
  have above : FloatLike.lt (-FloatLike.infinity) (num x) = true := by
    have compared : FloatLike.partialCmp (-FloatLike.infinity) (num x) =
        some (compare ⊥ (x : EReal)) := rfl
    rw [FloatLike.lt, compared, compare_lt_iff_lt.mpr (EReal.bot_lt_coe x)]
    rfl
  rw [scoreSaga]
  show bestScore .dev [num 1] _ [⟨1, [num x]⟩] = _
  rw [bestScore, cosine]
  simp only [bind, Except.bind, above, if_true]
  rfl

/-- A streak of forty useless hits after the trial leaves a fifth. -/
theorem factor_cold (x : ℝ) : coldEnv.factor (sampleMember 1, exactSaga x) = num (1 / 5) := by
  have read : coldManifests.read (sampleTenant 1) = ⟨sampleTenant 1, 0, 60, 0⟩ := by decide
  have excess : (((60 : UInt64).toNat - 20 : Nat) : ℝ) = 40 := by
    show ((40 : Nat) : ℝ) = 40
    exact Nat.cast_ofNat
  show (coldManifests.read (sampleTenant 1)).usefulnessFactor coldEnv.now = num (1 / 5)
  rw [read, usefulnessFactor_eq, realFactor_cold (by decide), coldValue, excess]
  norm_num

/-- A peer that was never asked is neutral. -/
theorem factor_neutral (x : ℝ) : coldEnv.factor (sampleMember 2, exactSaga x) = num 1 := by
  have unasked : (coldManifests.read (sampleTenant 2)).totalHits = 0 := by decide
  show (coldManifests.read (sampleTenant 2)).usefulnessFactor coldEnv.now = num 1
  rw [usefulnessFactor_eq, realFactor_neutral (.inl unasked)]

/-- Equally scored, the neutral peer has the greater factor. -/
theorem cold_lt_neutral (x : ℝ) :
    FloatLike.lt (coldEnv.factor (sampleMember 1, exactSaga x))
      (coldEnv.factor (sampleMember 2, exactSaga x)) = true := by
  rw [factor_cold, factor_neutral, lt_num]
  norm_num

/-- Where both match the query, the neutral peer is better off. -/
theorem neutralPeer_favoured :
    (twoPeers 1).Favours coldEnv (sampleMember 2, num 1 * num 1)
      (sampleMember 1, num 1 * num (1 / 5)) ↔ (0 : ℝ) < 1 := by
  have scoredN : scoreSaga coldEnv.profile (sampleMember 2, exactSaga 1).2
      (twoPeers 1).embedding = .ok (num 1) := scoreSaga_exactSaga (mul_one 1)
  have scoredC : scoreSaga coldEnv.profile (sampleMember 1, exactSaga 1).2
      (twoPeers 1).embedding = .ok (num 1) := scoreSaga_exactSaga (mul_one 1)
  have biasedN := biasedScore_num scoredN
  have biasedC := biasedScore_num scoredC
  rw [factor_neutral] at biasedN
  rw [factor_cold] at biasedC
  exact MembraneQuery.favours_iff (List.mem_cons_of_mem _ List.mem_cons_self) (by decide) scoredN
    scoredC (cold_lt_neutral 1) biasedN biasedC

/-- Where both point away from the query, the cold peer is ranked first. -/
theorem ranks_opposed :
    (twoPeers (-1)).Ranks coldEnv [(sampleMember 1, num (-1 / 5)), (sampleMember 2, num (-1))] := by
  have square : (-1 : ℝ) * -1 = 1 := by norm_num
  have scoredC : scoreSaga coldEnv.profile (sampleMember 1, exactSaga (-1)).2
      (twoPeers (-1)).embedding = .ok (num (-1)) := scoreSaga_exactSaga square
  have scoredN : scoreSaga coldEnv.profile (sampleMember 2, exactSaga (-1)).2
      (twoPeers (-1)).embedding = .ok (num (-1)) := scoreSaga_exactSaga square
  have biasedC := biasedScore_num scoredC
  have biasedN := biasedScore_num scoredN
  rw [factor_cold, Exact.num_mul, show (-1 : ℝ) * (1 / 5) = -1 / 5 by norm_num] at biasedC
  rw [factor_neutral, Exact.num_mul, mul_one] at biasedN
  have others : (twoPeers (-1)).sagas.filter
      (fun peer => peer.1.tenantId ≠ (twoPeers (-1)).localTenantId) = (twoPeers (-1)).sagas :=
    List.filter_eq_self.mpr (List.forall_mem_cons.mpr
      ⟨by decide, List.forall_mem_singleton.mpr (by decide)⟩)
  have passes : ∀ x : ℝ, (FloatLike.isFinite (num x) &&
      FloatLike.le (twoPeers (-1)).minSimilarity (num x)) = true := by
    intro x
    have least : (⊥ : EReal) ≤ (x : EReal) := bot_le
    rw [Bool.and_eq_true]
    exact ⟨rfl, LawfulFloat.le_iff.mpr ⟨(⊥ : EReal), (x : EReal), rfl, rfl, least⟩⟩
  have scores : (twoPeers (-1)).sagas.mapM ((twoPeers (-1)).biasedScore coldEnv) =
      .ok [(sampleMember 1, num (-1 / 5)), (sampleMember 2, num (-1))] := by
    show [(sampleMember 1, exactSaga (-1)), (sampleMember 2, exactSaga (-1))].mapM _ = _
    rw [List.mapM_cons, biasedC, List.mapM_cons, biasedN]
    rfl
  refine ⟨[(sampleMember 1, num (-1 / 5)), (sampleMember 2, num (-1))], ?_, ?_⟩
  · rw [MembraneQuery.scored, others, scores]
    simp only [bind, Except.bind, List.filter_cons, passes, if_true, List.filter_nil]
  · -- The scores descend as they stand, so the sort leaves them.
    have below : descending (num (-1 / 5)) (num (-1)) ≠ .gt :=
      descending_num.mpr (by norm_num)
    show Except.ok (sortStably _ _) = _
    apply congrArg Except.ok
    apply List.mergeSort_of_pairwise
    simpa using below

/-- Two peers with the same negative score: the one in a cold streak outranks the neutral one and
takes the whole budget. -/
theorem coldPeer_outranks :
    scoreSaga .dev (exactSaga (-1)) (twoPeers (-1)).embedding = .ok (num (-1)) ∧
      FloatLike.lt (coldEnv.factor (sampleMember 1, exactSaga (-1)))
        (coldEnv.factor (sampleMember 2, exactSaga (-1))) = true ∧
      (twoPeers (-1)).Ranks coldEnv [(sampleMember 1, num (-1 / 5)), (sampleMember 2, num (-1))] ∧
      (twoPeers (-1)).allocation Exact coldEnv = .ok [⟨sampleMember 1, 1⟩] ∧
      ¬ (twoPeers (-1)).Favours coldEnv (sampleMember 2, num (-1))
        (sampleMember 1, num (-1 / 5)) := by
  have square : (-1 : ℝ) * -1 = 1 := by norm_num
  have budget : (twoPeers (-1)).budget.maxRemoteRecords = 1 := rfl
  obtain ⟨allocation, computed, fair⟩ := ranks_opposed.spends (List.cons_ne_nil _ _) (by decide)
  have whole : allocation = [⟨sampleMember 1, 1⟩] := by
    have peers : allocation.map PeerAllocation.member = [sampleMember 1] := fair.peers
    obtain ⟨peer, rfl, isFirst⟩ := List.map_eq_singleton_iff.mp peers
    have sum := fair.spends
    rw [List.map_singleton, List.sum_singleton, budget] at sum
    obtain rfl : peer = ⟨sampleMember 1, 1⟩ := by
      rw [← isFirst, ← UInt32.toNat_inj.mp sum]
    rfl
  refine ⟨scoreSaga_exactSaga square, cold_lt_neutral (-1), ranks_opposed, whole ▸ computed, ?_⟩
  intro favours
  have above := lt_num.mp favours.score
  norm_num at above

end Hansa
