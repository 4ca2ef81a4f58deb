import Hansa.Verif.Budget
import Hansa.Verif.FanOut
import Hansa.Verif.FloatLaws
import Hansa.Verif.HandleInstance

/-!
# What aborts a query

A peer that fails to open or to answer is skipped, and its absence changes nothing for the
others. A query still depends on its peers in four places: a saga file that cannot be read
fails the construction, a centroid of the wrong length panics the scoring, a remote budget
close to the end of 32 bits overflows the first pass in a development build, and similarities
that are not numbers leave the final sort without an order.
-/

namespace Hansa

/-! ## Orders on hits and scores -/

/-- Two numbers are compared by their places, the larger first. -/
theorem descending_place {a b : Float32} {x y : FloatPlace} (atA : a.place = some x)
    (atB : b.place = some y) : descending a b = compare y x :=
  LawfulFloat.descending_place atA atB

/-- Descending order by a number is a total preorder on elements that have one. -/
theorem totalPreorderOn_descending {α : Type} {f : α → Float32} {xs : List α}
    (numbers : ∀ a ∈ xs, (f a).place.isSome) :
    TotalPreorderOn (fun a b => descending (f a) (f b)) xs :=
  LawfulFloat.totalPreorderOn_descending numbers

/-- Descending order is a total preorder exactly when there is no NaN, or when all numbers are
equal. -/
theorem totalPreorderOn_descending_iff {α : Type} {f : α → Float32} {xs : List α} :
    TotalPreorderOn (fun a b => descending (f a) (f b)) xs ↔
      (∀ a ∈ xs, (f a).place.isSome) ∨
        ∀ a ∈ xs, ∀ b ∈ xs, ∀ x y, (f a).place = some x → (f b).place = some y → x ≤ y :=
  LawfulFloat.totalPreorderOn_descending_iff

/-- Whether a comparator is consistent does not depend on the order of the elements. -/
theorem TotalPreorderOn.perm {α : Type} {cmp : α → α → Ordering} {xs ys : List α}
    (order : TotalPreorderOn cmp xs) (moved : ys.Perm xs) : TotalPreorderOn cmp ys where
  swap a inA b inB := order.swap a (moved.subset inA) b (moved.subset inB)
  trans a inA b inB c inC := order.trans a (moved.subset inA) b (moved.subset inB) c
    (moved.subset inC)

/-! ## Scoring -/

/-- Steps that return or panic, one after the other. -/
theorem mapM_returns_or_panics {α β : Type} {f : α → Result β} {xs : List α}
    (either : ∀ x ∈ xs, (∃ y, f x = .ok y) ∨ f x = .error .panic) :
    (∀ x ∈ xs, ∃ y, f x = .ok y) ∧ (∃ ys, xs.mapM f = .ok ys) ∨
      (∃ x ∈ xs, f x = .error .panic) ∧ xs.mapM f = .error .panic := by
  induction xs with
  | nil => exact .inl ⟨fun _ absent => (nomatch absent), [], rfl⟩
  | cons x xs ih =>
    rw [List.mapM_cons]
    rcases either x List.mem_cons_self with ⟨y, out⟩ | panics
    · rcases ih (fun x member => either x (List.mem_cons_of_mem _ member)) with
        ⟨all, ys, rest⟩ | ⟨⟨z, member, panics⟩, rest⟩
      · rw [out, rest]
        exact .inl ⟨List.forall_mem_cons.mpr ⟨⟨y, out⟩, all⟩, y :: ys, rfl⟩
      · rw [out, rest]
        exact .inr ⟨⟨z, List.mem_cons_of_mem _ member, panics⟩, rfl⟩
    · rw [panics]
      exact .inr ⟨⟨x, List.mem_cons_self, panics⟩, rfl⟩

variable {q : MembraneQuery Float32} {env : QueryEnv Float32}

/-- The centroids of every peer that is scored fit the query. -/
def MembraneQuery.Fits (q : MembraneQuery Float32) (profile : Profile) : Prop :=
  ∀ peer ∈ q.sagas, peer.1.tenantId ≠ q.localTenantId →
    ∀ c ∈ peer.2.centroids, c.Fits profile q.embedding.length

/-- One peer's score is computed when its centroids fit, and panics otherwise. -/
theorem biasedScore_eq (q : MembraneQuery Float32) (env : QueryEnv Float32)
    (peer : MemberRecord × Saga Float32) :
    (∀ c ∈ peer.2.centroids, c.Fits env.profile q.embedding.length) ∧
        (∃ score, q.biasedScore env peer = .ok score) ∨
      (¬ ∀ c ∈ peer.2.centroids, c.Fits env.profile q.embedding.length) ∧
        q.biasedScore env peer = .error .panic := by
  unfold MembraneQuery.biasedScore scoreSaga
  rcases bestScore_eq env.profile q.embedding (-FloatLike.infinity) peer.2.centroids with
    ⟨s, out, fits⟩ | ⟨out, misfit⟩
  · rw [out]
    exact .inl ⟨fits, _, rfl⟩
  · rw [out]
    exact .inr ⟨misfit, rfl⟩

/-- The peers are scored, with finite scores, when all centroids fit; otherwise scoring
panics. -/
theorem scored_eq (q : MembraneQuery Float32) (env : QueryEnv Float32) :
    q.Fits env.profile ∧ (∃ scored, q.scored env = .ok scored ∧
        ∀ peer ∈ scored, peer.2.place.isSome) ∨
      ¬ q.Fits env.profile ∧ q.scored env = .error .panic := by
  have either : ∀ peer ∈ q.sagas.filter fun peer => peer.1.tenantId ≠ q.localTenantId,
      (∃ score, q.biasedScore env peer = .ok score) ∨
        q.biasedScore env peer = .error .panic := by
    intro peer _
    rcases biasedScore_eq q env peer with ⟨_, out⟩ | ⟨_, out⟩
    · exact .inl out
    · exact .inr out
  unfold MembraneQuery.scored
  rcases mapM_returns_or_panics either with ⟨all, scores, out⟩ | ⟨⟨peer, member, panics⟩, out⟩
  · have fits : q.Fits env.profile := by
      intro peer member other
      obtain ⟨score, computed⟩ := all peer (List.mem_filter.mpr ⟨member, by simpa using other⟩)
      rcases biasedScore_eq q env peer with ⟨fits, _⟩ | ⟨_, panics⟩
      · exact fits
      · rw [panics] at computed
        cases computed
    rw [out]
    refine .inl ⟨fits, _, rfl, fun peer member => ?_⟩
    have finite := (List.mem_filter.mp member).2
    rw [Bool.and_eq_true] at finite
    exact Float32.isSome_place_of_isFinite finite.1
  · rw [out]
    refine .inr ⟨fun fits => ?_, rfl⟩
    obtain ⟨inside, other⟩ := List.mem_filter.mp member
    rcases biasedScore_eq q env peer with ⟨_, _, computed⟩ | ⟨misfit, _⟩
    · rw [panics] at computed
      cases computed
    · exact misfit (fits peer inside (by simpa using other))

/-! ## Allocation -/

/-- The scored peers in descending order. -/
def ranked (scored : List (MemberRecord × Float32)) : List (MemberRecord × Float32) :=
  sortStably (fun a b => descending a.2 b.2) scored

/-- In a development build, the first pass over the best peers can be summed on 32 bits. -/
def MembraneQuery.Spends (q : MembraneQuery Float32) (env : QueryEnv Float32) : Prop :=
  env.profile = .dev → q.budget.maxRemoteRecords ≠ 0 → ∀ scored, q.scored env = .ok scored →
    FirstPassFits Float (ranked scored) q.budget.maxRemoteRecords 1 defaultMaxPeers

/-- Scores are sorted by any implementation in the same way. -/
theorem allocation_eq {scored : List (MemberRecord × Float32)} (out : q.scored env = .ok scored)
    (numbers : ∀ peer ∈ scored, peer.2.place.isSome) :
    q.allocation Float env = proportionalAllocation Float env.profile (ranked scored)
      q.budget.maxRemoteRecords 1 defaultMaxPeers := by
  have sorted : env.sort.sortBy (fun a b => descending a.2 b.2) scored = .ok (ranked scored) :=
    env.sort.stable _ _ (totalPreorderOn_descending numbers)
  rw [MembraneQuery.allocation, out]
  simp only [bind, Except.bind, sorted]

/-- Peers are allocated a budget when their centroids fit and the first pass does. -/
theorem allocation_returns_iff (q : MembraneQuery Float32) (env : QueryEnv Float32) :
    (∃ allocation, q.allocation Float env = .ok allocation) ↔
      q.Fits env.profile ∧ q.Spends env := by
  rcases scored_eq q env with ⟨fits, scored, out, numbers⟩ | ⟨misfit, out⟩
  · rw [allocation_eq out numbers, and_iff_right fits]
    constructor
    · rintro ⟨allocation, computed⟩ dev nonzero scored' out'
      obtain rfl := Except.ok.inj (out.symm.trans out')
      by_contra beyond
      have filled : ranked scored ≠ [] := by
        intro empty
        rw [empty] at beyond
        exact beyond (by simp [FirstPassFits, firstPass, shiftScores, totalOf])
      rw [dev, proportionalAllocation_panics (by
        rintro (empty | zero | none_)
        · exact filled empty
        · exact nonzero zero
        · cases none_) beyond] at computed
      cases computed
    · intro spends
      by_cases zero : q.budget.maxRemoteRecords = 0
      · exact ⟨[], if_pos (.inr (.inl zero))⟩
      · exact proportionalAllocation_ok env.profile (fun dev => spends dev zero scored out)
  · constructor
    · rintro ⟨allocation, computed⟩
      rw [MembraneQuery.allocation, out] at computed
      cases computed
    · exact fun both => absurd both.1 misfit

/-! ## Execution -/

/-- The hits of the peers that received a budget and answered in time. -/
def MembraneQuery.answersTo (q : MembraneQuery Float32) (env : QueryEnv Float32)
    (allocation : List PeerAllocation) : List (MembraneHit Float32) :=
  ((spawn env.schedule q.peerOpener q.embedding allocation).filter
    (Worker.inTime q.deadline)).flatMap Worker.hits

/-- The hits of the peers of a query that received a budget and answered in time. -/
def MembraneQuery.answered (q : MembraneQuery Float32) (env : QueryEnv Float32) :
    List (MembraneHit Float32) :=
  if q.localOnly then []
  else match q.allocation Float env with
    | .ok allocation => q.answersTo env allocation
    | .error _ => []

/-- A query returns, and before the cut to the budget it has merged exactly the local hits and
the hits of the peers that answered. -/
structure MembraneQuery.Completes (q : MembraneQuery Float32) (env : QueryEnv Float32)
    (hits : List (MembraneHit Float32)) : Prop where
  /-- Nothing is lost in the merge. -/
  merges : ∃ merged, q.merge Float env collectSync = .ok merged ∧
    merged.hits.Perm (hits ++ q.answered env)
  /-- The call returns. -/
  returns : ∃ out, q.executeWithStats Float env = .ok out

/-- The hits can be put in an order by their similarities. -/
def Comparable (hits : List (MembraneHit Float32)) : Prop :=
  TotalPreorderOn (fun a b => descending a.similarity b.similarity) hits

/-- Hits are comparable exactly when no similarity is NaN, or when those that are numbers are
equal. -/
theorem comparable_iff {hits : List (MembraneHit Float32)} : Comparable hits ↔
    (∀ h ∈ hits, h.similarity.place.isSome) ∨ ∀ h ∈ hits, ∀ h' ∈ hits, ∀ x y,
      h.similarity.place = some x → h'.similarity.place = some y → x ≤ y :=
  totalPreorderOn_descending_iff

/-- What a fan-out needs of the peers: centroids that fit, slots that can be summed, and
similarities that can be ordered. -/
structure MembraneQuery.Answerable (q : MembraneQuery Float32) (env : QueryEnv Float32)
    (hits : List (MembraneHit Float32)) : Prop where
  /-- Every centroid can be scored. -/
  fits : q.Fits env.profile
  /-- The first pass can be summed. -/
  spends : q.Spends env
  /-- The hits to merge can be ordered. -/
  comparable : ∀ allocation, q.allocation Float env = .ok allocation →
    Comparable (hits ++ q.answersTo env allocation)

/-- No peer panics while it is opened or queried. -/
def PeersReturn (opener : PeerOpener Float32) (embedding : List Float32) : Prop :=
  ∀ member budget, openAndQuery opener embedding member budget ≠ .error .panic

/-- Workers of peers that do not panic deliver. -/
theorem spawn_delivers {schedule : Schedule Float32} {opener : PeerOpener Float32}
    {embedding : List Float32} (peers : PeersReturn opener embedding)
    (allocation : List PeerAllocation) :
    ∀ w ∈ spawn schedule opener embedding allocation, w.batch.isSome := by
  intro w member
  obtain ⟨peer, _, rfl⟩ := List.mem_map.mp member
  have quiet := peers peer.1.member peer.1.budget
  show (workerBatch (openAndQuery opener embedding peer.1.member peer.1.budget)).isSome
  cases answer : openAndQuery opener embedding peer.1.member peer.1.budget with
  | ok hits => rfl
  | error fault =>
    cases fault with
    | err e => rfl
    | panic => exact absurd answer quiet

/-- Executing cuts what the merge leaves. -/
theorem executeWithStats_returns_iff :
    (∃ out, q.executeWithStats Float env = .ok out) ↔
      ∃ merged, q.merge Float env collectSync = .ok merged := by
  unfold MembraneQuery.executeWithStats
  cases q.merge Float env collectSync with
  | ok merged => exact ⟨fun _ => ⟨merged, rfl⟩, fun _ => ⟨_, rfl⟩⟩
  | error fault =>
    constructor
    · rintro ⟨_, out⟩
      cases out
    · rintro ⟨_, out⟩
      cases out

/-- A local query merges the local hits. -/
theorem merge_localOnly (env : QueryEnv Float32) {hits : List (Hit Float32)}
    (stays : q.localOnly = true)
    (searched : q.localTenant.queryFiltered q.embedding q.topK acceptAll = .ok hits) :
    q.merge Float env collectSync =
      .ok ⟨hits.map (Hit.toMembrane .local), ⟨0, 0, 0⟩, env.manifests⟩ := by
  simp only [MembraneQuery.merge, MembraneQuery.localHits, searched, stays, bind, Except.bind,
    if_true]

/-- What the fan-out of an allocation leaves. -/
def MembraneQuery.gathered (q : MembraneQuery Float32) (env : QueryEnv Float32)
    (allocation : List PeerAllocation) : Gathered Float32 :=
  gather collectSync env.schedule q.deadline
    (spawn env.schedule q.peerOpener q.embedding allocation)

/-- A query with a fan-out sorts the local hits and the gathered ones. -/
theorem merge_fanOut (env : QueryEnv Float32) {hits : List (Hit Float32)}
    {allocation : List PeerAllocation} (leaves : q.localOnly = false)
    (searched : q.localTenant.queryFiltered q.embedding q.topK acceptAll = .ok hits)
    (allocated : q.allocation Float env = .ok allocation) :
    q.merge Float env collectSync =
      (env.sort.sortBy (fun a b => descending a.similarity b.similarity)
        (hits.map (Hit.toMembrane .local) ++ (q.gathered env allocation).hits)).map fun all =>
          ⟨all, (q.gathered env allocation).stats,
            bumpTotals env.manifests (q.gathered env allocation).hits⟩ := by
  simp only [MembraneQuery.merge, MembraneQuery.localHits, searched, leaves, allocated, bind,
    Except.bind, Bool.false_eq_true, if_false]
  rfl

/-- A query whose budget cannot be allocated does not return. -/
theorem allocated_of_merge {merged : Merged Float32} (leaves : q.localOnly = false)
    {hits : List (Hit Float32)}
    (searched : q.localTenant.queryFiltered q.embedding q.topK acceptAll = .ok hits)
    (out : q.merge Float env collectSync = .ok merged) :
    ∃ allocation, q.allocation Float env = .ok allocation := by
  cases allocated : q.allocation Float env with
  | ok allocation => exact ⟨allocation, rfl⟩
  | error fault =>
    simp only [MembraneQuery.merge, MembraneQuery.localHits, searched, leaves, allocated, bind,
      Except.bind, Bool.false_eq_true, if_false] at out
    cases out

/-- The fan-out gathers the hits of the peers that answered. -/
theorem gathered_perm (env : QueryEnv Float32) (peers : PeersReturn q.peerOpener q.embedding)
    (allocation : List PeerAllocation) :
    (q.gathered env allocation).hits.Perm (q.answersTo env allocation) :=
  (collectSync_reports env.schedule q.deadline (spawn_delivers peers allocation)).merged

/-- The allocation does not depend on the implementation of the sort. -/
theorem allocation_sort (q : MembraneQuery Float32) (env : QueryEnv Float32) (sort : StdSort) :
    q.allocation Float { env with sort } = q.allocation Float env := by
  have same : q.scored { env with sort } = q.scored env := rfl
  rcases scored_eq q env with ⟨_, scored, out, numbers⟩ | ⟨_, out⟩
  · rw [allocation_eq out numbers, allocation_eq (same.trans out) numbers]
  · rw [MembraneQuery.allocation, MembraneQuery.allocation, same, out]
    rfl

/-- A query that stays local completes. -/
theorem completes_localOnly {hits : List (Hit Float32)} (stays : q.localOnly = true)
    (searched : q.localTenant.queryFiltered q.embedding q.topK acceptAll = .ok hits) :
    q.Completes env (hits.map (Hit.toMembrane .local)) := by
  have merges := merge_localOnly env stays searched
  refine ⟨⟨_, merges, ?_⟩, executeWithStats_returns_iff.mpr ⟨_, merges⟩⟩
  rw [MembraneQuery.answered, if_pos stays, List.append_nil]

/-- A query whose peers are answerable completes, under every implementation of the sort. -/
theorem MembraneQuery.Answerable.completes {hits : List (Hit Float32)}
    (answerable : q.Answerable env (hits.map (Hit.toMembrane .local)))
    (peers : PeersReturn q.peerOpener q.embedding) (leaves : q.localOnly = false)
    (searched : q.localTenant.queryFiltered q.embedding q.topK acceptAll = .ok hits)
    (sort : StdSort) : q.Completes { env with sort } (hits.map (Hit.toMembrane .local)) := by
  obtain ⟨allocation, allocated⟩ :=
    (allocation_returns_iff q env).mpr ⟨answerable.fits, answerable.spends⟩
  have same : q.gathered { env with sort } allocation = q.gathered env allocation := rfl
  have moved := (gathered_perm env peers allocation).append_left
    (hits.map (Hit.toMembrane .local))
  have order := (answerable.comparable allocation allocated).perm moved
  have merges := merge_fanOut { env with sort } leaves searched
    ((allocation_sort q env sort).trans allocated)
  rw [same, sort.stable _ _ order] at merges
  have answered : q.answered { env with sort } = q.answersTo env allocation := by
    rw [MembraneQuery.answered, leaves, allocation_sort, allocated]
    rfl
  refine ⟨⟨_, merges, ?_⟩, executeWithStats_returns_iff.mpr ⟨_, merges⟩⟩
  rw [answered]
  exact (List.mergeSort_perm _ _).trans moved

/-- A query that completes under the implementation of the sort that panics whenever it may has
answerable peers. -/
theorem answerable_of_completes {hits : List (Hit Float32)}
    (peers : PeersReturn q.peerOpener q.embedding) (leaves : q.localOnly = false)
    (searched : q.localTenant.queryFiltered q.embedding q.topK acceptAll = .ok hits)
    (completes : q.Completes { env with sort := .strict } (hits.map (Hit.toMembrane .local))) :
    q.Answerable env (hits.map (Hit.toMembrane .local)) := by
  obtain ⟨merged, out, _⟩ := completes.merges
  obtain ⟨allocation, allocated⟩ := allocated_of_merge leaves searched out
  rw [merge_fanOut _ leaves searched allocated] at out
  rw [allocation_sort] at allocated
  have ⟨fits, spends⟩ := (allocation_returns_iff q env).mp ⟨allocation, allocated⟩
  have same : q.gathered { env with sort := .strict } allocation = q.gathered env allocation := rfl
  rw [same] at out
  refine ⟨fits, spends, fun allocation' allocated' => ?_⟩
  obtain rfl := Except.ok.inj (allocated.symm.trans allocated')
  cases sorted : StdSort.strict.sortBy (fun a b => descending a.similarity b.similarity)
    (hits.map (Hit.toMembrane .local) ++ (q.gathered env allocation).hits) with
  | ok all =>
    have order := StdSort.strict_returns sorted
    exact order.perm ((gathered_perm env peers allocation).symm.append_left _)
  | error fault =>
    rw [sorted] at out
    cases out

/-- A query completes under every implementation of the sort if and only if it stays local or
its peers are answerable. -/
theorem completes_iff (q : MembraneQuery Float32) (env : QueryEnv Float32)
    {hits : List (Hit Float32)} (peers : PeersReturn q.peerOpener q.embedding)
    (searched : q.localTenant.queryFiltered q.embedding q.topK acceptAll = .ok hits) :
    (∀ sort, q.Completes { env with sort } (hits.map (Hit.toMembrane .local))) ↔
      (q.localOnly = false → q.Answerable env (hits.map (Hit.toMembrane .local))) := by
  constructor
  · intro completes leaves
    exact answerable_of_completes peers leaves searched (completes .strict)
  · intro answerable sort
    cases stays : q.localOnly with
    | true => exact completes_localOnly stays searched
    | false => exact (answerable stays).completes peers stays searched sort

/-! ## One bad peer -/

section Peers

variable {c : Build} {json : LinkJson} {h : Handle Float32} {disk : Disk Float32}

/-- A query that was built and configured completes, under every implementation of the sort,
if and only if no saga of another member is unreadable and, unless it stays local, its peers
are answerable. -/
theorem query_completes_iff (embedding : List Float32) (settings : QuerySettings Float32)
    (env : QueryEnv Float32) {ms : List MemberRecord} {hits : List (Hit Float32)}
    (listed : (h.members c json).run disk = .ok ms disk)
    (searched : h.localTenant.queryFiltered embedding settings.topK acceptAll = .ok hits)
    (peers : PeersReturn (h.peerOpener.getD Handle.placeholderOpener) embedding) :
    (∃ q, (h.query c json embedding).run disk = .ok q disk ∧ ∀ sort,
        (q.configured settings).Completes { env with sort } (hits.map (Hit.toMembrane .local))) ↔
      (∀ m ∈ h.others ms, ¬ disk.Unreadable m) ∧
        let q := (h.builtQuery disk h.peerOpener embedding ms).configured settings
        q.localOnly = false → q.Answerable env (hits.map (Hit.toMembrane .local)) := by
  have completes := completes_iff
    ((h.builtQuery disk h.peerOpener embedding ms).configured settings) env peers searched
  rcases h.run_queryWith h.peerOpener embedding listed with
    ⟨readable, built⟩ | ⟨⟨m, member, corrupt⟩, e, refused⟩
  · rw [and_iff_right readable, ← completes]
    constructor
    · rintro ⟨q, out, all⟩ sort
      have same := (EStateM.Result.ok.inj (built.symm.trans out)).1
      rw [same]
      exact all sort
    · exact fun all => ⟨_, built, all⟩
  · constructor
    · rintro ⟨q, out, _⟩
      have none_ := refused.symm.trans out
      cases none_
    · exact fun both => absurd corrupt (both.1 m member)

end Peers

/-- What a sample query depends on: a release build, and workers that finish at their index. -/
def sampleEnv : QueryEnv Float32 where
  profile := .release
  now := 0
  sort := .lenient
  schedule := .byFinish id
  manifests := fun _ => none

/-- The builder methods of a query called with its defaults. -/
def sampleSettings : QuerySettings Float32 where
  topK := 10
  budget := .default
  minSimilarity := -FloatLike.infinity
  localOnly := false
  deadline := none

/-- A saga of one centroid. -/
def sampleSaga (vector : List Float32) : Saga Float32 where
  tenantId := sampleTenant 7
  builtAt := 0
  recordCount := 1
  embeddingDim := 3
  centroids := [⟨1, vector⟩]
  tags := []

/-- A peer that has a saga and cannot be opened does not abort a query. -/
theorem query_completes_sample :
    let h := { sampleHandle with peerOpener := some Handle.placeholderOpener }
    let disk := { sampleDisk (some (rosterLog 1)) with
      sagas := fun _ => some (.ok (sampleSaga [1, 0, 0])) }
    ∃ q, (h.query sampleBuild sampleJson [1, 0, 0]).run disk = .ok q disk ∧ ∀ sort,
      (q.configured sampleSettings).Completes { sampleEnv with sort } [] := by
  intro h disk
  have quiet : PeersReturn (h.peerOpener.getD Handle.placeholderOpener) [1, 0, 0] := by
    intro member budget out
    cases out
  have silent : ∀ (q : MembraneQuery Float32) allocation,
      q.peerOpener = Handle.placeholderOpener → q.answersTo sampleEnv allocation = [] := by
    intro q allocation opener
    refine List.flatMap_eq_nil_iff.mpr fun w member => ?_
    obtain ⟨peer, _, rfl⟩ := List.mem_map.mp (List.mem_filter.mp member).1
    rw [opener]
    rfl
  have searched : h.localTenant.queryFiltered [1, 0, 0] sampleSettings.topK acceptAll = .ok [] :=
    rfl
  refine (query_completes_iff [1, 0, 0] sampleSettings sampleEnv
    (run_members_rosterLog 1 h rfl) searched quiet).mpr ⟨?_, fun _ => ⟨?_, ?_, ?_⟩⟩
  · rintro m _ ⟨e, unreadable⟩
    cases unreadable
  · intro peer member _ centroid part
    obtain ⟨m, _, file⟩ := List.mem_filterMap.mp member
    obtain rfl := Option.some.inj (show some (m, sampleSaga [1, 0, 0]) = some peer from file)
    obtain rfl := List.mem_singleton.mp part
    exact le_refl 3
  · intro dev
    cases dev
  · intro allocation _
    rw [silent _ allocation rfl]
    exact ⟨fun _ absent => (nomatch absent), fun _ absent => (nomatch absent)⟩

/-- A peer's saga file that cannot be read fails the query of a member with the right log. -/
theorem corrupt_saga_aborts_query :
    ¬ ∀ (c : Build) (json : LinkJson) (h : Handle Float32) (disk : Disk Float32)
      (embedding : List Float32) (settings : QuerySettings Float32) (env : QueryEnv Float32)
      (ms : List MemberRecord) (hits : List (Hit Float32)),
      (h.members c json).run disk = .ok ms disk →
      embedding.length = h.localTenant.embeddingDim.toNat →
      h.localTenant.queryFiltered embedding settings.topK acceptAll = .ok hits →
      PeersReturn (h.peerOpener.getD Handle.placeholderOpener) embedding →
      ∃ q, (h.query c json embedding).run disk = .ok q disk ∧ ∀ sort,
        (q.configured settings).Completes { env with sort }
          (hits.map (Hit.toMembrane .local)) := by
  intro claim
  set disk : Disk Float32 :=
    { sampleDisk (some (rosterLog 1)) with sagas := fun _ => some (.error "bad magic") }
  have listed : (sampleHandle.members sampleBuild sampleJson).run disk =
      .ok [sampleMember 7] disk := run_members_rosterLog 1 _ rfl
  have quiet : PeersReturn (sampleHandle.peerOpener.getD Handle.placeholderOpener) [1, 0, 0] := by
    intro member budget out
    cases out
  obtain ⟨q, built, _⟩ := claim sampleBuild sampleJson sampleHandle disk [1, 0, 0] sampleSettings
    sampleEnv _ [] listed rfl rfl quiet
  rcases sampleHandle.run_queryWith sampleHandle.peerOpener [1, 0, 0] listed with
    ⟨readable, _⟩ | ⟨_, e, refused⟩
  · exact readable (sampleMember 7) (by decide) ⟨_, rfl⟩
  · have none_ := refused.symm.trans built
    cases none_

end Hansa
