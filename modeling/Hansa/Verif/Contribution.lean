import Mathlib.Data.List.TakeWhile
import Hansa.Library.StateErrors
import Hansa.Verif.Budget
import Hansa.Verif.FanOut

/-!
# What each peer contributes

Both paths of a query merge the local hits and the batches of those peers whose workers they
receive: of all in time on the synchronous path, of those before the first late one on the
asynchronous path. What is merged from a peer is what its view answered, whatever that is.
-/

namespace Hansa

variable {F : Type}

/-- The two paths of a query. -/
inductive Path where
  /-- `MembraneQuery`. -/
  | sync
  /-- `MembraneQueryAsync`. -/
  | async

namespace Path

/-- How a path collects. -/
def collect : Path → Schedule F → Option Nat → List (Worker F) → Collected F
  | sync => collectSync
  | async => collectAsync

/-- Of what was spawned, what a path receives. -/
def received {α : Type} (path : Path) (inTime : α → Bool) (spawned : List α) : List α :=
  match path with
  | sync => spawned.filter inTime
  | async => spawned.takeWhile inTime

/-- Receiving keeps the order. -/
theorem received_sublist {α : Type} (path : Path) (inTime : α → Bool) (spawned : List α) :
    (path.received inTime spawned).Sublist spawned := by
  cases path with
  | sync => exact List.filter_sublist
  | async => exact List.takeWhile_sublist _

/-- What is received of mapped elements. -/
theorem received_map {α β : Type} (path : Path) (inTime : β → Bool) (f : α → β)
    (spawned : List α) :
    path.received inTime (spawned.map f) = (path.received (inTime ∘ f) spawned).map f := by
  cases path with
  | sync => exact List.filter_map
  | async => exact List.takeWhile_map

/-- Without a deadline everything is received. -/
theorem received_all {α : Type} (path : Path) {inTime : α → Bool} {spawned : List α}
    (all : ∀ a ∈ spawned, inTime a = true) : path.received inTime spawned = spawned := by
  cases path with
  | sync => exact List.filter_eq_self.mpr all
  | async => exact List.takeWhile_eq_self_iff.mpr all

/-- A path merges the hits of the workers it receives. -/
theorem collect_hits (path : Path) (schedule : Schedule F) (deadline : Option Nat)
    (workers : List (Worker F)) : (path.collect schedule deadline workers).hits.Perm
      ((path.received (Worker.inTime deadline) workers).flatMap Worker.hits) := by
  cases path with
  | sync => exact collectSync_hits schedule deadline workers
  | async => exact .of_eq (collectAsync_hits schedule deadline workers)

end Path

/-! ## The peers that were asked -/

variable {q : MembraneQuery F} {env : QueryEnv F} {path : Path}

namespace MembraneQuery

/-- What is merged from one peer, once its worker is received. -/
def answer (q : MembraneQuery F) (peer : PeerAllocation) : List (MembraneHit F) :=
  (workerBatch (openAndQuery q.peerOpener q.embedding peer.member peer.budget)).getD []

/-- The peers of an allocation whose workers are received. -/
def heard (q : MembraneQuery F) (env : QueryEnv F) (path : Path)
    (allocation : List PeerAllocation) : List PeerAllocation :=
  (path.received (fun peer => q.deadline.all (env.schedule.finish peer.2 < ·))
    allocation.zipIdx).map Prod.fst

end MembraneQuery

/-- The peers that are heard were allocated a budget, and are heard in its order. -/
theorem heard_sublist (allocation : List PeerAllocation) :
    (q.heard env path allocation).Sublist allocation := by
  have sublist := (path.received_sublist
    (fun peer => q.deadline.all (env.schedule.finish peer.2 < ·)) allocation.zipIdx).map Prod.fst
  rwa [List.zipIdx_map_fst] at sublist

/-- Without a deadline every peer of the allocation is heard. -/
theorem heard_all (patient : q.deadline = none) (allocation : List PeerAllocation) :
    q.heard env path allocation = allocation := by
  rw [MembraneQuery.heard, path.received_all, List.zipIdx_map_fst]
  intro peer _
  rw [patient]
  rfl

/-- The fan-out of an allocation merges the answers of the peers that are heard. -/
theorem collect_spawn (allocation : List PeerAllocation) :
    (path.collect env.schedule q.deadline
      (spawn env.schedule q.peerOpener q.embedding allocation)).hits.Perm
        ((q.heard env path allocation).flatMap q.answer) := by
  have merged := path.collect_hits env.schedule q.deadline
    (spawn env.schedule q.peerOpener q.embedding allocation)
  rw [spawn, Path.received_map, List.flatMap_map] at merged
  rw [MembraneQuery.heard, List.flatMap_map]
  exact merged

/-- A view that answers contributes its hits, under the id it reports. -/
theorem answer_view {peer : PeerAllocation} {view : ReadOnlyView F} {hits : List (Hit F)}
    (opened : q.peerOpener peer.member.tenantId peer.member.tenantLocation = .ok view)
    (answered : view.queryFiltered q.embedding peer.budget shareableOnly = .ok hits) :
    q.answer peer = hits.map (Hit.toMembrane (.remote view.tenantId)) := by
  simp only [MembraneQuery.answer, openAndQuery, opened, answered, bind, Except.bind, workerBatch,
    Option.getD_some]

/-- A peer that contributes has a view that answered. -/
theorem view_of_answer {peer : PeerAllocation} {h : MembraneHit F} (member : h ∈ q.answer peer) :
    ∃ view hits, q.peerOpener peer.member.tenantId peer.member.tenantLocation = .ok view ∧
      view.queryFiltered q.embedding peer.budget shareableOnly = .ok hits := by
  cases opened : q.peerOpener peer.member.tenantId peer.member.tenantLocation with
  | error fault =>
    simp only [MembraneQuery.answer, openAndQuery, opened, bind, Except.bind] at member
    cases fault <;> cases member
  | ok view =>
    cases answered : view.queryFiltered q.embedding peer.budget shareableOnly with
    | error fault =>
      simp only [MembraneQuery.answer, openAndQuery, opened, answered, bind, Except.bind] at member
      cases fault <;> cases member
    | ok hits => exact ⟨view, hits, rfl, answered⟩

/-- Everything a peer contributes is a remote hit. -/
theorem remote_of_answer {peer : PeerAllocation} {h : MembraneHit F}
    (member : h ∈ q.answer peer) : h.origin ≠ .local := by
  obtain ⟨view, hits, opened, answered⟩ := view_of_answer member
  rw [answer_view opened answered] at member
  obtain ⟨_, -, rfl⟩ := List.mem_map.mp member
  exact fun is => by cases is

/-! ## The merge -/

/-- The remote hits among those that were merged. -/
def Merged.remote (merged : Merged F) : List (MembraneHit F) :=
  merged.hits.filter (fun h => h.origin ≠ .local)

variable {D : Type} [FloatLike F] [FloatLike D] [Widen F D]

/-- The final merge of a query: local hits before remote ones, by similarity. -/
def finalMerge (sort : StdSort) (localHits remote : List (MembraneHit F)) :
    Result (List (MembraneHit F)) :=
  sort.sortBy (fun a b => descending a.similarity b.similarity) (localHits ++ remote)

/-- A query that fans out ends with the final merge. -/
theorem MembraneQuery.merge_eq_finalMerge
    {collect : Schedule F → Option Nat → List (Worker F) → Collected F}
    {localHits : List (MembraneHit F)} {allocation : List PeerAllocation}
    (fansOut : q.localOnly = false) (answered : q.localHits = .ok localHits)
    (allocated : q.allocation D env = .ok allocation) :
    let remote := gather collect env.schedule q.deadline
      (spawn env.schedule q.peerOpener q.embedding allocation)
    q.merge D env collect = (finalMerge env.sort localHits remote.hits).map fun all =>
      ⟨all, remote.stats, bumpTotals env.manifests remote.hits⟩ := by
  dsimp only
  rw [merge, answered]
  simp only [bind, Except.bind, fansOut, Bool.false_eq_true, if_false, allocated]
  rw [finalMerge]
  cases env.sort.sortBy _ _ <;> rfl

/-- The peers that a query merges the answers of. -/
def MembraneQuery.asked (D : Type) [FloatLike D] [Widen F D] (q : MembraneQuery F)
    (env : QueryEnv F) (path : Path) : List PeerAllocation :=
  if q.localOnly then []
  else match q.allocation D env with
    | .ok allocation => q.heard env path allocation
    | .error _ => []

/-- Without a deadline every peer of the allocation is asked. -/
theorem asked_all {allocation : List PeerAllocation} (leaves : q.localOnly = false)
    (patient : q.deadline = none) (allocated : q.allocation D env = .ok allocation) :
    q.asked D env path = allocation := by
  rw [MembraneQuery.asked, if_neg (by simp [leaves]), allocated]
  exact heard_all patient allocation

/-- What steps return comes from one of the steps. -/
theorem mem_of_mapM {α β : Type} {f : α → Result β} {xs : List α} {ys : List β}
    (out : xs.mapM f = .ok ys) {y : β} (member : y ∈ ys) : ∃ x ∈ xs, f x = .ok y := by
  induction xs generalizing ys with
  | nil =>
    obtain rfl := Except.ok.inj out
    cases member
  | cons x xs ih =>
    rw [List.mapM_cons] at out
    obtain ⟨z, first, out⟩ := Except.bind_eq_ok.mp out
    obtain ⟨zs, rest, out⟩ := Except.bind_eq_ok.mp out
    obtain rfl := Except.ok.inj out
    rcases List.mem_cons.mp member with rfl | later
    · exact ⟨x, List.mem_cons_self, first⟩
    · obtain ⟨x', inside, computed⟩ := ih rest later
      exact ⟨x', List.mem_cons_of_mem _ inside, computed⟩

/-- A scored peer has a saga, and is not the local tenant. -/
theorem saga_of_scored {scored : List (MemberRecord × F)} (out : q.scored env = .ok scored)
    {peer : MemberRecord × F} (member : peer ∈ scored) :
    peer.1.tenantId ≠ q.localTenantId ∧ ∃ saga, (peer.1, saga) ∈ q.sagas := by
  obtain ⟨scores, computed, out⟩ := Except.bind_eq_ok.mp out
  obtain rfl := Except.ok.inj out
  obtain ⟨source, inside, isScore⟩ := mem_of_mapM computed (List.mem_of_mem_filter member)
  obtain ⟨known, other⟩ := List.mem_filter.mp inside
  obtain ⟨base, -, isScore⟩ := Except.bind_eq_ok.mp isScore
  obtain rfl := Except.ok.inj isScore
  exact ⟨by simpa using other, source.2, known⟩

/-- Only scored peers are allocated a budget. -/
theorem scored_of_allocated {profile : Profile} {scored : List (MemberRecord × F)}
    {total minPerPeer : UInt32} {maxPeers : Nat} {allocation : List PeerAllocation}
    (out : proportionalAllocation D profile scored total minPerPeer maxPeers = .ok allocation)
    {peer : PeerAllocation} (member : peer ∈ allocation) :
    ∃ score, (peer.member, score) ∈ scored := by
  rw [proportionalAllocation] at out
  split at out
  · obtain rfl := Except.ok.inj out
    cases member
  · obtain ⟨spent, -, out⟩ := Except.bind_eq_ok.mp out
    obtain ⟨trimmed, -, out⟩ := Except.bind_eq_ok.mp out
    obtain ⟨slots, -, out⟩ := Except.bind_eq_ok.mp out
    obtain rfl := Except.ok.inj out
    rw [← List.map_uncurry_zip_eq_zipWith] at member
    obtain ⟨⟨source, budget⟩, inside, rfl⟩ := List.mem_map.mp member
    exact ⟨source.2, List.mem_of_mem_take (List.of_mem_zip inside).1⟩

/-- A peer that was asked has a saga, and is not the local tenant. -/
theorem saga_of_asked {peer : PeerAllocation} (asked : peer ∈ q.asked D env path) :
    peer.member.tenantId ≠ q.localTenantId ∧ ∃ saga, (peer.member, saga) ∈ q.sagas := by
  rw [MembraneQuery.asked] at asked
  split at asked
  · cases asked
  · cases allocated : q.allocation D env with
    | error fault =>
      rw [allocated] at asked
      cases asked
    | ok allocation =>
      rw [allocated] at asked
      have member := (heard_sublist allocation).subset asked
      obtain ⟨scored, out, rest⟩ := Except.bind_eq_ok.mp allocated
      obtain ⟨ranked, sorted, computed⟩ := Except.bind_eq_ok.mp rest
      obtain ⟨score, known⟩ := scored_of_allocated computed member
      exact saga_of_scored out ((StdSort.perm_of_sortBy sorted).subset known)

/-- A query that merged has searched the local tenant; it stayed local, or it sorted the local
hits and the answers of the peers it asked, and counted these in the manifests. -/
theorem merge_ok {merged : Merged F} (out : q.merge D env path.collect = .ok merged) :
    ∃ hits remote, q.localTenant.queryFiltered q.embedding q.topK acceptAll = .ok hits ∧
      remote.Perm ((q.asked D env path).flatMap q.answer) ∧
      merged.hits.Perm (hits.map (Hit.toMembrane .local) ++ remote) ∧
      merged.manifests = bumpTotals env.manifests remote ∧
      (q.localOnly = false → env.sort.sortBy (fun a b => descending a.similarity b.similarity)
        (hits.map (Hit.toMembrane .local) ++ remote) = .ok merged.hits) := by
  obtain ⟨locals, searched, out⟩ := Except.bind_eq_ok.mp out
  obtain ⟨hits, found, isLocals⟩ := Except.bind_eq_ok.mp searched
  obtain rfl := Except.ok.inj isLocals
  cases stays : q.localOnly with
  | true =>
    rw [if_pos stays] at out
    obtain rfl := Except.ok.inj out
    refine ⟨hits, [], found, ?_, ?_, rfl, fun leaves => by cases leaves⟩
    · rw [MembraneQuery.asked, if_pos stays]
      exact .refl _
    · rw [List.append_nil]
  | false =>
    rw [if_neg (by simp [stays])] at out
    obtain ⟨allocation, allocated, out⟩ := Except.bind_eq_ok.mp out
    obtain ⟨all, sorted, out⟩ := Except.bind_eq_ok.mp out
    obtain rfl := Except.ok.inj out
    have asked : q.asked D env path = q.heard env path allocation := by
      rw [MembraneQuery.asked, if_neg (by simp [stays]), allocated]
    exact ⟨hits, _, found, asked ▸ collect_spawn allocation, StdSort.perm_of_sortBy sorted,
      rfl, fun _ => sorted⟩

/-- The remote hits that were merged are the answers of the peers that were asked. -/
theorem remote_perm {merged : Merged F} (out : q.merge D env path.collect = .ok merged) :
    merged.remote.Perm ((q.asked D env path).flatMap q.answer) := by
  obtain ⟨hits, remote, -, answers, whole, -, -⟩ := merge_ok out
  have isRemote : ∀ h ∈ remote, decide (h.origin ≠ .local) = true := by
    intro h member
    obtain ⟨peer, -, inside⟩ := List.mem_flatMap.mp (answers.subset member)
    exact decide_eq_true (remote_of_answer inside)
  have isLocal : (hits.map (Hit.toMembrane .local)).filter (fun h => h.origin ≠ .local) = [] := by
    refine List.filter_eq_nil_iff.mpr fun h member => ?_
    obtain ⟨_, -, rfl⟩ := List.mem_map.mp member
    simp [Hit.toMembrane]
  have parts := whole.filter (fun h => decide (h.origin ≠ .local))
  rw [List.filter_append, isLocal, List.nil_append, List.filter_eq_self.mpr isRemote] at parts
  exact parts.trans answers

end Hansa
