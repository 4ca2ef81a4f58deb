import Mathlib.Algebra.Order.BigOperators.Group.List
import Hansa.Verif.MembraneInstance

/-!
# The cap on remote records

The remote budget is split over the peers, and each worker asks its view for that many
records; what the view answers is merged as it is. So the cap holds exactly when no view
answers with more than it was asked for: the slots of the allocation add up to at most the
remote budget. A release build can allocate more than that only where the first pass of the
allocation does not fit in 32 bits.
-/

namespace Hansa

variable {F : Type} {q : MembraneQuery F}

/-- Peers that keep to their budgets contribute no more than these. -/
theorem length_answers_le {peers : List PeerAllocation}
    (each : ∀ peer ∈ peers, (q.answer peer).length ≤ peer.budget.toNat) :
    (peers.flatMap q.answer).length ≤ (peers.map fun peer => peer.budget.toNat).sum := by
  rw [List.length_flatMap]
  exact List.sum_le_sum each

/-- What a peer contributes keeps to its budget exactly when what its view answers does. -/
theorem length_answer_le_iff {peer : PeerAllocation} :
    (q.answer peer).length ≤ peer.budget.toNat ↔ ∀ view hits,
      q.peerOpener peer.member.tenantId peer.member.tenantLocation = .ok view →
        view.queryFiltered q.embedding peer.budget shareableOnly = .ok hits →
          hits.length ≤ peer.budget.toNat := by
  constructor
  · intro keeps view hits opened answered
    rwa [answer_view opened answered, List.length_map] at keeps
  · intro keeps
    cases contributed : q.answer peer with
    | nil => exact Nat.zero_le _
    | cons h rest =>
      have member : h ∈ q.answer peer := by
        rw [contributed]
        exact List.mem_cons_self
      obtain ⟨view, hits, opened, answered⟩ := view_of_answer member
      rw [← contributed, answer_view opened answered, List.length_map]
      exact keeps view hits opened answered

variable {D : Type} [FloatLike F] [FloatLike D] [Widen F D] {env : QueryEnv F} {path : Path}
  {merged : Merged F}

/-- What the budget of a query promises of what was merged and returned. -/
structure Capped (D : Type) [FloatLike D] [Widen F D] (q : MembraneQuery F) (env : QueryEnv F)
    (path : Path) (merged : Merged F) : Prop where
  /-- No more remote hits are merged than the remote budget. -/
  remote : merged.remote.length ≤ q.budget.maxRemoteRecords.toNat
  /-- No peer contributes more than its own budget. -/
  each : ∀ peer ∈ q.asked D env path, (q.answer peer).length ≤ peer.budget.toNat
  /-- No more hits are returned than the total budget. -/
  total : (truncateToBudget merged.hits q.budget.maxTotalRecords).length ≤
    q.budget.maxTotalRecords.toNat

/-- The first pass over the ranked peers can be summed on 32 bits. -/
def MembraneQuery.FirstFits (D : Type) [FloatLike D] [Widen F D] (q : MembraneQuery F)
    (env : QueryEnv F) : Prop :=
  ∀ scored ranked, q.scored env = .ok scored →
    env.sort.sortBy (fun a b => descending a.2 b.2) scored = .ok ranked →
      FirstPassFits D ranked q.budget.maxRemoteRecords 1 defaultMaxPeers

/-- The views keep to what they are asked for. -/
structure KeepsTo (D : Type) [FloatLike D] [Widen F D] (q : MembraneQuery F) (env : QueryEnv F)
    (path : Path) : Prop where
  /-- No view that is heard answers with more records than it was asked for. -/
  each : ∀ peer ∈ q.asked D env path, ∀ view hits,
    q.peerOpener peer.member.tenantId peer.member.tenantLocation = .ok view →
      view.queryFiltered q.embedding peer.budget shareableOnly = .ok hits →
        hits.length ≤ peer.budget.toNat
  /-- Where the first pass overflows, the answers together keep to the remote budget. -/
  sum : ¬ q.FirstFits D env →
    ((q.asked D env path).flatMap q.answer).length ≤ q.budget.maxRemoteRecords.toNat

/-- The budgets of an allocation whose first pass fits add up to at most the remote budget. -/
theorem sum_allocation_le (fits : q.FirstFits D env) {allocation : List PeerAllocation}
    (allocated : q.allocation D env = .ok allocation) :
    (allocation.map fun peer => peer.budget.toNat).sum ≤ q.budget.maxRemoteRecords.toNat := by
  obtain ⟨scored, out, rest⟩ := Except.bind_eq_ok.mp allocated
  obtain ⟨ranked, sorted, computed⟩ := Except.bind_eq_ok.mp rest
  obtain ⟨allocation', computed', atMost⟩ :=
    proportionalAllocation_fits env.profile (fits scored ranked out sorted)
  obtain rfl := Except.ok.inj (computed'.symm.trans computed)
  exact atMost

/-- So do the budgets of the peers that were asked. -/
theorem sum_asked_le (fits : q.FirstFits D env) :
    ((q.asked D env path).map fun peer => peer.budget.toNat).sum ≤
      q.budget.maxRemoteRecords.toNat := by
  rw [MembraneQuery.asked]
  split
  · exact Nat.zero_le _
  · cases allocated : q.allocation D env with
    | error fault => exact Nat.zero_le _
    | ok allocation =>
      have heard : (q.heard env path allocation).Sublist allocation := heard_sublist allocation
      have part := heard.map (fun peer => peer.budget.toNat)
      exact (part.sum_le_sum fun _ _ => Nat.zero_le _).trans (sum_allocation_le fits allocated)

/-- The cap holds exactly when the views keep to what they are asked for. -/
theorem remote_cap_iff (out : q.merge D env path.collect = .ok merged) :
    Capped D q env path merged ↔ KeepsTo D q env path := by
  have length := (remote_perm out).length_eq
  constructor
  · intro capped
    exact ⟨fun peer asked => length_answer_le_iff.mp (capped.each peer asked),
      fun _ => length ▸ capped.remote⟩
  · intro keeps
    have each : ∀ peer ∈ q.asked D env path, (q.answer peer).length ≤ peer.budget.toNat :=
      fun peer asked => length_answer_le_iff.mpr (keeps.each peer asked)
    refine ⟨?_, each, List.length_take_le _ _⟩
    rw [length]
    by_cases fits : q.FirstFits D env
    · exact (length_answers_le each).trans (sum_asked_le fits)
    · exact keeps.sum fits

/-- A hit of a peer's vault. -/
def peerHit (id : UInt64) : Hit Float32 := ⟨id, 0.5, [], none⟩

/-- Peers that answer with as many records as they are asked for. -/
def exactOpener : PeerOpener Float32 :=
  fun peer _ => .ok ⟨peer, fun _ k _ => .ok (List.replicate k.toNat (peerHit 1))⟩

/-- Two of them keep the cap, and fill it. -/
theorem remote_cap_sample : ∃ merged,
    (pairQuery (fun _ _ _ => .ok []) exactOpener).merge Float sampleEnv (Path.collect .async) =
      .ok merged ∧ merged.remote.length = 2 ∧
      Capped Float (pairQuery (fun _ _ _ => .ok []) exactOpener) sampleEnv .async merged := by
  obtain ⟨merged, out⟩ := merges_pairQuery (fun _ _ _ => .ok []) exactOpener rfl .async
  have both : ((pairQuery (fun _ _ _ => .ok []) exactOpener).asked Float sampleEnv .async).flatMap
      (pairQuery (fun _ _ _ => .ok []) exactOpener).answer =
      [(peerHit 1).toMembrane (.remote (sampleTenant 7)),
        (peerHit 1).toMembrane (.remote (sampleTenant 8))] := by
    rw [asked_pairQuery]
    rfl
  refine ⟨merged, out, ?_, (remote_cap_iff out).mpr ⟨?_, fun _ => ?_⟩⟩
  · rw [(remote_perm out).length_eq, both]
    rfl
  · intro peer _ view hits opened answered
    obtain rfl := Except.ok.inj opened
    obtain rfl := Except.ok.inj answered
    exact List.length_replicate.le
  · rw [both]
    exact Nat.le_refl 2

/-- A peer that answers every query with two records. -/
def eagerOpener : PeerOpener Float32 :=
  fun peer _ => .ok ⟨peer, fun _ _ _ => .ok [peerHit 1, peerHit 2]⟩

/-- Both of its records are merged, on either path. -/
theorem remote_eager (path : Path) : ∃ merged,
    (askingQuery eagerOpener).merge Float sampleEnv path.collect = .ok merged ∧
      merged.remote.length = 2 := by
  obtain ⟨merged, out⟩ := merges_askingQuery eagerOpener path
  refine ⟨merged, out, ?_⟩
  rw [(remote_perm out).length_eq, asked_askingQuery]
  rfl

/-- With a remote budget of one record, a peer that answers with two has both merged. -/
theorem eager_peer_exceeds_cap : (askingQuery eagerOpener).budget.maxRemoteRecords = 1 ∧
    (∃ merged, (askingQuery eagerOpener).merge Float sampleEnv (Path.collect .sync) = .ok merged ∧
      merged.remote.length = 2) ∧
    ∃ merged, (askingQuery eagerOpener).merge Float sampleEnv (Path.collect .async) = .ok merged ∧
      merged.remote.length = 2 :=
  ⟨rfl, remote_eager .sync, remote_eager .async⟩

end Hansa
