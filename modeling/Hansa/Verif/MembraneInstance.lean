import Hansa.Verif.Contribution
import Hansa.Verif.Query

/-!
# Queries that ask one or two peers

A handle with other members, whose sagas match the query, and a remote budget of one record for
each: whatever the opener does, the query asks each of these members for one record.
-/

namespace Hansa

/-! ## One peer -/

/-- A handle with an opener on both paths. -/
def askingHandle (opener : PeerOpener Float32) : Handle Float32 :=
  { sampleHandle with peerOpener := some opener, asyncPeerOpener := some opener }

/-- The files of a member whose peers have a saga. -/
noncomputable def sagaDisk : Disk Float32 :=
  { sampleDisk (some (rosterLog 1)) with sagas := fun _ => some (.ok (sampleSaga [1, 0, 0])) }

/-- One record from peers, one record altogether. -/
def singleSettings : QuerySettings Float32 := { sampleSettings with budget := .flat 1 }

/-- The query of the handle, for the vector of the saga. -/
noncomputable def askingQuery (opener : PeerOpener Float32) : MembraneQuery Float32 :=
  ((askingHandle opener).builtQuery sagaDisk (some opener) [1, 0, 0] [sampleMember 7]).configured
    singleSettings

/-- The one peer is scored with one. -/
theorem scored_askingQuery (opener : PeerOpener Float32) :
    (askingQuery opener).scored sampleEnv = .ok [(sampleMember 7, 1.0)] := by
  -- The score does not depend on the opener.
  show (askingQuery Handle.placeholderOpener).scored sampleEnv = _
  decide +kernel

/-- The one peer is allocated the whole budget. -/
theorem allocation_askingQuery (opener : PeerOpener Float32) :
    (askingQuery opener).allocation Float sampleEnv = .ok [⟨sampleMember 7, 1⟩] := by
  have numbers : ∀ peer ∈ [(sampleMember 7, (1.0 : Float32))], peer.2.place.isSome := by
    decide +kernel
  have shares : firstPass (D := Float) [(1.0 : Float32)] 1 1 = [1] := by decide +kernel
  have spent : sumU32 .release 0 [1] = .ok 1 := by decide
  have trimmed : trimDown .release 1 1 [1] 1 = .ok ([1], 1) := by
    rw [trimDown, dif_neg (by decide)]
  have single : ranked [(sampleMember 7, (1.0 : Float32))] = [(sampleMember 7, 1.0)] := by
    simp [ranked, sortStably]
  rw [allocation_eq (scored_askingQuery opener) numbers, single]
  show proportionalAllocation Float .release [(sampleMember 7, 1.0)] 1 1 defaultMaxPeers = _
  rw [proportionalAllocation, if_neg (by simp [defaultMaxPeers])]
  simp only [defaultMaxPeers, List.take_succ_cons, List.take_nil, List.map_cons, List.map_nil,
    shares, spent, trimmed, bind, Except.bind]
  rfl

/-- The query asks the one peer, on either path. -/
theorem asked_askingQuery (opener : PeerOpener Float32) (path : Path) :
    (askingQuery opener).asked Float sampleEnv path = [⟨sampleMember 7, 1⟩] :=
  asked_all rfl rfl (allocation_askingQuery opener)

/-- The query merges, on either path. -/
theorem merges_askingQuery (opener : PeerOpener Float32) (path : Path) :
    ∃ merged, (askingQuery opener).merge Float sampleEnv path.collect = .ok merged := by
  rw [MembraneQuery.merge_eq_finalMerge rfl rfl (allocation_askingQuery opener)]
  exact ⟨_, rfl⟩

/-! ## Two peers -/

section Pair

variable (own : QueryFiltered Float32) (opener : PeerOpener Float32)

/-- Two other members. -/
def pairMembers : List MemberRecord := [sampleMember 7, sampleMember 8]

/-- A handle whose own tenant searches with the given function. -/
def pairHandle : Handle Float32 := { askingHandle opener with localTenant := ⟨3, 0, [], own⟩ }

/-- The files of a member with two peers. -/
noncomputable def pairDisk : Disk Float32 :=
  { sagaDisk with dir := ⟨some (listingLog 1 pairMembers), []⟩ }

/-- Two records from peers, two records altogether. -/
def pairSettings : QuerySettings Float32 := { sampleSettings with budget := .flat 2 }

/-- The query of the handle, for the vector of the sagas. -/
noncomputable def pairQuery : MembraneQuery Float32 :=
  ((pairHandle own opener).builtQuery pairDisk (some opener) [1, 0, 0] pairMembers).configured
    pairSettings

/-- Both peers are scored with one. -/
theorem scored_pairQuery : (pairQuery own opener).scored sampleEnv =
    .ok [(sampleMember 7, 1.0), (sampleMember 8, 1.0)] := by
  -- The score depends neither on the own tenant nor on the opener.
  show (pairQuery (fun _ _ _ => .ok []) Handle.placeholderOpener).scored sampleEnv = _
  decide +kernel

/-- Both peers are allocated one record. -/
theorem allocation_pairQuery : (pairQuery own opener).allocation Float sampleEnv =
    .ok [⟨sampleMember 7, 1⟩, ⟨sampleMember 8, 1⟩] := by
  have numbers : ∀ peer ∈ [(sampleMember 7, (1.0 : Float32)), (sampleMember 8, 1.0)],
      peer.2.place.isSome := by decide +kernel
  have shares : firstPass (D := Float) [(1.0 : Float32), 1.0] 2 1 = [1, 1] := by decide +kernel
  have spent : sumU32 .release 0 [1, 1] = .ok 2 := by decide
  have trimmed : trimDown .release 2 1 [1, 1] 2 = .ok ([1, 1], 2) := by
    rw [trimDown, dif_neg (by decide)]
  have level : ranked [(sampleMember 7, (1.0 : Float32)), (sampleMember 8, 1.0)] =
      [(sampleMember 7, 1.0), (sampleMember 8, 1.0)] :=
    List.mergeSort_of_pairwise (by decide +kernel)
  rw [allocation_eq (scored_pairQuery own opener) numbers, level]
  show proportionalAllocation Float .release [(sampleMember 7, 1.0), (sampleMember 8, 1.0)] 2 1
    defaultMaxPeers = _
  rw [proportionalAllocation, if_neg (by simp [defaultMaxPeers])]
  simp only [defaultMaxPeers, List.take_succ_cons, List.take_nil, List.map_cons, List.map_nil,
    shares, spent, trimmed, bind, Except.bind]
  rfl

/-- The query asks both peers, on either path. -/
theorem asked_pairQuery (path : Path) : (pairQuery own opener).asked Float sampleEnv path =
    [⟨sampleMember 7, 1⟩, ⟨sampleMember 8, 1⟩] :=
  asked_all rfl rfl (allocation_pairQuery own opener)

/-- The query merges, on either path, when the own tenant answers. -/
theorem merges_pairQuery {found : List (Hit Float32)}
    (searched : own [1, 0, 0] 10 acceptAll = .ok found) (path : Path) :
    ∃ merged, (pairQuery own opener).merge Float sampleEnv path.collect = .ok merged := by
  have answered : (pairQuery own opener).localHits = .ok (found.map (Hit.toMembrane .local)) :=
    Except.bind_eq_ok.mpr ⟨found, searched, rfl⟩
  rw [MembraneQuery.merge_eq_finalMerge rfl answered (allocation_pairQuery own opener)]
  exact ⟨_, rfl⟩

end Pair

end Hansa
