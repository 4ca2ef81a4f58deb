import Hansa.Library.TopSelection
import Hansa.Verif.Attribution
import Mathlib.Data.Int.ConditionallyCompleteOrder
import Mathlib.Order.ConditionallyCompleteLattice.Basic

/-!
# What crosses the membrane

Over vaults that answer a query with their most similar accepted records, a fan-out without a
deadline returns the best of the local hits and of all batches. Remote hits are shareable
records of the vaults of other active members that received a budget. The order in which
workers deliver can only decide between hits of equal similarity.
-/

namespace Hansa

/-! ## Vaults -/

/-- A record of a vault. -/
structure VaultRecord (F : Type) where
  /-- Record identifier. -/
  recordId : UInt64
  /-- Record payload. -/
  payload : List UInt8
  /-- The record's vector, where the backend supplies it. -/
  embedding : Option (List F)
  /-- What a filter reads of the record. -/
  info : RecordMeta
  /-- Similarity to a query. -/
  similarity : List F → F

/-- The hit that a record is for a query. -/
def VaultRecord.hit {F : Type} (record : VaultRecord F) (embedding : List F) : Hit F :=
  { recordId := record.recordId
    similarity := record.similarity embedding
    payload := record.payload
    embedding := record.embedding }

/-- The place of a similarity, below all places for NaN. -/
def rank (similarity : Float32) : WithBot FloatPlace := similarity.place

/-- A tenant answers a query with the records of its vault that the filter accepts: the most
similar ones, as many as it was asked for. -/
def Serves (vault : List (VaultRecord Float32)) (embedding : List Float32)
    (queryFiltered : QueryFiltered Float32) : Prop :=
  ∀ (k : UInt32) (accept : RecordMeta → Bool), ∃ chosen hits,
    Selects (fun record => rank (record.similarity embedding)) k.toNat
      (vault.filter fun record => accept record.info) chosen ∧
    queryFiltered embedding k accept = .ok hits ∧
    hits.Perm (chosen.map fun record => record.hit embedding)

/-- No record of a vault has NaN for its similarity to a query. -/
def NoNaN (vault : List (VaultRecord Float32)) (embedding : List Float32) : Prop :=
  ∀ record ∈ vault, (record.similarity embedding).place.isSome

/-- An opener opens the vaults at the locations, or reports that it cannot. -/
def OpensVaults (vaultAt : TenantLocation → List (VaultRecord Float32))
    (embedding : List Float32) (opener : PeerOpener Float32) : Prop :=
  ∀ tenant location, (∃ e, opener tenant location = .error (.err e)) ∨
    ∃ view, opener tenant location = .ok view ∧
      Serves (vaultAt location) embedding view.queryFiltered

/-- What a tenant answers are accepted records of its vault. -/
theorem record_of_hit {vault : List (VaultRecord Float32)} {embedding : List Float32}
    {queryFiltered : QueryFiltered Float32} (serves : Serves vault embedding queryFiltered)
    {k : UInt32} {accept : RecordMeta → Bool} {hits : List (Hit Float32)}
    (answered : queryFiltered embedding k accept = .ok hits) {h : Hit Float32}
    (member : h ∈ hits) :
    ∃ record ∈ vault, accept record.info = true ∧ h = record.hit embedding := by
  obtain ⟨chosen, hits', selects, answered', moved⟩ := serves k accept
  obtain rfl := Except.ok.inj (answered'.symm.trans answered)
  obtain ⟨record, inside, rfl⟩ := List.mem_map.mp (moved.subset member)
  obtain ⟨held, accepted⟩ := List.mem_filter.mp (selects.subset inside)
  exact ⟨record, held, accepted, rfl⟩

variable {vaultAt : TenantLocation → List (VaultRecord Float32)} {q : MembraneQuery Float32}
  {env : QueryEnv Float32} {path : Path}

/-- What is merged from a peer was answered by a view that serves the vault at its location. -/
theorem served_of_answer (opens : OpensVaults vaultAt q.embedding q.peerOpener)
    {peer : PeerAllocation} {h : MembraneHit Float32} (member : h ∈ q.answer peer) :
    ∃ queryFiltered hits, Serves (vaultAt peer.member.tenantLocation) q.embedding queryFiltered ∧
      queryFiltered q.embedding peer.budget shareableOnly = .ok hits ∧
      ∃ hit ∈ hits, h = hit.toMembrane h.origin := by
  obtain ⟨view, hits, opened, answered⟩ := view_of_answer member
  rw [answer_view opened answered] at member
  obtain ⟨hit, inside, rfl⟩ := List.mem_map.mp member
  rcases opens peer.member.tenantId peer.member.tenantLocation with
    ⟨e, refused⟩ | ⟨view', opened', serves⟩
  · cases refused.symm.trans opened
  · obtain rfl := Except.ok.inj (opened'.symm.trans opened)
    exact ⟨view'.queryFiltered, hits, serves, answered, hit, inside, rfl⟩

/-- What is merged from a peer are shareable records of the vault at its location. -/
theorem record_of_answer (opens : OpensVaults vaultAt q.embedding q.peerOpener)
    {peer : PeerAllocation} {h : MembraneHit Float32} (member : h ∈ q.answer peer) :
    ∃ record ∈ vaultAt peer.member.tenantLocation, record.info.shareable = true ∧
      h = (record.hit q.embedding).toMembrane h.origin := by
  obtain ⟨_, hits, serves, answered, hit, inside, isHit⟩ := served_of_answer opens member
  obtain ⟨record, held, shared, rfl⟩ := record_of_hit serves answered inside
  exact ⟨record, held, shared, isHit⟩

/-- Only a peer that received a budget contributes. -/
theorem budget_of_answer (opens : OpensVaults vaultAt q.embedding q.peerOpener)
    {peer : PeerAllocation} {h : MembraneHit Float32} (member : h ∈ q.answer peer) :
    0 < peer.budget := by
  by_contra none_
  have zero : peer.budget.toNat = 0 := by
    have atMost := UInt32.not_lt.mp none_
    rw [UInt32.le_iff_toNat_le] at atMost
    exact Nat.le_zero.mp atMost
  obtain ⟨_, hits, serves, answered, hit, inside, -⟩ := served_of_answer opens member
  obtain ⟨chosen, hits', ⟨all, -, -, rfl⟩, answered', moved⟩ := serves peer.budget shareableOnly
  obtain rfl := Except.ok.inj (answered'.symm.trans answered)
  rw [zero, List.take_zero, List.map_nil] at moved
  rw [moved.eq_nil] at inside
  cases inside

/-- Local hits are of local origin. -/
theorem origin_of_local {hits : List (Hit Float32)} {h : MembraneHit Float32}
    (member : h ∈ hits.map (Hit.toMembrane .local)) : h.origin = .local := by
  obtain ⟨_, -, rfl⟩ := List.mem_map.mp member
  rfl

/-- What is merged over vaults without NaN has no NaN. -/
theorem numbers_of_vaults {localVault : List (VaultRecord Float32)}
    {allocation : List PeerAllocation} {hits : List (Hit Float32)}
    (serves : Serves localVault q.embedding q.localTenant.queryFiltered)
    (opens : OpensVaults vaultAt q.embedding q.peerOpener)
    (localNumbers : NoNaN localVault q.embedding)
    (numbers : ∀ location, NoNaN (vaultAt location) q.embedding)
    (answered : q.localTenant.queryFiltered q.embedding q.topK acceptAll = .ok hits) :
    ∀ h ∈ hits.map (Hit.toMembrane .local) ++ allocation.flatMap q.answer,
      h.similarity.place.isSome := by
  intro h member
  rcases List.mem_append.mp member with isLocal | fromPeer
  · obtain ⟨hit, inside, rfl⟩ := List.mem_map.mp isLocal
    obtain ⟨record, held, -, rfl⟩ := record_of_hit serves answered inside
    exact localNumbers record held
  · obtain ⟨peer, -, inside⟩ := List.mem_flatMap.mp fromPeer
    obtain ⟨record, held, -, isHit⟩ := record_of_answer opens inside
    rw [isHit]
    exact numbers _ record held

/-! ## Selection -/

/-- How similar a merged hit is. -/
def MembraneHit.rank (h : MembraneHit Float32) : WithBot FloatPlace := Hansa.rank h.similarity

/-- Numbers are ranked by their places. -/
theorem rank_le_rank {a b : Float32} {x y : FloatPlace} (atA : a.place = some x)
    (atB : b.place = some y) : rank a ≤ rank b ↔ x ≤ y := by
  unfold rank
  rw [atA, atB]
  exact WithBot.coe_le_coe

/-- A number is at most another when its rank is. -/
theorem le_of_rank_le {a b : Float32} (number : a.place.isSome) (below : rank a ≤ rank b) :
    a ≤ b := by
  obtain ⟨x, atA⟩ := Option.isSome_iff_exists.mp number
  cases atB : b.place with
  | none =>
    unfold rank at below
    rw [atA, atB] at below
    exact absurd below (WithBot.not_coe_le_bot x)
  | some y => exact (Float32.le_iff_place a b).mpr ⟨x, atA, y, atB, (rank_le_rank atA atB).mp below⟩

/-- Sorted hits without NaN descend. -/
theorem descends_sortStably {hits : List (MembraneHit Float32)}
    (numbers : ∀ h ∈ hits, h.similarity.place.isSome) :
    Descending MembraneHit.rank
      (sortStably (fun a b => descending a.similarity b.similarity) hits) := by
  refine (sortStably_pairwise (totalPreorderOn_descending numbers)).imp_of_mem ?_
  intro a b inA inB held
  obtain ⟨x, atA⟩ := Option.isSome_iff_exists.mp (numbers a ((sortStably_perm _ _).subset inA))
  obtain ⟨y, atB⟩ := Option.isSome_iff_exists.mp (numbers b ((sortStably_perm _ _).subset inB))
  rw [descending_place atA atB, compare_le_iff_le] at held
  exact (rank_le_rank atB atA).mpr held

/-- Without a deadline, and without NaN, whatever order the workers deliver in, a query merges
the local hits and all batches in descending order. -/
theorem merge_descends {hits : List (Hit Float32)} {allocation : List PeerAllocation}
    (env : QueryEnv Float32) (path : Path) (leaves : q.localOnly = false)
    (patient : q.deadline = none)
    (searched : q.localTenant.queryFiltered q.embedding q.topK acceptAll = .ok hits)
    (allocated : q.allocation Float env = .ok allocation)
    (numbers : ∀ h ∈ hits.map (Hit.toMembrane .local) ++ allocation.flatMap q.answer,
      h.similarity.place.isSome) :
    ∃ merged, q.merge Float env path.collect = .ok merged ∧
      merged.hits.Perm (hits.map (Hit.toMembrane .local) ++ allocation.flatMap q.answer) ∧
      Descending MembraneHit.rank merged.hits := by
  let remote := gather path.collect env.schedule q.deadline
    (spawn env.schedule q.peerOpener q.embedding allocation)
  have delivered : remote.hits.Perm ((q.heard env path allocation).flatMap q.answer) :=
    collect_spawn allocation
  rw [heard_all patient] at delivered
  have moved := delivered.append_left (hits.map (Hit.toMembrane .local))
  have numbers' := fun h member => numbers h (moved.subset member)
  have sorted := env.sort.stable _ _ (totalPreorderOn_descending numbers')
  refine ⟨⟨sortStably (fun a b => descending a.similarity b.similarity)
    (hits.map (Hit.toMembrane .local) ++ remote.hits), remote.stats,
    bumpTotals env.manifests remote.hits⟩, ?_, (sortStably_perm _ _).trans moved,
    descends_sortStably numbers'⟩
  have answered : q.localHits = .ok (hits.map (Hit.toMembrane .local)) :=
    Except.bind_eq_ok.mpr ⟨hits, searched, rfl⟩
  rw [MembraneQuery.merge_eq_finalMerge leaves answered allocated, finalMerge, sorted]
  rfl

/-! ## Runs -/

namespace MembraneQuery

/-- `execute_with_stats` of either path. -/
def executeOn (q : MembraneQuery Float32) : Path → QueryEnv Float32 →
    Result (List (MembraneHit Float32) × MembraneStats × ManifestStore)
  | .sync, env => q.executeWithStats Float env
  | .async, env => q.executeWithStatsAsync Float env

/-- Either path cuts what it merges. -/
theorem executeOn_ok {out : List (MembraneHit Float32) × MembraneStats × ManifestStore} :
    q.executeOn path env = .ok out ↔ ∃ merged, q.merge Float env path.collect = .ok merged ∧
      .ok (truncateToBudget merged.hits q.budget.maxTotalRecords, merged.stats,
        merged.manifests) = (Except.ok out : Result _) := by
  cases path <;> exact Except.bind_eq_ok

end MembraneQuery

/-- What a run returns crossed the membrane: remote hits are shareable records of other active
members that received a budget, and the run returns the best of the local hits and all batches,
sorted. -/
structure Crossed (vaultAt : TenantLocation → List (VaultRecord Float32))
    (q : MembraneQuery Float32) (allocation : List PeerAllocation)
    (locals returned : List (MembraneHit Float32)) : Prop where
  /-- Remote hits are shareable records of active members with a budget. -/
  remote : ∀ h ∈ returned, h.origin ≠ .local → ∃ peer ∈ allocation,
    peer.member ∈ q.members ∧ peer.member.tenantId ≠ q.localTenantId ∧ 0 < peer.budget ∧
      ∃ record ∈ vaultAt peer.member.tenantLocation, record.info.shareable = true ∧
        h = (record.hit q.embedding).toMembrane h.origin
  /-- No hit is below a later one. -/
  sorted : returned.Pairwise (fun a b => b.similarity ≤ a.similarity)
  /-- Nothing above the cut is lost, and nothing is duplicated. -/
  best : Selects MembraneHit.rank q.budget.maxTotalRecords.toNat
    (locals ++ allocation.flatMap q.answer) returned

/-- What is merged in descending order crossed the membrane. -/
theorem crossed_of_merged {allocation : List PeerAllocation} {locals : List (MembraneHit Float32)}
    {merged : Merged Float32} (opens : OpensVaults vaultAt q.embedding q.peerOpener)
    (active : ∀ peer ∈ allocation,
      peer.member ∈ q.members ∧ peer.member.tenantId ≠ q.localTenantId)
    (own : ∀ h ∈ locals, h.origin = .local)
    (numbers : ∀ h ∈ locals ++ allocation.flatMap q.answer, h.similarity.place.isSome)
    (moved : merged.hits.Perm (locals ++ allocation.flatMap q.answer))
    (descends : Descending MembraneHit.rank merged.hits) :
    Crossed vaultAt q allocation locals
      (truncateToBudget merged.hits q.budget.maxTotalRecords) where
  remote h returned isRemote := by
    have inside := moved.subset (List.mem_of_mem_take returned)
    rcases List.mem_append.mp inside with isLocal | fromPeer
    · exact absurd (own h isLocal) isRemote
    · obtain ⟨peer, allocated, member⟩ := List.mem_flatMap.mp fromPeer
      obtain ⟨known, other⟩ := active peer allocated
      exact ⟨peer, allocated, known, other, budget_of_answer opens member,
        record_of_answer opens member⟩
  sorted := by
    refine (descends.sublist (List.take_sublist _ _)).imp_of_mem fun {a b} _ inB below => ?_
    exact le_of_rank_le (numbers b (moved.subset (List.mem_of_mem_take inB))) below
  best := ⟨merged.hits, moved, descends, rfl⟩

/-- With a fan-out and without a deadline, over vaults without NaN, what a query returns
crossed the membrane, and another order of delivery, on either path, changes no more than the
choice and the arrangement of hits of equal similarity. -/
theorem membrane_exact {c : Build} {json : LinkJson} {h : Handle Float32}
    {disk disk' : Disk Float32} {opener : Option (PeerOpener Float32)} {embedding : List Float32}
    {built : MembraneQuery Float32}
    (isBuilt : (h.queryWith c json opener embedding).run disk = .ok built disk')
    (settings : QuerySettings Float32) (leaves : (built.configured settings).localOnly = false)
    (patient : settings.deadline = none) {localVault : List (VaultRecord Float32)}
    (serves : Serves localVault built.embedding built.localTenant.queryFiltered)
    (opens : OpensVaults vaultAt built.embedding built.peerOpener)
    (localNumbers : NoNaN localVault built.embedding)
    (numbers : ∀ location, NoNaN (vaultAt location) built.embedding)
    {hits : List (MembraneHit Float32)} {stats : MembraneStats} {manifests : ManifestStore}
    (out : (built.configured settings).executeOn path env = .ok (hits, stats, manifests)) :
    ∃ allocation locals, (built.configured settings).allocation Float env = .ok allocation ∧
      (built.configured settings).localHits = .ok locals ∧
      Crossed vaultAt (built.configured settings) allocation locals hits ∧
      ∀ path' schedule, ∃ hits' stats' manifests',
        (built.configured settings).executeOn path' { env with schedule } =
          .ok (hits', stats', manifests') ∧
        Crossed vaultAt (built.configured settings) allocation locals hits' ∧
        SameUpToTies MembraneHit.rank settings.budget.maxTotalRecords.toNat hits hits' := by
  -- The run returned, so the local query and the allocation did.
  obtain ⟨merged, ran, cut⟩ := MembraneQuery.executeOn_ok.mp out
  obtain ⟨locals, searched, rest⟩ := Except.bind_eq_ok.mp ran
  rw [if_neg (by simp [leaves])] at rest
  obtain ⟨allocation, allocated, -⟩ := Except.bind_eq_ok.mp rest
  obtain ⟨found, answered, isLocals⟩ := Except.bind_eq_ok.mp searched
  obtain rfl := Except.ok.inj isLocals
  have active : ∀ peer ∈ allocation,
      peer.member ∈ built.members ∧ peer.member.tenantId ≠ built.localTenantId := by
    intro peer member
    have asked : (built.configured settings).asked Float env path = allocation :=
      asked_all leaves patient allocated
    exact active_of_built isBuilt settings (asked ▸ member)
  have comparable : ∀ h ∈ found.map (Hit.toMembrane .local) ++
      allocation.flatMap (built.configured settings).answer, h.similarity.place.isSome :=
    numbers_of_vaults serves opens localNumbers numbers answered
  -- So every run merges the same hits in descending order.
  have runs := fun path' schedule => merge_descends { env with schedule } path' leaves patient
    answered allocated comparable
  have crossed : ∀ merged' : Merged Float32,
      merged'.hits.Perm (found.map (Hit.toMembrane .local) ++
        allocation.flatMap (built.configured settings).answer) →
      Descending MembraneHit.rank merged'.hits →
      Crossed vaultAt (built.configured settings) allocation (found.map (Hit.toMembrane .local))
        (truncateToBudget merged'.hits settings.budget.maxTotalRecords) :=
    fun _ => crossed_of_merged (q := built.configured settings) opens active
      (fun _ => origin_of_local) comparable
  obtain ⟨same, ran', moved, descends⟩ := runs path env.schedule
  obtain rfl := Except.ok.inj (ran'.symm.trans ran)
  obtain ⟨rfl, -, -⟩ := Prod.mk.injEq .. ▸ Except.ok.inj cut
  refine ⟨allocation, _, allocated, searched, crossed _ moved descends, ?_⟩
  intro path' schedule
  obtain ⟨merged', again, moved', descends'⟩ := runs path' schedule
  have crossed' := crossed _ moved' descends'
  exact ⟨_, _, _, MembraneQuery.executeOn_ok.mpr ⟨merged', again, rfl⟩, crossed',
    (crossed _ moved descends).best.sameUpToTies crossed'.best⟩

/-! ## Shareable records of two peers -/

/-- The vault of a private record, and of a shareable one that is less similar. -/
def sampleVault : List (VaultRecord Float32) :=
  [⟨2, [75], none, ⟨false⟩, fun _ => 0.9⟩, ⟨1, [72, 105], none, ⟨true⟩, fun _ => 0.5⟩]

/-- The own vault, of one private record. -/
def ownVault : List (VaultRecord Float32) := [⟨3, [79], none, ⟨false⟩, fun _ => 0.75⟩]

/-- What a vault answers whose records are in the order of their similarity. -/
def answerFrom (vault : List (VaultRecord Float32)) : QueryFiltered Float32 :=
  fun embedding k accept => .ok (((vault.filter fun record => accept record.info).take k.toNat).map
    fun record => record.hit embedding)

/-- The records of the sample vault are in the order of their similarity. -/
theorem descends_sampleVault :
    Descending (fun record => rank (record.similarity [1, 0, 0])) sampleVault := by
  unfold Descending
  decide +kernel

/-- Such a vault is served by listing it. -/
theorem serves_answerFrom {vault : List (VaultRecord Float32)} {embedding : List Float32}
    (descends : Descending (fun record => rank (record.similarity embedding)) vault) :
    Serves vault embedding (answerFrom vault) := by
  intro k accept
  exact ⟨_, _, ⟨vault.filter fun record => accept record.info, .refl _, descends.filter _, rfl⟩,
    rfl, .refl _⟩

/-- Peers with the sample vault. -/
def sharingOpener : PeerOpener Float32 := fun tenant _ => .ok ⟨tenant, answerFrom sampleVault⟩

/-- The hit of a peer. -/
def sharedHit (n : UInt8) : MembraneHit Float32 :=
  ⟨1, 0.5, .remote (sampleTenant n), [72, 105], none⟩

/-- A peer that is asked for one record answers with the shareable one. -/
theorem answer_sharing (n : UInt8) :
    (askingQuery sharingOpener).answer ⟨sampleMember n, 1⟩ = [sharedHit n] := rfl

/-- The hit of the own tenant. -/
def ownHit : MembraneHit Float32 := ⟨3, 0.75, .local, [79], none⟩

/-- The query that asks both peers. -/
noncomputable abbrev sharingQuery : MembraneQuery Float32 :=
  pairQuery (answerFrom ownVault) sharingOpener

/-- It is built. -/
theorem built_sharingQuery :
    ((pairHandle (answerFrom ownVault) sharingOpener).queryWith sampleBuild sampleJson
      (some sharingOpener) [1, 0, 0]).run pairDisk =
      .ok ((pairHandle (answerFrom ownVault) sharingOpener).builtQuery pairDisk
        (some sharingOpener) [1, 0, 0] pairMembers) pairDisk := by
  have listed := run_members_listingLog 1 (by decide) (by decide)
    (pairHandle (answerFrom ownVault) sharingOpener)
    (show pairDisk.dir.log = some (listingLog 1 pairMembers) from rfl)
  rcases (pairHandle (answerFrom ownVault) sharingOpener).run_queryWith (some sharingOpener)
    [1, 0, 0] listed with ⟨-, out⟩ | ⟨⟨m, -, e, unreadable⟩, -⟩
  · exact out
  · cases unreadable

/-- What the query returns when the peers deliver in the order of their numbers. -/
theorem executeOn_sharingQuery (schedule : Schedule Float32) (a b : UInt8)
    (collected : (collectSync schedule none (spawn schedule sharingOpener [1, 0, 0]
      [⟨sampleMember 7, 1⟩, ⟨sampleMember 8, 1⟩])).hits = [sharedHit a, sharedHit b]) :
    ∃ stats manifests, sharingQuery.executeOn .sync { sampleEnv with schedule } =
      .ok ([ownHit, sharedHit a], stats, manifests) := by
  let workers := spawn schedule sharingOpener [1, 0, 0]
    [⟨sampleMember 7, 1⟩, ⟨sampleMember 8, 1⟩]
  let remote := gather collectSync schedule none workers
  have descends : [(0.75 : Float32), 0.5, 0.5].Pairwise fun x y =>
      (descending x y != .gt) = true := by decide +kernel
  have level : sortStably (fun a b => descending a.similarity b.similarity)
      [ownHit, sharedHit a, sharedHit b] = [ownHit, sharedHit a, sharedHit b] := by
    refine List.mergeSort_of_pairwise ?_
    exact List.Pairwise.of_map MembraneHit.similarity (fun _ _ held => held) descends
  have merged : sharingQuery.merge Float { sampleEnv with schedule } (Path.collect .sync) =
      .ok ⟨[ownHit, sharedHit a, sharedHit b], remote.stats,
        bumpTotals sampleEnv.manifests remote.hits⟩ := by
    have searched : sharingQuery.localHits = .ok [ownHit] := rfl
    have allocated : sharingQuery.allocation Float { sampleEnv with schedule } =
        .ok [⟨sampleMember 7, 1⟩, ⟨sampleMember 8, 1⟩] :=
      allocation_pairQuery (answerFrom ownVault) sharingOpener
    have sorted : finalMerge .lenient [ownHit] remote.hits =
        .ok [ownHit, sharedHit a, sharedHit b] := by
      rw [show remote.hits = _ from collected]
      exact congrArg Except.ok level
    rw [MembraneQuery.merge_eq_finalMerge rfl searched allocated]
    exact congrArg (Except.map _) sorted
  exact ⟨_, _, MembraneQuery.executeOn_ok.mpr ⟨_, merged, rfl⟩⟩

/-- The first peer delivers first. -/
theorem returned_inOrder : ∃ stats manifests, sharingQuery.executeOn .sync sampleEnv =
    .ok ([ownHit, sharedHit 7], stats, manifests) := by
  have inOrder : [(0, [sharedHit 7]), (1, [sharedHit 8])].mergeSort (fun a b => a.1 ≤ b.1) =
      [(0, [sharedHit 7]), (1, [sharedHit 8])] := by simp [List.mergeSort]
  apply executeOn_sharingQuery (.byFinish id) 7 8
  show (recvLoop none 0 2
    ([(0, [sharedHit 7]), (1, [sharedHit 8])].mergeSort fun a b => a.1 ≤ b.1)).hits = _
  rw [inOrder]
  rfl

/-- The second peer delivers first. -/
theorem returned_swapped : ∃ stats manifests,
    sharingQuery.executeOn .sync { sampleEnv with schedule := .byFinish fun i => 1 - i } =
      .ok ([ownHit, sharedHit 8], stats, manifests) := by
  have swapped : [(1, [sharedHit 7]), (0, [sharedHit 8])].mergeSort (fun a b => a.1 ≤ b.1) =
      [(0, [sharedHit 8]), (1, [sharedHit 7])] := by simp [List.mergeSort]
  apply executeOn_sharingQuery (.byFinish fun i => 1 - i) 8 7
  show (recvLoop none 0 2
    ([(1, [sharedHit 7]), (0, [sharedHit 8])].mergeSort fun a b => a.1 ≤ b.1)).hits = _
  rw [swapped]
  rfl

/-- The shareable record of one peer crosses the membrane: of the peer that delivers first. -/
theorem membrane_exact_sample : ∃ stats manifests stats' manifests' allocation locals,
    sharingQuery.executeOn .sync sampleEnv = .ok ([ownHit, sharedHit 7], stats, manifests) ∧
    sharingQuery.executeOn .sync { sampleEnv with schedule := .byFinish fun i => 1 - i } =
      .ok ([ownHit, sharedHit 8], stats', manifests') ∧
    sharingQuery.allocation Float sampleEnv = .ok allocation ∧
    sharingQuery.localHits = .ok locals ∧
    Crossed (fun _ => sampleVault) sharingQuery allocation locals [ownHit, sharedHit 7] ∧
    Crossed (fun _ => sampleVault) sharingQuery allocation locals [ownHit, sharedHit 8] ∧
    SameUpToTies MembraneHit.rank 2 [ownHit, sharedHit 7] [ownHit, sharedHit 8] := by
  obtain ⟨stats, manifests, out⟩ := returned_inOrder
  obtain ⟨stats', manifests', out'⟩ := returned_swapped
  have opens : OpensVaults (fun _ => sampleVault) [1, 0, 0] sharingOpener :=
    fun tenant _ => .inr ⟨⟨tenant, answerFrom sampleVault⟩, rfl,
      serves_answerFrom descends_sampleVault⟩
  have ownNumbers : NoNaN ownVault [1, 0, 0] := by
    unfold NoNaN
    decide +kernel
  have numbers : ∀ _ : TenantLocation, NoNaN sampleVault [1, 0, 0] := by
    intro _
    unfold NoNaN
    decide +kernel
  obtain ⟨allocation, locals, allocated, searched, crossed, others⟩ :=
    membrane_exact built_sharingQuery pairSettings rfl rfl
      (serves_answerFrom (List.pairwise_singleton _ _)) opens ownNumbers numbers out
  obtain ⟨hits', stats₁, manifests₁, again, crossed', same⟩ :=
    others .sync (.byFinish fun i => 1 - i)
  obtain ⟨rfl, -, -⟩ := Prod.mk.injEq .. ▸ Except.ok.inj (again.symm.trans out')
  exact ⟨stats, manifests, stats', manifests', allocation, locals, out, out', allocated, searched,
    crossed, crossed', same⟩

end Hansa
