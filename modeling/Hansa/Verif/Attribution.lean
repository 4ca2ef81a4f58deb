import Hansa.Verif.MembraneInstance

/-!
# Whom a remote hit is attributed to

A remote hit carries the tenant id that the opened view reports, not the id of the member that
was asked. Manifests are bumped by that id, after the fan-out and when hits are marked useful.
So hits and manifests are attributed to the members that served the hits exactly when every
view that contributes hits reports the id of its member.
-/

namespace Hansa

/-! ## Manifests that bumps change -/

/-- Every manifest is in the file of its own peer. -/
def ManifestStore.Coherent (store : ManifestStore) : Prop :=
  ∀ peer, ∀ m ∈ store peer, m.peerId = peer

/-- A peer's own manifest is read. -/
theorem ManifestStore.Coherent.read {store : ManifestStore} (coherent : store.Coherent)
    (peer : TenantId) : (store.read peer).peerId = peer := by
  unfold ManifestStore.read
  cases held : store peer with
  | none => rfl
  | some m => exact coherent peer m held

/-- Writing a manifest keeps manifests in the files of their peers. -/
theorem ManifestStore.Coherent.write {store : ManifestStore} (coherent : store.Coherent)
    (m : PeerManifest) : (store.write m).Coherent := by
  intro peer m' held
  by_cases same : peer = m.peerId
  · subst same
    rw [ManifestStore.write, Function.update_self] at held
    obtain rfl := Option.some.inj held
    rfl
  · rw [ManifestStore.write, Function.update_of_ne same] at held
    exact coherent peer m' held

/-- Writing a manifest that was read changes the file of its peer alone. -/
theorem ManifestStore.Coherent.write_other {store : ManifestStore} (coherent : store.Coherent)
    {m : PeerManifest} {peer tenant : TenantId} (own : m.peerId = (store.read peer).peerId)
    (different : tenant ≠ peer) : store.write m tenant = store tenant := by
  rw [ManifestStore.write, own, coherent.read, Function.update_of_ne different]

/-- Bumps of counted peers change the manifests of these peers alone, if each bump does. -/
theorem foldl_bump_frame (bump : ManifestStore → TenantId × UInt64 → ManifestStore)
    (one : ∀ store counted, store.Coherent → (bump store counted).Coherent ∧
      ∀ tenant, tenant ≠ counted.1 → bump store counted tenant = store tenant)
    {counts : List (TenantId × UInt64)} {store : ManifestStore} (coherent : store.Coherent)
    {tenant : TenantId} (absent : tenant ∉ counts.map Prod.fst) :
    counts.foldl bump store tenant = store tenant := by
  induction counts generalizing store with
  | nil => rfl
  | cons counted counts ih =>
    rw [List.map_cons, List.mem_cons, not_or] at absent
    obtain ⟨kept, others⟩ := one store counted coherent
    rw [List.foldl_cons, ih kept absent.2, others tenant absent.1]

variable {F : Type}

/-- The peers that are counted are those that hits are attributed to. -/
theorem mem_hitCounts {hits : List (MembraneHit F)} {tenant : TenantId} :
    tenant ∈ (hitCounts hits).map Prod.fst ↔ ∃ h ∈ hits, h.origin = .remote tenant := by
  rw [hitCounts, List.map_map]
  show tenant ∈ List.map id _ ↔ _
  rw [List.map_id, List.mem_dedup, List.mem_filterMap]
  refine exists_congr fun h => and_congr_right fun _ => ?_
  cases h.origin <;> simp

/-- A fan-out changes the manifests of the peers that its hits are attributed to. -/
theorem bumpTotals_frame {manifests : ManifestStore} (coherent : manifests.Coherent)
    {hits : List (MembraneHit F)} {tenant : TenantId}
    (changed : bumpTotals manifests hits tenant ≠ manifests tenant) :
    ∃ h ∈ hits, h.origin = .remote tenant := by
  by_contra absent
  exact changed (foldl_bump_frame (fun store peer => store.bumpTotal peer.1 peer.2)
    (fun store counted coherent => ⟨coherent.write _, fun _ => coherent.write_other rfl⟩)
    coherent (mt mem_hitCounts.mp absent))

/-- Marking hits useful changes the manifests of the peers that they are attributed to. -/
theorem markUseful_frame {manifests : ManifestStore} (coherent : manifests.Coherent)
    {hits : List (MembraneHit F)} {clock : TenantId → UInt64} {tenant : TenantId}
    (changed : markUseful manifests hits clock tenant ≠ manifests tenant) :
    ∃ h ∈ hits, h.origin = .remote tenant := by
  by_contra absent
  exact changed (foldl_bump_frame
    (fun store peer => store.bumpUseful peer.1 peer.2 (clock peer.1))
    (fun store counted coherent => ⟨coherent.write _, fun _ => coherent.write_other rfl⟩)
    coherent (mt mem_hitCounts.mp absent))

/-! ## Attribution -/

variable {D : Type} [FloatLike F] [FloatLike D] [Widen F D] {q : MembraneQuery F}
  {env : QueryEnv F} {path : Path} {merged : Merged F}

/-- Hits, and what they change in the manifests, are attributed to the members that served
them. -/
structure Attributed (D : Type) [FloatLike D] [Widen F D] (q : MembraneQuery F)
    (env : QueryEnv F) (path : Path) (merged : Merged F) : Prop where
  /-- The peers that are asked are other active members. -/
  active : ∀ peer ∈ q.asked D env path,
    peer.member ∈ q.members ∧ peer.member.tenantId ≠ q.localTenantId
  /-- What is merged from a peer is attributed to the member that was asked. -/
  origins : ∀ peer ∈ q.asked D env path, ∀ h ∈ q.answer peer,
    h.origin = .remote peer.member.tenantId
  /-- The query changes the manifests of members that served hits. -/
  totals : ∀ tenant, merged.manifests tenant ≠ env.manifests tenant →
    ∃ peer ∈ q.asked D env path, q.answer peer ≠ [] ∧ peer.member.tenantId = tenant
  /-- Marking returned hits useful changes the manifests of members that served some of them. -/
  useful : ∀ manifests hits clock tenant, ManifestStore.Coherent manifests →
    hits ⊆ truncateToBudget merged.hits q.budget.maxTotalRecords →
    markUseful manifests hits clock tenant ≠ manifests tenant →
      ∃ peer ∈ q.asked D env path, peer.member.tenantId = tenant ∧
        ∃ h ∈ hits, h ∈ q.answer peer

/-- Every view that contributes hits reports the id of the member it was opened for. -/
def ReportsMembers (D : Type) [FloatLike D] [Widen F D] (q : MembraneQuery F) (env : QueryEnv F)
    (path : Path) : Prop :=
  ∀ peer ∈ q.asked D env path, ∀ view hits,
    q.peerOpener peer.member.tenantId peer.member.tenantLocation = .ok view →
      view.queryFiltered q.embedding peer.budget shareableOnly = .ok hits → hits ≠ [] →
        view.tenantId = peer.member.tenantId

/-- Under that condition each peer's hits are attributed to it, and otherwise some are not. -/
theorem origins_iff : (∀ peer ∈ q.asked D env path, ∀ h ∈ q.answer peer,
      h.origin = .remote peer.member.tenantId) ↔ ReportsMembers D q env path := by
  constructor
  · intro origins peer asked view hits opened answered filled
    obtain ⟨hit, member⟩ := List.exists_mem_of_ne_nil hits filled
    have inside : hit.toMembrane (.remote view.tenantId) ∈ q.answer peer := by
      rw [answer_view opened answered]
      exact List.mem_map_of_mem member
    exact HitOrigin.remote.inj (origins peer asked _ inside)
  · intro reports peer asked h member
    obtain ⟨view, hits, opened, answered⟩ := view_of_answer member
    rw [answer_view opened answered] at member
    obtain ⟨hit, inside, rfl⟩ := List.mem_map.mp member
    have own := reports peer asked view hits opened answered (List.ne_nil_of_mem inside)
    rw [← own]
    rfl

/-- The peers that a built query asks are other active members. -/
theorem active_of_built {c : Build} {json : LinkJson} {h : Handle F} {disk disk' : Disk F}
    {opener : Option (PeerOpener F)} {embedding : List F} {built : MembraneQuery F}
    (isBuilt : (h.queryWith c json opener embedding).run disk = .ok built disk')
    (settings : QuerySettings F) {peer : PeerAllocation}
    (asked : peer ∈ (built.configured settings).asked D env path) :
    peer.member ∈ built.members ∧ peer.member.tenantId ≠ built.localTenantId := by
  obtain ⟨other, saga, known⟩ := saga_of_asked asked
  refine ⟨?_, other⟩
  obtain ⟨-, shape⟩ := Handle.run_queryWith_ok isBuilt
  have sagas : built.sagas = (h.others built.members).filterMap disk.peerSaga := by
    conv_lhs => rw [shape]
    rfl
  have inside : (peer.member, saga) ∈ built.sagas := known
  rw [sagas] at inside
  obtain ⟨m, member, found⟩ := List.mem_filterMap.mp inside
  have same : peer.member = m := by
    unfold Disk.peerSaga at found
    split at found
    · exact (congrArg Prod.fst (Option.some.inj found)).symm
    · cases found
  rw [same]
  exact List.mem_of_mem_filter member

/-- A built query attributes hits to the members that served them exactly when every view that
contributes hits reports its member's id. -/
theorem attributed_iff {c : Build} {json : LinkJson} {h : Handle F} {disk disk' : Disk F}
    {opener : Option (PeerOpener F)} {embedding : List F} {built : MembraneQuery F}
    (isBuilt : (h.queryWith c json opener embedding).run disk = .ok built disk')
    (settings : QuerySettings F) (coherent : env.manifests.Coherent)
    (out : (built.configured settings).merge D env path.collect = .ok merged) :
    Attributed D (built.configured settings) env path merged ↔
      ReportsMembers D (built.configured settings) env path := by
  constructor
  · exact fun attributed => origins_iff.mp attributed.origins
  · intro reports
    have origins := origins_iff.mpr reports
    -- A remote hit of a tenant was served by the member with that id.
    have served : ∀ tenant, ∀ h ∈ merged.remote, h.origin = .remote tenant →
        ∃ peer ∈ (built.configured settings).asked D env path, peer.member.tenantId = tenant ∧
          h ∈ (built.configured settings).answer peer := by
      intro tenant h member attributed
      obtain ⟨peer, asked, inside⟩ := List.mem_flatMap.mp ((remote_perm out).subset member)
      have same := (origins peer asked h inside).symm.trans attributed
      exact ⟨peer, asked, HitOrigin.remote.inj same, inside⟩
    refine ⟨fun peer asked => active_of_built isBuilt settings asked, origins, ?_, ?_⟩
    · intro tenant changed
      obtain ⟨_, remote, -, answers, -, bumped, -⟩ := merge_ok out
      rw [bumped] at changed
      obtain ⟨h, member, attributed⟩ := bumpTotals_frame coherent changed
      have inside : h ∈ merged.remote := (remote_perm out).symm.subset (answers.subset member)
      obtain ⟨peer, asked, own, part⟩ := served tenant h inside attributed
      exact ⟨peer, asked, List.ne_nil_of_mem part, own⟩
    · intro manifests hits clock tenant coherent' returned changed
      obtain ⟨h, member, attributed⟩ := markUseful_frame coherent' changed
      have inside : h ∈ merged.remote := by
        refine List.mem_filter.mpr ⟨List.mem_of_mem_take (returned member), ?_⟩
        rw [attributed]
        exact decide_eq_true (fun is => by cases is)
      obtain ⟨peer, asked, own, part⟩ := served tenant h inside attributed
      exact ⟨peer, asked, own, h, member, part⟩

/-! ## A view under another name -/

/-- A peer whose view reports the given id, and finds one record. -/
def namedOpener (reported : TenantId) : PeerOpener Float32 :=
  fun _ _ => .ok ⟨reported, fun _ _ _ => .ok [⟨1, 0.5, [], none⟩]⟩

/-- The query of the sample handle is built. -/
theorem built_askingQuery (opener : PeerOpener Float32) :
    ((askingHandle opener).queryWith sampleBuild sampleJson (some opener) [1, 0, 0]).run sagaDisk =
      .ok ((askingHandle opener).builtQuery sagaDisk (some opener) [1, 0, 0] [sampleMember 7])
        sagaDisk := by
  rcases (askingHandle opener).run_queryWith (some opener) [1, 0, 0]
    (run_members_rosterLog 1 (askingHandle opener) (show sagaDisk.dir.log = _ from rfl)) with
    ⟨-, out⟩ | ⟨⟨m, -, e, unreadable⟩, -⟩
  · exact out
  · cases unreadable

/-- A view that reports its member's id has its hit attributed to the member. -/
theorem attributed_sample : ∃ merged,
    (askingQuery (namedOpener (sampleTenant 7))).merge Float sampleEnv (Path.collect .sync) =
      .ok merged ∧
    Attributed Float (askingQuery (namedOpener (sampleTenant 7))) sampleEnv .sync merged := by
  obtain ⟨merged, out⟩ := merges_askingQuery (namedOpener (sampleTenant 7)) .sync
  have coherent : sampleEnv.manifests.Coherent := fun _ _ held => by cases held
  refine ⟨merged, out, (attributed_iff (built_askingQuery (namedOpener (sampleTenant 7)))
    singleSettings coherent out).mpr ?_⟩
  intro peer asked view hits opened _ _
  have single : peer ∈ (askingQuery (namedOpener (sampleTenant 7))).asked Float sampleEnv .sync :=
    asked
  rw [asked_askingQuery] at single
  obtain rfl := List.mem_singleton.mp single
  obtain rfl := Except.ok.inj opened
  rfl

/-- Member 7 is asked, and serves a hit that is attributed to tenant 9, whose manifest counts
it. -/
theorem misnamed_view_attributed : ∃ merged,
    (askingQuery (namedOpener (sampleTenant 9))).merge Float sampleEnv (Path.collect .sync) =
      .ok merged ∧
    (askingQuery (namedOpener (sampleTenant 9))).asked Float sampleEnv .sync =
      [⟨sampleMember 7, 1⟩] ∧
    merged.remote.map MembraneHit.origin = [.remote (sampleTenant 9)] ∧
    merged.manifests (sampleTenant 9) = some ⟨sampleTenant 9, 0, 1, 0⟩ := by
  obtain ⟨merged, out⟩ := merges_askingQuery (namedOpener (sampleTenant 9)) .sync
  refine ⟨merged, out, asked_askingQuery _ _, ?_, ?_⟩
  · have remote := remote_perm out
    rw [asked_askingQuery] at remote
    exact List.perm_singleton.mp (remote.map MembraneHit.origin)
  · obtain ⟨_, remote, -, answers, -, bumped, -⟩ := merge_ok out
    rw [asked_askingQuery] at answers
    rw [bumped, List.perm_singleton.mp answers]
    decide +kernel

end Hansa
