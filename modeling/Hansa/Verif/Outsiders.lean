import Hansa.Verif.Crossing
import Hansa.Verif.HandleInstance
import Hansa.Verif.Refinement

/-!
# Tenants outside the hansa

What a query returns depends on the members that the log names, on their saga files, their
manifests and their vaults. A tenant that was never admitted, or that was revoked since, may
have left or forged any of these: no query notices it.
-/

namespace Hansa

variable {c : Build} {json : LinkJson} {h : Handle Float32} {disk disk' : Disk Float32}
  {opener opener' : Option (PeerOpener Float32)} {env env' : QueryEnv Float32}

/-! ## What a query returns -/

/-- The hits and the diagnostics of a query that is built, configured and run. -/
def Handle.answer (c : Build) (json : LinkJson) (h : Handle Float32)
    (opener : Option (PeerOpener Float32)) (embedding : List Float32)
    (settings : QuerySettings Float32) (path : Path) (env : QueryEnv Float32)
    (disk : Disk Float32) : Result (List (MembraneHit Float32) × MembraneStats) :=
  match (h.queryWith c json opener embedding).run disk with
  | .error fault _ => .error fault
  | .ok q _ => ((q.configured settings).executeOn path env).map fun out => (out.1, out.2.1)

/-- The loop over the members, as a function of the saga files. -/
def Handle.sagasOf (h : Handle Float32) (files : TenantId → SagaFile Float32) :
    List MemberRecord → Result (List (MemberRecord × Saga Float32))
  | [] => .ok []
  | m :: members =>
    if m.tenantId = h.localTenantId then h.sagasOf files members
    else match files m.tenantId with
      | none => h.sagasOf files members
      | some (.error e) => .error (.err (.hull e))
      | some (.ok saga) => (h.sagasOf files members).map ((m, saga) :: ·)

/-- The loop reads the saga files and leaves them. -/
theorem Handle.run_loadSagas_eq (members : List MemberRecord) (disk : Disk Float32) :
    (h.loadSagas members).run disk = match h.sagasOf disk.sagas members with
      | .ok sagas => .ok sagas disk
      | .error fault => .error fault disk := by
  induction members with
  | nil => rfl
  | cons m members ih =>
    rw [Handle.loadSagas, Handle.sagasOf]
    by_cases own : m.tenantId = h.localTenantId
    · rw [if_pos own, if_pos own]
      exact ih
    · rw [if_neg own, if_neg own]
      simp only [EStateM.run_bind, Handle.run_loadPeerSaga]
      cases file : disk.sagas m.tenantId with
      | none => exact ih
      | some content =>
        cases content with
        | error e => rfl
        | ok saga =>
          simp only [EStateM.run_bind, ih]
          cases h.sagasOf disk.sagas members <;> rfl

/-- The loop depends on the saga files of the other members. -/
theorem Handle.sagasOf_congr {files files' : TenantId → SagaFile Float32}
    {members : List MemberRecord}
    (alike : ∀ m ∈ h.others members, files m.tenantId = files' m.tenantId) :
    h.sagasOf files members = h.sagasOf files' members := by
  induction members with
  | nil => rfl
  | cons m members ih =>
    have later : ∀ m ∈ h.others members, files m.tenantId = files' m.tenantId := by
      intro m' member
      obtain ⟨inside, other⟩ := List.mem_filter.mp member
      exact alike m' (List.mem_filter.mpr ⟨List.mem_cons_of_mem _ inside, other⟩)
    rw [Handle.sagasOf, Handle.sagasOf, ih later]
    by_cases own : m.tenantId = h.localTenantId
    · rw [if_pos own, if_pos own]
    · have here := alike m (List.mem_filter.mpr ⟨List.mem_cons_self, decide_eq_true own⟩)
      rw [if_neg own, if_neg own, here]

/-- The query that is built from members and sagas. -/
def Handle.queryOf (h : Handle Float32) (opener : Option (PeerOpener Float32))
    (embedding : List Float32) (members : List MemberRecord)
    (sagas : List (MemberRecord × Saga Float32)) : MembraneQuery Float32 :=
  { localTenant := h.localTenant
    localTenantId := h.localTenantId
    peerOpener := opener.getD Handle.placeholderOpener
    embedding
    members
    sagas
    topK := 10
    budget := h.defaultBudget
    minSimilarity := -FloatLike.infinity
    localOnly := opener.isNone
    deadline := none }

/-- Building a query reads the members, then the sagas. -/
theorem Handle.run_queryWith_eq (opener : Option (PeerOpener Float32)) (embedding : List Float32)
    (disk : Disk Float32) :
    (h.queryWith c json opener embedding).run disk =
      match membersOf c json (h.registry.logPath h.id) disk.dir.log with
      | .error fault => .error fault disk
      | .ok members => match h.sagasOf disk.sagas members with
        | .error fault => .error fault disk
        | .ok sagas => .ok (h.queryOf opener embedding members sagas) disk := by
  simp only [Handle.queryWith, EStateM.run_bind, Handle.run_members, HandleM.run_ofResult]
  cases membersOf c json (h.registry.logPath h.id) disk.dir.log with
  | error fault => rfl
  | ok members =>
    simp only [Handle.run_loadSagas_eq]
    cases h.sagasOf disk.sagas members <;> rfl

/-- Sagas are those of other members. -/
theorem Handle.mem_of_sagasOf {files : TenantId → SagaFile Float32}
    {members : List MemberRecord} {sagas : List (MemberRecord × Saga Float32)}
    (loaded : h.sagasOf files members = .ok sagas) {peer : MemberRecord × Saga Float32}
    (member : peer ∈ sagas) : peer.1 ∈ h.others members := by
  induction members generalizing sagas with
  | nil =>
    cases loaded
    cases member
  | cons m members ih =>
    have later : ∀ {sagas'}, h.sagasOf files members = .ok sagas' → peer ∈ sagas' →
        peer.1 ∈ h.others (m :: members) := by
      intro sagas' loaded' member'
      obtain ⟨inside, other⟩ := List.mem_filter.mp (ih loaded' member')
      exact List.mem_filter.mpr ⟨List.mem_cons_of_mem _ inside, other⟩
    rw [Handle.sagasOf] at loaded
    by_cases own : m.tenantId = h.localTenantId
    · rw [if_pos own] at loaded
      exact later loaded member
    · rw [if_neg own] at loaded
      cases file : files m.tenantId with
      | none =>
        rw [file] at loaded
        exact later loaded member
      | some content =>
        rw [file] at loaded
        cases content with
        | error e => cases loaded
        | ok saga =>
          cases rest : h.sagasOf files members with
          | error fault =>
            simp only [rest] at loaded
            cases loaded
          | ok sagas' =>
            simp only [rest] at loaded
            have whole := Except.ok.inj loaded
            rw [← whole] at member
            rcases List.mem_cons.mp member with rfl | inside
            · exact List.mem_filter.mpr ⟨List.mem_cons_self, decide_eq_true own⟩
            · exact later rest inside

/-! ## Queries that look alike -/

/-- Two runs of a query that differ in what concerns others than some members: manifests, and
what opening a tenant yields. -/
structure LookAlike (peers : List MemberRecord) (env env' : QueryEnv Float32)
    (opener opener' : PeerOpener Float32) : Prop where
  /-- Build, clock, sorting and timing are the same. -/
  rest : env' = { env with manifests := env'.manifests }
  /-- The members' manifests are the same. -/
  manifests : ∀ m ∈ peers, env.manifests m.tenantId = env'.manifests m.tenantId
  /-- Opening the members' tenants yields the same. -/
  opens : ∀ m ∈ peers, ∀ location, opener m.tenantId location = opener' m.tenantId location

variable {q : MembraneQuery Float32} {peerOpener peerOpener' : PeerOpener Float32}

/-- Steps that agree on the elements have the same results. -/
theorem mapM_congr {α β : Type} {f g : α → Result β} {xs : List α}
    (same : ∀ x ∈ xs, f x = g x) : xs.mapM f = xs.mapM g := by
  induction xs with
  | nil => rfl
  | cons x xs ih =>
    rw [List.mapM_cons, List.mapM_cons, same x List.mem_cons_self,
      ih fun x member => same x (List.mem_cons_of_mem _ member)]

/-- The allocation depends on the manifests of the peers with a saga. -/
theorem allocation_alike (alike : LookAlike (q.sagas.map Prod.fst) env env' peerOpener peerOpener')
    (opener : PeerOpener Float32) :
    MembraneQuery.allocation Float { q with peerOpener := opener } env' =
      q.allocation Float env := by
  have scores : ∀ peer ∈ q.sagas.filter fun peer => peer.1.tenantId ≠ q.localTenantId,
      MembraneQuery.biasedScore { q with peerOpener := opener } env' peer =
        q.biasedScore env peer := by
    intro peer member
    have known := List.mem_map_of_mem (f := Prod.fst) (List.mem_of_mem_filter member)
    have same := alike.manifests peer.1 known
    rw [MembraneQuery.biasedScore, MembraneQuery.biasedScore, alike.rest, ManifestStore.read,
      ManifestStore.read, same]
  have scored : MembraneQuery.scored { q with peerOpener := opener } env' = q.scored env := by
    rw [MembraneQuery.scored, MembraneQuery.scored]
    exact congrArg (· >>= _) (mapM_congr scores)
  rw [MembraneQuery.allocation, MembraneQuery.allocation, scored, alike.rest]

/-- Peers that are allocated a budget have a saga. -/
theorem mem_of_allocation {allocation : List PeerAllocation}
    (allocated : q.allocation Float env = .ok allocation) {peer : PeerAllocation}
    (member : peer ∈ allocation) : peer.member ∈ q.sagas.map Prod.fst := by
  obtain ⟨scored, out, rest⟩ := Except.bind_eq_ok.mp allocated
  obtain ⟨ranked, sorted, computed⟩ := Except.bind_eq_ok.mp rest
  obtain ⟨score, known⟩ := scored_of_allocated computed member
  obtain ⟨_, saga, inside⟩ := saga_of_scored out ((StdSort.perm_of_sortBy sorted).subset known)
  exact List.mem_map_of_mem (f := Prod.fst) inside

/-- Runs that look alike merge the same. -/
theorem merge_alike (alike : LookAlike (q.sagas.map Prod.fst) env env' peerOpener peerOpener')
    (opens : q.peerOpener = peerOpener) (path : Path) :
    (MembraneQuery.merge Float { q with peerOpener := peerOpener' } env' path.collect).map
        (fun merged => (merged.hits, merged.stats)) =
      (q.merge Float env path.collect).map fun merged => (merged.hits, merged.stats) := by
  have locals : MembraneQuery.localHits { q with peerOpener := peerOpener' } = q.localHits := rfl
  have same := allocation_alike alike peerOpener'
  simp only [MembraneQuery.merge, locals, same]
  cases q.localHits with
  | error fault => rfl
  | ok hits =>
    simp only [ok_bind]
    by_cases stays : q.localOnly = true
    · rw [if_pos stays, if_pos stays]
      rfl
    · rw [if_neg stays, if_neg stays]
      cases allocated : q.allocation Float env with
      | error fault => rfl
      | ok allocation =>
        -- The workers are the same, because they open members that have a saga.
        have workers : spawn env'.schedule peerOpener' q.embedding allocation =
            spawn env.schedule q.peerOpener q.embedding allocation := by
          rw [spawn, spawn, alike.rest]
          apply List.map_congr_left
          intro peer member
          have known := mem_of_allocation allocated (List.fst_mem_of_mem_zipIdx member)
          have opened := alike.opens peer.1.member known peer.1.member.tenantLocation
          rw [openAndQuery, openAndQuery, opens, opened]
        simp only [ok_bind, workers]
        have sorts : env'.sort = env.sort := by rw [alike.rest]
        have schedules : env'.schedule = env.schedule := by rw [alike.rest]
        rw [sorts, schedules]
        cases env.sort.sortBy (fun a b => descending a.similarity b.similarity)
          (hits ++ (gather path.collect env.schedule q.deadline
            (spawn env.schedule q.peerOpener q.embedding allocation)).hits) <;> rfl

/-- Either path returns what is merged, cut to the budget. -/
theorem executeOn_map (q : MembraneQuery Float32) (path : Path) (env : QueryEnv Float32) :
    (q.executeOn path env).map (fun out => (out.1, out.2.1)) =
      ((q.merge Float env path.collect).map fun merged => (merged.hits, merged.stats)).map
        fun out => (truncateToBudget out.1 q.budget.maxTotalRecords, out.2) := by
  cases path with
  | sync =>
    show (q.merge Float env collectSync >>= _).map _ = ((q.merge Float env collectSync).map _).map _
    cases q.merge Float env collectSync <;> rfl
  | async =>
    show (q.merge Float env collectAsync >>= _).map _ =
      ((q.merge Float env collectAsync).map _).map _
    cases q.merge Float env collectAsync <;> rfl

/-- Queries return the same when the registry's directory is the same, and for all other members
saga files, manifests and what opening them yields. -/
theorem Handle.answer_alike (dirs : disk.dir = disk'.dir) {members : List MemberRecord}
    (listed : membersOf c json (h.registry.logPath h.id) disk.dir.log = .ok members)
    (sagas : ∀ m ∈ h.others members, disk.sagas m.tenantId = disk'.sagas m.tenantId)
    (openers : opener.isNone = opener'.isNone)
    (alike : LookAlike (h.others members) env env' (opener.getD Handle.placeholderOpener)
      (opener'.getD Handle.placeholderOpener))
    (embedding : List Float32) (settings : QuerySettings Float32) (path : Path) :
    h.answer c json opener' embedding settings path env' disk' =
      h.answer c json opener embedding settings path env disk := by
  have files := Handle.sagasOf_congr (h := h) sagas
  rw [Handle.answer, Handle.answer, Handle.run_queryWith_eq, Handle.run_queryWith_eq, ← dirs,
    listed]
  simp only [← files]
  cases loaded : h.sagasOf disk.sagas members with
  | error fault => rfl
  | ok loadedSagas =>
    let q := (h.queryOf opener embedding members loadedSagas).configured settings
    have peers : LookAlike (q.sagas.map Prod.fst) env env' q.peerOpener
        (opener'.getD Handle.placeholderOpener) := by
      have inside : ∀ m ∈ q.sagas.map Prod.fst, m ∈ h.others members := by
        intro m member
        obtain ⟨peer, known, same⟩ := List.mem_map.mp member
        exact same ▸ Handle.mem_of_sagasOf loaded known
      exact ⟨alike.rest, fun m member => alike.manifests m (inside m member),
        fun m member => alike.opens m (inside m member)⟩
    have other : (h.queryOf opener' embedding members loadedSagas).configured settings =
        { q with peerOpener := opener'.getD Handle.placeholderOpener } := by
      simp only [q, Handle.queryOf, MembraneQuery.configured, openers]
    show (((h.queryOf opener' embedding members loadedSagas).configured settings).executeOn path
      env').map _ = (q.executeOn path env).map _
    rw [other, executeOn_map, executeOn_map, merge_alike peers rfl path]

/-! ## Who is a member after a run -/

/-- The record with which a tenant is a member after a run of calls: the one of its last admission
that was not refused, until it is revoked. -/
def memberAfter (ops : List Op) : Roster := (ops.foldl MemberMap.step .initial).roster

/-- The members that a handle reads after a run of registry calls with the skipper's key. -/
theorem Handle.members_of_run {r : FileRegistry} {skipper : Skipper} (correct : c.Correct)
    (lawful : json.Lawful) {ops : List Op} {dir : HansaDir}
    (run : Run (fun dir op dir' => Op.Step c json r skipper dir op dir') .initial ops dir)
    (registry : h.registry = r) (id : h.id = .fromSkipper c (skipper.pub c))
    (stored : disk.dir = dir) : ∃ records,
      membersOf c json (h.registry.logPath h.id) disk.dir.log = .ok records ∧
        KeyedMap.Lists MemberRecord.tenantId (memberAfter ops) records := by
  obtain ⟨records, called, lists⟩ := (Agrees.run correct lawful run).members
  have members : (h.members c json).run disk = _ := h.run_members disk
  rw [Handle.members, HandleM.run_registry, registry, id, stored, called] at members
  refine ⟨records, ?_, lists⟩
  rw [registry, id, stored]
  exact ((HandleM.run_ofResult_ok).mp members.symm).1

/-- What a query returns, after any run of registry calls with the skipper's key, depends on no
other tenant than the members of the map that the calls leave: neither on its saga file, nor on
its manifest, nor on what opening it yields. -/
theorem outsiders_unnoticed {r : FileRegistry} {skipper : Skipper} (correct : c.Correct)
    (lawful : json.Lawful) {ops : List Op} {dir : HansaDir}
    (run : Run (fun dir op dir' => Op.Step c json r skipper dir op dir') .initial ops dir)
    (registry : h.registry = r) (id : h.id = .fromSkipper c (skipper.pub c))
    (stored : disk.dir = dir) (stored' : disk'.dir = dir)
    (rest : env' = { env with manifests := env'.manifests })
    (openers : opener.isSome = opener'.isSome)
    (alike : ∀ t, (memberAfter ops t).isSome → t ≠ h.localTenantId →
      disk.sagas t = disk'.sagas t ∧ env.manifests t = env'.manifests t ∧
      ∀ opens ∈ opener, ∀ opens' ∈ opener', ∀ location, opens t location = opens' t location)
    (embedding : List Float32) (settings : QuerySettings Float32) (path : Path) :
    h.answer c json opener' embedding settings path env' disk' =
      h.answer c json opener embedding settings path env disk := by
  obtain ⟨records, listed, lists⟩ := Handle.members_of_run correct lawful run registry id stored
  have admitted : ∀ m ∈ h.others records, (memberAfter ops m.tenantId).isSome ∧
      m.tenantId ≠ h.localTenantId := by
    intro m member
    obtain ⟨inside, other⟩ := List.mem_filter.mp member
    have isMember := (lists.mem_iff m).mp inside
    exact ⟨Option.isSome_of_eq_some isMember, of_decide_eq_true other⟩
  have same : LookAlike (h.others records) env env' (opener.getD Handle.placeholderOpener)
      (opener'.getD Handle.placeholderOpener) := by
    refine ⟨rest, fun m member => ?_, fun m member location => ?_⟩
    · exact (alike _ (admitted m member).1 (admitted m member).2).2.1
    · have opens := (alike _ (admitted m member).1 (admitted m member).2).2.2
      cases opener with
      | none =>
        cases opener' with
        | none => rfl
        | some opens' => cases openers
      | some opens₁ =>
        cases opener' with
        | none => cases openers
        | some opens₂ => exact opens opens₁ rfl opens₂ rfl location
  have locals : opener.isNone = opener'.isNone := by
    rw [← Option.not_isSome, ← Option.not_isSome, openers]
  exact Handle.answer_alike (stored.trans stored'.symm) listed
    (fun m member => (alike _ (admitted m member).1 (admitted m member).2).1) locals same
    embedding settings path

/-! ## A revoked tenant beside a member -/

/-- The skipper founds the hansa, admits two members and revokes the second. -/
def admittingOps : List Op :=
  [.found 3 0, .admitMember (sampleMember 7) none 0, .admitMember (sampleMember 8) none 0,
    .revoke (sampleTenant 8) 0 none 1]

/-- The first is a member. -/
theorem memberAfter_admittingOps :
    memberAfter admittingOps = Roster.ofRecords [sampleMember 7] := by
  have first : (sampleMember 7).IsUtf8 := by decide
  have second : (sampleMember 8).IsUtf8 := by decide
  have left : Function.update Roster.empty (sampleTenant 7) (some (sampleMember 7))
      (sampleTenant 8) = none := by
    rw [Function.update_of_ne (by decide)]
    rfl
  simp only [memberAfter, admittingOps, List.foldl_cons, List.foldl_nil, MemberMap.step,
    MemberMap.initial, Option.isNone_none, if_true, Option.isSome_some, first, second, and_self]
  show Function.update (Function.update (Function.update Roster.empty (sampleTenant 7) _)
    (sampleTenant 8) _) (sampleTenant 8) none = _
  rw [Function.update_idem]
  exact Function.update_eq_self_iff.mpr left.symm

/-- The member's record is returned. -/
theorem answer_admitting {dir : HansaDir} (run : Run (Op.Step sampleBuild sampleJson ⟨⟨[]⟩⟩
      (sampleSkipper 1)) .initial admittingOps dir) :
    ∃ stats, (askingHandle sharingOpener).answer sampleBuild sampleJson (some sharingOpener)
      [1, 0, 0] singleSettings .sync sampleEnv { sagaDisk with dir } =
        .ok ([sharedHit 7], stats) := by
  let disk : Disk Float32 := { sagaDisk with dir }
  have listed : membersOf sampleBuild sampleJson ((askingHandle sharingOpener).registry.logPath
      (askingHandle sharingOpener).id) disk.dir.log = .ok [sampleMember 7] := by
    have registry : (askingHandle sharingOpener).registry = ⟨⟨[]⟩⟩ := rfl
    have id : (askingHandle sharingOpener).id = sampleId 1 := rfl
    obtain ⟨records, listed, lists⟩ := Handle.members_of_run sampleBuild_correct
      sampleJson_lawful run registry id (show disk.dir = dir from rfl)
    rw [memberAfter_admittingOps] at lists
    rwa [lists.unique (Roster.lists_ofRecords (List.pairwise_singleton _ _))] at listed
  obtain ⟨merged, out⟩ := merges_askingQuery sharingOpener .sync
  obtain ⟨found, remote, searched, answers, whole, _, _⟩ := merge_ok out
  have none_ : found = [] := (Except.ok.inj searched).symm
  have single : merged.hits = [sharedHit 7] := by
    rw [asked_askingQuery, List.flatMap_singleton, answer_sharing] at answers
    rw [none_, List.map_nil, List.nil_append] at whole
    exact List.perm_singleton.mp (whole.trans answers)
  have built : ((askingHandle sharingOpener).queryOf (some sharingOpener) [1, 0, 0]
      [sampleMember 7] [(sampleMember 7, sampleSaga [1, 0, 0])]).configured singleSettings =
      askingQuery sharingOpener := rfl
  have loaded : (askingHandle sharingOpener).sagasOf sagaDisk.sagas [sampleMember 7] =
      .ok [(sampleMember 7, sampleSaga [1, 0, 0])] := rfl
  refine ⟨merged.stats, ?_⟩
  rw [Handle.answer, Handle.run_queryWith_eq, listed]
  simp only [loaded, built]
  rw [MembraneQuery.executeOn_ok.mpr ⟨merged, out, rfl⟩, single]
  rfl

/-- The revoked tenant leaves a saga that cannot be read, a manifest, and a vault that cannot be
opened. -/
theorem outsiders_unnoticed_sample : ∃ dir stats,
    (askingHandle sharingOpener).answer sampleBuild sampleJson (some sharingOpener) [1, 0, 0]
      singleSettings .sync sampleEnv { sagaDisk with dir } = .ok ([sharedHit 7], stats) ∧
    (askingHandle sharingOpener).answer sampleBuild sampleJson
      (some fun t location =>
        if t = sampleTenant 8 then .error .panic else sharingOpener t location)
      [1, 0, 0] singleSettings .sync
      { sampleEnv with
        manifests := Function.update sampleEnv.manifests (sampleTenant 8)
          (some ⟨sampleTenant 8, 9, 9, 0⟩) }
      { sagaDisk with
        dir
        sagas := Function.update sagaDisk.sagas (sampleTenant 8) (some (.error "bad magic")) } =
      .ok ([sharedHit 7], stats) := by
  obtain ⟨dir, run⟩ := exists_run sampleBuild_correct sampleJson_lawful ⟨⟨[]⟩⟩ (sampleSkipper 1)
    admittingOps (by decide)
  obtain ⟨stats, answered⟩ := answer_admitting run
  refine ⟨dir, stats, answered, Eq.trans ?_ answered⟩
  apply outsiders_unnoticed sampleBuild_correct sampleJson_lawful run
  · rfl
  · rfl
  · rfl
  · rfl
  · rfl
  · rfl
  · intro t isMember _
    have inside : t ≠ sampleTenant 8 := by
      rintro rfl
      rw [memberAfter_admittingOps] at isMember
      cases isMember
    refine ⟨(Function.update_of_ne inside _ _).symm, (Function.update_of_ne inside _ _).symm, ?_⟩
    rintro opens ⟨⟩ opens' ⟨⟩ location
    exact (if_neg inside).symm

end Hansa
