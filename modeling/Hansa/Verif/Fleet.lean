import Hansa.Verif.Digest
import Hansa.Verif.HeadFile
import Hansa.Verif.Membership
import Hansa.Verif.Refinement

/-!
# A hansa as its members see it

Members open handles on shared files: they join, admit and revoke each other, leave, compact the
log and refresh their sagas. To them a hansa is a map of members with a dimension, and a saga for
each tenant. Every run of their calls acts on the files as on this map: each call answers what
the map says, and no head cache ever takes what the others wrote for a rollback.
-/

namespace Hansa

variable {F : Type}

/-! ## The abstract hansa -/

/-- What a hansa is for its members. -/
structure Fleet (F : Type) where
  /-- The dimension and the members. -/
  map : MemberMap
  /-- The saga of each tenant. -/
  sagas : TenantId → SagaFile F

/-- Before the first call. -/
def Fleet.initial : Fleet F := ⟨.initial, fun _ => none⟩

/-- What a member may call. -/
inductive FleetCall (F : Type) where
  /-- `Hansa::open`. -/
  | «open» (config : HansaConfig F) (now : Int64)
  /-- `Hansa::join`. -/
  | join (h : Handle F) (tags : List String) (now : Int64)
  /-- `Hansa::admit`. -/
  | admitMember (h : Handle F) (member : MemberRecord) (now : Int64)
  /-- `Hansa::revoke`. -/
  | revoke (h : Handle F) (tenant : TenantId) (now : Int64)
  /-- `Hansa::leave`. -/
  | leave (h : Handle F) (now : Int64)
  /-- `Hansa::compact`. -/
  | compact (h : Handle F) (now : Int64)
  /-- `Hansa::refresh_saga`. -/
  | refreshSaga (h : Handle F) (tags : List String) (builtAt : Int64) (seed : UInt64)

/-- How a call is to end. -/
inductive Expected where
  /-- It returns. -/
  | returns
  /-- It fails in this way. -/
  | fails (fault : Fault)
  /-- A path is refused as JSON text. -/
  | refusesPath

/-- A call ended as it was to end. -/
def Expected.Meets : Expected → Except Fault Unit → Prop
  | .returns, result => result = .ok ()
  | .fails fault, result => result = .error fault
  | .refusesPath, result => ∃ e, result = .error (.err (.json e))

namespace Fleet

/-- The fleet with a saga in the place of a tenant's. -/
def publish (fleet : Fleet F) (t : TenantId) (saga : SagaFile F) : Fleet F :=
  { fleet with sagas := Function.update fleet.sagas t saga }

/-- The fleet with other members. -/
def withMember (fleet : Fleet F) (t : TenantId) (member : Option MemberRecord) : Fleet F :=
  { fleet with map := { fleet.map with roster := Function.update fleet.map.roster t member } }

/-- An admission takes the skipper, a founded hansa, its dimension and a path that is a text. -/
def admission (fleet : Fleet F) (h : Handle F) (member : MemberRecord) : Expected × Fleet F :=
  if h.skipper.isNone then (.fails (.err .unauthorized), fleet)
  else match fleet.map.dim with
    | none => (.fails (.err (.chainBroken 0)), fleet)
    | some dim =>
      if member.embeddingDim ≠ dim then
        (.fails (.err (.dimMismatch dim member.embeddingDim)), fleet)
      else if member.IsUtf8 then (.returns, fleet.withMember member.tenantId (some member))
      else (.refusesPath, fleet)

/-- A removal takes the skipper and a founded hansa. -/
def removal (fleet : Fleet F) (h : Handle F) (tenant : TenantId) : Expected × Fleet F :=
  if h.skipper.isNone then (.fails (.err .unauthorized), fleet)
  else if fleet.map.dim.isNone then (.fails (.err (.chainBroken 0)), fleet)
  else (.returns, fleet.withMember tenant none)

/-- An opening founds the hansa, or takes a founded one. -/
def opening (fleet : Fleet F) (config : HansaConfig F) : Expected × Fleet F :=
  match config.skipper, fleet.map.dim with
  | _, some _ => (.returns, fleet)
  | some _, none =>
    (.returns, { fleet with map := ⟨some config.localTenant.embeddingDim, Roster.empty⟩ })
  | none, none =>
    (.fails (.err (.invariant "hansa not founded and no skipper to found it")), fleet)

variable {D : Type} [FloatLike F] [FloatLike D] [Widen F D]

/-- How a call is to end, and what it leaves. -/
def expect (rng : SmallRng D) (fleet : Fleet F) : FleetCall F → Expected × Fleet F
  | .open config _ => fleet.opening config
  | .join h tags now =>
    if (fleet.sagas h.localTenantId).isNone then
      match h.ownSaga rng tags now 0 with
      | .error fault => (.fails fault, fleet)
      | .ok saga =>
        (fleet.publish h.localTenantId (some (.ok saga))).admission h (h.ownRecord now)
    else fleet.admission h (h.ownRecord now)
  | .admitMember h member _ => fleet.admission h member
  | .revoke h tenant _ => fleet.removal h tenant
  | .leave h _ =>
    match fleet.removal h h.localTenantId with
    | (.returns, left) => (.returns, left.publish h.localTenantId none)
    | refused => refused
  | .compact h _ =>
    if h.skipper.isNone then (.fails (.err .unauthorized), fleet) else (.returns, fleet)
  | .refreshSaga h tags builtAt seed =>
    match h.ownSaga rng tags builtAt seed with
    | .error fault => (.fails fault, fleet)
    | .ok saga => (.returns, fleet.publish h.localTenantId (some (.ok saga)))

/-- What a call leaves. -/
def step (rng : SmallRng D) (fleet : Fleet F) (call : FleetCall F) : Fleet F :=
  (fleet.expect rng call).2

end Fleet

/-! ## The shared files -/

/-- The registry directory and the sagas, which the members share, and the head cache file in
each directory of head caches. -/
structure SharedFiles (F : Type) where
  /-- The registry's directory of the hansa. -/
  dir : HansaDir
  /-- The saga file of each tenant. -/
  sagas : TenantId → SagaFile F
  /-- The head cache file of the hansa in a directory. -/
  heads : PathBuf → Option (List UInt8)

namespace SharedFiles

/-- Before the first call. -/
def initial : SharedFiles F := ⟨.initial, fun _ => none, fun _ => none⟩

/-- The files that a call works on. -/
def disk (files : SharedFiles F) (manifests : ManifestStore) (cache : Option PathBuf) : Disk F :=
  ⟨files.dir, files.sagas, manifests, cache.bind files.heads⟩

/-- The files behind a call. -/
def after (files : SharedFiles F) (cache : Option PathBuf) (disk : Disk F) : SharedFiles F where
  dir := disk.dir
  sagas := disk.sagas
  heads := match cache with
    | none => files.heads
    | some path => Function.update files.heads path disk.head

/-- A call on the files, its result and what it leaves. -/
def perform {α : Type} (files : SharedFiles F) (manifests : ManifestStore)
    (cache : Option PathBuf) (call : HandleM F α) : Except Fault Unit × SharedFiles F :=
  match call.run (files.disk manifests cache) with
  | .ok _ disk => (.ok (), files.after cache disk)
  | .error fault disk => (.error fault, files.after cache disk)

end SharedFiles

section Calls

variable {D : Type} [FloatLike F] [FloatLike D] [Widen F D] (c : Build) (json : LinkJson)
  (rng : SmallRng D) (manifests : ManifestStore) (r : FileRegistry) (skipper : Skipper)

/-- A handle of the hansa, with or without its skipper. -/
structure Handle.Belongs (h : Handle F) : Prop where
  /-- The registry. -/
  registry : h.registry = r
  /-- The id. -/
  id : h.id = .fromSkipper c (skipper.pub c)
  /-- The key. -/
  key : ∀ own ∈ h.skipper, own = skipper

/-- A configuration of the hansa: with its skipper, or with its id. -/
structure HansaConfig.Belongs (config : HansaConfig F) : Prop where
  /-- The registry. -/
  registry : config.registry = r
  /-- The key. -/
  key : ∀ own ∈ config.skipper, own = skipper
  /-- The id, which may only be missing with the key. -/
  id : ∀ given ∈ config.hansaId, given = .fromSkipper c (skipper.pub c)
  /-- There is an id or a key. -/
  resolves : config.skipper = none → config.hansaId ≠ none

/-- The call is made on a handle of the hansa. -/
def FleetCall.Belongs : FleetCall F → Prop
  | .open config _ => config.Belongs c r skipper
  | .join h .. | .admitMember h .. | .revoke h .. | .leave h .. | .compact h ..
  | .refreshSaga h .. => h.Belongs c r skipper

/-- A call on the shared files. -/
def FleetCall.run (files : SharedFiles F) : FleetCall F → Except Fault Unit × SharedFiles F
  | .open config now => files.perform manifests config.headCacheDir (config.open c json now)
  | .join h tags now => files.perform manifests none (h.join c json rng tags now)
  | .admitMember h member now => files.perform manifests none (h.admitMember c json member now)
  | .revoke h tenant now => files.perform manifests none (h.revoke c json tenant now)
  | .leave h now => files.perform manifests none (h.leave c json now)
  | .compact h now => files.perform manifests none (h.compact c json now)
  | .refreshSaga h tags builtAt seed =>
    files.perform manifests none (h.refreshSaga rng tags builtAt seed)

/-- One call of a member. -/
def FleetCall.Step (files : SharedFiles F) (call : FleetCall F) (files' : SharedFiles F) : Prop :=
  call.Belongs c r skipper ∧ files' = (call.run c json rng manifests files).2

/-- The files present the fleet to its members. -/
structure Presents (files : SharedFiles F) (fleet : Fleet F) : Prop where
  /-- Everybody reads the members of the map, in order. -/
  members : ∀ h : Handle F, h.Belongs c r skipper → ∃ records,
    (h.members c json).run (files.disk manifests none) =
      .ok records (files.disk manifests none) ∧
    KeyedMap.Lists MemberRecord.tenantId fleet.map.roster records
  /-- The sagas are those of the fleet. -/
  sagas : files.sagas = fleet.sagas
  /-- The next call ends as it is to end. -/
  answers : ∀ call : FleetCall F, call.Belongs c r skipper →
    (fleet.expect rng call).1.Meets (call.run c json rng manifests files).1

end Calls

/-! ## What the files track -/

section Tracks

variable {c : Build} {json : LinkJson} {r : FileRegistry} {skipper : Skipper}

/-- The log goes back to this head, or behind it. -/
def Passed (c : Build) (json : LinkJson) (r : FileRegistry) (skipper : Skipper) (seq : UInt64)
    (hash : Bytes 32) (dir : HansaDir) : Prop :=
  ∃ chain out, Founded c json r skipper dir chain out ∧
    (seq < out.headSeq ∨ seq = out.headSeq ∧ hash = out.headHash)

/-- Files that a fleet is in agreement with, after some calls of the registry: the map is that of
the calls, and every head cache holds a head that the log has passed. -/
structure Tracks (c : Build) (json : LinkJson) (r : FileRegistry) (skipper : Skipper)
    (files : SharedFiles F) (fleet : Fleet F) (n : ℕ) : Prop where
  /-- The log is that of some calls of the registry, and so is the map. -/
  ops : ∃ ops : List Op, ops.length ≤ n ∧
    Run (fun dir op dir' => Op.Step c json r skipper dir op dir') .initial ops files.dir ∧
    ops.foldl MemberMap.step .initial = fleet.map
  /-- The sagas are those of the fleet. -/
  sagas : files.sagas = fleet.sagas
  /-- Cached heads are passed. -/
  heads : ∀ path bytes, files.heads path = some bytes →
    ∃ seq hash, bytes = HeadCache.store seq hash ∧ Passed c json r skipper seq hash files.dir

variable {files : SharedFiles F} {fleet : Fleet F} {n : ℕ} {dir dir' : HansaDir}

/-- A call of the registry leaves every passed head passed. -/
theorem Passed.step (correct : c.Correct) (lawful : json.Lawful) {m : MemberMap}
    (agrees : Agrees c json r skipper dir m)
    (counts : HeadCounts c json r skipper dir) {op : Op} (step : op.Step c json r skipper dir dir')
    {seq : UInt64} {hash : Bytes 32} (passed : Passed c json r skipper seq hash dir) :
    Passed c json r skipper seq hash dir' := by
  obtain ⟨chain, out, founded, head⟩ := passed
  have stays := agrees.step correct lawful step
  obtain ⟨dim, dims⟩ := agrees.dim_of_founded founded
  rw [Agrees, MemberMap.step_dim dims op] at stays
  obtain ⟨chain', out', founded', _⟩ := stays
  refine ⟨chain', out', founded', ?_⟩
  by_cases same : dir'.log = dir.log
  · have read := founded'.read
    rw [same, founded.read] at read
    have accepted := founded'.accepted
    rw [← Except.ok.inj read, founded.accepted] at accepted
    rw [← Except.ok.inj accepted]
    exact head
  · obtain ⟨_, last, read, accepted, further⟩ :=
      agrees.advances correct lawful step same counts chain out founded.read founded.accepted
    rw [founded'.read] at read
    rw [← Except.ok.inj read, founded'.accepted] at accepted
    rw [← Except.ok.inj accepted] at further
    rcases head with above | ⟨equal, _⟩
    · exact .inl (UInt64.lt_trans above further)
    · exact .inl (equal ▸ further)

/-- The files agree with the map. -/
theorem Tracks.agrees (correct : c.Correct) (lawful : json.Lawful)
    (tracks : Tracks c json r skipper files fleet n) :
    Agrees c json r skipper files.dir fleet.map := by
  obtain ⟨ops, _, run, isMap⟩ := tracks.ops
  exact isMap ▸ Agrees.run correct lawful run

/-- One more call of the registry. -/
theorem Tracks.op (correct : c.Correct) (lawful : json.Lawful)
    (tracks : Tracks c json r skipper files fleet n) (room : n < 2 ^ 62) {op : Op}
    (step : op.Step c json r skipper files.dir dir') :
    Tracks c json r skipper { files with dir := dir' }
      { fleet with map := fleet.map.step op } (n + 1) := by
  obtain ⟨ops, few, run, isMap⟩ := tracks.ops
  refine ⟨⟨ops ++ [op], ?_, run.concat step, ?_⟩, tracks.sagas, ?_⟩
  · rw [List.length_append, List.length_singleton]
    omega
  · rw [List.foldl_append, isMap]
    rfl
  · intro path bytes cached
    obtain ⟨seq, hash, isStore, passed⟩ := tracks.heads path bytes cached
    exact ⟨seq, hash, isStore, passed.step correct lawful (tracks.agrees correct lawful)
      (counts_of_run correct lawful run (.inr (by omega))) step⟩

/-- There was more room than was used. -/
theorem Tracks.wait (tracks : Tracks c json r skipper files fleet n) :
    Tracks c json r skipper files fleet (n + 1) := by
  obtain ⟨ops, few, run, isMap⟩ := tracks.ops
  exact ⟨⟨ops, Nat.le_succ_of_le few, run, isMap⟩, tracks.sagas, tracks.heads⟩

/-- A saga is published or withdrawn. -/
theorem Tracks.publish (tracks : Tracks c json r skipper files fleet n) (t : TenantId)
    (saga : SagaFile F) :
    Tracks c json r skipper { files with sagas := Function.update files.sagas t saga }
      (fleet.publish t saga) n :=
  ⟨tracks.ops, congrArg (Function.update · t saga) tracks.sagas, tracks.heads⟩

/-! ## Appends -/

/-- With two sequence numbers left, an append returns if JSON can carry its body. -/
theorem Founded.run_appendNext {chain : List Link} {out : ReplayOutcome} (correct : c.Correct)
    (lawful : json.Lawful) (founded : Founded c json r skipper dir chain out)
    (room : out.headSeq.toNat + 2 < 2 ^ 64) (body : Body) (inner : ¬ body.IsRoot) (now : Int64) :
    if body.IsUtf8 then ∃ dir', (r.appendNext c json (.fromSkipper c (skipper.pub c)) skipper body
        now).run dir = .ok () dir'
    else ∃ e, (r.appendNext c json (.fromSkipper c (skipper.pub c)) skipper body now).run dir =
        .error (.err (.json e)) dir := by
  have unpinned := (replay_pinned.mp founded.accepted).1
  have room' : UInt64.HasSucc c.profile out.headSeq := UInt64.hasSucc_of_lt (by omega)
  rw [Hansa.run_appendNext founded.read, unpinned]
  simp only [UInt64.succIn_eq room']
  by_cases carried : body.IsUtf8
  · obtain ⟨text, encoded⟩ := lawful.encodes (nextLink c skipper out body) carried
    obtain ⟨mid, founded', _, seq, _⟩ := founded.append correct lawful inner room' encoded
    rw [nextLink] at encoded
    rw [if_pos carried]
    simp only [encoded]
    by_cases grown : chain.length + 1 > checkpointAfterLinks
    · have long := not_length_concat_le_one founded.accepted (nextLink c skipper out body)
      have further : UInt64.HasSucc c.profile mid.headSeq := by
        rw [(UInt64.succIn_eq_ok.mp seq).2]
        exact UInt64.hasSucc_succ room
      obtain ⟨text', _, run⟩ := run_compact_long lawful founded'.read founded'.accepted long
        further skipper now
      rw [if_pos grown]
      exact ⟨_, run⟩
    · rw [if_neg grown]
      exact ⟨_, rfl⟩
  · obtain ⟨e, refused⟩ := lawful.refuses (nextLink c skipper out body) carried
    rw [nextLink] at refused
    rw [if_neg carried]
    simp only [refused, founded.touch]
    exact ⟨e, rfl⟩

/-- A fleet with a dimension has a log, with two sequence numbers left. -/
theorem Tracks.founded (correct : c.Correct) (lawful : json.Lawful)
    (tracks : Tracks c json r skipper files fleet n) (few : n < 2 ^ 62) {dim : UInt32}
    (dims : fleet.map.dim = some dim) :
    ∃ chain out, Founded c json r skipper files.dir chain out ∧ out.embeddingDim = dim ∧
      out.headSeq.toNat + 2 < 2 ^ 64 := by
  have agrees := tracks.agrees correct lawful
  rw [Agrees, dims] at agrees
  obtain ⟨chain, out, founded, isDim, _⟩ := agrees
  obtain ⟨ops, short, run, _⟩ := tracks.ops
  rcases head_le_run correct lawful run with absent | ⟨chain', out', founded', _, seq⟩
  · obtain ⟨bytes, log⟩ := founded.log
    exact absurd (absent.symm.trans log) (by simp)
  · have read := founded'.read
    rw [founded.read] at read
    have accepted := founded'.accepted
    rw [← Except.ok.inj read, founded.accepted] at accepted
    rw [← Except.ok.inj accepted] at seq
    exact ⟨chain, out, founded, isDim, by omega⟩

/-- A fleet without a dimension has no log. -/
theorem Tracks.unfounded (correct : c.Correct) (lawful : json.Lawful)
    (tracks : Tracks c json r skipper files fleet n) (dims : fleet.map.dim = none) :
    files.dir.log = none := by
  have agrees := tracks.agrees correct lawful
  rw [Agrees, dims] at agrees
  exact agrees.1

/-- An append that returns moves the map. -/
theorem Tracks.append (correct : c.Correct) (lawful : json.Lawful)
    (tracks : Tracks c json r skipper files fleet n) (few : n < 2 ^ 62) {dim : UInt32}
    (dims : fleet.map.dim = some dim) (body : Body) (inner : ¬ body.IsRoot)
    (carried : body.IsUtf8) {now : Int64} (op : Op)
    (isCall : op.call c json r (.fromSkipper c (skipper.pub c)) skipper =
      r.appendNext c json (.fromSkipper c (skipper.pub c)) skipper body now) :
    ∃ dir', (r.appendNext c json (.fromSkipper c (skipper.pub c)) skipper body now).run files.dir =
        .ok () dir' ∧
      Tracks c json r skipper { files with dir := dir' }
        { fleet with map := fleet.map.step op } (n + 1) := by
  obtain ⟨chain, out, founded, _, room⟩ := tracks.founded correct lawful few dims
  have appended := founded.run_appendNext correct lawful room body inner now
  rw [if_pos carried] at appended
  obtain ⟨dir', run⟩ := appended
  have step : op.Step c json r skipper files.dir dir' := by
    rw [Op.Step, isCall, run]
    exact ⟨rfl, fun _ panicked => nomatch panicked⟩
  exact ⟨dir', run, tracks.op correct lawful few step⟩

/-! ## Calls on handles -/

/-- A call ends as expected, and the files then track what is expected. -/
def EndsAs (c : Build) (json : LinkJson) (r : FileRegistry) (skipper : Skipper)
    (n : ℕ) (result : Except Fault Unit × SharedFiles F) (expected : Expected × Fleet F) : Prop :=
  expected.1.Meets result.1 ∧ Tracks c json r skipper result.2 expected.2 n

variable {α : Type} {manifests : ManifestStore} {cache : Option PathBuf} {action : HandleM F α}

/-- A call that returns. -/
theorem SharedFiles.perform_ok {a : α} {disk : Disk F}
    (run : action.run (files.disk manifests cache) = .ok a disk) :
    files.perform manifests cache action = (.ok (), files.after cache disk) := by
  rw [perform, run]

/-- A call that fails. -/
theorem SharedFiles.perform_error {fault : Fault} {disk : Disk F}
    (run : action.run (files.disk manifests cache) = .error fault disk) :
    files.perform manifests cache action = (.error fault, files.after cache disk) := by
  rw [perform, run]

/-- Files that are written back as they were read. -/
theorem SharedFiles.after_disk (files : SharedFiles F) (manifests : ManifestStore)
    (cache : Option PathBuf) : files.after cache (files.disk manifests cache) = files := by
  cases cache with
  | none => rfl
  | some path =>
    have same : Function.update files.heads path (files.heads path) = files.heads :=
      Function.update_eq_self path files.heads
    exact congrArg (SharedFiles.mk files.dir files.sagas) same

/-- A failed call that leaves the files as they were. -/
theorem Tracks.fails (tracks : Tracks c json r skipper files fleet n) {fault : Fault}
    {expected : Expected} (meets : expected.Meets (.error fault))
    (run : action.run (files.disk manifests cache) = .error fault (files.disk manifests cache)) :
    EndsAs c json r skipper (n + 1) (files.perform manifests cache action) (expected, fleet) := by
  rw [SharedFiles.perform_error run, SharedFiles.after_disk]
  exact ⟨meets, tracks.wait⟩

/-- An admission ends as the fleet says. -/
theorem Tracks.admission (tracks : Tracks c json r skipper files fleet n)
    (manifests : ManifestStore) (correct : c.Correct) (lawful : json.Lawful) (few : n < 2 ^ 62)
    {h : Handle F} (belongs : h.Belongs c r skipper) (member : MemberRecord) (now : Int64) :
    EndsAs c json r skipper (n + 1) (files.perform manifests none (h.admitMember c json member now))
      (fleet.admission h member) := by
  have run : (h.admitMember c json member now).run (files.disk manifests none) = _ :=
    h.run_admitMember member now _
  rw [belongs.registry, belongs.id] at run
  cases key : h.skipper with
  | none =>
    rw [key] at run
    rw [Fleet.admission, key, Option.isNone_none, if_pos rfl]
    exact tracks.fails rfl run
  | some own =>
    rw [key, belongs.key own key] at run
    rw [Fleet.admission, key, Option.isNone_some, if_neg Bool.false_ne_true]
    cases dims : fleet.map.dim with
    | none =>
      have absent : (files.disk manifests none).dir.log = none :=
        tracks.unfounded correct lawful dims
      rw [absent] at run
      exact tracks.fails rfl run
    | some dim =>
      obtain ⟨chain, out, founded, isDim, room⟩ := tracks.founded correct lawful few dims
      have replayed : replayLog c json (r.logPath (.fromSkipper c (skipper.pub c)))
          (files.disk manifests none).dir.log (some (.fromSkipper c (skipper.pub c))) = .ok out :=
        replayLog_eq_ok.mpr ⟨chain, founded.read, founded.accepted⟩
      simp only [replayed, isDim] at run
      by_cases other : member.embeddingDim ≠ dim
      · rw [if_pos other] at run
        simp only [if_pos other]
        exact tracks.fails rfl run
      · rw [if_neg other, HandleM.run_registry] at run
        simp only [if_neg other]
        by_cases carried : member.IsUtf8
        · obtain ⟨dir', appended, later⟩ := tracks.append correct lawful few dims
            (.admitMember member none) id carried (.admitMember member none now) rfl
          have appended' : (r.appendNext c json (.fromSkipper c (skipper.pub c)) skipper
            (.admitMember member none) now).run (files.disk manifests none).dir = .ok () dir' :=
              appended
          simp only [appended'] at run
          have admitted : fleet.map.step (.admitMember member none now) =
              (fleet.withMember member.tenantId (some member)).map :=
            if_pos ⟨by rw [dims, Option.isSome_some], carried⟩
          rw [SharedFiles.perform_ok run, if_pos carried]
          refine ⟨rfl, ?_⟩
          rw [admitted] at later
          exact later
        · have refused := founded.run_appendNext correct lawful room
            (.admitMember member none) id now
          rw [if_neg (show ¬ (Body.admitMember member none).IsUtf8 from carried)] at refused
          obtain ⟨e, failed⟩ := refused
          have failed' : (r.appendNext c json (.fromSkipper c (skipper.pub c)) skipper
            (.admitMember member none) now).run (files.disk manifests none).dir =
              .error (.err (.json e)) (files.disk manifests none).dir := failed
          simp only [failed'] at run
          rw [if_neg carried]
          exact tracks.fails ⟨e, rfl⟩ run

/-- A removal ends as the fleet says. -/
theorem Tracks.removal (tracks : Tracks c json r skipper files fleet n)
    (manifests : ManifestStore) (correct : c.Correct) (lawful : json.Lawful) (few : n < 2 ^ 62)
    {h : Handle F} (belongs : h.Belongs c r skipper) (tenant : TenantId) (now : Int64) :
    EndsAs c json r skipper (n + 1) (files.perform manifests none (h.revoke c json tenant now))
      (fleet.removal h tenant) := by
  have run : (h.revoke c json tenant now).run (files.disk manifests none) = _ :=
    h.run_revoke tenant now _
  rw [belongs.registry, belongs.id] at run
  cases key : h.skipper with
  | none =>
    rw [key] at run
    rw [Fleet.removal, key, Option.isNone_none, if_pos rfl]
    exact tracks.fails rfl run
  | some own =>
    rw [key, belongs.key own key] at run
    simp only [HandleM.run_registry] at run
    rw [Fleet.removal, key, Option.isNone_some, if_neg Bool.false_ne_true]
    cases dims : fleet.map.dim with
    | none =>
      have read : readLog json (r.logPath (.fromSkipper c (skipper.pub c)))
          (files.disk manifests none).dir.log = .ok [] := by
        rw [show (files.disk manifests none).dir.log = none from
          tracks.unfounded correct lawful dims]
        rfl
      rw [run_appendNext read] at run
      exact tracks.fails rfl run
    | some dim =>
      obtain ⟨dir', appended, later⟩ := tracks.append correct lawful few dims
        (.revoke tenant now none) id trivial (.revoke tenant now none now) rfl
      have appended' : (r.appendNext c json (.fromSkipper c (skipper.pub c)) skipper
        (.revoke tenant now none) now).run (files.disk manifests none).dir = .ok () dir' := appended
      have removed : fleet.map.step (.revoke tenant now none now) =
          (fleet.withMember tenant none).map := if_pos (by rw [dims, Option.isSome_some])
      simp only [appended'] at run
      rw [SharedFiles.perform_ok run]
      refine ⟨rfl, ?_⟩
      rw [removed] at later
      exact later

/-- A leave removes the own tenant and withdraws its saga. -/
theorem Tracks.leave (tracks : Tracks c json r skipper files fleet n)
    (manifests : ManifestStore) (correct : c.Correct) (lawful : json.Lawful) (few : n < 2 ^ 62)
    {h : Handle F} (belongs : h.Belongs c r skipper) (now : Int64) :
    EndsAs c json r skipper (n + 1) (files.perform manifests none (h.leave c json now))
      (match fleet.removal h h.localTenantId with
        | (.returns, left) => (.returns, left.publish h.localTenantId none)
        | refused => refused) := by
  obtain ⟨meets, tracks'⟩ := tracks.removal manifests correct lawful few belongs
    h.localTenantId now
  have run : (h.leave c json now).run (files.disk manifests none) = _ := h.run_leave now _
  cases removed : (h.revoke c json h.localTenantId now).run (files.disk manifests none) with
  | error fault mid =>
    rw [removed] at run
    rw [SharedFiles.perform_error removed] at meets tracks'
    rw [SharedFiles.perform_error run]
    generalize fleet.removal h h.localTenantId = refusal at meets tracks'
    obtain ⟨expected, left⟩ := refusal
    cases expected with
    | returns => cases meets
    | fails fault' => exact ⟨meets, tracks'⟩
    | refusesPath => exact ⟨meets, tracks'⟩
  | ok a mid =>
    rw [removed] at run
    rw [SharedFiles.perform_ok removed] at meets tracks'
    rw [SharedFiles.perform_ok run]
    generalize fleet.removal h h.localTenantId = removal at meets tracks'
    obtain ⟨expected, left⟩ := removal
    cases expected with
    | returns => exact ⟨rfl, tracks'.publish h.localTenantId none⟩
    | fails fault' => cases meets
    | refusesPath =>
      obtain ⟨_, absurd_⟩ := meets
      cases absurd_

/-- A compaction leaves the fleet as it was. -/
theorem Tracks.compact (tracks : Tracks c json r skipper files fleet n)
    (manifests : ManifestStore) (correct : c.Correct) (lawful : json.Lawful) (few : n < 2 ^ 62)
    {h : Handle F} (belongs : h.Belongs c r skipper) (now : Int64) :
    EndsAs c json r skipper (n + 1) (files.perform manifests none (h.compact c json now))
      (if h.skipper.isNone then (.fails (.err .unauthorized), fleet) else (.returns, fleet)) := by
  cases key : h.skipper with
  | none =>
    have run : (h.compact c json now).run (files.disk manifests none) =
        .error (.err .unauthorized) (files.disk manifests none) := by
      simp only [Handle.compact, Handle.authority, key]
      rfl
    rw [Option.isNone_none, if_pos rfl]
    exact tracks.fails rfl run
  | some own =>
    have run : (h.compact c json now).run (files.disk manifests none) =
        (HandleM.registry (r.compact c json (.fromSkipper c (skipper.pub c)) skipper now) :
          HandleM F Unit).run (files.disk manifests none) := by
      simp only [Handle.compact, Handle.authority, key, belongs.registry, belongs.id,
        belongs.key own key]
      rfl
    simp only [HandleM.run_registry] at run
    rw [Option.isNone_some, if_neg Bool.false_ne_true]
    have returned : ∃ dir', (r.compact c json (.fromSkipper c (skipper.pub c)) skipper now).run
        (files.disk manifests none).dir = .ok () dir' := by
      cases dims : fleet.map.dim with
      | none =>
        have read : readLog json (r.logPath (.fromSkipper c (skipper.pub c)))
            (files.disk manifests none).dir.log = .ok [] := by
          rw [show (files.disk manifests none).dir.log = none from
            tracks.unfounded correct lawful dims]
          rfl
        rw [FileRegistry.compact, run_checkpointLocked read]
        exact ⟨_, rfl⟩
      | some dim =>
        obtain ⟨chain, out, founded, _, room⟩ := tracks.founded correct lawful few dims
        have read : readLog json (r.logPath (.fromSkipper c (skipper.pub c)))
          (files.disk manifests none).dir.log = .ok chain := founded.read
        by_cases short : chain.length ≤ 1
        · rw [FileRegistry.compact, run_checkpointLocked read, if_pos short]
          exact ⟨_, rfl⟩
        · obtain ⟨text, _, compacted⟩ := run_compact_long lawful read founded.accepted short
            (UInt64.hasSucc_of_lt (by omega)) skipper now
          exact ⟨_, compacted⟩
    obtain ⟨dir', compacted⟩ := returned
    have step : Op.Step c json r skipper files.dir (.compact now) dir' := by
      rw [Op.Step, Op.call, show (r.compact c json (.fromSkipper c (skipper.pub c)) skipper
        now).run files.dir = .ok () dir' from compacted]
      exact ⟨rfl, fun _ panicked => by cases panicked⟩
    simp only [compacted] at run
    rw [SharedFiles.perform_ok run]
    exact ⟨rfl, tracks.op correct lawful few step⟩

section Sagas

variable {D : Type} [FloatLike F] [FloatLike D] [Widen F D] {rng : SmallRng D}

/-- A refresh publishes the own saga. -/
theorem Tracks.refreshSaga (tracks : Tracks c json r skipper files fleet n) (h : Handle F)
    (tags : List String) (builtAt : Int64) (seed : UInt64) :
    EndsAs c json r skipper (n + 1)
      (files.perform manifests none (h.refreshSaga rng tags builtAt seed))
      (match h.ownSaga rng tags builtAt seed with
        | .error fault => (.fails fault, fleet)
        | .ok saga => (.returns, fleet.publish h.localTenantId (some (.ok saga)))) := by
  have run : (h.refreshSaga rng tags builtAt seed).run (files.disk manifests none) =
      match h.ownSaga rng tags builtAt seed with
      | .error fault => .error fault (files.disk manifests none)
      | .ok saga => .ok () ((files.disk manifests none).publish h.localTenantId saga) := by
    rw [Handle.refreshSaga, EStateM.run_bind, HandleM.run_ofResult, Handle.ownSaga]
    cases buildSagaFromTenant rng h.localTenantId h.localTenant.embeddingDim
      h.localTenant.recordCount (h.localTenant.iterVectors.map Prod.snd) tags builtAt seed <;> rfl
  cases built : h.ownSaga rng tags builtAt seed with
  | error fault =>
    rw [built] at run
    exact tracks.fails rfl run
  | ok saga =>
    rw [built] at run
    rw [SharedFiles.perform_ok run]
    exact ⟨rfl, (tracks.publish h.localTenantId (some (.ok saga))).wait⟩

/-- A join publishes a missing saga and admits the own tenant. -/
theorem Tracks.join (tracks : Tracks c json r skipper files fleet n)
    (manifests : ManifestStore) (correct : c.Correct) (lawful : json.Lawful) (few : n < 2 ^ 62)
    {h : Handle F} (belongs : h.Belongs c r skipper) (tags : List String) (now : Int64) :
    EndsAs c json r skipper (n + 1) (files.perform manifests none (h.join c json rng tags now))
      (fleet.expect rng (.join h tags now)) := by
  have run : (h.join c json rng tags now).run (files.disk manifests none) = _ :=
    h.run_join tags now _
  rw [show (files.disk manifests none).sagas = fleet.sagas from tracks.sagas] at run
  rw [Fleet.expect]
  by_cases missing : (fleet.sagas h.localTenantId).isNone
  · rw [if_pos missing] at run ⊢
    cases built : h.ownSaga rng tags now 0 with
    | error fault =>
      rw [built] at run
      exact tracks.fails rfl run
    | ok saga =>
      rw [built] at run
      have admitted := (tracks.publish h.localTenantId (some (.ok saga))).admission
        manifests correct lawful few belongs (h.ownRecord now) now
      rw [SharedFiles.perform] at admitted ⊢
      rw [run]
      exact admitted
  · rw [if_neg missing] at run ⊢
    have admitted := tracks.admission manifests correct lawful few belongs
      (h.ownRecord now) now
    rw [SharedFiles.perform] at admitted ⊢
    rw [run]
    exact admitted

end Sagas

/-! ## Opening -/

/-- A configuration of the hansa resolves to its id. -/
theorem HansaConfig.Belongs.resolveId {config : HansaConfig F}
    (belongs : config.Belongs c r skipper) :
    config.resolveId c = .ok (.fromSkipper c (skipper.pub c)) := by
  rw [HansaConfig.resolveId]
  cases key : config.skipper with
  | some own =>
    have matches_ : config.hansaId.any (· ≠ .fromSkipper c (skipper.pub c)) = false := by
      cases given : config.hansaId with
      | none => rfl
      | some id => simp [belongs.id id given]
    simp only [belongs.key own key, matches_, Bool.false_eq_true, if_false]
  | none =>
    cases given : config.hansaId with
    | none => exact absurd given (belongs.resolves key)
    | some id => simp only [belongs.id id given]

/-- An opening founds or reads the log, replays it, and passes the head cache. -/
theorem HansaConfig.Belongs.run_open {config : HansaConfig F}
    (belongs : config.Belongs c r skipper) {chain : List Link} {out : ReplayOutcome}
    (disk : Disk F) (head : Option (List UInt8)) (now : Int64)
    (founds : if config.skipper.isSome then (r.found c json (.fromSkipper c (skipper.pub c)) skipper
        config.localTenant.embeddingDim now).run disk.dir = .ok () dir' else dir' = disk.dir)
    (founded : Founded c json r skipper dir' chain out)
    (passes : match config.headCacheDir with
      | none => head = disk.head
      | some path => ∃ stored, (HeadCache.mk path).checkAndRecord (.fromSkipper c (skipper.pub c))
          out.headSeq out.headHash disk.head = .ok stored ∧ head = some stored) :
    ∃ h, (config.open c json now).run disk = .ok h { disk with dir := dir', head } := by
  have some_ := ne_nil_of_replay founded.accepted
  simp only [HansaConfig.«open», belongs.resolveId, belongs.registry, EStateM.run_bind,
    HandleM.run_ofResult]
  cases key : config.skipper with
  | some own =>
    rw [key, Option.isSome_some, if_pos rfl] at founds
    simp only [belongs.key own key, HandleM.run_registry, founds, run_readChain, founded.read,
      FileM.run_ofResult, EStateM.run_bind, HandleM.run_ofResult, founded.accepted]
    cases cached : config.headCacheDir with
    | none =>
      rw [cached] at passes
      simp only at passes
      rw [passes]
      exact ⟨_, rfl⟩
    | some path =>
      rw [cached] at passes
      obtain ⟨stored, recorded, isHead⟩ := passes
      simp only [EStateM.run_bind, EStateM.run_get, HandleM.run_ofResult, recorded]
      rw [isHead]
      exact ⟨_, rfl⟩
  | none =>
    rw [key, Option.isSome_none, if_neg Bool.false_ne_true] at founds
    rw [founds] at founded
    simp only [HandleM.run_registry, run_readChain, founded.read, FileM.run_ofResult,
      EStateM.run_bind, if_neg some_, HandleM.run_ofResult, founded.accepted]
    rw [founds]
    cases cached : config.headCacheDir with
    | none =>
      rw [cached] at passes
      simp only at passes
      rw [passes]
      exact ⟨_, rfl⟩
    | some path =>
      rw [cached] at passes
      obtain ⟨stored, recorded, isHead⟩ := passes
      simp only [EStateM.run_bind, EStateM.run_get, HandleM.run_ofResult, recorded]
      rw [isHead]
      exact ⟨_, rfl⟩

/-- A founding by the skipper returns, the first time and later. -/
theorem Tracks.found (correct : c.Correct) (lawful : json.Lawful)
    (tracks : Tracks c json r skipper files fleet n) (few : n < 2 ^ 62) (embeddingDim : UInt32)
    (createdAt : Int64) :
    ∃ dir', (r.found c json (.fromSkipper c (skipper.pub c)) skipper embeddingDim createdAt).run
        files.dir = .ok () dir' ∧
      Tracks c json r skipper { files with dir := dir' }
        { fleet with map := fleet.map.step (.found embeddingDim createdAt) } (n + 1) := by
  have returned : ∃ dir', (r.found c json (.fromSkipper c (skipper.pub c)) skipper embeddingDim
      createdAt).run files.dir = .ok () dir' := by
    cases dims : fleet.map.dim with
    | none =>
      have read : readLog json (r.logPath (.fromSkipper c (skipper.pub c))) files.dir.log =
          .ok [] := by
        rw [tracks.unfounded correct lawful dims]
        rfl
      obtain ⟨text, encoded⟩ :=
        lawful.encodes (genesisLink c skipper embeddingDim createdAt) trivial
      rw [genesisLink] at encoded
      rw [run_found read, if_neg (not_not_intro rfl), run_appendLink, encoded]
      exact ⟨_, rfl⟩
    | some dim =>
      obtain ⟨chain, out, founded, _⟩ := tracks.founded correct lawful few dims
      rw [run_found founded.read, if_pos (ne_nil_of_replay founded.accepted)]
      exact ⟨_, rfl⟩
  obtain ⟨dir', run⟩ := returned
  have step : Op.Step c json r skipper files.dir (.found embeddingDim createdAt) dir' := by
    rw [Op.Step, Op.call, run]
    exact ⟨rfl, fun _ panicked => by cases panicked⟩
  exact ⟨dir', run, tracks.op correct lawful few step⟩

/-- The head of the log passes every head cache. -/
theorem Tracks.passes (tracks : Tracks c json r skipper files fleet n) {chain : List Link}
    {out : ReplayOutcome} (founded : Founded c json r skipper files.dir chain out)
    (path : PathBuf) :
    ∃ stored, (HeadCache.mk path).checkAndRecord (.fromSkipper c (skipper.pub c)) out.headSeq
        out.headHash (files.heads path) = .ok stored ∧
      Tracks c json r skipper
        { files with heads := Function.update files.heads path (some stored) } fleet n := by
  have recorded : ∀ stored, stored = HeadCache.store out.headSeq out.headHash →
      Tracks c json r skipper
        { files with heads := Function.update files.heads path (some stored) } fleet n := by
    intro stored isStored
    refine ⟨tracks.ops, tracks.sagas, fun path' bytes cached => ?_⟩
    change Function.update files.heads path (some stored) path' = some bytes at cached
    by_cases here : path' = path
    · subst here
      rw [Function.update_self] at cached
      exact ⟨out.headSeq, out.headHash, (Option.some.inj cached).symm.trans isStored, chain, out,
        founded, .inr ⟨rfl, rfl⟩⟩
    · rw [Function.update_of_ne here] at cached
      exact tracks.heads path' bytes cached
  refine ⟨_, ?_, recorded _ rfl⟩
  cases cached : files.heads path with
  | none => rfl
  | some bytes =>
    obtain ⟨seq, hash, isStore, chain', out', founded', head⟩ := tracks.heads path bytes cached
    have read := founded'.read
    rw [founded.read] at read
    have accepted := founded'.accepted
    rw [← Except.ok.inj read, founded.accepted] at accepted
    rw [← Except.ok.inj accepted] at head
    rw [isStore]
    exact HeadCache.checkAndRecord_store.mpr ⟨rfl, head⟩

/-- An opening ends as the fleet says: no head cache refuses it. -/
theorem Tracks.opening (tracks : Tracks c json r skipper files fleet n)
    (manifests : ManifestStore) (correct : c.Correct) (lawful : json.Lawful) (few : n + 1 < 2 ^ 62)
    {config : HansaConfig F} (belongs : config.Belongs c r skipper) (now : Int64) :
    EndsAs c json r skipper (n + 1)
      (files.perform manifests config.headCacheDir (config.open c json now))
      (fleet.opening config) := by
  have opens : ∀ {dir' : HansaDir} {later : Fleet F} {dim : UInt32},
      (if config.skipper.isSome then (r.found c json (.fromSkipper c (skipper.pub c)) skipper
        config.localTenant.embeddingDim now).run files.dir = .ok () dir' else dir' = files.dir) →
      Tracks c json r skipper { files with dir := dir' } later (n + 1) →
      later.map.dim = some dim →
      EndsAs c json r skipper (n + 1)
        (files.perform manifests config.headCacheDir (config.open c json now))
        (.returns, later) := by
    intro dir' later dim founds tracks' dims
    obtain ⟨chain, out, founded, _⟩ := tracks'.founded correct lawful few dims
    cases cached : config.headCacheDir with
    | none =>
      obtain ⟨h, run⟩ := belongs.run_open (files.disk manifests none) none now founds founded
        (by rw [cached]; rfl)
      rw [SharedFiles.perform_ok run]
      exact ⟨rfl, tracks'⟩
    | some path =>
      obtain ⟨stored, recorded, tracks''⟩ := tracks'.passes founded path
      obtain ⟨h, run⟩ := belongs.run_open (files.disk manifests (some path)) (some stored) now
        founds founded (by rw [cached]; exact ⟨stored, recorded, rfl⟩)
      rw [SharedFiles.perform_ok run]
      exact ⟨rfl, tracks''⟩
  cases key : config.skipper with
  | some own =>
    obtain ⟨dir', run, tracks'⟩ := tracks.found correct lawful (by omega)
      config.localTenant.embeddingDim now
    have founds : if config.skipper.isSome then (r.found c json (.fromSkipper c (skipper.pub c))
        skipper config.localTenant.embeddingDim now).run files.dir = .ok () dir'
        else dir' = files.dir := by
      rw [key, Option.isSome_some, if_pos rfl]
      exact run
    rw [Fleet.opening, key]
    cases dims : fleet.map.dim with
    | none =>
      have founded : fleet.map.step (.found config.localTenant.embeddingDim now) =
          ⟨some config.localTenant.embeddingDim, Roster.empty⟩ :=
        if_pos (by rw [dims, Option.isNone_none])
      rw [founded] at tracks'
      exact opens founds tracks' rfl
    | some dim =>
      have same : fleet.map.step (.found config.localTenant.embeddingDim now) = fleet.map :=
        if_neg (by rw [dims, Option.isNone_some]; exact Bool.false_ne_true)
      rw [same] at tracks'
      exact opens founds tracks' dims
  | none =>
    rw [Fleet.opening, key]
    cases dims : fleet.map.dim with
    | none =>
      have run : (config.open c json now).run (files.disk manifests config.headCacheDir) =
          .error (.err (.invariant "hansa not founded and no skipper to found it"))
            (files.disk manifests config.headCacheDir) := by
        have absent : (files.disk manifests config.headCacheDir).dir.log = none :=
          tracks.unfounded correct lawful dims
        simp only [HansaConfig.«open», belongs.resolveId, belongs.registry, key, EStateM.run_bind,
          HandleM.run_ofResult, HandleM.run_readChain, absent]
        rfl
      exact tracks.fails rfl run
    | some dim =>
      have founds : if config.skipper.isSome then (r.found c json (.fromSkipper c (skipper.pub c))
          skipper config.localTenant.embeddingDim now).run files.dir = .ok () files.dir
          else files.dir = files.dir := by
        rw [key, Option.isSome_none, if_neg Bool.false_ne_true]
      exact opens founds tracks.wait dims

/-! ## The whole fleet -/

section Runs

variable {D : Type} [FloatLike F] [FloatLike D] [Widen F D] {rng : SmallRng D}

/-- A call ends as the fleet says, and the files track what it leaves. -/
theorem Tracks.call (correct : c.Correct) (lawful : json.Lawful)
    (tracks : Tracks c json r skipper files fleet n) (few : n + 1 < 2 ^ 62) {call : FleetCall F}
    (belongs : call.Belongs c r skipper) :
    EndsAs c json r skipper (n + 1) (call.run c json rng manifests files)
      (fleet.expect rng call) := by
  have short : n < 2 ^ 62 := by omega
  cases call with
  | «open» config now => exact tracks.opening manifests correct lawful few belongs now
  | join h tags now => exact tracks.join manifests correct lawful short belongs tags now
  | admitMember h member now =>
    exact tracks.admission manifests correct lawful short belongs member now
  | revoke h tenant now => exact tracks.removal manifests correct lawful short belongs tenant now
  | leave h now => exact tracks.leave manifests correct lawful short belongs now
  | compact h now => exact tracks.compact manifests correct lawful short belongs now
  | refreshSaga h tags builtAt seed => exact tracks.refreshSaga h tags builtAt seed

/-- One more call of a member. -/
theorem FleetCall.runs {start : SharedFiles F} {calls : List (FleetCall F)}
    (run : Run (FleetCall.Step c json rng manifests r skipper) start calls files)
    (call : FleetCall F) (belongs : call.Belongs c r skipper) :
    Run (FleetCall.Step c json rng manifests r skipper) start (calls ++ [call])
      (call.run c json rng manifests files).2 := run.concat ⟨belongs, rfl⟩

/-- The files track the fleet along every run. -/
theorem Tracks.run (correct : c.Correct) (lawful : json.Lawful) {calls : List (FleetCall F)}
    (run : Run (FleetCall.Step c json rng manifests r skipper) .initial calls files)
    (few : calls.length < 2 ^ 62) :
    Tracks c json r skipper files (calls.foldl (Fleet.step rng) .initial) calls.length := by
  refine run.labelled (fun files calls => calls.length < 2 ^ 62 → Tracks c json r skipper files
    (calls.foldl (Fleet.step rng) .initial) calls.length) ?_ ?_ few
  · intro _
    exact ⟨⟨[], Nat.le_refl 0, .nil, rfl⟩, rfl, fun _ _ absent => nomatch absent⟩
  · intro files call files' calls ih step few
    obtain ⟨belongs, left⟩ := step
    rw [List.length_append, List.length_singleton] at few ⊢
    have tracks := ih (by omega)
    rw [left, List.foldl_append]
    exact (tracks.call correct lawful few belongs).2

/-- The shared files refine the fleet: after every run of calls by members, everybody reads the
members of the map, the sagas are those of the map, and each call ends as the map says. Members
with a head cache are never refused. -/
theorem fleet_refines (correct : c.Correct) (lawful : json.Lawful) {calls : List (FleetCall F)}
    (run : Run (FleetCall.Step c json rng manifests r skipper) .initial calls files)
    (few : calls.length + 1 < 2 ^ 62) :
    Presents c json rng manifests r skipper files (calls.foldl (Fleet.step rng) .initial) := by
  have tracks := Tracks.run correct lawful run (by omega)
  refine ⟨fun h belongs => ?_, tracks.sagas, fun call belongs => ?_⟩
  · obtain ⟨records, listed, lists⟩ := (tracks.agrees correct lawful).members
    refine ⟨records, ?_, lists⟩
    rw [Handle.members, HandleM.run_registry, belongs.registry, belongs.id,
      show (r.members c json (.fromSkipper c (skipper.pub c))).run
        (files.disk manifests none).dir = .ok records files.dir from listed]
    rfl
  · exact (tracks.call correct lawful few belongs).1

end Runs

end Tracks

/-! ## A founder and a returning member -/

/-- A founder that keeps a head cache. -/
def founderConfig : HansaConfig Float32 where
  skipper := some (sampleSkipper 1)
  hansaId := none
  registry := ⟨⟨[]⟩⟩
  localTenant := sampleHandle.localTenant
  localTenantId := sampleTenant 1
  localTenantLocation := .http "" none
  peerOpener := none
  defaultBudget := .default
  headCacheDir := some ⟨[]⟩
  asyncPeerOpener := none

/-- The handle of the founder. -/
def founderHandle : Handle Float32 := { sampleHandle with skipper := some (sampleSkipper 1) }

/-- The founder opens the hansa, joins, and opens it again. -/
def founderCalls : List (FleetCall Float32) :=
  [.open founderConfig 0, .join founderHandle [] 1, .open founderConfig 2]

/-- The founder's configuration is one of the hansa. -/
theorem founderConfig_belongs : founderConfig.Belongs sampleBuild ⟨⟨[]⟩⟩ (sampleSkipper 1) where
  registry := rfl
  key _ isOwn := (Option.some.inj isOwn).symm
  id _ absent := nomatch absent
  resolves absent := nomatch absent

/-- The founder's handle is one of the hansa. -/
theorem founderHandle_belongs : founderHandle.Belongs sampleBuild ⟨⟨[]⟩⟩ (sampleSkipper 1) where
  registry := rfl
  id := rfl
  key _ isOwn := (Option.some.inj isOwn).symm

/-- What the founder's calls leave. -/
noncomputable def founderFiles : SharedFiles Float32 :=
  founderCalls.foldl (fun files call =>
    (call.run sampleBuild sampleJson sampleRng (fun _ => none) files).2) .initial

/-- The founder's calls are a run. -/
theorem founderCalls_run : Run (FleetCall.Step sampleBuild sampleJson sampleRng (fun _ => none)
    ⟨⟨[]⟩⟩ (sampleSkipper 1)) .initial founderCalls founderFiles := by
  have none_ : Run (FleetCall.Step sampleBuild sampleJson sampleRng (fun _ => none) ⟨⟨[]⟩⟩
    (sampleSkipper 1)) .initial [] (.initial : SharedFiles Float32) := .nil
  have opened := FleetCall.runs none_ (.open founderConfig 0) founderConfig_belongs
  have joined := FleetCall.runs opened (.join founderHandle [] 1) founderHandle_belongs
  exact FleetCall.runs joined (.open founderConfig 2) founderConfig_belongs

/-- The founder is a member then, and its head cache lets it in again. -/
theorem fleet_refines_sample :
    (founderCalls.foldl (Fleet.step sampleRng) .initial).map.roster (sampleTenant 1) =
        some (founderHandle.ownRecord 1) ∧
      ((FleetCall.open founderConfig 3).run sampleBuild sampleJson sampleRng (fun _ => none)
        founderFiles).1 = .ok () ∧
      Presents sampleBuild sampleJson sampleRng (fun _ => none) ⟨⟨[]⟩⟩ (sampleSkipper 1)
        founderFiles (founderCalls.foldl (Fleet.step sampleRng) .initial) := by
  have presents := fleet_refines sampleBuild_correct sampleJson_lawful founderCalls_run (by decide)
  have again := presents.answers (.open founderConfig 3) founderConfig_belongs
  exact ⟨by decide +kernel, again, presents⟩

end Hansa
