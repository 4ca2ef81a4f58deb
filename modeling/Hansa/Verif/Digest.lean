import Hansa.Background
import Hansa.Verif.CentroidCount
import Hansa.Verif.HandleInstance
import Hansa.Verif.Membership

/-!
# What a digest tells about private records

The saga that other members read is built from every vector of its owner's tenant and counts
every record: neither the refresh, nor joining, nor the background task asks whether a record
is shareable. So private records are kept only by a call that writes no saga, for whatever
tenant with the same shareable records: any other call publishes a count, and while there are
fewer than 100000 shareable records also a number of centroids, that private records decide. A
private vector can be a centroid as it stands.
-/

namespace Hansa

/-! ## Tenants with private records -/

/-- A record of a tenant. -/
structure Record (F : Type) where
  /-- Record identifier. -/
  recordId : UInt64
  /-- The record's vector. -/
  vector : List F
  /-- Whether the owner shares the record. -/
  shareable : Bool
  deriving DecidableEq

/-- The records of a tenant of a dimension. -/
structure TenantState (F : Type) (embeddingDim : UInt32) where
  /-- All records, the private ones included. -/
  records : List (Record F)
  /-- No two records have one identifier. -/
  ids : (records.map Record.recordId).Nodup
  /-- Every vector has the tenant's dimension. -/
  dims : ∀ r ∈ records, r.vector.length = embeddingDim.toNat

namespace TenantState

variable {F : Type} {embeddingDim : UInt32}

/-- The records that the owner shares. -/
def shared (s : TenantState F embeddingDim) : List (Record F) := s.records.filter Record.shareable

/-- The tenant that holds these records, with its way of answering queries. It counts all
records and yields all vectors. -/
def tenant (s : TenantState F embeddingDim) (queryFiltered : QueryFiltered F) : Tenant F where
  embeddingDim := embeddingDim
  recordCount := UInt64.ofNat s.records.length
  iterVectors := s.records.map fun r => (r.recordId, r.vector)
  queryFiltered := queryFiltered

/-- A number of identifiers below all of them leaves one free. -/
theorem exists_fresh (ids : List UInt64) (room : ids.length < 2 ^ 64) : ∃ id, id ∉ ids := by
  by_contra all
  have covered : ∀ id, id ∈ ids := fun id => not_not.mp fun free => all ⟨id, free⟩
  have apart : ((List.range (2 ^ 64)).map UInt64.ofNat).Nodup := by
    refine List.nodup_range.map_on fun i below j below' same => ?_
    have values := congrArg UInt64.toNat same
    rw [List.mem_range] at below below'
    rwa [UInt64.toNat_ofNat_of_lt' below, UInt64.toNat_ofNat_of_lt' below'] at values
  have few := (apart.subperm fun id _ => covered id).length_le
  rw [List.length_map, List.length_range] at few
  exact absurd room (not_lt.mpr few)

/-- The tenant without its private records. -/
def sharing (s : TenantState F embeddingDim) : TenantState F embeddingDim where
  records := s.shared
  ids := s.ids.sublist (List.filter_sublist.map _)
  dims := fun r member => s.dims r (List.mem_of_mem_filter member)

/-- A tenant with one more private record. -/
theorem exists_morePrivate [FloatLike F] (s : TenantState F embeddingDim)
    (room : s.records.length < 2 ^ 64) : ∃ other : TenantState F embeddingDim,
      other.shared = s.shared ∧ other.records.length = s.records.length + 1 := by
  obtain ⟨id, free⟩ := exists_fresh (s.records.map Record.recordId) (by rwa [List.length_map])
  have ids : ((⟨id, List.replicate embeddingDim.toNat 0.0, false⟩ :: s.records).map
      Record.recordId).Nodup := List.nodup_cons.mpr ⟨free, s.ids⟩
  refine ⟨⟨⟨id, List.replicate embeddingDim.toNat 0.0, false⟩ :: s.records, ids, ?_⟩, rfl, rfl⟩
  exact List.forall_mem_cons.mpr ⟨List.length_replicate, s.dims⟩

/-- Private records make a tenant as large as is wanted. -/
theorem exists_length [FloatLike F] (s : TenantState F embeddingDim) {n : ℕ}
    (least : s.shared.length ≤ n) (room : n ≤ 2 ^ 64) : ∃ other : TenantState F embeddingDim,
      other.shared = s.shared ∧ other.records.length = n := by
  induction n, least using Nat.le_induction with
  | base => exact ⟨s.sharing, List.filter_filter .. |>.trans (by simp [shared]), rfl⟩
  | succ n _ ih =>
    obtain ⟨other, same, length⟩ := ih (by omega)
    obtain ⟨more, same', length'⟩ := other.exists_morePrivate (by omega)
    exact ⟨more, same'.trans same, by rw [length', length]⟩

end TenantState

/-! ## Calls that publish nothing -/

section Frame

variable {F : Type} {c : Build} {json : LinkJson} {h : Handle F}

/-- A call of the registry leaves the saga files alone. -/
theorem HandleM.keeps_registry {α : Type} (call : FileM α) (sagas : TenantId → SagaFile F) :
    EStateM.Keeps (fun disk => disk.sagas = sagas) (HandleM.registry call : HandleM F α) := by
  intro disk held
  unfold EStateM.after
  rw [HandleM.run_registry]
  cases call.run disk.dir <;> exact held

/-- A computation leaves the files alone. -/
theorem HandleM.keeps_ofResult {α : Type} (result : Result α) (inv : Disk F → Prop) :
    EStateM.Keeps inv (HandleM.ofResult result : HandleM F α) := by
  cases result with
  | ok a => exact EStateM.keeps_pure a
  | error fault => exact EStateM.keeps_throw fault

/-- Admitting a member leaves the saga files alone. -/
theorem Handle.keeps_admitMember (member : MemberRecord) (now : Int64)
    (sagas : TenantId → SagaFile F) :
    EStateM.Keeps (fun disk => disk.sagas = sagas) (h.admitMember c json member now) := by
  unfold Handle.admitMember Handle.authority
  refine EStateM.Keeps.bind ?_ fun skipper => EStateM.Keeps.bind (HandleM.keeps_registry _ _)
    fun chain => EStateM.Keeps.bind (HandleM.keeps_ofResult _ _) fun head => ?_
  · split
    · exact EStateM.keeps_pure _
    · exact EStateM.keeps_throw _
  · split
    · exact EStateM.Keeps.bind (EStateM.keeps_throw _) fun _ => HandleM.keeps_registry _ _
    · exact HandleM.keeps_registry _ _

end Frame

/-! ## Publishing -/

/-- What a saga tells: centroids and the number of records. -/
def Saga.digest {F : Type} (saga : Saga F) : List (Centroid F) × UInt64 :=
  (saga.centroids, saga.recordCount)

/-- The calls that publish a digest. -/
inductive Publication (R : Type) where
  /-- `Hansa::refresh_saga`. -/
  | refresh (tags : List String) (builtAt : Int64) (seed : UInt64)
  /-- `Hansa::join`. -/
  | join (tags : List String) (now : Int64)
  /-- A round of the background task, from the count of its last build. -/
  | round (config : BackgroundRefreshConfig R) (lastBuilt : UInt64) (tags : List String)
    (now : Int64)

section Publish

variable {F D R : Type} [FloatLike F] [FloatLike D] [Widen F D] {embeddingDim : UInt32}

/-- The saga that a publication builds when it comes to that. -/
def Publication.saga (rng : SmallRng D) (h : Handle F) : Publication R → Result (Saga F)
  | .refresh tags builtAt seed => h.ownSaga rng tags builtAt seed
  | .join tags now => h.ownSaga rng tags now 0
  | .round config _ tags now => h.backgroundSaga config rng tags now

/-- The handle, on a tenant that holds other records. -/
def Handle.holding (h : Handle F) (s : TenantState F embeddingDim) : Handle F :=
  { h with localTenant := s.tenant h.localTenant.queryFiltered }

section Sizes

variable {rng : SmallRng D} {h : Handle F} {p : Publication R}

/-- A saga counts all records, and has as many centroids as they ask for. -/
theorem Publication.saga_counts {s : TenantState F embeddingDim} {saga : Saga F}
    (built : p.saga rng (h.holding s) = .ok saga) :
    saga.recordCount = UInt64.ofNat s.records.length ∧ saga.centroids.length =
      min (defaultKFor (UInt64.ofNat s.records.length))
        (min s.records.length reservoirSampleSize) := by
  have counted : saga.recordCount = UInt64.ofNat s.records.length ∧ saga.centroids.length =
      min (defaultKFor (UInt64.ofNat s.records.length))
        (min ((s.records.map fun r => (r.recordId, r.vector)).map Prod.snd).length
          reservoirSampleSize) := by
    cases p with
    | refresh tags builtAt seed => exact buildSagaFromTenant_count built
    | join tags now => exact buildSagaFromTenant_count built
    | round config lastBuilt tags now => exact buildSagaFromTenant_count built
  rwa [List.length_map, List.length_map] at counted

/-- Some number of records is not the one that is counted. -/
theorem exists_otherCount (s : TenantState F embeddingDim) (room : s.shared.length + 1 < 2 ^ 64)
    (count : UInt64) : ∃ other : TenantState F embeddingDim, other.shared = s.shared ∧
      UInt64.ofNat other.records.length ≠ count := by
  obtain ⟨other, same, length⟩ := s.exists_length (Nat.le_refl _) (by omega)
  obtain ⟨more, same', length'⟩ := s.exists_length (Nat.le_succ _) (by omega)
  by_cases counted : UInt64.ofNat other.records.length = count
  · refine ⟨more, same', fun counted' => ?_⟩
    have values := congrArg UInt64.toNat (counted.trans counted'.symm)
    rw [length, length', UInt64.toNat_ofNat', UInt64.toNat_ofNat'] at values
    omega
  · exact ⟨other, same, counted⟩

/-- A tenant of fewer than 100000 records asks for fewer than 128 centroids. -/
theorem defaultKFor_lt {n : ℕ} (small : n < 100000) : defaultKFor (UInt64.ofNat n) < 128 := by
  rw [defaultKFor, UInt64.toNat_ofNat']
  split_ifs <;> omega

variable (rng h) in
/-- Some number of records makes for another number of centroids. -/
theorem Publication.exists_otherCentroids (p : Publication R) (s : TenantState F embeddingDim)
    (few : s.shared.length < 100000) (count : ℕ) :
    ∃ other : TenantState F embeddingDim, other.shared = s.shared ∧
      ∀ saga, p.saga rng (h.holding other) = .ok saga → saga.centroids.length ≠ count := by
  by_cases most : count = 128
  · obtain ⟨small, same, length⟩ := s.exists_length (Nat.le_refl _) (by omega)
    refine ⟨small, same, fun saga built counted => ?_⟩
    have asked := defaultKFor_lt few
    rw [(Publication.saga_counts built).2, length] at counted
    omega
  · obtain ⟨large, same, length⟩ := s.exists_length few.le (by decide)
    refine ⟨large, same, fun saga built counted => most ?_⟩
    rw [← counted, (Publication.saga_counts built).2, length]
    decide

end Sizes

variable [FloatLike R] [CeilToU64 R] (c : Build) (json : LinkJson) (rng : SmallRng D)
  (h : Handle F)

/-- The call of a publication. -/
def Publication.call : Publication R → HandleM F Unit
  | .refresh tags builtAt seed => h.refreshSaga rng tags builtAt seed
  | .join tags now => h.join c json rng tags now
  | .round config lastBuilt tags now => do
    let _ ← h.backgroundRound config rng tags now lastBuilt

/-- Whether a publication comes to build a saga: joining only without a saga file, a round only
when the tenant has grown enough. -/
def Publication.due (p : Publication R) (disk : Disk F) (h : Handle F) : Bool :=
  match p with
  | .refresh .. => true
  | .join .. => (disk.sagas h.localTenantId).isNone
  | .round config lastBuilt .. => !config.waits lastBuilt h.localTenant.recordCount

/-- The saga that a publication writes into the saga file. -/
def Publication.written (p : Publication R) (disk : Disk F) : Option (Saga F) :=
  if p.due disk h then (p.saga rng h).toOption else none

/-- What a publication writes of a tenant, as far as `tells` sees it, is decided by the shareable
records. -/
def Publication.Keeps {V : Type} (tells : Saga F → V) (p : Publication R) (disk : Disk F)
    (embeddingDim : UInt32) (shared : List (Record F)) : Prop :=
  ∀ s other : TenantState F embeddingDim, s.shared = shared → other.shared = shared →
    (p.written rng (h.holding s) disk).map tells = (p.written rng (h.holding other) disk).map tells

/-- No tenant with these shareable records makes the publication write a saga: it does not come
to build one, or the build fails. -/
def Publication.Silent (p : Publication R) (disk : Disk F) (embeddingDim : UInt32)
    (shared : List (Record F)) : Prop :=
  ∀ s : TenantState F embeddingDim, s.shared = shared → p.due disk (h.holding s) = true →
    ∀ saga, p.saga rng (h.holding s) ≠ .ok saga

variable {c json rng h} {p : Publication R} {disk : Disk F}

/-! ## What is written -/

/-- A saga is written when one is built. -/
theorem Publication.written_eq_some {saga : Saga F} : p.written rng h disk = some saga ↔
    p.due disk h = true ∧ p.saga rng h = .ok saga := by
  unfold Publication.written
  split
  · next due =>
    cases p.saga rng h <;> simp [due, Except.toOption]
  · next idle => simp [idle]

/-- A publication leaves the saga files with what it writes, and otherwise as they were. -/
theorem Publication.sagas_after (p : Publication R) (disk : Disk F) :
    ((p.call c json rng h).after disk).sagas = (p.written rng h disk).elim disk.sagas
      fun saga => (disk.publish h.localTenantId saga).sagas := by
  have refreshes : ∀ tags builtAt seed, ((h.refreshSaga rng tags builtAt seed).after disk).sagas =
      (h.ownSaga rng tags builtAt seed).toOption.elim disk.sagas
        fun saga => (disk.publish h.localTenantId saga).sagas := by
    intro tags builtAt seed
    rw [EStateM.after, Handle.refreshSaga, EStateM.run_bind, HandleM.run_ofResult, Handle.ownSaga]
    cases buildSagaFromTenant rng h.localTenantId h.localTenant.embeddingDim
      h.localTenant.recordCount (h.localTenant.iterVectors.map Prod.snd) tags builtAt seed <;> rfl
  cases p with
  | refresh tags builtAt seed => exact refreshes tags builtAt seed
  | join tags now =>
    have admits : ∀ mid : Disk F,
        ((h.admitMember c json (h.ownRecord now) now).after mid).sagas = mid.sagas :=
      fun mid => h.keeps_admitMember (h.ownRecord now) now mid.sagas mid rfl
    rw [Publication.written, Publication.due, Publication.saga, Publication.call, EStateM.after,
      Handle.run_join]
    by_cases absent : (disk.sagas h.localTenantId).isNone = true
    · rw [if_pos absent, if_pos absent]
      cases h.ownSaga rng tags now 0 with
      | error fault => rfl
      | ok saga => exact admits (disk.publish h.localTenantId saga)
    · rw [if_neg absent, if_neg absent]
      exact admits disk
  | round config lastBuilt tags now =>
    rw [Publication.written, Publication.due, Publication.call, EStateM.after, EStateM.run_bind,
      Handle.backgroundRound, Publication.saga]
    cases config.waits lastBuilt h.localTenant.recordCount with
    | true => rfl
    | false =>
      cases h.backgroundSaga config rng tags now with
      | ok saga => rfl
      | error fault => cases fault <;> rfl

/-! ## What is kept -/

variable {V : Type} {tells : Saga F → V} {shared : List (Record F)}

/-- What is never written tells nothing. -/
theorem Publication.Silent.keeps (silent : p.Silent rng h disk embeddingDim shared) :
    p.Keeps rng h tells disk embeddingDim shared := by
  have unwritten : ∀ s : TenantState F embeddingDim, s.shared = shared →
      p.written rng (h.holding s) disk = none := by
    intro s same
    refine Option.eq_none_iff_forall_not_mem.mpr fun saga written => ?_
    obtain ⟨due, built⟩ := Publication.written_eq_some.mp written
    exact silent s same due saga built
  intro s other same same'
  rw [unwritten s same, unwritten other same']

/-- If every saga of a tenant could be told from all sagas of some other tenant with the same
shareable records, then private records are kept by silence only. -/
theorem Publication.Keeps.silent (keeps : p.Keeps rng h tells disk embeddingDim shared)
    (differs : ∀ (s : TenantState F embeddingDim) (saga : Saga F), s.shared = shared →
      p.saga rng (h.holding s) = .ok saga →
      ∃ other : TenantState F embeddingDim, other.shared = shared ∧
        ∀ saga', p.saga rng (h.holding other) = .ok saga' → tells saga' ≠ tells saga) :
    p.Silent rng h disk embeddingDim shared := by
  intro s same due saga built
  obtain ⟨other, same', apart⟩ := differs s saga same built
  have agree := keeps other s same' same
  rw [Publication.written_eq_some.mpr ⟨due, built⟩, Option.map_some,
    Option.map_eq_some_iff] at agree
  obtain ⟨saga', written, told⟩ := agree
  exact apart saga' (Publication.written_eq_some.mp written).2 told

variable (c json) in
/-- Private records are kept exactly by the publications that write no saga, whatever private
records there are. What is kept is the digest; while there are fewer than 100000 shareable
records, it is also the centroids alone. -/
theorem private_kept_iff (p : Publication R) (disk : Disk F) (shared : List (Record F))
    (room : shared.length + 1 < 2 ^ 64) :
    (∀ s : TenantState F embeddingDim, ((p.call c json rng (h.holding s)).after disk).sagas =
      (p.written rng (h.holding s) disk).elim disk.sagas
        fun saga => (disk.publish h.localTenantId saga).sagas) ∧
    (p.Keeps rng h Saga.digest disk embeddingDim shared ↔
      p.Silent rng h disk embeddingDim shared) ∧
    (shared.length < 100000 → (p.Keeps rng h Saga.centroids disk embeddingDim shared ↔
      p.Silent rng h disk embeddingDim shared)) := by
  refine ⟨fun s => p.sagas_after disk, ⟨fun keeps => keeps.silent ?_, fun silent => silent.keeps⟩,
    fun few => ⟨fun keeps => keeps.silent ?_, fun silent => silent.keeps⟩⟩
  · intro s saga same built
    obtain ⟨other, same', apart⟩ := exists_otherCount s (same ▸ room) saga.recordCount
    refine ⟨other, same'.trans same, fun saga' built' told => apart ?_⟩
    rw [← (Publication.saga_counts built').1]
    exact congrArg Prod.snd told
  · intro s saga same built
    obtain ⟨other, same', apart⟩ :=
      p.exists_otherCentroids rng h s (same ▸ few) saga.centroids.length
    exact ⟨other, same'.trans same, fun saga' built' told =>
      apart saga' built' (congrArg List.length told)⟩

end Publish

/-! ## A private vector in the open -/

/-- A generator that draws the first index and the middle of a range. -/
def sampleRng : SmallRng Float where
  State := Unit
  seedFromU64 _ := ()
  randomBelow _ state := (0, state)
  randomUpTo _ state := (0, state)
  randomReal total state :=
    if FloatLike.isFinite total && FloatLike.lt 0.0 total then .ok (total / 2.0, state)
    else .error .panic

/-- A tenant with one shareable record, and one private record with the given vector. -/
def sampleState (x y : Float32) : TenantState Float32 2 where
  records := [⟨1, [1, 0], true⟩, ⟨2, [x, y], false⟩]
  ids := by simp
  dims := by simp

/-- What the saga file of a tenant tells. -/
def Disk.digest {F : Type} (disk : Disk F) (t : TenantId) : Option (List (Centroid F) × UInt64) :=
  match disk.sagas t with
  | some (.ok saga) => some saga.digest
  | _ => none

/-- What the saga file of the sample tenant tells after a refresh. -/
noncomputable def sampleDigest (x y : Float32) : Option (List (Centroid Float32) × UInt64) :=
  (((Publication.refresh [] 0 0 : Publication Float32).call sampleBuild sampleJson sampleRng
    (sampleHandle.holding (sampleState x y))).after (sampleDisk none)).digest (sampleTenant 1)

/-- The files of a member that has published a saga of no records. -/
def publishedDisk : Disk Float32 :=
  (sampleDisk none).publish (sampleTenant 1) ⟨sampleTenant 1, 0, 0, 2, [], []⟩

/-- With a saga on the disk, joining keeps the private record of the sample tenant, and a refresh
does not. -/
theorem private_kept_sample :
    (Publication.join [] 0 : Publication Float32).Keeps sampleRng sampleHandle Saga.digest
      publishedDisk 2 (sampleState 0 1).shared ∧
    ¬ (Publication.refresh [] 0 0 : Publication Float32).Keeps sampleRng sampleHandle
      Saga.digest publishedDisk 2 (sampleState 0 1).shared := by
  have few : (sampleState 0 1).shared.length + 1 < 2 ^ 64 := by decide +kernel
  constructor
  · refine (private_kept_iff sampleBuild sampleJson _ _ _ few).2.1.mpr ?_
    intro s same due
    cases due
  · intro keeps
    have silent := (private_kept_iff sampleBuild sampleJson _ _ _ few).2.1.mp keeps
    have writes : ((Publication.refresh [] 0 0 : Publication Float32).written sampleRng
        (sampleHandle.holding (sampleState 0 1)) publishedDisk).isSome = true := by decide +kernel
    obtain ⟨saga, written⟩ := Option.isSome_iff_exists.mp writes
    obtain ⟨due, built⟩ := Publication.written_eq_some.mp written
    exact silent (sampleState 0 1) rfl due saga built

/-- Two tenants that differ in one private vector publish different digests. -/
theorem private_vector_published :
    ¬ ∀ (c : Build) (json : LinkJson) (rng : SmallRng Float) (h : Handle Float32)
      (disk : Disk Float32) (p : Publication Float32) (embeddingDim : UInt32)
      (s other : TenantState Float32 embeddingDim), disk.sagas h.localTenantId = none →
      other.shared = s.shared →
        ((p.call c json rng (h.holding other)).after disk).digest h.localTenantId =
          ((p.call c json rng (h.holding s)).after disk).digest h.localTenantId := by
  intro claim
  have shared : (sampleState 0 1).shared = (sampleState 0 2).shared := by
    simp [TenantState.shared, sampleState]
  have same : sampleDigest 0 1 = sampleDigest 0 2 := claim sampleBuild sampleJson sampleRng
    sampleHandle (sampleDisk none) (.refresh [] 0 0) 2 (sampleState 0 2) (sampleState 0 1) rfl
    shared
  have surfaced : sampleDigest 0 1 = some ([⟨1, [1, 0]⟩, ⟨1, [0, 1]⟩], 2) := by decide +kernel
  have doubled : sampleDigest 0 2 = some ([⟨1, [1, 0]⟩, ⟨1, [0, 2]⟩], 2) := by decide +kernel
  rw [surfaced, doubled] at same
  exact absurd same (by decide +kernel)

end Hansa
