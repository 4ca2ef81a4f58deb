import Hansa.Allocation
import Hansa.Manifest
import Hansa.Sort

/-!
# The membrane query

A query runs over the local tenant with full visibility, scores the peers' sagas, splits the
remote budget over the best peers, and asks each of them in a worker of its own for shareable
records. What the workers deliver is merged with the local hits, sorted and cut to the total
budget. The synchronous path receives batches from a channel, in the order in which workers
finish; the asynchronous path awaits the workers in the order of the allocation.

Tenants and peer openers belong to other crates: they are parameters, and a call of one
returns a value, returns an error or panics. When each worker finishes, and how `sort_by` and
the clock behave, are parameters of the run.
-/

namespace Hansa

/-- `TokenBudget`: how many records one query may surface. -/
structure TokenBudget where
  /-- Upper bound on records returned by peer fan-out. -/
  maxRemoteRecords : UInt32
  /-- Upper bound on records returned to the caller after merge. -/
  maxTotalRecords : UInt32
  deriving DecidableEq

namespace TokenBudget

/-- `TokenBudget::flat`. -/
def flat (n : UInt32) : TokenBudget := ⟨n, n⟩

/-- `TokenBudget::split`. -/
def split (remote total : UInt32) : TokenBudget := ⟨remote, total⟩

/-- `TokenBudget::default`. -/
def default : TokenBudget := ⟨32, 64⟩

end TokenBudget

/-! ## Tenants -/

/-- `RecordMeta`: what a filter reads of a record. -/
structure RecordMeta where
  /-- Whether the owner shares the record. -/
  shareable : Bool

/-- `Hit`: one record a tenant returns. -/
structure Hit (F : Type) where
  /-- Record identifier. -/
  recordId : UInt64
  /-- Similarity to the query. -/
  similarity : F
  /-- Record payload. -/
  payload : List UInt8
  /-- The record's vector, where the backend supplies it. -/
  embedding : Option (List F)

/-- `QueryFiltered::query_filtered`: embedding, number of hits, filter. -/
abbrev QueryFiltered (F : Type) := List F → UInt32 → (RecordMeta → Bool) → Result (List (Hit F))

/-- The local tenant. -/
structure Tenant (F : Type) where
  /-- `embedding_dim`. -/
  embeddingDim : UInt32
  /-- `record_count`. -/
  recordCount : UInt64
  /-- `iter_vectors`: record ids and vectors. -/
  iterVectors : List (UInt64 × List F)
  /-- `query_filtered`. -/
  queryFiltered : QueryFiltered F

/-- `ReadOnlyView`: a peer tenant that was opened. -/
structure ReadOnlyView (F : Type) where
  /-- `tenant_id`. -/
  tenantId : TenantId
  /-- `query_filtered`. -/
  queryFiltered : QueryFiltered F

/-- `PeerOpener`: open a peer tenant at its location. -/
abbrev PeerOpener (F : Type) := TenantId → TenantLocation → Result (ReadOnlyView F)

/-- `AcceptAll`. -/
def acceptAll : RecordMeta → Bool := fun _ => true

/-- `ShareableOnly`. -/
def shareableOnly : RecordMeta → Bool := fun record => record.shareable

/-! ## Hits and diagnostics -/

/-- `HitOrigin`: where a hit came from. -/
inductive HitOrigin where
  /-- Found in the caller's own tenant. -/
  | local
  /-- Returned by a peer. -/
  | remote (tenantId : TenantId)
  deriving DecidableEq

/-- `MembraneHit`: a hit returned by a membrane query. -/
structure MembraneHit (F : Type) where
  /-- Record identifier. -/
  recordId : UInt64
  /-- Similarity score from the producing tenant. -/
  similarity : F
  /-- Local, or the peer that produced the hit. -/
  origin : HitOrigin
  /-- Record payload. -/
  payload : List UInt8
  /-- Vector that produced this hit, where the backend supplies it. -/
  embedding : Option (List F)

/-- The hit of a membrane query that a tenant's hit becomes. -/
def Hit.toMembrane {F : Type} (origin : HitOrigin) (h : Hit F) : MembraneHit F :=
  { recordId := h.recordId
    similarity := h.similarity
    origin
    payload := h.payload
    embedding := h.embedding }

/-- `MembraneStats`: diagnostics of one query. -/
structure MembraneStats where
  /-- Peers the fan-out launched a worker for. -/
  peersAttempted : Nat
  /-- Peers whose worker returned before the deadline. -/
  peersCompleted : Nat
  /-- Peers whose worker had not returned by the deadline. -/
  droppedForDeadline : Nat
  deriving DecidableEq

/-- `MembraneQuery`, and with the same fields `MembraneQueryAsync`. -/
structure MembraneQuery (F : Type) where
  /-- The caller's own tenant. -/
  localTenant : Tenant F
  /-- Its id. -/
  localTenantId : TenantId
  /-- Opens a peer. -/
  peerOpener : PeerOpener F
  /-- The query. -/
  embedding : List F
  /-- All members, the local one included. -/
  members : List MemberRecord
  /-- Peer sagas to score. -/
  sagas : List (MemberRecord × Saga F)
  /-- Number of hits of the local query. -/
  topK : UInt32
  /-- The budget. -/
  budget : TokenBudget
  /-- Least score of a peer. -/
  minSimilarity : F
  /-- Skip the fan-out. -/
  localOnly : Bool
  /-- Cap on the time of the fan-out. -/
  deadline : Option Nat

/-- What a caller may set on a query before running it. -/
structure QuerySettings (F : Type) where
  /-- `top_k`. -/
  topK : UInt32
  /-- `budget`. -/
  budget : TokenBudget
  /-- `min_similarity`. -/
  minSimilarity : F
  /-- `local_only`, when it is called. -/
  localOnly : Bool
  /-- `deadline`, when it is called. -/
  deadline : Option Nat

/-- The builder methods of a query. -/
def MembraneQuery.configured {F : Type} (q : MembraneQuery F) (s : QuerySettings F) :
    MembraneQuery F :=
  { q with
    topK := s.topK
    budget := s.budget
    minSimilarity := s.minSimilarity
    localOnly := q.localOnly || s.localOnly
    deadline := s.deadline }

/-! ## Workers -/

/-- What one spawned worker does: when it finishes, and the batch it delivers, if it does not
panic. -/
structure Worker (F : Type) where
  /-- Time since the fan-out at which the worker finishes. -/
  finish : Nat
  /-- The hits it delivers. -/
  batch : Option (List (MembraneHit F))

/-- When workers finish, and in which order the channel delivers what they send. -/
structure Schedule (F : Type) where
  /-- When the worker of the allocation at an index finishes. -/
  finish : Nat → Nat
  /-- The order of delivery. -/
  deliver : List (Nat × List (MembraneHit F)) → List (Nat × List (MembraneHit F))
  /-- Everything that is sent is delivered once. -/
  permutes : ∀ sent, (deliver sent).Perm sent
  /-- Nothing overtakes what was sent at an earlier time. -/
  ordered : ∀ sent, (deliver sent).Pairwise (fun a b => a.1 ≤ b.1)

/-- What a query depends on besides its own fields. -/
structure QueryEnv (F : Type) where
  /-- The build. -/
  profile : Profile
  /-- The wall clock, in unix seconds. -/
  now : UInt64
  /-- The implementation of `sort_by`. -/
  sort : StdSort
  /-- The workers' timing. -/
  schedule : Schedule F
  /-- The manifests before the query. -/
  manifests : ManifestStore

section Execute

variable {F : Type}

/-- `open_and_query`. -/
def openAndQuery (opener : PeerOpener F) (embedding : List F) (member : MemberRecord)
    (budget : UInt32) : Result (List (MembraneHit F)) := do
  let view ← opener member.tenantId member.tenantLocation
  let hits ← view.queryFiltered embedding budget shareableOnly
  .ok (hits.map (Hit.toMembrane (.remote view.tenantId)))

/-- What a worker sends: an error of the peer is logged and becomes an empty batch, a panic
sends nothing. -/
def workerBatch : Result (List (MembraneHit F)) → Option (List (MembraneHit F))
  | .ok hits => some hits
  | .error (.err _) => some []
  | .error .panic => none

/-- The workers of an allocation. -/
def spawn (schedule : Schedule F) (opener : PeerOpener F) (embedding : List F)
    (allocation : List PeerAllocation) : List (Worker F) :=
  allocation.zipIdx.map fun peer =>
    { finish := schedule.finish peer.2
      batch := workerBatch (openAndQuery opener embedding peer.1.member peer.1.budget) }

/-- What the workers send on the channel. -/
def Worker.sent (workers : List (Worker F)) : List (Nat × List (MembraneHit F)) :=
  workers.filterMap fun w => w.batch.map (w.finish, ·)

/-- What the collection of batches leaves: their number, and their hits in order. -/
structure Collected (F : Type) where
  /-- Batches received. -/
  completed : Nat
  /-- Their hits. -/
  hits : List (MembraneHit F)

/-- The receive loop of the synchronous path, at a time since the fan-out and with a number of
batches still to come. The loop ends at the deadline, and when no worker is left to send. -/
def recvLoop (deadline : Option Nat) (clock : Nat) :
    Nat → List (Nat × List (MembraneHit F)) → Collected F
  | 0, _ => ⟨0, []⟩
  | _ + 1, [] => ⟨0, []⟩
  | left + 1, (finish, batch) :: rest =>
    if deadline.all (fun d => clock < d && finish < d) then
      let later := recvLoop deadline (max clock finish) left rest
      ⟨later.completed + 1, batch ++ later.hits⟩
    else ⟨0, []⟩

/-- The gathering loop of the asynchronous path under its timeout: handles are awaited one
after the other; a worker that panicked is skipped. -/
def awaitLoop (deadline : Option Nat) : List (Worker F) → Collected F
  | [] => ⟨0, []⟩
  | w :: workers =>
    if deadline.all (fun d => w.finish < d) then
      let later := awaitLoop deadline workers
      match w.batch with
      | some batch => ⟨later.completed + 1, batch ++ later.hits⟩
      | none => later
    else ⟨0, []⟩

/-- How the synchronous path collects. -/
def collectSync (schedule : Schedule F) (deadline : Option Nat) (workers : List (Worker F)) :
    Collected F :=
  recvLoop deadline 0 workers.length (schedule.deliver (Worker.sent workers))

/-- How the asynchronous path collects. -/
def collectAsync (_ : Schedule F) (deadline : Option Nat) (workers : List (Worker F)) :
    Collected F :=
  awaitLoop deadline workers

/-- What the fan-out leaves: the hits to merge, and the diagnostics. -/
structure Gathered (F : Type) where
  /-- The remote hits. -/
  hits : List (MembraneHit F)
  /-- The diagnostics. -/
  stats : MembraneStats

/-- The end of the fan-out, on either path. -/
def gather (collect : Schedule F → Option Nat → List (Worker F) → Collected F)
    (schedule : Schedule F) (deadline : Option Nat) (workers : List (Worker F)) : Gathered F :=
  let collected := collect schedule deadline workers
  { hits := collected.hits
    stats :=
      { peersAttempted := workers.length
        peersCompleted := collected.completed
        droppedForDeadline := workers.length - collected.completed } }

/-- The peers that hits came from, each once, with their numbers of hits. -/
def hitCounts (hits : List (MembraneHit F)) : List (TenantId × UInt64) :=
  let peers := hits.filterMap fun h =>
    match h.origin with
    | .remote tenantId => some tenantId
    | .local => none
  peers.dedup.map fun peer => (peer, UInt64.ofNat (peers.count peer))

/-- The manifest update after the fan-out. -/
def bumpTotals (manifests : ManifestStore) (hits : List (MembraneHit F)) : ManifestStore :=
  (hitCounts hits).foldl (fun store peer => store.bumpTotal peer.1 peer.2) manifests

/-- `truncate_to_budget`. -/
def truncateToBudget (hits : List (MembraneHit F)) (totalCap : UInt32) : List (MembraneHit F) :=
  hits.take totalCap.toNat

/-- What a query leaves before the cut to the total budget. -/
structure Merged (F : Type) where
  /-- All hits, in the order in which they are cut. -/
  hits : List (MembraneHit F)
  /-- The diagnostics. -/
  stats : MembraneStats
  /-- The manifests after the query. -/
  manifests : ManifestStore

variable [FloatLike F]

/-- Descending order, in which NaN compares equal to everything. -/
def descending (a b : F) : Ordering := (FloatLike.partialCmp b a).getD .eq

namespace MembraneQuery

variable (D : Type) [FloatLike D] [Widen F D] (q : MembraneQuery F) (env : QueryEnv F)

/-- The local hits. -/
def localHits : Result (List (MembraneHit F)) := do
  let hits ← q.localTenant.queryFiltered q.embedding q.topK acceptAll
  .ok (hits.map (Hit.toMembrane .local))

/-- The biased score of one peer. -/
def biasedScore (peer : MemberRecord × Saga F) : Result (MemberRecord × F) := do
  let base ← scoreSaga env.profile peer.2 q.embedding
  let factor := (env.manifests.read peer.1.tenantId).usefulnessFactor env.now
  .ok (peer.1, base * factor)

/-- The scored peers, before they are sorted. -/
def scored : Result (List (MemberRecord × F)) := do
  let scores ← (q.sagas.filter fun peer => peer.1.tenantId ≠ q.localTenantId).mapM
    (q.biasedScore env)
  .ok (scores.filter fun peer => FloatLike.isFinite peer.2 && FloatLike.le q.minSimilarity peer.2)

/-- The peers that receive a budget. -/
def allocation : Result (List PeerAllocation) := do
  let scored ← q.scored env
  let ranked ← env.sort.sortBy (fun a b => descending a.2 b.2) scored
  proportionalAllocation D env.profile ranked q.budget.maxRemoteRecords 1 defaultMaxPeers

/-- Everything up to the cut to the total budget. -/
def merge (collect : Schedule F → Option Nat → List (Worker F) → Collected F) :
    Result (Merged F) := do
  let localHits ← q.localHits
  if q.localOnly then .ok ⟨localHits, ⟨0, 0, 0⟩, env.manifests⟩
  else
    let allocation ← q.allocation D env
    let workers := spawn env.schedule q.peerOpener q.embedding allocation
    let remote := gather collect env.schedule q.deadline workers
    let all ← env.sort.sortBy (fun a b => descending a.similarity b.similarity)
      (localHits ++ remote.hits)
    .ok ⟨all, remote.stats, bumpTotals env.manifests remote.hits⟩

/-- `MembraneQuery::execute_with_stats`, with the manifests it leaves. -/
def executeWithStats : Result (List (MembraneHit F) × MembraneStats × ManifestStore) := do
  let merged ← q.merge D env collectSync
  .ok (truncateToBudget merged.hits q.budget.maxTotalRecords, merged.stats, merged.manifests)

/-- `MembraneQueryAsync::execute_with_stats`. -/
def executeWithStatsAsync : Result (List (MembraneHit F) × MembraneStats × ManifestStore) := do
  let merged ← q.merge D env collectAsync
  .ok (truncateToBudget merged.hits q.budget.maxTotalRecords, merged.stats, merged.manifests)

end MembraneQuery

end Execute

end Hansa
