import Hansa.HeadCache
import Hansa.Membrane
import Hansa.SagaBuild

/-!
# The handle

`Hansa` is the per-process entry point to a federation. Opening it resolves the id, founds
the chain or requires that it is founded, replays the chain against the id, and checks the
head against the head cache. Membership then changes through the registry, and queries read
the member list and the peers' saga files anew each time. A handle works on the registry
directory of its own hansa, its saga files, its manifests and its head cache file; the hull
format of saga files belongs to another crate, so a file is taken as what reading it yields.
-/

namespace Hansa

/-- What lies in the place of one saga file: nothing, a file that cannot be read, with the
error's text, or a saga. -/
abbrev SagaFile (F : Type) := Option (Except String (Saga F))

/-- The files of one member of a hansa. -/
structure Disk (F : Type) where
  /-- The registry's directory of the hansa. -/
  dir : HansaDir
  /-- The saga file of each tenant. -/
  sagas : TenantId → SagaFile F
  /-- The manifest files. -/
  manifests : ManifestStore
  /-- The head cache file of the hansa. -/
  head : Option (List UInt8)

/-- A call on a handle; a failed call keeps what it wrote before. -/
abbrev HandleM (F : Type) := EStateM Fault (Disk F)

namespace HandleM

variable {F α : Type}

/-- A call of the registry. -/
def registry (call : FileM α) : HandleM F α := fun disk =>
  match call disk.dir with
  | .ok a dir => .ok a { disk with dir }
  | .error fault dir => .error fault { disk with dir }

/-- A computation that leaves the files alone. -/
def ofResult : Result α → HandleM F α
  | .ok a => pure a
  | .error fault => throw fault

end HandleM

/-- `HansaConfig`: inputs needed to open a handle. -/
structure HansaConfig (F : Type) where
  /-- The signing authority, for a founder. -/
  skipper : Option Skipper
  /-- The id, for a member that was given one. -/
  hansaId : Option HansaId
  /-- The registry. -/
  registry : FileRegistry
  /-- The member's own tenant. -/
  localTenant : Tenant F
  /-- Its id. -/
  localTenantId : TenantId
  /-- Where other members reach it. -/
  localTenantLocation : TenantLocation
  /-- Opens a peer; none makes queries local. -/
  peerOpener : Option (PeerOpener F)
  /-- Default budget of a query. -/
  defaultBudget : TokenBudget
  /-- Directory of the head cache; none disables it. -/
  headCacheDir : Option PathBuf
  /-- Opens a peer on the asynchronous path. -/
  asyncPeerOpener : Option (PeerOpener F)

/-- `Hansa`: a federation from one member's perspective. -/
structure Handle (F : Type) where
  /-- Id of the hansa. -/
  id : HansaId
  /-- The signing authority, when this process holds it. -/
  skipper : Option Skipper
  /-- The registry. -/
  registry : FileRegistry
  /-- The member's own tenant. -/
  localTenant : Tenant F
  /-- Its id. -/
  localTenantId : TenantId
  /-- Where other members reach it. -/
  localTenantLocation : TenantLocation
  /-- Opens a peer. -/
  peerOpener : Option (PeerOpener F)
  /-- Default budget of a query. -/
  defaultBudget : TokenBudget
  /-- Opens a peer on the asynchronous path. -/
  asyncPeerOpener : Option (PeerOpener F)

namespace HansaConfig

variable {F : Type} (c : Build) (json : LinkJson) (config : HansaConfig F)

/-- The id a configuration resolves to: the skipper's, or the one that was given. -/
def resolveId : Result HansaId :=
  match config.skipper, config.hansaId with
  | some skipper, provided =>
    let derived := HansaId.fromSkipper c (skipper.pub c)
    if provided.any (· ≠ derived) then fail .idMismatch else .ok derived
  | none, some id => .ok id
  | none, none => fail (.invariant "hansa: need a skipper to found, or a hansa_id to join")

/-- `Hansa::open`. -/
def «open» (now : Int64) : HandleM F (Handle F) := do
  let id ← .ofResult (config.resolveId c)
  match config.skipper with
  | some skipper =>
    .registry (config.registry.found c json id skipper config.localTenant.embeddingDim now)
  | none =>
    let chain ← .registry (config.registry.readChain json id)
    if chain = [] then
      throw (.err (.invariant "hansa not founded and no skipper to found it"))
  let chain ← .registry (config.registry.readChain json id)
  let outcome ← .ofResult (replay c chain (some id))
  match config.headCacheDir with
  | none => pure ()
  | some dir =>
    let cached := (← get).head
    let head ← .ofResult
      ((HeadCache.mk dir).checkAndRecord id outcome.headSeq outcome.headHash cached)
    modify fun disk => { disk with head := some head }
  pure
    { id
      skipper := config.skipper
      registry := config.registry
      localTenant := config.localTenant
      localTenantId := config.localTenantId
      localTenantLocation := config.localTenantLocation
      peerOpener := config.peerOpener
      defaultBudget := config.defaultBudget
      asyncPeerOpener := config.asyncPeerOpener }

end HansaConfig

namespace Handle

variable {F : Type} (c : Build) (json : LinkJson) (h : Handle F)

/-- The skipper a change of membership needs. -/
def authority : HandleM F Skipper :=
  match h.skipper with
  | some skipper => pure skipper
  | none => throw (.err .unauthorized)

/-- `Hansa::admit`: the member's dimension must be the pinned one. -/
def admitMember (member : MemberRecord) (now : Int64) : HandleM F Unit := do
  let skipper ← h.authority
  let chain ← .registry (h.registry.readChain json h.id)
  let head ← .ofResult (replay c chain (some h.id))
  if member.embeddingDim ≠ head.embeddingDim then
    throw (.err (.dimMismatch head.embeddingDim member.embeddingDim))
  .registry (h.registry.appendNext c json h.id skipper (.admitMember member none) now)

/-- `Hansa::revoke`. -/
def revoke (tenant : TenantId) (now : Int64) : HandleM F Unit := do
  let skipper ← h.authority
  .registry (h.registry.appendNext c json h.id skipper (.revoke tenant now none) now)

/-- `Hansa::leave`: revoke the own tenant and remove its saga file. -/
def leave (now : Int64) : HandleM F Unit := do
  h.revoke c json h.localTenantId now
  modify fun disk => { disk with sagas := Function.update disk.sagas h.localTenantId none }

/-- `Hansa::members`. -/
def members : HandleM F (List MemberRecord) := .registry (h.registry.members c json h.id)

/-- `Hansa::compact`. -/
def compact (now : Int64) : HandleM F Unit := do
  let skipper ← h.authority
  .registry (h.registry.compact c json h.id skipper now)

section Sagas

variable {D : Type} [FloatLike F] [FloatLike D] [Widen F D] (rng : SmallRng D)

/-- `Hansa::refresh_saga`: rebuild the own saga from all vectors of the tenant. -/
def refreshSaga (tags : List String) (builtAt : Int64) (seed : UInt64) : HandleM F Unit := do
  let saga ← .ofResult (buildSagaFromTenant rng h.localTenantId h.localTenant.embeddingDim
    h.localTenant.recordCount (h.localTenant.iterVectors.map Prod.snd) tags builtAt seed)
  modify fun disk =>
    { disk with sagas := Function.update disk.sagas h.localTenantId (some (.ok saga)) }

/-- `Hansa::join`: make sure that a saga file exists, then admit the own tenant. -/
def join (tags : List String) (now : Int64) : HandleM F Unit := do
  if ((← get).sagas h.localTenantId).isNone then h.refreshSaga rng tags now 0
  let record : MemberRecord :=
    { tenantId := h.localTenantId
      tenantLocation := h.localTenantLocation
      embeddingDim := h.localTenant.embeddingDim
      joinedAt := now }
  h.admitMember c json record now

end Sagas

/-! ## Queries -/

/-- `Hansa::load_peer_saga`: no saga when there is no file, an error when it cannot be read. -/
def loadPeerSaga (peer : TenantId) : HandleM F (Option (Saga F)) := do
  match (← get).sagas peer with
  | none => pure none
  | some (.error e) => throw (.err (.hull e))
  | some (.ok saga) => pure (some saga)

/-- The loop of `Hansa::query` over the members. -/
def loadSagas : List MemberRecord → HandleM F (List (MemberRecord × Saga F))
  | [] => pure []
  | m :: members => do
    if m.tenantId = h.localTenantId then loadSagas members
    else
      match ← loadPeerSaga m.tenantId with
      | none => loadSagas members
      | some saga => do
        let sagas ← loadSagas members
        pure ((m, saga) :: sagas)

/-- `placeholder_opener`. -/
def placeholderOpener : PeerOpener F := fun _ _ => fail (.openVault "not found")

variable [FloatLike F]

/-- The query that is built for an opener; without one it stays local. -/
def queryWith (opener : Option (PeerOpener F)) (embedding : List F) :
    HandleM F (MembraneQuery F) := do
  let members ← h.members c json
  let sagas ← h.loadSagas members
  pure
    { localTenant := h.localTenant
      localTenantId := h.localTenantId
      peerOpener := opener.getD placeholderOpener
      embedding
      members
      sagas
      topK := 10
      budget := h.defaultBudget
      minSimilarity := -FloatLike.infinity
      localOnly := opener.isNone
      deadline := none }

/-- `Hansa::query`. -/
def query (embedding : List F) : HandleM F (MembraneQuery F) :=
  h.queryWith c json h.peerOpener embedding

/-- `Hansa::query_async`. -/
def queryAsync (embedding : List F) : HandleM F (MembraneQuery F) :=
  h.queryWith c json h.asyncPeerOpener embedding

end Handle

section Useful

variable {F : Type}

/-- The loop of `Hansa::record_useful_hits`: one bump for each peer, at the time of the bump. -/
def markUseful (manifests : ManifestStore) (hits : List (MembraneHit F))
    (clock : TenantId → UInt64) : ManifestStore :=
  (hitCounts hits).foldl (fun store peer => store.bumpUseful peer.1 peer.2 (clock peer.1)) manifests

/-- `Hansa::record_useful_hits`. -/
def Handle.recordUsefulHits (hits : List (MembraneHit F)) (clock : TenantId → UInt64) :
    HandleM F Unit :=
  modify fun disk => { disk with manifests := markUseful disk.manifests hits clock }

end Useful

end Hansa
