import Hansa.Float
import Hansa.Member
import Mathlib.Logic.Function.Basic

/-!
# Peer manifests

The membrane keeps one file per peer: how many hits the peer returned, how many of them the
caller marked useful, and when it last did. The usefulness factor multiplies the peer's saga
score. A file that is missing or does not parse reads as the neutral manifest, so reading
never fails; a write goes to the file of the id that the manifest itself carries.
-/

namespace Hansa

/-- `PeerManifest`: per-peer record of past usefulness. -/
structure PeerManifest where
  /-- The peer's tenant id. -/
  peerId : TenantId
  /-- Hits the caller marked as useful. -/
  usefulHits : UInt64
  /-- Hits the peer ever returned. -/
  totalHits : UInt64
  /-- Unix seconds of the last useful hit; zero when there was none. -/
  lastUsefulAt : UInt64
  deriving DecidableEq

namespace PeerManifest

/-- `PeerManifest::empty`. -/
def empty (peer : TenantId) : PeerManifest := ⟨peer, 0, 0, 0⟩

/-- `TRIAL_RETURNS`. -/
def trialReturns : UInt64 := 20

variable {F : Type} [FloatLike F]

/-- `RECENCY_HALF_LIFE_S`. -/
def recencyHalfLifeS : F := 86400.0

/-- `BIAS_CAP`. -/
def biasCap : F := 0.5

/-- `NEGATIVE_BIAS_CAP`. -/
def negativeBiasCap : F := 0.8

/-- A cast of a counter to `f32`. -/
def cast (n : UInt64) : F := FloatLike.ofNat n.toNat

/-- `PeerManifest::usefulness_factor`. -/
def usefulnessFactor (m : PeerManifest) (now : UInt64) : F :=
  if m.totalHits = 0 then 1.0
  else if m.usefulHits = 0 then
    if m.totalHits < trialReturns then 1.0
    else
      let excess : F := cast (m.totalHits - trialReturns)
      let pull := FloatLike.min (excess / cast trialReturns) 1.0
      1.0 - negativeBiasCap * pull
  else
    let ratio : F := cast m.usefulHits / cast m.totalHits
    let age := cast (UInt64.ofNat (now.toNat - m.lastUsefulAt.toNat))
    let recency := FloatLike.exp (-age / recencyHalfLifeS)
    let bias := FloatLike.min (ratio * recency) biasCap
    1.0 + bias

/-- `PeerManifest::is_cold`. -/
def isCold (m : PeerManifest) : Bool := m.usefulHits = 0 && trialReturns ≤ m.totalHits

end PeerManifest

/-- `x.saturating_add(y)` on a `u64`. -/
def UInt64.saturatingAdd (x y : UInt64) : UInt64 :=
  if x.toNat + y.toNat < 2 ^ 64 then x + y else UInt64.ofNat (2 ^ 64 - 1)

/-- `ManifestStore`: what each peer's file holds, none when it is missing or does not parse. -/
abbrev ManifestStore := TenantId → Option PeerManifest

namespace ManifestStore

/-- `ManifestStore::read`. -/
def read (store : ManifestStore) (peer : TenantId) : PeerManifest :=
  (store peer).getD (PeerManifest.empty peer)

/-- `ManifestStore::write`. -/
def write (store : ManifestStore) (m : PeerManifest) : ManifestStore :=
  Function.update store m.peerId (some m)

/-- `ManifestStore::bump_total`. -/
def bumpTotal (store : ManifestStore) (peer : TenantId) (delta : UInt64) : ManifestStore :=
  let m := store.read peer
  store.write { m with totalHits := UInt64.saturatingAdd m.totalHits delta }

/-- `ManifestStore::bump_useful`. -/
def bumpUseful (store : ManifestStore) (peer : TenantId) (delta now : UInt64) : ManifestStore :=
  let m := store.read peer
  store.write
    { m with usefulHits := UInt64.saturatingAdd m.usefulHits delta, lastUsefulAt := now }

end ManifestStore

end Hansa
