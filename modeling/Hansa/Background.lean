import Hansa.Handle

/-!
# Background refresh

A handle may start a task that looks at the tenant's record count from time to time, and
rebuilds the saga once the tenant has grown enough since the last build. The task counts from
the records that the tenant holds when it starts: it does not read the saga file. A build that
fails leaves the file and the count as they were.
-/

namespace Hansa

/-- `ceil`, then a cast to `u64`, which saturates and takes NaN to zero. -/
class CeilToU64 (R : Type) where
  /-- `x.ceil() as u64`. -/
  ceilToU64 : R → UInt64

export CeilToU64 (ceilToU64)

instance : CeilToU64 Float32 := ⟨fun x => x.ceil.toUInt64⟩

/-- `x.saturating_sub(y)` on a `u64`. -/
def UInt64.saturatingSub (x y : UInt64) : UInt64 := UInt64.ofNat (x.toNat - y.toNat)

/-- `BackgroundRefreshConfig`, without the interval. -/
structure BackgroundRefreshConfig (R : Type) where
  /-- Growth that makes a rebuild due, as a share of the records at the last build. -/
  thresholdRatio : R
  /-- Least number of new records that makes a rebuild due. -/
  minGrowth : UInt64
  /-- Seed of the rebuild. -/
  seedForKmeans : UInt64

variable {R : Type} [FloatLike R]

/-- `BackgroundRefreshConfig::default`. -/
def BackgroundRefreshConfig.default : BackgroundRefreshConfig R := ⟨0.1, 1, 0⟩

variable [CeilToU64 R] (config : BackgroundRefreshConfig R)

/-- The growth that the ratio asks for after a build of some records. -/
def BackgroundRefreshConfig.threshold (lastBuilt : UInt64) : UInt64 :=
  ceilToU64 (FloatLike.ofNat lastBuilt.toNat * config.thresholdRatio)

/-- Whether a tenant has not grown enough since the last build. -/
def BackgroundRefreshConfig.waits (lastBuilt current : UInt64) : Bool :=
  let growth := UInt64.saturatingSub current lastBuilt
  growth < config.minGrowth || growth < config.threshold lastBuilt

namespace Handle

variable {F D : Type} [FloatLike F] [FloatLike D] [Widen F D] (rng : SmallRng D) (h : Handle F)

/-- What the task of `start_background_refresh` counts from. -/
def backgroundInitial : UInt64 := h.localTenant.recordCount

/-- The saga that a rebuild writes. -/
def backgroundSaga (tags : List String) (now : Int64) : Result (Saga F) :=
  buildSagaFromTenant rng h.localTenantId h.localTenant.embeddingDim h.localTenant.recordCount
    (h.localTenant.iterVectors.map Prod.snd) tags now config.seedForKmeans

/-- One round of the loop of `start_background_refresh`, from the count of the last build to the
next one. -/
def backgroundRound (tags : List String) (now : Int64) (lastBuilt : UInt64) :
    HandleM F UInt64 :=
  let current := h.localTenant.recordCount
  if config.waits lastBuilt current then pure lastBuilt
  else
    match h.backgroundSaga config rng tags now with
    | .ok saga => do
      modify fun disk =>
        { disk with sagas := Function.update disk.sagas h.localTenantId (some (.ok saga)) }
      pure current
    | .error (.err _) => pure lastBuilt
    | .error .panic => throw .panic

end Handle

end Hansa
