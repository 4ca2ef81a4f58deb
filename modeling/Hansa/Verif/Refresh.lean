import Hansa.Background
import Hansa.Library.Transition
import Hansa.Verif.Digest
import Hansa.Verif.ExactArithmetic
import Hansa.Verif.HandleInstance
import Hansa.Verif.Membership

/-!
# How stale the background task lets a saga get

The task compares the tenant with the count of its own last build, which begins as the tenant's
count at the start. From there on it never exceeds the count of the saga on disk, unless that
saga was already behind at the start. So the saga stays within its margin after every round if
and only if it was not behind at the start, or every round rebuilds, or no tenant can outgrow
the margin.
-/

namespace Hansa

open Exact (num)

/-- The ceiling of an exact number is its own. -/
noncomputable instance : CeilToU64 Exact := ⟨fun a => UInt64.ofNat (a.ceilTo (2 ^ 64 - 1))⟩

/-! ## Margins -/

section Margin

variable {R : Type} [FloatLike R] [CeilToU64 R] {config : BackgroundRefreshConfig R}

/-- By how much a tenant may exceed a saga of some records before the saga is stale. -/
def BackgroundRefreshConfig.margin (config : BackgroundRefreshConfig R) (built : UInt64) : Nat :=
  max config.minGrowth.toNat (config.threshold built).toNat

/-- The task waits while the growth is within the margin. -/
theorem BackgroundRefreshConfig.waits_iff {lastBuilt current : UInt64} :
    config.waits lastBuilt current = true ↔
      current.toNat - lastBuilt.toNat < config.margin lastBuilt := by
  have growth : (UInt64.saturatingSub current lastBuilt).toNat =
      current.toNat - lastBuilt.toNat :=
    UInt64.toNat_ofNat_of_lt' ((Nat.sub_le _ _).trans_lt current.toNat_lt)
  rw [BackgroundRefreshConfig.waits, Bool.or_eq_true, decide_eq_true_iff, decide_eq_true_iff,
    UInt64.lt_iff_toNat_lt, UInt64.lt_iff_toNat_lt, growth, BackgroundRefreshConfig.margin,
    lt_max_iff]

end Margin

/-- The growth that the ratio asks for grows with the records, whatever the ratio. -/
theorem threshold_mono (config : BackgroundRefreshConfig Exact) {a b : UInt64} (le : a ≤ b) :
    (config.threshold a).toNat ≤ (config.threshold b).toNat := by
  have counts : (a.toNat : ℝ) ≤ b.toNat := Nat.cast_le.mpr (UInt64.le_iff_toNat_le.mp le)
  have ceilings := Exact.ceilTo_mul_mono (Nat.cast_nonneg a.toNat) counts config.thresholdRatio
    (2 ^ 64 - 1)
  have value : ∀ n : UInt64, (config.threshold n).toNat =
      (num n.toNat * config.thresholdRatio).ceilTo (2 ^ 64 - 1) := by
    intro n
    have bounded : (num n.toNat * config.thresholdRatio).ceilTo (2 ^ 64 - 1) ≤ 2 ^ 64 - 1 :=
      Exact.ceilTo_le _ _
    exact UInt64.toNat_ofNat_of_lt' (bounded.trans_lt (by decide))
  rw [value, value]
  exact ceilings

/-- So does the margin. -/
theorem margin_mono (config : BackgroundRefreshConfig Exact) {a b : UInt64} (le : a ≤ b) :
    config.margin a ≤ config.margin b :=
  max_le_max_left _ (threshold_mono config le)

/-! ## Rounds -/

/-- What a round of the task finds. -/
structure RefreshRound (F : Type) where
  /-- The tenant, after any inserts and deletes. -/
  tenant : Tenant F
  /-- The tags that the application provides. -/
  tags : List String
  /-- The time. -/
  now : Int64

/-- What a round of the task leaves. -/
structure RefreshState (F : Type) where
  /-- The tenant. -/
  tenant : Tenant F
  /-- The count the task keeps. -/
  lastBuilt : UInt64
  /-- The saga file of the tenant. -/
  file : SagaFile F

variable {F D : Type} [FloatLike F] [FloatLike D] [Widen F D]

/-- A handle whose tenant has changed. -/
def Handle.withTenant (h : Handle F) (tenant : Tenant F) : Handle F :=
  { h with localTenant := tenant }

section Rounds

variable {R : Type} [FloatLike R] [CeilToU64 R] (config : BackgroundRefreshConfig R)
  (rng : SmallRng D) (h : Handle F)

/-- One round of the task, whose build succeeds when one is due. Between rounds anything may
happen to the tenant and to the files, except that the saga file is left to the task. -/
structure Refreshes (s : RefreshState F) (round : RefreshRound F) (t : RefreshState F) : Prop where
  /-- The tenant is the one that was found. -/
  found : t.tenant = round.tenant
  /-- A build that is due succeeds. -/
  builds : config.waits s.lastBuilt round.tenant.recordCount = false →
    ∃ saga, (h.withTenant round.tenant).backgroundSaga config rng round.tags round.now = .ok saga
  /-- The round runs on files that hold the saga file. -/
  runs : ∃ before after : Disk F, before.sagas h.localTenantId = s.file ∧
    ((h.withTenant round.tenant).backgroundRound config rng round.tags round.now
      s.lastBuilt).run before = .ok t.lastBuilt after ∧ after.sagas h.localTenantId = t.file

variable {config rng h}

/-- A round that waits leaves everything as it was. -/
theorem Handle.run_backgroundRound_waits (h : Handle F) {tags : List String} {now : Int64}
    {lastBuilt : UInt64}
    (waits : config.waits lastBuilt h.localTenant.recordCount = true) (disk : Disk F) :
    (h.backgroundRound config rng tags now lastBuilt).run disk = .ok lastBuilt disk := by
  rw [Handle.backgroundRound, if_pos waits]
  rfl

/-- A round that is due counts the records, and writes the saga of all of them. -/
theorem Handle.run_backgroundRound_due (h : Handle F) {tags : List String} {now : Int64}
    {lastBuilt : UInt64}
    (due : config.waits lastBuilt h.localTenant.recordCount = false) {saga : Saga F}
    (built : h.backgroundSaga config rng tags now = .ok saga) (disk : Disk F) :
    (h.backgroundRound config rng tags now lastBuilt).run disk =
      .ok h.localTenant.recordCount (disk.publish h.localTenantId saga) := by
  simp only [Handle.backgroundRound, due, built]
  rfl

/-- A round waits and leaves the saga file, or writes a saga of all records. -/
theorem Refreshes.step {s t : RefreshState F} {round : RefreshRound F}
    (next : Refreshes config rng h s round t) :
    (config.waits s.lastBuilt round.tenant.recordCount = true ∧
      t = ⟨round.tenant, s.lastBuilt, s.file⟩) ∨
    ∃ saga : Saga F, saga.recordCount = round.tenant.recordCount ∧
      t = ⟨round.tenant, round.tenant.recordCount, some (.ok saga)⟩ := by
  obtain ⟨found, builds, before, after, held, runs, left⟩ := next
  cases t with
  | mk tenant lastBuilt file =>
  subst found left
  by_cases waits : config.waits s.lastBuilt round.tenant.recordCount = true
  · left
    rw [(h.withTenant round.tenant).run_backgroundRound_waits waits] at runs
    cases runs
    exact ⟨waits, by rw [held]⟩
  · right
    have due := Bool.eq_false_iff.mpr waits
    obtain ⟨saga, built⟩ := builds due
    rw [((h.withTenant round.tenant).run_backgroundRound_due due built before)] at runs
    cases runs
    have written : (before.publish h.localTenantId saga).sagas h.localTenantId =
        some (.ok saga) := Function.update_self _ _ _
    refine ⟨saga, (buildSagaFromTenant_count built).1, ?_⟩
    exact congrArg _ written

end Rounds

/-! ## Runs -/

/-- The records of a tenant are within the margin of a saga of some records. -/
def BackgroundRefreshConfig.Within {R : Type} [FloatLike R] [CeilToU64 R]
    (config : BackgroundRefreshConfig R) (built current : UInt64) : Prop :=
  current ≤ built ∨ current.toNat - built.toNat < config.margin built

/-- The saga on disk is not stale. -/
def RefreshState.Fresh {R : Type} [FloatLike R] [CeilToU64 R] (config : BackgroundRefreshConfig R)
    (s : RefreshState F) : Prop :=
  ∃ saga, s.file = some (.ok saga) ∧ config.Within saga.recordCount s.tenant.recordCount

/-- A task that counts from some records looks after a saga: the saga counts no fewer, or every
round rebuilds, or no tenant outgrows the saga's margin. -/
def BackgroundRefreshConfig.Covers {R : Type} [FloatLike R] [CeilToU64 R]
    (config : BackgroundRefreshConfig R) (built lastBuilt : UInt64) : Prop :=
  lastBuilt ≤ built ∨ config.margin lastBuilt = 0 ∨ 2 ^ 64 ≤ built.toNat + config.margin built

variable {config : BackgroundRefreshConfig Exact} {rng : SmallRng D} {h : Handle F}
  {s t : RefreshState F} {round : RefreshRound F}

/-- While the task looks after a saga and waits, the saga is not stale. -/
theorem within_of_waits {built lastBuilt current : UInt64} (covers : config.Covers built lastBuilt)
    (waits : config.waits lastBuilt current = true) : config.Within built current := by
  have growth := BackgroundRefreshConfig.waits_iff.mp waits
  rcases covers with behind | always | huge
  · right
    have margins := margin_mono config behind
    have counts := UInt64.le_iff_toNat_le.mp behind
    omega
  · omega
  · right
    have bound := current.toNat_lt
    have counts := built.toNat_lt
    omega

/-- A round keeps the task looking after the saga, which is then not stale. -/
theorem Refreshes.keeps (next : Refreshes config rng h s round t) {saga : Saga F}
    (held : s.file = some (.ok saga)) (covers : config.Covers saga.recordCount s.lastBuilt) :
    (∃ saga, t.file = some (.ok saga) ∧ config.Covers saga.recordCount t.lastBuilt) ∧
      t.Fresh config := by
  rcases next.step with ⟨waits, rfl⟩ | ⟨rebuilt, counted, rfl⟩
  · exact ⟨⟨saga, held, covers⟩, saga, held, within_of_waits covers waits⟩
  · have all : round.tenant.recordCount ≤ rebuilt.recordCount := UInt64.le_of_eq counted.symm
    exact ⟨⟨rebuilt, rfl, .inl all⟩, rebuilt, rfl, .inl all⟩

/-- Where the task does not look after the saga, there is a tenant for which it waits while the
saga is stale. -/
theorem exists_stale {built lastBuilt : UInt64} (uncovered : ¬ config.Covers built lastBuilt) :
    ∃ current, config.waits lastBuilt current = true ∧ ¬ config.Within built current := by
  rw [BackgroundRefreshConfig.Covers, not_or, not_or] at uncovered
  obtain ⟨ahead, sometimes, small⟩ := uncovered
  have ahead : built < lastBuilt := UInt64.not_le.mp ahead
  have counts := UInt64.lt_iff_toNat_lt.mp ahead
  have bound := lastBuilt.toNat_lt
  have margins := margin_mono config (UInt64.le_of_lt ahead)
  -- The least number of records at which the saga is stale.
  let stale := built.toNat + max (config.margin built) 1
  have fits : stale < 2 ^ 64 := by omega
  have value : (UInt64.ofNat stale).toNat = stale := UInt64.toNat_ofNat_of_lt' fits
  refine ⟨UInt64.ofNat stale, ?_, ?_⟩
  · rw [BackgroundRefreshConfig.waits_iff, value]
    omega
  · rw [BackgroundRefreshConfig.Within, UInt64.le_iff_toNat_le, value]
    omega

/-- A round that waits is possible whatever the tenant has become. -/
theorem refreshes_of_waits (rng : SmallRng D) (h : Handle F) (s : RefreshState F)
    {tenant : Tenant F} (waits : config.waits s.lastBuilt tenant.recordCount = true) :
    Refreshes config rng h s ⟨tenant, [], 0⟩ ⟨tenant, s.lastBuilt, s.file⟩ := by
  let disk : Disk F := ⟨⟨none, []⟩, fun _ => s.file, fun _ => none, none⟩
  refine ⟨rfl, fun due => ?_, disk, disk, rfl, ?_, rfl⟩
  · rw [waits] at due
    cases due
  · exact (h.withTenant tenant).run_backgroundRound_waits waits disk

/-- The task keeps a saga fresh, after every round of every run, if and only if it looks after
the saga that it finds when it starts. -/
theorem stays_fresh_iff (config : BackgroundRefreshConfig Exact) (rng : SmallRng D) (h : Handle F)
    (saga : Saga F) :
    (∀ rounds s, Run (Refreshes config rng h)
        ⟨h.localTenant, h.backgroundInitial, some (.ok saga)⟩ rounds s →
      rounds ≠ [] → s.Fresh config) ↔
      config.Covers saga.recordCount h.localTenant.recordCount := by
  constructor
  · intro fresh
    by_contra uncovered
    obtain ⟨current, waits, stale⟩ := exists_stale uncovered
    let start : RefreshState F := ⟨h.localTenant, h.backgroundInitial, some (.ok saga)⟩
    let grown : Tenant F := { h.localTenant with recordCount := current }
    have waited : config.waits start.lastBuilt grown.recordCount = true := waits
    have run := Run.nil.concat (refreshes_of_waits rng h start waited)
    obtain ⟨found, held, within⟩ := fresh _ _ run (by simp)
    cases held
    exact stale within
  · intro covers rounds s run ticked
    cases run with
    | nil => exact absurd rfl ticked
    | concat before next =>
      obtain ⟨saga, held, covers⟩ := before.invariant
        (fun s => ∃ saga, s.file = some (.ok saga) ∧ config.Covers saga.recordCount s.lastBuilt)
        ⟨saga, rfl, covers⟩
        (fun _ _ _ ⟨_, held, covers⟩ next => (next.keeps held covers).1)
      exact (next.keeps held covers).2

/-! ## A saga that was behind -/

/-- A handle whose tenant holds twenty records. -/
def twentyRecords : Handle Float32 :=
  sampleHandle.withTenant { sampleHandle.localTenant with recordCount := 20 }

/-- A saga of a tenant that was empty. -/
def sagaOfNone : Saga Float32 := ⟨sampleTenant 1, 0, 0, 3, [], []⟩

/-- No growth is asked for where there is nothing to grow from. -/
theorem threshold_zero (config : BackgroundRefreshConfig Exact) {ratio : ℝ}
    (number : config.thresholdRatio = num ratio) : config.threshold 0 = 0 := by
  have product : (FloatLike.ofNat (0 : UInt64).toNat : Exact) * num ratio = num (0 * ratio) :=
    congrArg (fun x => num (x * ratio)) Nat.cast_zero
  have none_ : (num 0).ceilTo (2 ^ 64 - 1) = 0 := by
    rw [Exact.ceilTo, Nat.ceil_zero, Nat.zero_min]
  rw [BackgroundRefreshConfig.threshold, number, product, zero_mul]
  exact congrArg UInt64.ofNat none_

/-- The start of a task on the twenty records and the saga of none. -/
def staleStart : RefreshState Float32 :=
  ⟨twentyRecords.localTenant, twentyRecords.backgroundInitial, some (.ok sagaOfNone)⟩

/-- When the task starts on a saga of none of its twenty records, a round with the default
settings leaves that saga. -/
theorem stale_saga_stays :
    ¬ ∀ rounds (s : RefreshState Float32),
      Run (Refreshes (.default : BackgroundRefreshConfig Exact) sampleRng twentyRecords)
          staleStart rounds s →
        rounds ≠ [] → s.Fresh (.default : BackgroundRefreshConfig Exact) := by
  intro fresh
  have waits : (.default : BackgroundRefreshConfig Exact).waits staleStart.lastBuilt
      twentyRecords.localTenant.recordCount = true := by
    rw [BackgroundRefreshConfig.waits_iff]
    exact Nat.lt_of_lt_of_le (by decide) (le_max_left _ _)
  have run := Run.nil.concat (refreshes_of_waits sampleRng twentyRecords staleStart waits)
  obtain ⟨found, held, within⟩ := fresh _ _ run (by simp)
  cases held
  have margin : (.default : BackgroundRefreshConfig Exact).margin sagaOfNone.recordCount = 1 := by
    have nothing : (.default : BackgroundRefreshConfig Exact).threshold 0 = 0 :=
      threshold_zero .default rfl
    rw [BackgroundRefreshConfig.margin]
    show max 1 ((BackgroundRefreshConfig.default : BackgroundRefreshConfig Exact).threshold
      0).toNat = 1
    rw [nothing]
    rfl
  rcases within with behind | growth
  · exact absurd behind (by decide)
  · rw [margin] at growth
    exact absurd growth (by decide)

end Hansa
