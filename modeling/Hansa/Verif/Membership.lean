import Hansa.Verif.HandleRun

/-!
# Calls that change the membership

What joining, admitting, revoking and leaving do to the files, as equations: a call asks for
the skipper, an admission replays the log against the id and compares the dimension, and what
is left is one append of the registry. Joining writes a missing saga before any of this, and
leaving removes the saga after it.
-/

namespace Hansa

variable {F : Type} {c : Build} {json : LinkJson} {h : Handle F}

/-- Read a log and replay it. -/
def replayLog (c : Build) (json : LinkJson) (path : PathBuf) (log : Option (List UInt8))
    (expected : Option HansaId) : Result ReplayOutcome := do
  let chain ← readLog json path log
  replay c chain expected

/-- A log replays when it is read as a chain that does. -/
theorem replayLog_eq_ok {path : PathBuf} {log : Option (List UInt8)}
    {expected : Option HansaId} {out : ReplayOutcome} :
    replayLog c json path log expected = .ok out ↔
      ∃ chain, readLog json path log = .ok chain ∧ replay c chain expected = .ok out :=
  Except.bind_eq_ok

/-- An admission asks for the skipper, the log and the dimension before it appends. -/
theorem Handle.run_admitMember (h : Handle F) (member : MemberRecord) (now : Int64)
    (disk : Disk F) :
    (h.admitMember c json member now).run disk =
      match h.skipper with
      | none => .error (.err .unauthorized) disk
      | some skipper =>
        match replayLog c json (h.registry.logPath h.id) disk.dir.log (some h.id) with
        | .error fault => .error fault disk
        | .ok head =>
          if member.embeddingDim ≠ head.embeddingDim then
            .error (.err (.dimMismatch head.embeddingDim member.embeddingDim)) disk
          else (HandleM.registry (h.registry.appendNext c json h.id skipper
            (.admitMember member none) now) : HandleM F Unit).run disk := by
  simp only [Handle.admitMember, Handle.authority, replayLog]
  cases h.skipper with
  | none => rfl
  | some skipper =>
    simp only [EStateM.run_bind, EStateM.run_pure, HandleM.run_readChain, HandleM.run_ofResult]
    cases readLog json (h.registry.logPath h.id) disk.dir.log with
    | error fault => rfl
    | ok chain =>
      simp only [bind, Except.bind]
      cases replay c chain (some h.id) with
      | error fault => rfl
      | ok head =>
        simp only
        split <;> rfl

/-- A revocation asks for the skipper before it appends. -/
theorem Handle.run_revoke (h : Handle F) (tenant : TenantId) (now : Int64) (disk : Disk F) :
    (h.revoke c json tenant now).run disk =
      match h.skipper with
      | none => .error (.err .unauthorized) disk
      | some skipper => (HandleM.registry (h.registry.appendNext c json h.id skipper
          (.revoke tenant now none) now) : HandleM F Unit).run disk := by
  simp only [Handle.revoke, Handle.authority]
  cases h.skipper <;> rfl

/-- Leaving removes the saga once the revocation returned. -/
theorem Handle.run_leave (h : Handle F) (now : Int64) (disk : Disk F) :
    (h.leave c json now).run disk =
      match (h.revoke c json h.localTenantId now).run disk with
      | .error fault mid => .error fault mid
      | .ok () mid =>
        .ok () { mid with sagas := Function.update mid.sagas h.localTenantId none } := by
  simp only [Handle.leave, EStateM.run_bind]
  cases (h.revoke c json h.localTenantId now).run disk <;> rfl

section Join

variable {D : Type} [FloatLike F] [FloatLike D] [Widen F D] {rng : SmallRng D}

/-- The record with which a handle joins. -/
def Handle.ownRecord (h : Handle F) (now : Int64) : MemberRecord :=
  { tenantId := h.localTenantId
    tenantLocation := h.localTenantLocation
    embeddingDim := h.localTenant.embeddingDim
    joinedAt := now }

/-- The saga that a handle builds of its tenant. -/
def Handle.ownSaga (h : Handle F) (rng : SmallRng D) (tags : List String) (builtAt : Int64)
    (seed : UInt64) : Result (Saga F) :=
  buildSagaFromTenant rng h.localTenantId h.localTenant.embeddingDim h.localTenant.recordCount
    (h.localTenant.iterVectors.map Prod.snd) tags builtAt seed

/-- The disk with a saga in the place of the handle's own. -/
def Disk.publish (disk : Disk F) (t : TenantId) (saga : Saga F) : Disk F :=
  { disk with sagas := Function.update disk.sagas t (some (.ok saga)) }

/-- Joining publishes a saga where there is none, and then admits the own tenant. -/
theorem Handle.run_join (h : Handle F) (tags : List String) (now : Int64) (disk : Disk F) :
    (h.join c json rng tags now).run disk =
      if (disk.sagas h.localTenantId).isNone then
        match h.ownSaga rng tags now 0 with
        | .error fault => .error fault disk
        | .ok saga => (h.admitMember c json (h.ownRecord now) now).run
            (disk.publish h.localTenantId saga)
      else (h.admitMember c json (h.ownRecord now) now).run disk := by
  simp only [Handle.join, Handle.refreshSaga, Handle.ownSaga, EStateM.run_bind, EStateM.run_get]
  split
  · simp only [EStateM.run_bind, HandleM.run_ofResult]
    cases buildSagaFromTenant rng h.localTenantId h.localTenant.embeddingDim
      h.localTenant.recordCount (h.localTenant.iterVectors.map Prod.snd) tags now 0 <;> rfl
  · rfl

end Join

end Hansa
