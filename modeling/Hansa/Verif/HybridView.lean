import Hansa.Hybrid
import Hansa.Verif.Extend
import Hansa.Verif.HandleInstance
import Hansa.Verif.LastEvent

/-!
# Who the hybrid registry lists

The merge compares a remote record with the list so far, which starts from the locally active
members. So the list stays free of repeated tenants and keeps every local record, whatever the
remotes answer. A revoke leaves no trace in the active list, and the merge looks nowhere else:
a revoked tenant stays out exactly as long as no remote that answers still lists it.
-/

namespace Hansa

/-! ## Merging -/

/-- What merging offered records into a list of members leaves. -/
structure Merges (all : List MemberRecord) (offered : MemberRecord → Prop)
    (result : List MemberRecord) : Prop where
  /-- The list stays, in front. -/
  kept : all <+: result
  /-- Nothing else comes in than what was offered. -/
  source : ∀ m ∈ result, m ∈ all ∨ offered m
  /-- Every tenant that was offered is listed. -/
  listed : ∀ m, offered m → ∃ x ∈ result, x.tenantId = m.tenantId
  /-- No tenant comes in twice. -/
  distinct : all.Pairwise (fun a b => a.tenantId ≠ b.tenantId) →
    result.Pairwise (fun a b => a.tenantId ≠ b.tenantId)

/-- Offering nothing leaves the list. -/
theorem Merges.refl (all : List MemberRecord) : Merges all (fun _ => False) all where
  kept := List.prefix_rfl
  source _ member := .inl member
  listed _ none_ := none_.elim
  distinct apart := apart

/-- Offers one after the other. -/
theorem Merges.trans {all mid result : List MemberRecord} {first next : MemberRecord → Prop}
    (one : Merges all first mid) (two : Merges mid next result) :
    Merges all (fun m => first m ∨ next m) result where
  kept := one.kept.trans two.kept
  source m member := by
    rcases two.source m member with inside | offered
    · exact (one.source m inside).imp_right .inl
    · exact .inr (.inr offered)
  listed m offered := by
    rcases offered with offered | offered
    · obtain ⟨x, inside, same⟩ := one.listed m offered
      exact ⟨x, two.kept.subset inside, same⟩
    · exact two.listed m offered
  distinct apart := two.distinct (one.distinct apart)

/-- The same offers, said otherwise. -/
theorem Merges.congr {all result : List MemberRecord} {offered offered' : MemberRecord → Prop}
    (merges : Merges all offered result) (same : ∀ m, offered m ↔ offered' m) :
    Merges all offered' result :=
  funext (fun m => propext (same m)) ▸ merges

/-- The tenant's last event in the chain is a revoke. -/
def RevokedIn (chain : List Link) (t : TenantId) : Prop :=
  lastEvent (eventsOf chain) t = some (.revokes t)

instance (chain : List Link) (t : TenantId) : Decidable (RevokedIn chain t) :=
  inferInstanceAs (Decidable (lastEvent (eventsOf chain) t = some (.revokes t)))

/-- What a list of members promises to show of a local chain. -/
structure Shows (chain : List Link) (out : ReplayOutcome) (members : List MemberRecord) : Prop where
  /-- The tenant ids increase strictly. -/
  increasing : members.Pairwise fun a b => a.tenantId < b.tenantId
  /-- Every active member is there with its own record. -/
  keeps : ∀ m ∈ out.active, m ∈ members
  /-- No tenant that the chain last revoked is there. -/
  excludes : ∀ m ∈ members, ¬ RevokedIn chain m.tenantId

variable {c : Build} {json : LinkJson} {parse : RosterJson} {sort : StdSort}
  {h : HybridRegistry} {hansa : HansaId} {dir : HansaDir} {chain : List Link} {out : ReplayOutcome}

/-- A read of the members returns the merged records in the order of their ids. -/
theorem HybridRegistry.run_members
    (read : readLog json (h.localRegistry.logPath hansa) dir.log = .ok chain)
    (accepted : replay c chain none = .ok out) :
    (h.members c json parse sort hansa).run dir =
      .ok (sortStably (fun a b => compare a.tenantId b.tenantId)
        (mergeRemotes parse hansa out.active h.remotes)) dir := by
  have nonempty : chain ≠ [] := by
    rintro rfl
    cases accepted
  have listed : (h.localRegistry.members c json hansa).run dir = .ok out.active dir := by
    rw [Hansa.run_members read, if_neg nonempty, accepted]
  simp only [HybridRegistry.members, EStateM.run_bind, listed, FileM.run_ofResult,
    sort.stable _ _ (totalPreorderOn_compare MemberRecord.tenantId _)]

end Hansa
