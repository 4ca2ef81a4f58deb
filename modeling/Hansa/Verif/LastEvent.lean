import Hansa.Verif.Replay

/-!
# The last event about a tenant

A chain is a sequence of events about tenants: every record of a root checkpoint is admitted,
in order, and each later link admits or revokes one tenant. Replay keeps a hash map while it
walks the chain; what it ends with can be said without one: a record is active exactly when
the last event about its tenant admits it. Together with the shape of the accepted chains this
is all that replay computes.
-/

namespace Hansa

/-! ## Events -/

/-- What a link says about one tenant. -/
inductive TenantEvent where
  /-- The tenant is a member, with this record. -/
  | admits (member : MemberRecord)
  /-- The tenant is no member. -/
  | revokes (tenantId : TenantId)
  deriving DecidableEq

namespace TenantEvent

/-- The tenant the event is about. -/
def tenant : TenantEvent → TenantId
  | .admits member => member.tenantId
  | .revokes tenantId => tenantId

/-- The record the tenant has after the event. -/
def record? : TenantEvent → Option MemberRecord
  | .admits member => some member
  | .revokes _ => none

/-- The roster after the event. -/
def apply (roster : Roster) (e : TenantEvent) : Roster := Function.update roster e.tenant e.record?

end TenantEvent

/-- The events of a body, in order. -/
def Body.events : Body → List TenantEvent
  | .genesis _ => []
  | .admitMember member _ => [.admits member]
  | .revoke tenantId .. => [.revokes tenantId]
  | .checkpoint members .. => members.map .admits

/-- The events of a chain, in order. -/
def eventsOf (chain : List Link) : List TenantEvent := chain.flatMap fun link => link.body.events

/-- The last event about a tenant. -/
def lastEvent (events : List TenantEvent) (t : TenantId) : Option TenantEvent :=
  events.reverse.find? fun e => e.tenant = t

/-- One more event is the last about its tenant, and changes nothing about the others. -/
theorem lastEvent_concat (events : List TenantEvent) (e : TenantEvent) (t : TenantId) :
    lastEvent (events ++ [e]) t = if e.tenant = t then some e else lastEvent events t := by
  rw [lastEvent, List.reverse_concat, List.find?_cons]
  by_cases about : e.tenant = t
  · simp only [about, decide_true, if_true]
  · simp only [about, decide_false, if_false, lastEvent]

/-- Events from the empty roster leave each tenant what the last event about it says. -/
theorem foldl_apply_eq (events : List TenantEvent) (t : TenantId) :
    events.foldl TenantEvent.apply .empty t = (lastEvent events t).bind TenantEvent.record? := by
  induction events using List.reverseRecOn with
  | nil => rfl
  | append_singleton events e ih =>
    rw [List.foldl_concat, lastEvent_concat, TenantEvent.apply]
    by_cases about : e.tenant = t
    · rw [if_pos about, ← about, Function.update_self]
      rfl
    · rw [if_neg about, Function.update_of_ne (Ne.symm about), ih]

/-- A record is what the last event leaves exactly when the last event admits it. -/
theorem lastEvent_admits {history : List TenantEvent} {t : TenantId} {m : MemberRecord} :
    (lastEvent history t).bind TenantEvent.record? = some m ↔
      lastEvent history t = some (.admits m) := by
  rw [Option.bind_eq_some_iff]
  constructor
  · rintro ⟨event, last, admits⟩
    cases event with
    | admits member =>
      obtain rfl := Option.some.inj admits
      exact last
    | revokes tenantId => cases admits
  · exact fun last => ⟨_, last, rfl⟩

/-- A root builds up its roster by its events. -/
theorem Body.apply_root {body : Body} (root : body.IsRoot) (roster : Roster) :
    body.apply roster = body.events.foldl TenantEvent.apply .empty := by
  cases body with
  | genesis => rfl
  | checkpoint members =>
    rw [Body.events, List.foldl_map]
    rfl
  | admitMember | revoke => exact root.elim

/-- An inner body changes the roster by its event. -/
theorem Body.apply_events {body : Body} (inner : ¬ body.IsRoot) (roster : Roster) :
    body.apply roster = body.events.foldl TenantEvent.apply roster := by
  cases body with
  | genesis | checkpoint => exact absurd trivial inner
  | admitMember | revoke => rfl

/-- A root and inner links build up the roster by their events, one after the other. -/
theorem rosterOf_eq_foldl {root : Link} {run : List Link} (isRoot : root.body.IsRoot)
    (inner : ∀ link ∈ run, ¬ link.body.IsRoot) :
    rosterOf ((root :: run).map Link.toStatement) =
      (eventsOf (root :: run)).foldl TenantEvent.apply .empty := by
  induction run using List.reverseRecOn with
  | nil =>
    have events : eventsOf [root] = root.body.events := List.append_nil _
    rw [events, ← Body.apply_root isRoot Roster.empty]
    rfl
  | append_singleton run link ih =>
    have before := ih (fun other member => inner other (List.mem_append_left _ member))
    have events : eventsOf (root :: (run ++ [link])) =
        eventsOf (root :: run) ++ link.body.events := by
      simp [eventsOf]
    rw [← List.cons_append, List.map_append, List.map_singleton, rosterOf_concat, before,
      List.cons_append, events, List.foldl_append]
    exact Body.apply_events (inner link (by simp)) _

/-- Replay leaves each tenant what the last event about it says. -/
theorem Replays.roster_eq {c : Build} {chain : List Link} {out : ReplayOutcome}
    (described : Replays c chain out) (t : TenantId) :
    rosterOf (chain.map Link.toStatement) t =
      (lastEvent (eventsOf chain) t).bind TenantEvent.record? := by
  obtain ⟨root, run, rfl, valid, -, -, extended⟩ := described.root_and_inner
  have inner : ∀ link ∈ run, ¬ link.body.IsRoot := by
    intro link member
    obtain ⟨_, _, step⟩ := extended link member
    exact step.follows.inner
  rw [rosterOf_eq_foldl valid.isRoot inner, foldl_apply_eq]

/-- A record is active exactly when the last event about its tenant admits it. -/
theorem Replays.mem_active {c : Build} {chain : List Link} {out : ReplayOutcome}
    (described : Replays c chain out) (r : MemberRecord) :
    r ∈ out.active ↔ lastEvent (eventsOf chain) r.tenantId = some (.admits r) := by
  rw [described.active.mem_iff, described.roster_eq, lastEvent_admits]

/-! ## The accepted chains -/

/-- A link that may open the chain of an id: the genesis that founds it, or a checkpoint signed
by the key it commits to. -/
def Link.RootFor (c : Build) (id : HansaId) (first : Link) : Prop :=
  match first.body with
  | .genesis g =>
    first.seq = 0 ∧ first.prev = Vector.replicate 32 0 ∧ first.signedBy = g.skipperPub ∧
      g.v = 2 ∧ g.hansaId = id ∧ g.hansaId = HansaId.fromSkipper c g.skipperPub ∧
      c.verifyStrict g.skipperPub (framed domainGenesis g.canonical) first.sig = true
  | .checkpoint .. =>
    HansaId.fromSkipper c first.signedBy = id ∧
      c.verifyStrict first.signedBy (framed domainLink first.canonical) first.sig = true
  | .admitMember .. | .revoke .. => False

/-- A root for an id is a valid root whose key the id commits to. -/
theorem Link.rootFor_iff {c : Build} {id : HansaId} {first : Link} :
    first.RootFor c id ↔ first.ValidRoot c ∧ HansaId.fromSkipper c first.signedBy = id := by
  unfold Link.RootFor Link.ValidRoot
  cases first.body with
  | genesis g =>
    constructor
    · rintro ⟨seq, prev, own, version, rfl, bound, signed⟩
      exact ⟨⟨⟨seq, prev, own⟩, version, bound.symm, signed⟩, own ▸ bound.symm⟩
    · rintro ⟨⟨⟨seq, prev, own⟩, version, bound, signed⟩, rfl⟩
      exact ⟨seq, prev, own, version, own ▸ bound.symm, bound.symm, signed⟩
  | checkpoint => exact And.comm
  | admitMember | revoke => exact ⟨False.elim, fun both => both.1.elim⟩

/-- A chain that is well formed for an id: a root for it, and links that each extend the one
before. -/
def WellFormedFor (c : Build) (id : HansaId) (chain : List Link) : Prop :=
  ∃ first rest, chain = first :: rest ∧ first.RootFor c id ∧
    chain.IsChain (Link.Extends c first.signedBy)

/-- What replay computes of a chain. -/
structure Computes (c : Build) (chain : List Link) (out : ReplayOutcome) : Prop where
  /-- The active records are those that the last event about their tenant admits. -/
  active : ∀ r, r ∈ out.active ↔ lastEvent (eventsOf chain) r.tenantId = some (.admits r)
  /-- The tenant ids increase strictly. -/
  increasing : out.active.Pairwise fun a b => a.tenantId < b.tenantId
  /-- The dimension is the root's. -/
  dim : ∃ first ∈ chain.head?, first.body.rootDim? = some out.embeddingDim
  /-- The head is the last link. -/
  head : ∃ last ∈ chain.getLast?, out.headSeq = last.seq ∧ out.headHash = last.hash c

/-- Replay for an id accepts exactly the well-formed chains, and the last event about each
tenant decides. -/
theorem replay_exact (c : Build) (chain : List Link) (id : HansaId) :
    ((∃ out, replay c chain (some id) = .ok out) ↔ WellFormedFor c id chain) ∧
      ∀ out, replay c chain (some id) = .ok out → Computes c chain out := by
  refine ⟨⟨?_, ?_⟩, ?_⟩
  · rintro ⟨out, accepted⟩
    obtain ⟨described, pinned⟩ := replay_ok accepted
    obtain ⟨root, run, rfl, valid, key, -, -⟩ := described.root_and_inner
    rw [key] at pinned
    exact ⟨root, run, rfl, Link.rootFor_iff.mpr ⟨valid, pinned_some.mp pinned⟩,
      key ▸ described.linked⟩
  · rintro ⟨first, rest, rfl, root, linked⟩
    obtain ⟨valid, bound⟩ := Link.rootFor_iff.mp root
    exact replay_accepts rfl valid linked (pinned_some.mpr bound)
  · intro out accepted
    obtain ⟨described, -⟩ := replay_ok accepted
    obtain ⟨first, isFirst, -, -, pins⟩ := described.root
    exact ⟨described.mem_active, described.active.increasing, ⟨first, isFirst, pins⟩,
      described.head⟩

end Hansa
