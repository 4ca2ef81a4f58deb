import Hansa.Verif.HandleInstance

/-!
# Membership and the hansa id

Opening a handle replays the log against the id of the hansa. Reading the members afterwards
replays whatever the log holds by then, and pins nothing: the member list, and with it the
peers of every query, is that of any chain that replays, whoever signed its root.
-/

namespace Hansa

/-! ## Who states a member -/

/-- The body admits the member, or carries it in a checkpoint. -/
def Body.States (m : MemberRecord) : Body → Prop
  | .admitMember member _ => member = m
  | .checkpoint members .. => m ∈ members
  | .genesis _ | .revoke .. => False

/-- A member of a roster is stated by one of the statements it was folded from. -/
theorem states_of_rosterOf {statements : List Statement} {t : TenantId} {m : MemberRecord}
    (active : rosterOf statements t = some m) : ∃ s ∈ statements, s.body.States m := by
  induction statements using List.reverseRecOn with
  | nil => cases active
  | append_singleton statements s ih =>
    have before (same : rosterOf statements t = some m) :
        ∃ s' ∈ statements ++ [s], s'.body.States m := by
      obtain ⟨s', member, states⟩ := ih same
      exact ⟨s', List.mem_append_left _ member, states⟩
    rw [rosterOf_concat] at active
    cases shape : s.body with
    | genesis g =>
      rw [shape, Body.apply] at active
      cases active
    | admitMember member memberPub =>
      rw [shape, Body.apply] at active
      by_cases own : t = member.tenantId
      · rw [own, Function.update_self] at active
        exact ⟨s, by simp, by rw [shape]; exact Option.some.inj active⟩
      · rw [Function.update_of_ne own] at active
        exact before active
    | revoke tenantId time reason =>
      rw [shape, Body.apply] at active
      by_cases own : t = tenantId
      · rw [own, Function.update_self] at active
        cases active
      · rw [Function.update_of_ne own] at active
        exact before active
    | checkpoint members embeddingDim time =>
      rw [shape, Body.apply] at active
      exact ⟨s, by simp, by rw [shape]; exact mem_of_ofRecords active⟩

/-- A link of the chain states the member, under a verified signature of the given key. -/
def Vouched (c : Build) (chain : List Link) (key : SkipperPub) (m : MemberRecord) : Prop :=
  ∃ link ∈ chain, link.body.States m ∧ link.Signed c ∧ link.signedBy = key

/-- Every active member of a replayed chain is vouched for by the root's key. -/
theorem Replays.vouched {c : Build} {chain : List Link} {out : ReplayOutcome}
    (described : Replays c chain out) {m : MemberRecord} (active : m ∈ out.active) :
    Vouched c chain out.skipper m := by
  obtain ⟨s, member, states⟩ := states_of_rosterOf ((described.active.mem_iff m).mp active)
  obtain ⟨link, inside, rfl⟩ := List.mem_map.mp member
  obtain ⟨root, run, rfl, valid, key, _, inner⟩ := described.root_and_inner
  refine ⟨link, inside, states, ?_⟩
  rcases List.mem_cons.mp inside with rfl | later
  · refine ⟨?_, key.symm⟩
    unfold Link.ValidRoot at valid
    cases shape : link.body with
    | checkpoint members embeddingDim time => rwa [shape] at valid
    | genesis | admitMember | revoke =>
      rw [shape] at valid states
      first | exact states.elim | exact valid.elim
  · obtain ⟨_, _, joint⟩ := inner link later
    exact ⟨joint.signed, joint.follows.signer⟩

/-! ## Pinned members -/

section Pinned

variable {F : Type} {c : Build} {json : LinkJson} {h : Handle F} {disk : Disk F}

/-- Every well-formed chain that the log can be read as is rooted in a key with the id. -/
def RootPinned (c : Build) (json : LinkJson) (h : Handle F) (disk : Disk F) : Prop :=
  ∀ chain first, readLog json (h.registry.logPath h.id) disk.dir.log = .ok chain →
    WellFormed c chain → first ∈ chain.head? → HansaId.fromSkipper c first.signedBy = h.id

/-- Under a pinned root, a chain that replays does so against the id. -/
theorem RootPinned.replay (pinned : RootPinned c json h disk) {chain : List Link}
    {out : ReplayOutcome}
    (read : readLog json (h.registry.logPath h.id) disk.dir.log = .ok chain)
    (accepted : replay c chain none = .ok out) :
    Hansa.replay c chain (some h.id) = .ok out ∧ HansaId.fromSkipper c out.skipper = h.id := by
  obtain ⟨first, isFirst, _, key, _⟩ := (replay_ok accepted).1.root
  have root := pinned chain first read (replay_none_accepts.mp ⟨out, accepted⟩) isFirst
  rw [← key] at root
  exact ⟨replay_pinned.mpr ⟨accepted, pinned_some.mpr root⟩, root⟩

variable [FloatLike F]

/-- What the member lists of a handle owe to its id. -/
structure MembersPinned (c : Build) (json : LinkJson) (h : Handle F) (disk : Disk F) : Prop where
  /-- A member list is empty for want of a chain, or the active set of the chain that the log
  holds, replayed against the id. -/
  members : ∀ ms disk', (h.members c json).run disk = .ok ms disk' →
    ∃ chain, readLog json (h.registry.logPath h.id) disk.dir.log = .ok chain ∧
      (chain = [] ∧ ms = [] ∨ ∃ out, replay c chain (some h.id) = .ok out ∧ out.active = ms)
  /-- Every member a query uses was stated by a link of the log that a key with the handle's id
  signed. -/
  used : ∀ embedding q disk', ((h.query c json embedding).run disk = .ok q disk' ∨
      (h.queryAsync c json embedding).run disk = .ok q disk') →
    (∀ peer ∈ q.sagas, peer.1 ∈ q.members) ∧ ∀ m ∈ q.members,
      ∃ chain key, readLog json (h.registry.logPath h.id) disk.dir.log = .ok chain ∧
        HansaId.fromSkipper c key = h.id ∧ Vouched c chain key m

/-- The peers of a built query are members of it. -/
theorem mem_of_builtQuery {opener : Option (PeerOpener F)} {embedding : List F}
    {ms : List MemberRecord} :
    ∀ peer ∈ (h.builtQuery disk opener embedding ms).sagas, peer.1 ∈ ms := by
  intro peer member
  obtain ⟨m, other, file⟩ := List.mem_filterMap.mp member
  have same : peer.1 = m := by
    unfold Disk.peerSaga at file
    split at file
    · exact congrArg Prod.fst (Option.some.inj file).symm
    · cases file
  exact same ▸ List.mem_of_mem_filter other

/-- Under a pinned root, the members of a query that was built are vouched for. -/
theorem RootPinned.used (pinned : RootPinned c json h disk) {opener : Option (PeerOpener F)}
    {embedding : List F} {q : MembraneQuery F} {disk' : Disk F}
    (built : (h.queryWith c json opener embedding).run disk = .ok q disk') :
    (∀ peer ∈ q.sagas, peer.1 ∈ q.members) ∧ ∀ m ∈ q.members,
      ∃ chain key, readLog json (h.registry.logPath h.id) disk.dir.log = .ok chain ∧
        HansaId.fromSkipper c key = h.id ∧ Vouched c chain key m := by
  obtain ⟨listed, shape⟩ := Handle.run_queryWith_ok built
  constructor
  · rw [shape]
    exact mem_of_builtQuery
  · intro m member
    obtain ⟨_, chain, read, ⟨_, none_⟩ | ⟨out, accepted, active⟩⟩ := Handle.run_members_ok.mp listed
    · rw [none_] at member
      cases member
    · obtain ⟨_, root⟩ := pinned.replay read accepted
      exact ⟨chain, out.skipper, read, root, (replay_ok accepted).1.vouched (active ▸ member)⟩

/-- Pinned member lists pin the root of the log. -/
theorem MembersPinned.root (held : MembersPinned c json h disk) : RootPinned c json h disk := by
  intro chain first read wellFormed isFirst
  obtain ⟨out, accepted⟩ := replay_none_accepts.mpr wellFormed
  have listed : (h.members c json).run disk = .ok out.active disk :=
    Handle.run_members_ok.mpr ⟨rfl, chain, read, .inr ⟨out, accepted, rfl⟩⟩
  obtain ⟨chain', read', ⟨rfl, _⟩ | ⟨out', accepted', _⟩⟩ := held.members _ _ listed
  · obtain rfl := Except.ok.inj (read.symm.trans read')
    cases isFirst
  · obtain rfl := Except.ok.inj (read.symm.trans read')
    obtain ⟨described, root⟩ := replay_ok accepted'
    obtain ⟨first', isFirst', _, key, _⟩ := described.root
    obtain rfl := Option.some.inj (isFirst.symm.trans isFirst')
    exact key ▸ pinned_some.mp root

/-- A pinned root pins the member lists. -/
theorem RootPinned.members (pinned : RootPinned c json h disk) : MembersPinned c json h disk := by
  constructor
  · intro ms disk' listed
    obtain ⟨_, chain, read, empty | ⟨out, accepted, active⟩⟩ := Handle.run_members_ok.mp listed
    · exact ⟨chain, read, .inl empty⟩
    · exact ⟨chain, read, .inr ⟨out, (pinned.replay read accepted).1, active⟩⟩
  · rintro embedding q disk' (built | built)
    · exact pinned.used built
    · exact pinned.used built

/-- The member lists of a handle are pinned to its id if and only if the log's root is. -/
theorem membersPinned_iff (c : Build) (json : LinkJson) (h : Handle F) (disk : Disk F) :
    MembersPinned c json h disk ↔ RootPinned c json h disk :=
  ⟨MembersPinned.root, RootPinned.members⟩

end Pinned

/-! ## A replaced log -/

/-- A log replaced by the checkpoint of another skipper yields that skipper's members, with an
ideal signature and a hash that keeps all keys apart. -/
theorem members_unpinned :
    ¬ ∀ (c : Build) (json : LinkJson) (h : Handle Float32) (disk : Disk Float32), c.Correct →
      Function.Injective (HansaId.fromSkipper c) → json.Lawful → MembersPinned c json h disk := by
  intro claim
  set disk := sampleDisk (some (rosterLog 2)) with isDisk
  have read : readLog sampleJson (sampleHandle.registry.logPath sampleHandle.id) disk.dir.log =
      .ok [rosterLink 2] := readLog_rosterLog 2 _
  have held := claim sampleBuild sampleJson sampleHandle disk sampleBuild_correct
    fromSkipper_sampleBuild_injective sampleJson_lawful
  have accepted := replay_rosterLink 2 (pinned_none _ _)
  have root := held.root _ _ read (replay_none_accepts.mp ⟨_, accepted⟩) rfl
  have keys := fromSkipper_sampleBuild_injective root
  have bytes := congrArg (fun key : SkipperPub => key.asBytes.toList.head?) keys
  exact absurd bytes (by decide)

end Hansa
