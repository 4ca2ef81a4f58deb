import Hansa.Chain
import Hansa.Library.HashChain
import Hansa.Library.StateErrors

/-!
# What replay accepts

Replay is a loop with early returns. This module states its meaning without the loop: a chain
is accepted exactly when its first link is a valid root, every later link extends the one
before it under the root's key, and the pinned id, if there is one, commits to that key. The
result is then fixed: the active set lists the roster that the bodies build up in order, and
the head is the last link.
-/

namespace Hansa

/-! ## Rosters -/

/-- Who is a member: a lookup by tenant id. -/
abbrev Roster := TenantId → Option MemberRecord

/-- The roster without members. -/
def Roster.empty : Roster := fun _ => none

/-- The roster of a list of records; a later record replaces an earlier one of its tenant. -/
def Roster.ofRecords (members : List MemberRecord) : Roster :=
  members.foldl (fun roster m => Function.update roster m.tenantId (some m)) .empty

/-- The roster after a body: a root starts afresh, any other body changes one tenant. -/
def Body.apply (body : Body) (roster : Roster) : Roster :=
  match body with
  | .genesis _ => .empty
  | .checkpoint members .. => .ofRecords members
  | .admitMember member _ => Function.update roster member.tenantId (some member)
  | .revoke tenantId .. => Function.update roster tenantId none

/-- What a body states about one tenant; a root states nothing new. -/
def Body.change (body : Body) (roster : Roster) : Roster :=
  match body with
  | .genesis _ | .checkpoint .. => roster
  | .admitMember member _ => Function.update roster member.tenantId (some member)
  | .revoke tenantId .. => Function.update roster tenantId none

/-- An inner body is applied by its change alone. -/
theorem Body.apply_inner {body : Body} (inner : ¬ body.IsRoot) (roster : Roster) :
    body.apply roster = body.change roster := by
  cases body with
  | genesis | checkpoint => exact absurd trivial inner
  | admitMember | revoke => rfl

/-- The roster after statements, from a given one. -/
def Roster.after (roster : Roster) (statements : List Statement) : Roster :=
  statements.foldl (fun roster s => s.body.apply roster) roster

/-- The roster a list of statements builds up. -/
def rosterOf (statements : List Statement) : Roster := Roster.empty.after statements

/-- Statements after statements. -/
theorem Roster.after_append (roster : Roster) (before next : List Statement) :
    roster.after (before ++ next) = (roster.after before).after next :=
  List.foldl_append

/-- One more statement applies its body. -/
@[simp] theorem rosterOf_concat (statements : List Statement) (s : Statement) :
    rosterOf (statements ++ [s]) = s.body.apply (rosterOf statements) :=
  Roster.after_append _ _ _

/-- A roster keeps every record under its own tenant. -/
def Roster.Keyed (roster : Roster) : Prop := ∀ t m, roster t = some m → m.tenantId = t

/-- Storing a record under its own tenant keeps a roster keyed. -/
theorem Roster.Keyed.update {roster : Roster} (keyed : roster.Keyed) (m : MemberRecord) :
    Roster.Keyed (Function.update roster m.tenantId (some m)) := by
  intro t m' found
  by_cases same : t = m.tenantId
  · subst same
    rw [Function.update_self] at found
    exact congrArg _ (Option.some.inj found).symm
  · rw [Function.update_of_ne same] at found
    exact keyed t m' found

/-- Removing a tenant keeps a roster keyed. -/
theorem Roster.Keyed.remove {roster : Roster} (keyed : roster.Keyed) (t : TenantId) :
    Roster.Keyed (Function.update roster t none) := by
  intro t' m found
  by_cases same : t' = t
  · subst same
    simp at found
  · rw [Function.update_of_ne same] at found
    exact keyed t' m found

/-- A roster of records is keyed. -/
theorem Roster.keyed_ofRecords (members : List MemberRecord) : (ofRecords members).Keyed := by
  have step : ∀ roster : Roster, roster.Keyed → Roster.Keyed
      (members.foldl (fun roster m => Function.update roster m.tenantId (some m)) roster) := by
    induction members with
    | nil => exact fun _ keyed => keyed
    | cons m members ih => exact fun roster keyed => ih _ (keyed.update m)
  exact step _ (fun _ _ found => nomatch found)

/-- A body keeps a roster keyed. -/
theorem Body.keyed_apply (body : Body) {roster : Roster} (keyed : roster.Keyed) :
    (body.apply roster).Keyed := by
  cases body with
  | genesis => exact fun _ _ found => nomatch found
  | checkpoint members => exact Roster.keyed_ofRecords members
  | admitMember member => exact keyed.update member
  | revoke tenantId => exact keyed.remove tenantId

/-- Every roster that statements build up is keyed. -/
theorem rosterOf_keyed (statements : List Statement) : (rosterOf statements).Keyed := by
  have step : ∀ roster : Roster, roster.Keyed → (roster.after statements).Keyed := by
    induction statements with
    | nil => exact fun _ keyed => keyed
    | cons s statements ih => exact fun roster keyed => ih _ (s.body.keyed_apply keyed)
  exact step _ (fun _ _ found => nomatch found)

/-- A record found in a list of records is one of them. -/
theorem mem_of_ofRecords {members : List MemberRecord} {t : TenantId} {m : MemberRecord}
    (found : Roster.ofRecords members t = some m) : m ∈ members := by
  unfold Roster.ofRecords at found
  induction members using List.reverseRecOn with
  | nil => cases found
  | append_singleton members last ih =>
    rw [List.foldl_append, List.foldl_cons, List.foldl_nil] at found
    by_cases own : t = last.tenantId
    · rw [own, Function.update_self] at found
      exact List.mem_append_right _ (List.mem_singleton.mpr (Option.some.inj found).symm)
    · rw [Function.update_of_ne own] at found
      exact List.mem_append_left _ (ih found)

/-- Storing records into the empty map gives the roster of the records. -/
theorem get?_empty_insertAll (members : List MemberRecord) :
    ((KeyedMap.empty : ActiveMap).insertAll members).get? = Roster.ofRecords members :=
  KeyedMap.get?_insertAll _ members

/-- A listing of a keyed roster, read back, is the roster. -/
theorem Roster.ofRecords_lists {roster : Roster} {members : List MemberRecord}
    (keyed : roster.Keyed) (lists : KeyedMap.Lists MemberRecord.tenantId roster members) :
    ofRecords members = roster := by
  rw [← get?_empty_insertAll]
  exact lists.get?_insertAll keyed

/-- Records in the order of their tenants are listed by their own roster. -/
theorem Roster.lists_ofRecords {members : List MemberRecord}
    (increasing : members.Pairwise (fun a b => a.tenantId < b.tenantId)) :
    KeyedMap.Lists MemberRecord.tenantId (ofRecords members) members := by
  refine ⟨increasing, fun m => ?_⟩
  rw [← get?_empty_insertAll, KeyedMap.insertAll_finds increasing m _ (fun _ _ => rfl)]
  simp

/-! ## Well-formed chains -/

/-- The dimension a root body pins. -/
def Body.rootDim? : Body → Option UInt32
  | .genesis g => some g.embeddingDim
  | .checkpoint _ embeddingDim _ => some embeddingDim
  | .admitMember .. | .revoke .. => none

/-- The link's signer signed its canonical bytes, under the link domain. -/
def Link.Signed (c : Build) (link : Link) : Prop :=
  c.verifyStrict link.signedBy (framed domainLink link.canonical) link.sig = true

/-- A link that may open a chain: a valid genesis at seq 0, or a signed checkpoint. -/
def Link.ValidRoot (c : Build) (first : Link) : Prop :=
  match first.body with
  | .genesis g =>
    (first.seq = 0 ∧ first.prev = Vector.replicate 32 0 ∧ first.signedBy = g.skipperPub) ∧
      g.Valid c first.sig
  | .checkpoint .. => first.Signed c
  | .admitMember .. | .revoke .. => False

/-- `b` states the next fact of the chain that ends in `a`, under the root's key. -/
structure Statement.Follows (c : Build) (key : SkipperPub) (a b : Statement) : Prop where
  /-- The sequence number is the next one in the build. -/
  seq : UInt64.succIn c.profile a.seq = .ok b.seq
  /-- The previous hash is that of `a`. -/
  prev : b.prev = a.hash c
  /-- The signer is the root's key. -/
  signer : b.signedBy = key
  /-- The body is an admit or a revoke. -/
  inner : ¬ b.body.IsRoot

/-- `b` follows `a` and carries the signature of its signer. -/
structure Link.Extends (c : Build) (key : SkipperPub) (a b : Link) : Prop where
  /-- The statement of `b` follows the one of `a`. -/
  follows : a.toStatement.Follows c key b.toStatement
  /-- The signature verifies. -/
  signed : b.Signed c

/-- What a replay result says about the chain it came from. -/
structure Replays (c : Build) (chain : List Link) (out : ReplayOutcome) : Prop where
  /-- The chain opens with a valid root, whose key and dimension are the result's. -/
  root : ∃ first ∈ chain.head?, first.ValidRoot c ∧ out.skipper = first.signedBy ∧
    first.body.rootDim? = some out.embeddingDim
  /-- Every later link extends the one before it. -/
  linked : chain.IsChain (Link.Extends c out.skipper)
  /-- The active set lists the roster of the chain. -/
  active : KeyedMap.Lists MemberRecord.tenantId (rosterOf (chain.map Link.toStatement)) out.active
  /-- The head is the last link. -/
  head : ∃ last ∈ chain.getLast?, out.headSeq = last.seq ∧ out.headHash = last.hash c

/-- A valid root states a genesis or a checkpoint. -/
theorem Link.ValidRoot.isRoot {c : Build} {first : Link} (valid : first.ValidRoot c) :
    first.body.IsRoot := by
  unfold Link.ValidRoot at valid
  cases shape : first.body with
  | genesis | checkpoint => trivial
  | admitMember | revoke =>
    rw [shape] at valid
    exact valid.elim

/-- Every described chain is a root and inner links. -/
theorem Replays.root_and_inner {c : Build} {chain : List Link} {out : ReplayOutcome}
    (described : Replays c chain out) : ∃ root run, chain = root :: run ∧
      root.ValidRoot c ∧ out.skipper = root.signedBy ∧ root.body.rootDim? = some out.embeddingDim ∧
      ∀ link ∈ run, ∃ before ∈ chain, before.Extends c out.skipper link := by
  obtain ⟨first, isFirst, valid, key, pins⟩ := described.root
  cases chain with
  | nil => cases isFirst
  | cons root run =>
    obtain rfl := Option.some.inj isFirst
    exact ⟨root, run, rfl, valid, key, pins, described.linked.exists_rel⟩

/-- Only the first statement of a described chain is a root. -/
theorem Replays.inner {c : Build} {chain : List Link} {out : ReplayOutcome}
    (described : Replays c chain out) :
    ∀ s ∈ (chain.map Link.toStatement).tail, ¬ s.body.IsRoot := by
  obtain ⟨root, run, rfl, -, -, -, extended⟩ := described.root_and_inner
  intro s member
  obtain ⟨link, inside, rfl⟩ := List.mem_map.mp member
  obtain ⟨_, _, step⟩ := extended link inside
  exact step.follows.inner

/-- A chain that replay accepts when no id is pinned. -/
def WellFormed (c : Build) (chain : List Link) : Prop :=
  ∃ first ∈ chain.head?, first.ValidRoot c ∧ chain.IsChain (Link.Extends c first.signedBy)

/-- The chain's root key hashes to the id, if one is pinned. -/
def Pinned (c : Build) (expected : Option HansaId) (key : SkipperPub) : Prop :=
  ∀ id ∈ expected, HansaId.fromSkipper c key = id

/-- Without an id there is nothing to hash to. -/
theorem pinned_none (c : Build) (key : SkipperPub) : Pinned c none key :=
  fun _ absent => nomatch absent

/-- A pinned id is the hash of the key. -/
theorem pinned_some {c : Build} {id : HansaId} {key : SkipperPub} :
    Pinned c (some id) key ↔ HansaId.fromSkipper c key = id :=
  ⟨fun pinned => pinned id rfl, fun bound _ same => Option.some.inj same ▸ bound⟩

/-- One chain has one result. -/
theorem Replays.unique {c : Build} {chain : List Link} {out out' : ReplayOutcome}
    (first : Replays c chain out) (second : Replays c chain out') : out = out' := by
  obtain ⟨skipper, dim, active, seq, hash⟩ := out
  obtain ⟨skipper', dim', active', seq', hash'⟩ := out'
  obtain ⟨a, isFirst, -, key, pins⟩ := first.root
  obtain ⟨a', isFirst', -, key', pins'⟩ := second.root
  obtain rfl : a = a' := Option.some.inj (isFirst.symm.trans isFirst')
  obtain ⟨b, isLast, atSeq, hasHash⟩ := first.head
  obtain ⟨b', isLast', atSeq', hasHash'⟩ := second.head
  obtain rfl : b = b' := Option.some.inj (isLast.symm.trans isLast')
  obtain rfl : dim = dim' := Option.some.inj (pins.symm.trans pins')
  obtain rfl : active = active' := first.active.unique second.active
  obtain rfl : skipper = skipper' := key.trans key'.symm
  obtain rfl : seq = seq' := atSeq.trans atSeq'.symm
  obtain rfl : hash = hash' := hasHash.trans hasHash'.symm
  rfl

/-! ## The loop -/

/-- The replay state stands right after `last`. -/
structure ReplayState.At (c : Build) (s : ReplayState) (last : Link) : Prop where
  /-- The carried sequence number is the link's. -/
  seq : s.prevSeq = last.seq
  /-- The carried hash is the link's. -/
  hash : s.prevHash = last.hash c

/-- An accepted body is an inner one, and the map then holds the roster after it. -/
theorem replayBody_ok {link : Link} {active active' : ActiveMap}
    (accepted : replayBody link active = .ok active') :
    ¬ link.body.IsRoot ∧ active'.get? = link.body.apply active.get? := by
  unfold replayBody at accepted
  cases shape : link.body with
  | genesis | checkpoint =>
    rw [shape] at accepted
    cases accepted
  | admitMember member memberPub =>
    rw [shape] at accepted
    obtain rfl := Except.ok.inj accepted
    exact ⟨fun root => root, KeyedMap.get?_insert active member⟩
  | revoke tenantId time reason =>
    rw [shape] at accepted
    obtain rfl := Except.ok.inj accepted
    exact ⟨fun root => root, KeyedMap.get?_erase active tenantId⟩

/-- Every inner body is accepted. -/
theorem replayBody_inner {link : Link} (inner : ¬ link.body.IsRoot) (active : ActiveMap) :
    ∃ active', replayBody link active = .ok active' := by
  unfold replayBody
  cases shape : link.body with
  | genesis | checkpoint =>
    rw [shape] at inner
    exact absurd trivial inner
  | admitMember member => exact ⟨_, rfl⟩
  | revoke tenantId => exact ⟨_, rfl⟩

/-- An accepted link extends the one before it, and the state moves to it. -/
theorem replayLink_ok {c : Build} {key : SkipperPub} {s s' : ReplayState} {a b : Link}
    (before : s.At c a) (accepted : replayLink c key s b = .ok s') :
    a.Extends c key b ∧ s'.active.get? = b.body.apply s.active.get? ∧ s'.At c b := by
  obtain ⟨next, succ, checks⟩ := Except.bind_eq_ok.mp accepted
  split at checks
  · cases checks
  rename_i position
  split at checks
  · cases checks
  rename_i signer
  obtain ⟨atNext, hasPrev⟩ := not_or.mp position
  have atNext := not_not.mp atNext
  cases checked : b.signedBy.verify c domainLink b.canonical b.sig with
  | error fault =>
    rw [checked] at checks
    cases checks
  | ok u =>
    rw [checked] at checks
    obtain ⟨active, body, same⟩ := Except.bind_eq_ok.mp checks
    obtain rfl := Except.ok.inj same
    obtain ⟨inner, roster⟩ := replayBody_ok body
    have follows : a.toStatement.Follows c key b.toStatement :=
      { seq := by rw [atNext, ← succ, before.seq]
        prev := (not_not.mp hasPrev).trans before.hash
        signer := not_not.mp signer
        inner }
    exact ⟨⟨follows, SkipperPub.verify_eq_ok.mp checked⟩, roster, rfl, rfl⟩

/-- Every extending link is accepted. -/
theorem replayLink_accepts {c : Build} {key : SkipperPub} {s : ReplayState} {a b : Link}
    (before : s.At c a) (step : a.Extends c key b) :
    ∃ s', replayLink c key s b = .ok s' := by
  obtain ⟨follows, signed⟩ := step
  have next : UInt64.succIn c.profile s.prevSeq = .ok b.seq := by
    rw [before.seq]
    exact follows.seq
  have hasPrev : b.prev = s.prevHash := follows.prev.trans before.hash.symm
  obtain ⟨active, body⟩ := replayBody_inner follows.inner s.active
  refine ⟨{ active, prevSeq := b.seq, prevHash := b.hash c }, ?_⟩
  simp only [replayLink, next, bind, Except.bind]
  rw [if_neg (not_or.mpr ⟨not_not_intro rfl, not_not_intro hasPrev⟩),
    if_neg (not_not_intro follows.signer), SkipperPub.verify_eq_ok.mpr signed]
  simp only [body]

/-- Accepted links form a chain, and the state ends at the last of them. -/
theorem replayLinks_ok {c : Build} {key : SkipperPub} {s s' : ReplayState} {a : Link}
    {links : List Link} (before : s.At c a) (accepted : replayLinks c key s links = .ok s') :
    (a :: links).IsChain (Link.Extends c key) ∧
      s'.active.get? = Roster.after s.active.get? (links.map Link.toStatement) ∧
      ∃ last ∈ (a :: links).getLast?, s'.At c last := by
  induction links generalizing s a with
  | nil =>
    obtain rfl := Except.ok.inj accepted
    exact ⟨.singleton a, rfl, a, rfl, before⟩
  | cons b links ih =>
    obtain ⟨mid, first, later⟩ := Except.bind_eq_ok.mp accepted
    obtain ⟨step, roster, moved⟩ := replayLink_ok before first
    obtain ⟨rest, rosters, last, isLast, atLast⟩ := ih moved later
    refine ⟨List.isChain_cons_cons.mpr ⟨step, rest⟩, ?_, last, ?_, atLast⟩
    · rw [rosters, roster]
      rfl
    · rw [List.getLast?_cons_cons]
      exact isLast

/-- Every chain of extending links is accepted. -/
theorem replayLinks_accepts {c : Build} {key : SkipperPub} {s : ReplayState} {a : Link}
    {links : List Link} (before : s.At c a) (chain : (a :: links).IsChain (Link.Extends c key)) :
    ∃ s', replayLinks c key s links = .ok s' := by
  induction links generalizing s a with
  | nil => exact ⟨s, rfl⟩
  | cons b links ih =>
    obtain ⟨step, rest⟩ := List.isChain_cons_cons.mp chain
    obtain ⟨mid, first⟩ := replayLink_accepts before step
    obtain ⟨s', accepted⟩ := ih (replayLink_ok before first).2.2 rest
    refine ⟨s', ?_⟩
    rw [replayLinks, first]
    exact accepted

/-! ## The root -/

/-- An accepted root is valid and pinned, and replay starts from its key, dimension and roster. -/
theorem replayRoot_ok {c : Build} {first : Link} {expected : Option HansaId}
    {key : SkipperPub} {dim : UInt32} {active : ActiveMap} {seq : UInt64}
    (accepted : replayRoot c first expected = .ok (key, dim, active, seq)) :
    first.ValidRoot c ∧ Pinned c expected key ∧ key = first.signedBy ∧
      first.body.rootDim? = some dim ∧ active.get? = rosterOf [first.toStatement] ∧
      seq = first.seq := by
  unfold replayRoot at accepted
  unfold Link.ValidRoot
  cases shape : first.body with
  | genesis g =>
    simp only [shape] at accepted
    split at accepted
    · cases accepted
    rename_i position
    obtain ⟨atZero, others⟩ := not_or.mp position
    obtain ⟨zeros, own⟩ := not_or.mp others
    have atZero := not_not.mp atZero
    have own := not_not.mp own
    have place : first.seq = 0 ∧ first.prev = Vector.replicate 32 0 ∧
        first.signedBy = g.skipperPub := ⟨atZero, not_not.mp zeros, own⟩
    have roster : rosterOf [first.toStatement] = Roster.empty := by
      simp [rosterOf, Roster.after, shape, Body.apply]
    cases expected with
    | some id =>
      obtain ⟨u, checked, same⟩ := Except.bind_eq_ok.mp accepted
      obtain ⟨rfl, rfl, rfl, rfl⟩ := Prod.mk.inj (Except.ok.inj same)
      obtain ⟨rfl, valid⟩ := Genesis.verifyFor_eq_ok.mp checked
      exact ⟨⟨place, valid⟩, pinned_some.mpr valid.bound, own.symm, rfl, roster.symm,
        atZero.symm⟩
    | none =>
      obtain ⟨u, checked, same⟩ := Except.bind_eq_ok.mp accepted
      obtain ⟨rfl, rfl, rfl, rfl⟩ := Prod.mk.inj (Except.ok.inj same)
      exact ⟨⟨place, Genesis.verify_eq_ok.mp checked⟩, pinned_none c _, own.symm, rfl,
        roster.symm, atZero.symm⟩
  | checkpoint members embeddingDim time =>
    simp only [shape] at accepted
    split at accepted
    · cases accepted
    rename_i pinned
    cases checked : first.signedBy.verify c domainLink first.canonical first.sig with
    | error fault =>
      simp only [checked] at accepted
      cases accepted
    | ok u =>
      simp only [checked] at accepted
      obtain ⟨rfl, rfl, rfl, rfl⟩ := Prod.mk.inj (Except.ok.inj accepted)
      refine ⟨SkipperPub.verify_eq_ok.mp checked, ?_, rfl, rfl, ?_, rfl⟩
      · rintro id ⟨⟩
        simpa using pinned
      · rw [get?_empty_insertAll]
        simp [rosterOf, Roster.after, shape, Body.apply]
  | admitMember | revoke =>
    simp only [shape] at accepted
    cases accepted

/-- Every valid and pinned root is accepted. -/
theorem replayRoot_accepts {c : Build} {first : Link} {expected : Option HansaId}
    (valid : first.ValidRoot c) (pinned : Pinned c expected first.signedBy) :
    ∃ root, replayRoot c first expected = .ok root := by
  unfold Link.ValidRoot at valid
  unfold replayRoot
  cases shape : first.body with
  | genesis g =>
    rw [shape] at valid
    obtain ⟨⟨atZero, zeros, own⟩, signed⟩ := valid
    simp only
    rw [if_neg (by simp [atZero, zeros, own])]
    cases expected with
    | some id =>
      have bound : g.hansaId = id := by
        rw [← signed.bound, ← own]
        exact pinned_some.mp pinned
      simp only
      rw [Genesis.verifyFor_eq_ok.mpr ⟨bound, signed⟩]
      exact ⟨_, rfl⟩
    | none =>
      simp only
      rw [Genesis.verify_eq_ok.mpr signed]
      exact ⟨_, rfl⟩
  | checkpoint members embeddingDim time =>
    rw [shape] at valid
    simp only
    rw [if_neg, SkipperPub.verify_eq_ok.mpr valid]
    · exact ⟨_, rfl⟩
    · cases expected with
      | none => simp
      | some id => simpa using pinned_some.mp pinned
  | admitMember | revoke =>
    rw [shape] at valid
    exact valid.elim

/-! ## Replay -/

/-- An accepted chain is described by its result, and pinned. -/
theorem replay_ok {c : Build} {chain : List Link} {expected : Option HansaId}
    {out : ReplayOutcome} (accepted : replay c chain expected = .ok out) :
    Replays c chain out ∧ Pinned c expected out.skipper := by
  cases chain with
  | nil => cases accepted
  | cons first rest =>
    obtain ⟨⟨key, dim, active, seq⟩, opened, later⟩ := Except.bind_eq_ok.mp accepted
    obtain ⟨valid, pinned, rfl, pins, start, rfl⟩ := replayRoot_ok opened
    obtain ⟨s, looped, same⟩ := Except.bind_eq_ok.mp later
    obtain rfl := Except.ok.inj same
    obtain ⟨linked, rosters, last, isLast, atLast⟩ :=
      replayLinks_ok (a := first) ⟨rfl, rfl⟩ looped
    have roster : rosterOf ((first :: rest).map Link.toStatement) = s.active.get? := by
      rw [rosters, start]
      rfl
    exact ⟨⟨⟨first, rfl, valid, rfl, pins⟩, linked, roster ▸ s.active.sorted_lists,
      ⟨last, isLast, atLast.seq, atLast.hash⟩⟩, pinned⟩

/-- A well-formed and pinned chain is accepted. -/
theorem replay_accepts {c : Build} {chain : List Link} {expected : Option HansaId}
    {first : Link} (isFirst : first ∈ chain.head?) (valid : first.ValidRoot c)
    (linked : chain.IsChain (Link.Extends c first.signedBy))
    (pinned : Pinned c expected first.signedBy) : ∃ out, replay c chain expected = .ok out := by
  cases chain with
  | nil => cases isFirst
  | cons first rest =>
    obtain rfl := Option.some.inj isFirst
    obtain ⟨⟨key, dim, active, seq⟩, opened⟩ := replayRoot_accepts valid pinned
    obtain ⟨-, -, rfl, -, -, rfl⟩ := replayRoot_ok opened
    obtain ⟨s, looped⟩ := replayLinks_accepts (a := first)
      (s := { active, prevSeq := first.seq, prevHash := first.hash c }) ⟨rfl, rfl⟩ linked
    simp only [replay, opened, bind, Except.bind, looped]
    exact ⟨_, rfl⟩

/-- Replay returns exactly the results that describe the chain, when the root is pinned. -/
theorem replay_eq_ok {c : Build} {chain : List Link} {expected : Option HansaId}
    {out : ReplayOutcome} :
    replay c chain expected = .ok out ↔ Replays c chain out ∧ Pinned c expected out.skipper := by
  constructor
  · exact replay_ok
  · rintro ⟨described, pinned⟩
    obtain ⟨first, isFirst, valid, key, -⟩ := described.root
    obtain ⟨out', accepted⟩ := replay_accepts isFirst valid (key ▸ described.linked)
      (key ▸ pinned)
    rw [accepted, described.unique (replay_ok accepted).1]

/-- Without a pinned id, replay accepts exactly the well-formed chains. -/
theorem replay_none_accepts {c : Build} {chain : List Link} :
    (∃ out, replay c chain none = .ok out) ↔ WellFormed c chain := by
  constructor
  · rintro ⟨out, accepted⟩
    obtain ⟨described, -⟩ := replay_ok accepted
    obtain ⟨first, isFirst, valid, key, -⟩ := described.root
    exact ⟨first, isFirst, valid, key ▸ described.linked⟩
  · rintro ⟨first, isFirst, valid, linked⟩
    exact replay_accepts isFirst valid linked (pinned_none c _)

/-- A pinned id adds one check to replay: the root key must hash to it. -/
theorem replay_pinned {c : Build} {chain : List Link} {expected : Option HansaId}
    {out : ReplayOutcome} :
    replay c chain expected = .ok out ↔
      replay c chain none = .ok out ∧ Pinned c expected out.skipper := by
  rw [replay_eq_ok, replay_eq_ok]
  exact and_congr_left fun _ => ⟨fun described => ⟨described, pinned_none c _⟩, And.left⟩

/-! ## Extending a chain -/

/-- The link that may come next in a chain with this result. -/
structure Link.Next (c : Build) (out : ReplayOutcome) (link : Link) : Prop where
  /-- The sequence number is the next one in the build. -/
  seq : UInt64.succIn c.profile out.headSeq = .ok link.seq
  /-- The previous hash is the head's. -/
  prev : link.prev = out.headHash
  /-- The signer is the root's key. -/
  signer : link.signedBy = out.skipper
  /-- The body is an admit or a revoke. -/
  inner : ¬ link.body.IsRoot
  /-- The signature verifies. -/
  signed : link.Signed c

/-- A link extends a chain exactly when it may come next in it. -/
theorem Replays.extends_iff {c : Build} {chain : List Link} {out : ReplayOutcome}
    (described : Replays c chain out) (link : Link) :
    (chain ++ [link]).IsChain (Link.Extends c out.skipper) ↔ link.Next c out := by
  obtain ⟨last, isLast, atSeq, hasHash⟩ := described.head
  rw [List.isChain_append]
  constructor
  · rintro ⟨-, -, joint⟩
    obtain ⟨⟨seq, prev, signer, inner⟩, signed⟩ := joint last isLast link rfl
    exact ⟨atSeq ▸ seq, prev.trans hasHash.symm, signer, inner, signed⟩
  · rintro ⟨seq, prev, signer, inner, signed⟩
    refine ⟨described.linked, .singleton link, ?_⟩
    intro last' isLast' link' isLink
    obtain rfl := Option.some.inj (isLast.symm.trans isLast')
    obtain rfl := Option.some.inj isLink
    exact ⟨⟨atSeq ▸ seq, prev.trans hasHash, signer, inner⟩, signed⟩

/-- The first link stays first when a link is appended. -/
theorem head?_concat_of_mem {chain : List Link} {first : Link} (isFirst : first ∈ chain.head?)
    (link : Link) : first ∈ (chain ++ [link]).head? := by
  cases chain with
  | nil => cases isFirst
  | cons => exact isFirst

/-- A chain stays accepted under a next link, and its result moves on by that link. -/
theorem Replays.concat {c : Build} {chain : List Link} {out : ReplayOutcome}
    (described : Replays c chain out) {link : Link} (next : link.Next c out)
    {active : List MemberRecord}
    (lists : KeyedMap.Lists MemberRecord.tenantId
      (link.body.change (rosterOf (chain.map Link.toStatement))) active) :
    Replays c (chain ++ [link])
      { out with active, headSeq := link.seq, headHash := link.hash c } := by
  obtain ⟨first, isFirst, valid, key, pins⟩ := described.root
  refine ⟨⟨first, head?_concat_of_mem isFirst link, valid, key, pins⟩,
    (described.extends_iff link).mpr next, ?_, ⟨link, List.getLast?_concat, rfl, rfl⟩⟩
  rw [List.map_append, List.map_singleton, rosterOf_concat, Body.apply_inner next.inner]
  exact lists

/-- The sorted records of a keyed roster exist for every body. -/
theorem exists_lists_change (body : Body) {roster : Roster} {active : List MemberRecord}
    (keyed : roster.Keyed) (lists : KeyedMap.Lists MemberRecord.tenantId roster active) :
    ∃ active', KeyedMap.Lists MemberRecord.tenantId (body.change roster) active' := by
  obtain ⟨m, rfl⟩ : ∃ m : ActiveMap, m.get? = roster :=
    ⟨KeyedMap.empty.insertAll active, lists.get?_insertAll keyed⟩
  cases body with
  | genesis | checkpoint => exact ⟨m.sorted, m.sorted_lists⟩
  | admitMember member =>
    have inserted := (m.insert member).sorted_lists
    rw [KeyedMap.get?_insert] at inserted
    exact ⟨_, inserted⟩
  | revoke tenantId =>
    have removed := (m.erase tenantId).sorted_lists
    rw [KeyedMap.get?_erase] at removed
    exact ⟨_, removed⟩

/-- An accepted chain with a next link is accepted; the result moves on by that link. -/
theorem replay_concat {c : Build} {chain : List Link} {expected : Option HansaId}
    {out : ReplayOutcome} (accepted : replay c chain expected = .ok out) {link : Link}
    (next : link.Next c out) :
    ∃ active, KeyedMap.Lists MemberRecord.tenantId
        (link.body.change (rosterOf (chain.map Link.toStatement))) active ∧
      replay c (chain ++ [link]) expected =
        .ok { out with active, headSeq := link.seq, headHash := link.hash c } := by
  obtain ⟨described, pinned⟩ := replay_ok accepted
  obtain ⟨active, lists⟩ := exists_lists_change link.body (rosterOf_keyed _) described.active
  exact ⟨active, lists, replay_eq_ok.mpr ⟨described.concat next lists, pinned⟩⟩

/-- An accepted chain accepts no other link. -/
theorem next_of_replay_concat {c : Build} {chain : List Link} {expected : Option HansaId}
    {out out' : ReplayOutcome} (accepted : replay c chain none = .ok out) {link : Link}
    (accepted' : replay c (chain ++ [link]) expected = .ok out') : link.Next c out := by
  obtain ⟨described, -⟩ := replay_ok accepted
  obtain ⟨described', -⟩ := replay_ok accepted'
  obtain ⟨first, isFirst, -, key, -⟩ := described.root
  obtain ⟨first', isFirst', -, key', -⟩ := described'.root
  obtain rfl := Option.some.inj ((head?_concat_of_mem isFirst link).symm.trans isFirst')
  refine (described.extends_iff link).mp ?_
  rw [key, ← key']
  exact described'.linked

/-- A signed checkpoint alone is accepted, with the records it carries. -/
theorem replay_checkpoint {c : Build} {link : Link} {members : List MemberRecord}
    {dim : UInt32} {time : Int64} (shape : link.body = .checkpoint members dim time)
    (signed : link.Signed c) {expected : Option HansaId}
    (pinned : Pinned c expected link.signedBy) {roster : Roster} (keyed : roster.Keyed)
    (lists : KeyedMap.Lists MemberRecord.tenantId roster members) :
    replay c [link] expected = .ok
      { skipper := link.signedBy, embeddingDim := dim, active := members,
        headSeq := link.seq, headHash := link.hash c } := by
  refine replay_eq_ok.mpr ⟨⟨⟨link, rfl, ?_, rfl, ?_⟩, .singleton link, ?_, link, rfl, rfl, rfl⟩,
    pinned⟩
  · rw [Link.ValidRoot, shape]
    exact signed
  · rw [shape]
    rfl
  · have same : rosterOf ([link].map Link.toStatement) = roster := by
      rw [← Roster.ofRecords_lists keyed lists]
      simp [rosterOf, Roster.after, shape, Body.apply]
    rw [same]
    exact lists

end Hansa
