import Hansa.Library.Prefix
import Hansa.Verif.History

/-!
# Histories of a log that is rolled back

When somebody puts an older log in place and the skipper goes on from there, what the skipper
has written is no longer one history but a tree. Each statement then has a history of its own,
the statements it descends from, and as long as no two statements collide this history is
unique: whatever chain ends in the statement is an end of it.
-/

namespace Hansa

variable {c : Build} {json : LinkJson} {path : PathBuf} {skipper : Skipper} {key : SkipperPub}

/-! ## Histories of single statements -/

/-- A history, among what was written, that ends in a statement. -/
structure Lineage (c : Build) (key : SkipperPub) (written : List Statement) (s : Statement)
    (history : List Statement) : Prop where
  /-- It is a history as an honest skipper writes it. -/
  honest : Honest c key history
  /-- It ends in the statement. -/
  ends : s ∈ history.getLast?
  /-- It was written in this order. -/
  within : history.Sublist written

/-- The start of an honest history is honest. -/
theorem Honest.take {history later : List Statement} (honest : Honest c key (history ++ later)) :
    Honest c key history where
  linked := (List.isChain_append.mp honest.linked).1
  signer s member := honest.signer s (List.mem_append_left _ member)
  opening s isFirst := honest.opening s (by rw [List.head?_append, Option.mem_def.mp isFirst]; rfl)
  once s member := by
    have filled : history ≠ [] := List.ne_nil_of_mem (List.mem_of_mem_tail member)
    refine honest.once s ?_
    rw [List.tail_append_of_ne_nil filled]
    exact List.mem_append_left _ member
  checkpoints before s after parts members dim time shape := by
    refine honest.checkpoints before s (after ++ later) ?_ members dim time shape
    rw [parts, List.append_assoc, List.cons_append]

/-- Only the first statement of an honest history is the first of another one. -/
theorem Honest.inner_not_first {history history' : List Statement} (honest : Honest c key history)
    (honest' : Honest c key history') : ∀ s ∈ history.tail, s ∉ history'.head? := by
  intro s member opening
  obtain ⟨g, sig, rfl⟩ := honest'.opening s opening
  exact honest.once _ member trivial

namespace Lineage

variable {written : List Statement} {s : Statement} {history : List Statement}

/-- What the history consists of was written. -/
theorem written_of_mem (lineage : Lineage c key written s history) :
    ∀ x ∈ history, x ∈ written := fun _ member => lineage.within.subset member

/-- Later writes leave a history as it is. -/
theorem weaken (lineage : Lineage c key written s history) {written' : List Statement}
    (grown : written.Sublist written') : Lineage c key written' s history :=
  { lineage with within := lineage.within.trans grown }

/-- A statement has one history. -/
theorem unique (apart : NoCollision c written) (lineage : Lineage c key written s history)
    {history' : List Statement} (lineage' : Lineage c key written s history') :
    history = history' := by
  have same : history.getLast? = history'.getLast? := lineage.ends.trans lineage'.ends.symm
  have one := apart.onePredecessor
  have left : history <:+ history' := one.suffix lineage'.honest.linked lineage.honest.linked
    lineage'.written_of_mem lineage.written_of_mem same
    (lineage.honest.inner_not_first lineage'.honest)
  have right : history' <:+ history := one.suffix lineage.honest.linked lineage'.honest.linked
    lineage.written_of_mem lineage'.written_of_mem same.symm
    (lineage'.honest.inner_not_first lineage.honest)
  exact left.eq_of_length_le right.length_le

/-- An accepted chain is the end of the history of its head. -/
theorem ends_in (apart : NoCollision c written) (lineage : Lineage c key written s history)
    {chain : List Link} {expected : Option HansaId} {out : ReplayOutcome}
    (accepted : replay c chain expected = .ok out)
    (known : ∀ link ∈ chain, link.toStatement ∈ written)
    (isLast : s ∈ (chain.map Link.toStatement).getLast?) :
    ∃ past, history = past ++ chain.map Link.toStatement := by
  obtain ⟨described, -⟩ := replay_ok accepted
  have shown : ∀ x ∈ chain.map Link.toStatement, x ∈ written := by
    intro x member
    obtain ⟨link, inside, rfl⟩ := List.mem_map.mp member
    exact known link inside
  obtain ⟨past, same⟩ := apart.onePredecessor.suffix lineage.honest.linked
    described.commits lineage.written_of_mem shown (isLast.trans lineage.ends.symm)
    (lineage.honest.tail_not_opening described)
  exact ⟨past, same.symm⟩

/-- The members of an accepted chain are those of the history of its head. -/
theorem lists (apart : NoCollision c written) (lineage : Lineage c key written s history)
    {chain : List Link} {expected : Option HansaId} {out : ReplayOutcome}
    (accepted : replay c chain expected = .ok out)
    (known : ∀ link ∈ chain, link.toStatement ∈ written)
    (isLast : s ∈ (chain.map Link.toStatement).getLast?) :
    KeyedMap.Lists MemberRecord.tenantId (historyOf history) out.active := by
  obtain ⟨past, rfl⟩ := lineage.ends_in apart accepted known isLast
  exact lineage.honest.lists accepted

end Lineage

/-! ## Descent -/

/-- One statement descends from another through statements that were written, each of which
names the one before it and has the next number. -/
def Descends (c : Build) (written : List Statement) : Statement → Statement → Prop :=
  Relation.ReflTransGen fun a b =>
    a ∈ written ∧ b ∈ written ∧ a.Commits c b ∧ b.seq.toNat = a.seq.toNat + 1

/-- Every written statement has a history. -/
def Rooted (c : Build) (key : SkipperPub) (written : List Statement) : Prop :=
  ∀ s ∈ written, ∃ history, Lineage c key written s history

/-- The history of a statement starts with the histories of those it descends from. -/
theorem Lineage.prefix_of_descends {written : List Statement} (apart : NoCollision c written)
    (rooted : Rooted c key written) {a s : Statement} {earlier history : List Statement}
    (descends : Descends c written a s) (before : Lineage c key written a earlier)
    (lineage : Lineage c key written s history) : earlier <+: history := by
  induction descends generalizing history with
  | refl => exact (before.unique apart lineage) ▸ List.prefix_rfl
  | @tail b s _ step ih =>
    obtain ⟨inside, -, commits, next⟩ := step
    obtain ⟨mid, midLineage⟩ := rooted b inside
    obtain ⟨front, rfl⟩ := List.getLast?_eq_some_iff.mp lineage.ends
    cases last : front.getLast? with
    | none =>
      obtain rfl := List.getLast?_eq_none_iff.mp last
      obtain ⟨g, sig, rfl⟩ := lineage.honest.opening s rfl
      cases next
    | some x =>
      have joint : x.Commits c s :=
        (List.isChain_append.mp lineage.honest.linked).2.2 x last s rfl
      have known : x ∈ written :=
        lineage.written_of_mem x (List.mem_append_left _ (List.mem_of_getLast? last))
      obtain rfl := apart.onePredecessor b inside x known s commits joint
      have shorter : Lineage c key written b front :=
        ⟨lineage.honest.take, last, (List.sublist_append_left front _).trans lineage.within⟩
      exact (ih shorter).trans (List.prefix_append front _)

/-! ## What the registry writes is rooted -/

/-- What was written is rooted, and the log holds nothing else. -/
structure Grown (c : Build) (json : LinkJson) (path : PathBuf) (skipper : Skipper)
    (dir : HansaDir) : Prop where
  /-- Every statement has a history. -/
  rooted : Rooted c (skipper.pub c) (dir.written.map Link.toStatement)
  /-- What is read was written. -/
  reads : ∀ chain, readLog json path dir.log = .ok chain → ∀ link ∈ chain, link ∈ dir.written

/-- A directory without a log is grown. -/
theorem grown_initial : Grown c json path skipper .initial where
  rooted _ absent := nomatch absent
  reads chain read := by
    obtain rfl := Except.ok.inj read
    exact fun _ absent => nomatch absent

/-- Writes only add to what was written. -/
theorem Write.written_extends {dir dir' : HansaDir} (write : Write c json path skipper dir dir') :
    dir.written <+: dir'.written := by
  cases write with
  | touch => exact List.prefix_rfl
  | found | append | compact => exact List.prefix_append _ _

/-- One more statement with a history keeps what was written rooted. -/
theorem Rooted.concat {written : List Statement} (rooted : Rooted c key written) {s : Statement}
    {history : List Statement} (lineage : Lineage c key (written ++ [s]) s history) :
    Rooted c key (written ++ [s]) := by
  intro x member
  rcases List.mem_append.mp member with old | new
  · obtain ⟨earlier, lineage'⟩ := rooted x old
    exact ⟨earlier, lineage'.weaken (List.sublist_append_left _ _)⟩
  · obtain rfl := List.mem_singleton.mp new
    exact ⟨history, lineage⟩

/-- A link that is signed on top of an accepted log has a history. -/
theorem Grown.extend {dir : HansaDir} (grown : Grown c json path skipper dir)
    (apart : NoCollision c (dir.written.map Link.toStatement)) {chain : List Link}
    {out : ReplayOutcome} {link : Link} (read : readLog json path dir.log = .ok chain)
    (accepted : replay c chain none = .ok out) (prev : link.prev = out.headHash)
    (signer : link.signedBy = skipper.pub c) (once : ¬ link.body.IsGenesis)
    (checkpoint : ∀ members dim time, link.body = .checkpoint members dim time →
      members = out.active) :
    Rooted c (skipper.pub c) ((dir.written ++ [link]).map Link.toStatement) := by
  have known : ∀ link ∈ chain, link.toStatement ∈ dir.written.map Link.toStatement :=
    fun link member => List.mem_map_of_mem (grown.reads chain read link member)
  obtain ⟨last, isLast, -, headHash⟩ := (replay_ok accepted).1.head
  obtain ⟨history, lineage⟩ := grown.rooted _ (known last (List.mem_of_getLast? isLast))
  have honest : Honest c (skipper.pub c) (history ++ [link.toStatement]) := by
    refine lineage.honest.concat (List.ne_nil_of_mem (List.mem_of_getLast? lineage.ends)) ?_ signer
      once ?_
    · intro a ends
      obtain rfl := Option.some.inj (ends.symm.trans lineage.ends)
      exact prev.trans headHash
    · intro members dim time shape
      rw [checkpoint members dim time shape]
      exact lineage.lists apart accepted known (Link.toStatement_ends isLast)
  rw [List.map_append, List.map_singleton]
  exact grown.rooted.concat
    ⟨honest, List.getLast?_concat, lineage.within.append (List.Sublist.refl _)⟩

/-- Appending one line to a log that was grown adds at most the link to what is read. -/
theorem Grown.reads_append (lawful : json.Lawful) {dir : HansaDir}
    (grown : Grown c json path skipper dir) {chain : List Link} {link : Link} {text : String}
    (read : readLog json path dir.log = .ok chain) (encoded : json.toString link = .ok text) :
    ∀ chain', readLog json path (dir.append link text).log = .ok chain' →
      ∀ x ∈ chain', x ∈ (dir.append link text).written := by
  have kept : ∀ x ∈ chain ++ [link], x ∈ (dir.append link text).written := by
    intro x member
    rcases List.mem_append.mp member with old | new
    · exact List.mem_append_left _ (grown.reads chain read x old)
    · exact List.mem_append_right _ new
  intro chain' read' x member
  obtain rfl := HansaDir.eq_of_read_append lawful read encoded read'
  exact kept x member

/-- Every elementary write keeps a directory grown, as long as nothing written collides. -/
theorem Grown.write (lawful : json.Lawful) {dir dir' : HansaDir}
    (grown : Grown c json path skipper dir) (write : Write c json path skipper dir dir')
    (apart : NoCollision c (dir.written.map Link.toStatement)) :
    Grown c json path skipper dir' := by
  cases write with
  | touch =>
    refine ⟨grown.rooted, fun chain read => grown.reads chain ?_⟩
    cases isLog : dir.log with
    | none =>
      rw [isLog] at read
      exact read
    | some bytes =>
      rw [isLog] at read
      exact read
  | @found embeddingDim createdAt text read encoded =>
    refine ⟨?_, grown.reads_append lawful read encoded⟩
    show Rooted c _ ((dir.written ++ [_]).map Link.toStatement)
    rw [List.map_append, List.map_singleton]
    exact grown.rooted.concat ⟨honest_genesisLink skipper embeddingDim createdAt, rfl,
      List.sublist_append_right _ _⟩
  | @append chain out body text read accepted room inner encoded =>
    refine ⟨?_, grown.reads_append lawful read encoded⟩
    exact grown.extend apart read accepted rfl rfl (Body.not_isGenesis_of_inner inner)
      (fun members dim time shape => absurd shape
        (Body.ne_checkpoint_of_inner inner members dim time))
  | @compact chain out now text read accepted room encoded =>
    refine ⟨?_, ?_⟩
    · exact grown.extend apart read accepted rfl rfl id
        (fun members dim time shape => (Body.checkpoint.inj shape).1.symm)
    · intro chain' read' x member
      obtain rfl := Except.ok.inj ((readLog_single lawful path encoded).symm.trans read')
      exact List.mem_append_right _ member

/-- Sequences of writes only add to what was written. -/
theorem Writes.written_extends {dir dir' : HansaDir}
    (writes : Writes c json path skipper dir dir') : dir.written <+: dir'.written := by
  induction writes with
  | refl => exact List.prefix_rfl
  | tail _ write ih => exact ih.trans write.written_extends

/-- A sequence of writes keeps a directory grown. -/
theorem Grown.writes (lawful : json.Lawful) {dir dir' : HansaDir}
    (grown : Grown c json path skipper dir) (writes : Writes c json path skipper dir dir')
    (apart : NoCollision c (dir'.written.map Link.toStatement)) :
    Grown c json path skipper dir' := by
  induction writes with
  | refl => exact grown
  | tail _ write ih =>
    have before := apart.of_prefix write.written_extends
    exact (ih before).write lawful write before

/-! ## Members after a revoke -/

/-- The body admits the tenant. -/
def Body.Admits (t : TenantId) : Body → Prop
  | .admitMember member _ => member.tenantId = t
  | _ => False

/-- The body revokes the tenant. -/
def Body.Revokes (t : TenantId) : Body → Prop
  | .revoke tenantId .. => tenantId = t
  | _ => False

/-- A body that does not admit a tenant does not make it a member. -/
theorem Body.change_absent {t : TenantId} {body : Body} (quiet : ¬ body.Admits t)
    {roster : Roster} (absent : roster t = none) : body.change roster t = none := by
  cases body with
  | genesis | checkpoint => exact absent
  | admitMember member =>
    rw [Body.change, Function.update_of_ne (fun same => quiet same.symm)]
    exact absent
  | revoke tenantId =>
    rw [Body.change]
    by_cases same : t = tenantId
    · rw [same, Function.update_self]
    · rw [Function.update_of_ne same]
      exact absent

/-- Statements that do not admit a tenant do not make it a member. -/
theorem historyOf_absent {history later : List Statement} {t : TenantId}
    (absent : historyOf history t = none) (quiet : ∀ s ∈ later, ¬ s.body.Admits t) :
    historyOf (history ++ later) t = none := by
  induction later using List.reverseRecOn with
  | nil => rwa [List.append_nil]
  | append_singleton later s ih =>
    rw [← List.append_assoc, historyOf_concat]
    exact Body.change_absent (quiet s (by simp))
      (ih fun x member => quiet x (List.mem_append_left _ member))

/-- Right after its revoke a tenant is no member. -/
theorem historyOf_revoked {history : List Statement} {s : Statement} {t : TenantId}
    (revokes : s.body.Revokes t) : historyOf (history ++ [s]) t = none := by
  rw [historyOf_concat]
  cases shape : s.body with
  | revoke tenantId =>
    rw [shape] at revokes
    obtain rfl := revokes
    exact Function.update_self ..
  | genesis | admitMember | checkpoint =>
    rw [shape] at revokes
    exact revokes.elim

end Hansa
