import Hansa.Library.HashChain
import Hansa.Library.Transition
import Hansa.Verif.Canonical
import Hansa.Verif.Extend

/-!
# Unforgeability of history

The links a skipper writes over the life of a hansa form one history: compaction removes links
from the log, but not from the history, whose every link names the one before it. Whoever
rewrites the log without the key can only show links of this history, and replay only accepts
a contiguous run of it that starts at a root, with the members the history has at its end.
-/

namespace Hansa

/-! ## Histories -/

/-- The roster after the admits and revokes of a history; its roots change nothing. -/
def historyOf (history : List Statement) : Roster :=
  history.foldl (fun roster s => s.body.change roster) Roster.empty

/-- One more statement changes the roster by its body. -/
@[simp] theorem historyOf_concat (history : List Statement) (s : Statement) :
    historyOf (history ++ [s]) = s.body.change (historyOf history) := by
  simp [historyOf]

/-- A body's change keeps a roster keyed. -/
theorem Body.keyed_change (body : Body) {roster : Roster} (keyed : roster.Keyed) :
    (body.change roster).Keyed := by
  cases body with
  | genesis | checkpoint => exact keyed
  | admitMember member => exact keyed.update member
  | revoke tenantId => exact keyed.remove tenantId

/-- The roster of a history is keyed. -/
theorem historyOf_keyed (history : List Statement) : (historyOf history).Keyed := by
  induction history using List.reverseRecOn with
  | nil => exact fun _ _ found => nomatch found
  | append_singleton history s ih => exact historyOf_concat history s ▸ s.body.keyed_change ih

/-- Inner statements are applied by their changes alone. -/
theorem Roster.after_inner {run : List Statement} (inner : ∀ s ∈ run, ¬ s.body.IsRoot)
    (roster : Roster) :
    roster.after run = run.foldl (fun roster s => s.body.change roster) roster := by
  induction run generalizing roster with
  | nil => rfl
  | cons s run ih =>
    obtain ⟨first, rest⟩ := List.forall_mem_cons.mp inner
    rw [List.foldl_cons, ← ih rest, ← Body.apply_inner first]
    rfl

/-- A statement names the one before it by its hash. -/
def Statement.Commits (c : Build) (a b : Statement) : Prop := b.prev = a.hash c

/-- The statements of a described chain name one another. -/
theorem Replays.commits {c : Build} {chain : List Link} {out : ReplayOutcome}
    (described : Replays c chain out) :
    (chain.map Link.toStatement).IsChain (Statement.Commits c) := by
  rw [List.isChain_map]
  exact described.linked.imp fun _ _ step => step.follows.prev

/-- The last link of a chain makes its last statement. -/
theorem Link.toStatement_ends {chain : List Link} {last : Link} (isLast : last ∈ chain.getLast?) :
    last.toStatement ∈ (chain.map Link.toStatement).getLast? := by
  rw [List.getLast?_map, Option.mem_def.mp isLast]
  rfl

/-- A body that is a genesis. -/
def Body.IsGenesis : Body → Prop
  | .genesis _ => True
  | _ => False

/-- A history as an honest skipper writes it. -/
structure Honest (c : Build) (key : SkipperPub) (history : List Statement) : Prop where
  /-- Every statement names the one before it. -/
  linked : history.IsChain (Statement.Commits c)
  /-- Every statement is signed by the skipper. -/
  signer : ∀ s ∈ history, s.signedBy = key
  /-- The first statement is the genesis link of its record. -/
  opening : ∀ s ∈ history.head?, ∃ g sig, s = (Link.genesis g sig).toStatement
  /-- No other statement is a genesis. -/
  once : ∀ s ∈ history.tail, ¬ s.body.IsGenesis
  /-- A checkpoint lists the members before it. -/
  checkpoints : ∀ before s after, history = before ++ s :: after →
    ∀ members dim time, s.body = .checkpoint members dim time →
      KeyedMap.Lists MemberRecord.tenantId (historyOf before) members

/-- The roster of a root and the inner statements after it is the roster of the history. -/
theorem Honest.rosterOf_run {c : Build} {key : SkipperPub} {history : List Statement}
    (honest : Honest c key history) {before after run : List Statement} {root : Statement}
    (isPart : history = before ++ (root :: run) ++ after) (isRoot : root.body.IsRoot)
    (inner : ∀ s ∈ run, ¬ s.body.IsRoot) :
    rosterOf (root :: run) = historyOf (before ++ root :: run) := by
  have start : rosterOf [root] = historyOf (before ++ [root]) := by
    rw [historyOf_concat]
    cases shape : root.body with
    | genesis g =>
      cases before with
      | nil => simp [rosterOf, Roster.after, shape, Body.apply, Body.change, historyOf]
      | cons s before =>
        have later : root ∈ history.tail := by
          rw [isPart]
          simp
        have genesis : root.body.IsGenesis := by
          rw [shape]
          trivial
        exact absurd genesis (honest.once root later)
    | checkpoint members dim time =>
      have lists := honest.checkpoints before root (run ++ after) (by simp [isPart]) members dim
        time shape
      simp only [rosterOf, Roster.after, List.foldl_cons, List.foldl_nil, shape, Body.apply,
        Body.change]
      exact Roster.ofRecords_lists (historyOf_keyed before) lists
    | admitMember | revoke =>
      rw [shape] at isRoot
      exact isRoot.elim
  calc rosterOf (root :: run)
      = (rosterOf [root]).after run := rfl
    _ = (historyOf (before ++ [root])).after run := by rw [start]
    _ = historyOf (before ++ root :: run) := by
      rw [Roster.after_inner inner]
      simp [historyOf]

/-! ## What the registry writes is honest -/

/-- The log holds the end of an honest history, which starts at a root. -/
structure Recorded (c : Build) (json : LinkJson) (path : PathBuf) (skipper : Skipper)
    (dir : HansaDir) : Prop where
  /-- What was written is an honest history. -/
  honest : Honest c (skipper.pub c) (dir.written.map Link.toStatement)
  /-- The log takes a line. -/
  appendable : ∀ bytes ∈ dir.log, Appendable bytes
  /-- The log is read as the end of the history; it is empty only before the first link. -/
  log : ∃ past chain, readLog json path dir.log = .ok chain ∧ dir.written = past ++ chain ∧
    (chain = [] → past = []) ∧ (chain ≠ [] → ∃ out, replay c chain none = .ok out)

variable {c : Build} {json : LinkJson} {path : PathBuf} {skipper : Skipper}

/-- One more statement keeps a history honest, if it names the last one and is no genesis. -/
theorem Honest.concat {key : SkipperPub} {history : List Statement} (honest : Honest c key history)
    {s : Statement} (nonempty : history ≠ []) (commits : ∀ a ∈ history.getLast?, a.Commits c s)
    (signer : s.signedBy = key) (once : ¬ s.body.IsGenesis)
    (checkpoint : ∀ members dim time, s.body = .checkpoint members dim time →
      KeyedMap.Lists MemberRecord.tenantId (historyOf history) members) :
    Honest c key (history ++ [s]) where
  linked := by
    refine List.isChain_append.mpr ⟨honest.linked, .singleton s, ?_⟩
    intro a isLast b isFirst
    obtain rfl := Option.some.inj isFirst
    exact commits a isLast
  signer := by
    intro x member
    rcases List.mem_append.mp member with old | new
    · exact honest.signer x old
    · rw [List.mem_singleton.mp new]
      exact signer
  opening := by
    intro x isFirst
    rw [List.head?_append_of_ne_nil _ nonempty] at isFirst
    exact honest.opening x isFirst
  once := by
    intro x member
    rw [List.tail_append_of_ne_nil nonempty] at member
    rcases List.mem_append.mp member with old | new
    · exact honest.once x old
    · rw [List.mem_singleton.mp new]
      exact once
  checkpoints := by
    intro before x after parts members dim time shape
    cases after using List.reverseRecOn with
    | nil =>
      obtain ⟨rfl, last⟩ := List.append_inj' parts rfl
      obtain rfl := (List.cons.inj last).1
      exact checkpoint members dim time shape
    | append_singleton after y =>
      have parts : history ++ [s] = (before ++ x :: after) ++ [y] := by simpa using parts
      obtain ⟨same, -⟩ := List.append_inj' parts rfl
      exact honest.checkpoints before x after same members dim time shape

/-- A body that is no root is no genesis. -/
theorem Body.not_isGenesis_of_inner {body : Body} (inner : ¬ body.IsRoot) : ¬ body.IsGenesis := by
  cases body with
  | genesis | checkpoint => exact absurd trivial inner
  | admitMember | revoke => exact id

/-- A body that is no root is no checkpoint. -/
theorem Body.ne_checkpoint_of_inner {body : Body} (inner : ¬ body.IsRoot)
    (members : List MemberRecord) (dim : UInt32) (time : Int64) :
    body ≠ .checkpoint members dim time := by
  rintro rfl
  exact inner trivial

/-- The head of an accepted chain is the last statement of the history that ends in it. -/
theorem getLast?_written {past chain : List Link} {expected : Option HansaId}
    {out : ReplayOutcome} (accepted : replay c chain expected = .ok out) :
    ∀ a ∈ ((past ++ chain).map Link.toStatement).getLast?, a.hash c = out.headHash := by
  obtain ⟨last, isLast, -, hasHash⟩ := (replay_ok accepted).1.head
  intro a isEnd
  rw [List.map_append, List.getLast?_append_of_ne_nil _
    (by simpa using ne_nil_of_replay accepted), List.getLast?_map] at isEnd
  rw [Option.mem_def.mp isLast] at isEnd
  obtain rfl := Option.some.inj isEnd
  exact hasHash.symm

/-- An accepted chain at the end of an honest history has the members of the history. -/
theorem Honest.lists {past : List Statement} {chain : List Link} {key : SkipperPub}
    (honest : Honest c key (past ++ chain.map Link.toStatement)) {expected : Option HansaId}
    {out : ReplayOutcome} (accepted : replay c chain expected = .ok out) :
    KeyedMap.Lists MemberRecord.tenantId (historyOf (past ++ chain.map Link.toStatement))
      out.active := by
  obtain ⟨described, -⟩ := replay_ok accepted
  have inner := described.inner
  obtain ⟨root, run, rfl, valid, -⟩ := described.root_and_inner
  have isPart : past ++ (root :: run).map Link.toStatement = past ++
      (root.toStatement :: run.map Link.toStatement) ++ [] := by simp
  have same := honest.rosterOf_run isPart valid.isRoot inner
  rw [List.map_cons, ← same]
  exact described.active

/-- Only the first statement of an accepted chain can open an honest history. -/
theorem Honest.tail_not_opening {key : SkipperPub} {history : List Statement}
    (honest : Honest c key history) {chain : List Link} {out : ReplayOutcome}
    (described : Replays c chain out) :
    ∀ s ∈ (chain.map Link.toStatement).tail, s ∉ history.head? := by
  intro s member opening
  obtain ⟨g, sig, rfl⟩ := honest.opening s opening
  exact described.inner _ member trivial

/-- A directory without a log is recorded. -/
theorem recorded_initial : Recorded c json path skipper .initial where
  honest :=
    { linked := .nil
      signer := fun _ absent => nomatch absent
      opening := fun _ absent => nomatch absent
      once := fun _ absent => nomatch absent
      checkpoints := fun before _ _ parts => by
        cases before <;> cases parts }
  appendable := fun _ absent => nomatch absent
  log := ⟨[], [], rfl, rfl, fun _ => rfl, fun links => absurd rfl links⟩

/-- A genesis alone is an honest history. -/
theorem honest_genesisLink (skipper : Skipper) (embeddingDim : UInt32) (createdAt : Int64) :
    Honest c (skipper.pub c) [(genesisLink c skipper embeddingDim createdAt).toStatement] where
  linked := .singleton _
  signer := by simp [genesisLink, Link.genesis, Genesis.found]
  opening := by
    rintro s ⟨⟩
    exact ⟨_, _, rfl⟩
  once := fun _ absent => nomatch absent
  checkpoints := by
    intro before s after parts members dim time shape
    cases before with
    | nil =>
      obtain ⟨rfl, -⟩ := List.cons.inj parts
      cases shape
    | cons b before => cases before <;> cases parts

/-- A founding of an empty log keeps the directory recorded. -/
theorem Recorded.found (correct : c.Correct) (lawful : json.Lawful) {dir : HansaDir}
    (recorded : Recorded c json path skipper dir) (read : readLog json path dir.log = .ok [])
    {embeddingDim : UInt32} {createdAt : Int64} {text : String}
    (encoded : json.toString (genesisLink c skipper embeddingDim createdAt) = .ok text) :
    Recorded c json path skipper
      (dir.append (genesisLink c skipper embeddingDim createdAt) text) := by
  obtain ⟨past, chain, read', isWritten, first, -⟩ := recorded.log
  obtain rfl := Except.ok.inj (read'.symm.trans read)
  obtain rfl := first rfl
  have written : (dir.append (genesisLink c skipper embeddingDim createdAt) text).written =
      [genesisLink c skipper embeddingDim createdAt] := by
    rw [HansaDir.append, isWritten]
    rfl
  obtain ⟨reads, appendable⟩ := HansaDir.read_append lawful recorded.appendable read encoded
  refine ⟨?_, appendable, ?_⟩
  · rw [written]
    exact honest_genesisLink skipper embeddingDim createdAt
  · exact ⟨[], _, reads, written, fun absent => absurd absent (List.cons_ne_nil _ _), fun _ =>
      ⟨_, (replay_pinned.mp (replay_genesisLink correct skipper embeddingDim createdAt)).1⟩⟩

/-- The key of an accepted log is the skipper's. -/
theorem Recorded.signer {dir : HansaDir} (recorded : Recorded c json path skipper dir)
    {past chain : List Link} (isWritten : dir.written = past ++ chain)
    {expected : Option HansaId} {out : ReplayOutcome}
    (accepted : replay c chain expected = .ok out) : out.skipper = skipper.pub c := by
  obtain ⟨root, run, rfl, -, key, -, -⟩ := (replay_ok accepted).1.root_and_inner
  rw [key]
  exact recorded.honest.signer root.toStatement
    (List.mem_map_of_mem (by rw [isWritten]; simp))

/-- The history gets one more link, which the new log ends in. -/
theorem Recorded.extend {dir dir' : HansaDir} (recorded : Recorded c json path skipper dir)
    {chain : List Link} {out : ReplayOutcome} {link : Link}
    (read : readLog json path dir.log = .ok chain) (accepted : replay c chain none = .ok out)
    (isWritten : dir'.written = dir.written ++ [link]) (prev : link.prev = out.headHash)
    (signer : link.signedBy = skipper.pub c) (once : ¬ link.body.IsGenesis)
    (checkpoint : ∀ members dim time, link.body = .checkpoint members dim time →
      members = out.active) :
    Honest c (skipper.pub c) (dir'.written.map Link.toStatement) := by
  obtain ⟨past, chain', read', parts, -, -⟩ := recorded.log
  obtain rfl := Except.ok.inj (read'.symm.trans read)
  have honest := recorded.honest
  rw [parts] at honest
  rw [isWritten, List.map_append, List.map_singleton, parts]
  refine honest.concat ?_ ?_ signer once ?_
  · have links := ne_nil_of_replay accepted
    simp [links]
  · intro a isLast
    rw [Statement.Commits, getLast?_written accepted a isLast]
    exact prev
  · intro members dim time shape
    rw [checkpoint members dim time shape, List.map_append]
    rw [List.map_append] at honest
    exact honest.lists accepted

/-- Every elementary write keeps a directory recorded. -/
theorem Recorded.write (correct : c.Correct) (lawful : json.Lawful) {dir dir' : HansaDir}
    (recorded : Recorded c json path skipper dir) (write : Write c json path skipper dir dir') :
    Recorded c json path skipper dir' := by
  cases write with
  | touch =>
    cases isLog : dir.log with
    | some bytes =>
      have same : { dir with log := some ((some bytes).getD []) } = dir := by
        rw [Option.getD_some, ← isLog]
      rwa [same]
    | none =>
      obtain ⟨past, chain, read, written, first, replayed⟩ := recorded.log
      rw [isLog] at read
      refine ⟨recorded.honest, ?_, past, chain, read, written, first, replayed⟩
      rintro bytes ⟨⟩ b absent
      cases absent
  | found read encoded => exact recorded.found correct lawful read encoded
  | @append chain out body text read accepted room inner encoded =>
    obtain ⟨past, chain', read', parts, -, -⟩ := recorded.log
    obtain rfl := Except.ok.inj (read'.symm.trans read)
    have next : (nextLink c skipper out body).Next c out :=
      (next_signed_iff correct room skipper body).mpr ⟨(recorded.signer parts accepted).symm, inner⟩
    obtain ⟨active, -, accepted'⟩ := replay_concat accepted next
    obtain ⟨reads, appendable⟩ := HansaDir.read_append lawful recorded.appendable read encoded
    refine ⟨recorded.extend read accepted rfl rfl rfl (Body.not_isGenesis_of_inner inner)
      (fun members dim time shape => absurd shape
        (Body.ne_checkpoint_of_inner inner members dim time)), appendable, past, _, reads, ?_, ?_,
      fun _ => ⟨_, accepted'⟩⟩
    · show dir.written ++ [_] = _
      rw [parts, List.append_assoc]
    · intro absent
      simp at absent
  | @compact chain out now text read accepted room encoded =>
    have accepted' := replay_checkpointLink correct accepted skipper (out.headSeq + 1) now
      (pinned_none c _)
    refine ⟨recorded.extend read accepted rfl rfl rfl id ?_, ?_, dir.written, _,
      readLog_single lawful path encoded, rfl, fun absent => (nomatch absent), fun _ =>
      ⟨_, accepted'⟩⟩
    · intro members dim time shape
      exact (Body.checkpoint.inj shape).1.symm
    · rintro bytes ⟨⟩
      exact appendable_concat _

/-- A sequence of elementary writes keeps a directory recorded. -/
theorem Recorded.writes (correct : c.Correct) (lawful : json.Lawful) {dir dir' : HansaDir}
    (recorded : Recorded c json path skipper dir) (writes : Writes c json path skipper dir dir') :
    Recorded c json path skipper dir' := by
  induction writes with
  | refl => exact recorded
  | tail _ write ih => exact ih.write correct lawful write

/-- A call leaves this directory, however it ends. -/
def Op.Leaves (c : Build) (json : LinkJson) (r : FileRegistry) (skipper : Skipper)
    (dir : HansaDir) (op : Op) (dir' : HansaDir) : Prop :=
  dirAfter ((op.call c json r (.fromSkipper c (skipper.pub c)) skipper).run dir) = dir'

/-- Runs of the registry keep the directory recorded. -/
theorem Recorded.run (correct : c.Correct) (lawful : json.Lawful) {r : FileRegistry}
    {ops : List Op} {dir : HansaDir}
    (run : Run (Op.Leaves c json r skipper) .initial ops dir) :
    Recorded c json (r.logPath (.fromSkipper c (skipper.pub c))) skipper dir := by
  refine run.invariant _ recorded_initial ?_
  rintro dir op _ recorded rfl
  exact recorded.writes correct lawful (writes_call op dir)

/-! ## What an adversary can show -/

/-- The bytes that the signature of a link is checked against. -/
def Link.message (link : Link) : List UInt8 :=
  match link.body with
  | .genesis g => framed domainGenesis g.canonical
  | _ => framed domainLink link.canonical

/-- Ideal signatures: a shown signature that verifies under the key is on a message that the
holder of the key signed. -/
def Unforged (c : Build) (key : SkipperPub) (written shown : List Link) : Prop :=
  ∀ link ∈ shown, c.verifyStrict key link.message link.sig = true →
    ∃ signed ∈ written, signed.message = link.message

/-- An injective hash, on the statements at hand. -/
def NoCollision (c : Build) (statements : List Statement) : Prop :=
  ∀ s ∈ statements, ∀ s' ∈ statements, s.hash c = s'.hash c → s = s'

/-- Without collisions every statement is named by its hash. -/
theorem NoCollision.onePredecessor {written : List Statement} (apart : NoCollision c written) :
    OnePredecessor (Statement.Commits c) written :=
  fun a inside a' inside' _ commits commits' => apart a inside a' inside'
    (commits.symm.trans commits')

/-- Fewer statements collide less. -/
theorem NoCollision.of_prefix {written written' : List Link}
    (apart : NoCollision c (written'.map Link.toStatement)) (grown : written <+: written') :
    NoCollision c (written.map Link.toStatement) := by
  have inside := (grown.map Link.toStatement).subset
  exact fun s member s' member' => apart s (inside member) s' (inside member')

/-- It is enough to compare the statements two by two. -/
theorem noCollision_of_pairwise {statements : List Statement}
    (apart : statements.Pairwise (fun s s' => s.hash c = s'.hash c → s = s')) :
    NoCollision c statements := by
  have symm : Std.Symm fun s s' : Statement => s.hash c = s'.hash c → s = s' :=
    ⟨fun _ _ separate same => (separate same.symm).symm⟩
  exact fun s member s' member' => apart.forall_of_forall (fun _ _ _ => rfl) member member'

/-- The message of a link that states no genesis is its framed canonical bytes. -/
theorem Link.message_of_not_genesis {link : Link} (other : ¬ link.body.IsGenesis) :
    link.message = framed domainLink link.canonical := by
  unfold Link.message
  cases shape : link.body with
  | genesis =>
    rw [shape] at other
    exact absurd trivial other
  | admitMember | revoke | checkpoint => rfl

/-- The genesis of an honest history is the genesis link of its record. -/
theorem Honest.genesis {key : SkipperPub} {history : List Statement} (honest : Honest c key history)
    {s : Statement} (member : s ∈ history) (genesis : s.body.IsGenesis) :
    ∃ g sig, s = (Link.genesis g sig).toStatement := by
  cases history with
  | nil => cases member
  | cons first rest =>
    rcases List.mem_cons.mp member with rfl | later
    · exact honest.opening s rfl
    · exact absurd genesis (honest.once s later)

/-- A shown link that states no genesis and whose signature verifies is one that was written. -/
theorem Unforged.mem_of_signed {written shown : List Link} {key : SkipperPub}
    (unforged : Unforged c key written shown)
    (apart : NoCollision c ((written ++ shown).map Link.toStatement)) {link : Link}
    (member : link ∈ shown) (signer : link.signedBy = key) (other : ¬ link.body.IsGenesis)
    (signed : link.Signed c) : link.toStatement ∈ written.map Link.toStatement := by
  have message := Link.message_of_not_genesis other
  obtain ⟨source, inside, same⟩ := unforged link member (by
    rw [message, ← signer]
    exact signed)
  rw [message] at same
  have sourceOther : ¬ source.body.IsGenesis := by
    intro genesis
    unfold Link.message at same
    cases shape : source.body with
    | genesis g =>
      rw [shape] at same
      exact framed_genesis_ne_link _ _ same
    | admitMember | revoke | checkpoint =>
      rw [shape] at genesis
      exact genesis
  rw [Link.message_of_not_genesis sourceOther] at same
  have hashes : source.toStatement.hash c = link.toStatement.hash c :=
    congrArg c.blake3 (List.append_cancel_left same)
  have equal := apart source.toStatement (List.mem_map_of_mem (List.mem_append_left _ inside))
    link.toStatement (List.mem_map_of_mem (List.mem_append_right _ member)) hashes
  exact equal ▸ List.mem_map_of_mem inside

/-- A shown root that is valid under the key is one that was written. -/
theorem Unforged.mem_of_validRoot {written shown : List Link} {key : SkipperPub}
    (unforged : Unforged c key written shown)
    (honest : Honest c key (written.map Link.toStatement))
    (apart : NoCollision c ((written ++ shown).map Link.toStatement)) {root : Link}
    (member : root ∈ shown) (signer : root.signedBy = key) (valid : root.ValidRoot c) :
    root.toStatement ∈ written.map Link.toStatement := by
  obtain ⟨⟨seq, prev, body, signedBy⟩, sig⟩ := root
  cases body with
  | genesis g =>
    obtain ⟨⟨rfl, rfl, rfl⟩, record⟩ := valid
    obtain rfl : g.skipperPub = key := signer
    obtain ⟨source, inside, same⟩ := unforged _ member record.signed
    have genesis : source.body.IsGenesis := by
      by_contra other
      rw [Link.message_of_not_genesis other] at same
      exact framed_genesis_ne_link _ _ same.symm
    obtain ⟨g', sig', statement⟩ := honest.genesis (List.mem_map_of_mem inside) genesis
    have shape : source.body = .genesis g' := congrArg Statement.body statement
    unfold Link.message at same
    rw [shape] at same
    obtain rfl : g' = g := Genesis.canonical_selfDelimiting.injective trivial trivial
      (List.append_cancel_left same)
    have equal : source.toStatement =
        (Link.genesis g' sig).toStatement := statement
    exact equal ▸ List.mem_map_of_mem inside
  | checkpoint => exact unforged.mem_of_signed apart member signer id valid
  | admitMember | revoke => exact valid.elim

/-- Every statement of a shown chain that is accepted under the key is one that was written. -/
theorem Unforged.mem_of_accepted {written shown : List Link} {key : SkipperPub}
    (unforged : Unforged c key written shown)
    (honest : Honest c key (written.map Link.toStatement))
    (apart : NoCollision c ((written ++ shown).map Link.toStatement)) {out : ReplayOutcome}
    (described : Replays c shown out) (signer : out.skipper = key) :
    ∀ s ∈ shown.map Link.toStatement, s ∈ written.map Link.toStatement := by
  obtain ⟨root, rest, rfl, valid, own, -, extended⟩ := described.root_and_inner
  intro s member
  obtain ⟨link, inside, rfl⟩ := List.mem_map.mp member
  rcases List.mem_cons.mp inside with rfl | later
  · exact unforged.mem_of_validRoot honest apart List.mem_cons_self (own.symm.trans signer) valid
  · obtain ⟨_, _, step⟩ := extended link later
    exact unforged.mem_of_signed apart inside (step.follows.signer.trans signer)
      (Body.not_isGenesis_of_inner step.follows.inner) step.signed

/-- Whatever list of links is shown after an honest run, if replay accepts it under the id then
it is, up to signature bytes, a contiguous run of the history from a root on, and the result
is what the history was right after the run. -/
theorem history_unforgeable (correct : c.Correct) (lawful : json.Lawful)
    (idInjective : Function.Injective (HansaId.fromSkipper c)) {r : FileRegistry} {ops : List Op}
    {dir : HansaDir} (run : Run (Op.Leaves c json r skipper) .initial ops dir)
    (shown : List Link) (unforged : Unforged c (skipper.pub c) dir.written shown)
    (apart : NoCollision c ((dir.written ++ shown).map Link.toStatement)) {out : ReplayOutcome}
    (accepted : replay c shown (some (.fromSkipper c (skipper.pub c))) = .ok out) :
    ∃ before root inner after,
      dir.written.map Link.toStatement = before ++ (root :: inner) ++ after ∧
      shown.map Link.toStatement = root :: inner ∧
      root.body.IsRoot ∧ (∀ s ∈ inner, ¬ s.body.IsRoot) ∧
      KeyedMap.Lists MemberRecord.tenantId (historyOf (before ++ root :: inner)) out.active ∧
      ∃ last ∈ (before ++ root :: inner).getLast?,
        out.headSeq = last.seq ∧ out.headHash = last.hash c := by
  have recorded := Recorded.run correct lawful run
  have honest := recorded.honest
  obtain ⟨described, pinned⟩ := replay_ok accepted
  have signer : out.skipper = skipper.pub c := idInjective (pinned_some.mp pinned)
  have known := unforged.mem_of_accepted honest apart described signer
  have commits := described.commits
  have inner := described.inner
  have notOpening := honest.tail_not_opening described
  have head := described.head
  obtain ⟨root, rest, rfl, valid, -⟩ := described.root_and_inner
  have one := (apart.of_prefix (List.prefix_append dir.written _)).onePredecessor
  obtain ⟨before, after, parts⟩ := one.infix honest.linked commits known notOpening
  refine ⟨before, root.toStatement, rest.map Link.toStatement, after, parts.symm, rfl,
    valid.isRoot, inner, ?_, ?_⟩
  · rw [← honest.rosterOf_run parts.symm valid.isRoot inner]
    exact described.active
  · obtain ⟨last, isLast, atSeq, hasHash⟩ := head
    have ends : last.toStatement ∈ (root.toStatement :: rest.map Link.toStatement).getLast? :=
      Link.toStatement_ends isLast
    refine ⟨last.toStatement, ?_, atSeq, hasHash⟩
    rw [List.getLast?_append_of_ne_nil _ (List.cons_ne_nil _ _)]
    exact ends

/-- The link that admits the first member of the sample hansa. -/
def sampleAdmit : Link :=
  nextLink sampleBuild (sampleSkipper 1)
    { skipper := (sampleSkipper 1).pub sampleBuild, embeddingDim := 3, active := [], headSeq := 0,
      headHash := (genesisLink sampleBuild (sampleSkipper 1) 3 0).hash sampleBuild }
    (.admitMember (sampleMember 7) none)

/-- A founding leaves one line. -/
theorem sample_founds : Op.Leaves sampleBuild sampleJson ⟨⟨[]⟩⟩ (sampleSkipper 1) .initial
    (.found 3 0) (sampleDir 1) := by
  have encoded : sampleJson.toString (genesisLink sampleBuild (sampleSkipper 1) 3 0) =
      .ok (linkText (genesisLink sampleBuild (sampleSkipper 1) 3 0)) :=
    sampleJson_toString.mpr ⟨trivial, rfl⟩
  rw [genesisLink] at encoded
  rw [Op.Leaves, Op.call, run_found rfl, if_neg (not_not_intro rfl), run_appendLink, encoded]
  rfl

/-- A founding and an admit leave these two lines. -/
theorem sample_run : Run (Op.Leaves sampleBuild sampleJson ⟨⟨[]⟩⟩ (sampleSkipper 1)) .initial
    [.found 3 0, .admitMember (sampleMember 7) none 0]
    ((sampleDir 1).append sampleAdmit (linkText sampleAdmit)) := by
  have admitted : Op.Leaves sampleBuild sampleJson ⟨⟨[]⟩⟩ (sampleSkipper 1) (sampleDir 1)
      (.admitMember (sampleMember 7) none 0)
      ((sampleDir 1).append sampleAdmit (linkText sampleAdmit)) := by
    have encoded : sampleJson.toString sampleAdmit = .ok (linkText sampleAdmit) :=
      sampleJson_toString.mpr ⟨trivial, rfl⟩
    have accepted := (replay_pinned.mp
      (replay_genesisLink sampleBuild_correct (sampleSkipper 1) 3 0)).1
    rw [sampleAdmit, nextLink] at encoded
    rw [Op.Leaves, Op.call, run_appendNext (readLog_sampleDir 1 _), accepted]
    simp only [UInt64.succIn_eq (show UInt64.HasSucc sampleBuild.profile 0 by decide), encoded]
    rw [if_neg (by simp [checkpointAfterLinks])]
    simp only [dirAfter, sampleAdmit, nextLink]
  exact (Run.nil.concat sample_founds).concat admitted

/-- After the founding and the admit, the truncated log is a run of the history. -/
theorem history_unforgeable_truncated :
    ∃ before root inner after,
      [genesisLink sampleBuild (sampleSkipper 1) 3 0, sampleAdmit].map Link.toStatement =
        before ++ (root :: inner) ++ after ∧
      [genesisLink sampleBuild (sampleSkipper 1) 3 0].map Link.toStatement = root :: inner := by
  have apart : NoCollision sampleBuild ([genesisLink sampleBuild (sampleSkipper 1) 3 0,
      sampleAdmit, genesisLink sampleBuild (sampleSkipper 1) 3 0].map Link.toStatement) := by
    have differ : (genesisLink sampleBuild (sampleSkipper 1) 3 0).hash sampleBuild ≠
        sampleAdmit.hash sampleBuild :=
      sampleHash_ne_of_seq (show (0 : UInt64) ≠ 0 + 1 by decide)
    refine noCollision_of_pairwise (.cons ?_ (.cons ?_ (List.pairwise_singleton _ _)))
    · intro s member same
      rcases List.mem_cons.mp member with rfl | member
      · exact absurd same differ
      · exact (List.mem_singleton.mp member).symm
    · intro s member same
      obtain rfl := List.mem_singleton.mp member
      exact absurd same.symm differ
  obtain ⟨before, root, inner, after, parts, run, -⟩ := history_unforgeable sampleBuild_correct
    sampleJson_lawful fromSkipper_sampleBuild_injective sample_run
    [genesisLink sampleBuild (sampleSkipper 1) 3 0]
    (fun link member _ => ⟨link, by
      rw [List.mem_singleton.mp member]
      exact List.mem_cons_self, rfl⟩)
    apart (replay_genesisLink sampleBuild_correct (sampleSkipper 1) 3 0)
  exact ⟨before, root, inner, after, parts, run⟩

end Hansa
