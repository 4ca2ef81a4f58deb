import Hansa.Verif.HandleRun
import Hansa.Verif.HeadFile
import Hansa.Verif.HandleInstance
import Hansa.Verif.Lineage
import Hansa.Verif.Refinement

/-!
# Rollback and the head cache

A member that comes back compares the head of the log with the head it accepted last: the
number must not be smaller, and the same number must come with the same hash. Between two
opens the skipper extends the log and an adversary puts older links in its place. When the
skipper extends an old log past the cached number, the comparison of numbers accepts a head
that does not descend from the cached one, and a revoked tenant is active again.
-/

namespace Hansa

/-! ## Opening without a skipper key -/

/-- A member that was given the id of a hansa and keeps a head cache. -/
structure ReturningMember (F : Type) (id : HansaId) where
  /-- The configuration it opens with each time. -/
  config : HansaConfig F
  /-- It has no skipper key. -/
  readOnly : config.skipper = none
  /-- It was given the id. -/
  given : config.hansaId = some id
  /-- Where its head cache is. -/
  headCacheDir : PathBuf
  /-- It has one. -/
  cached : config.headCacheDir = some headCacheDir

namespace ReturningMember

variable {F : Type} {id : HansaId} {c : Build} {json : LinkJson}

/-- The log the member reads. -/
def path (member : ReturningMember F id) : PathBuf := member.config.registry.logPath id

/-- The member's head cache. -/
def headCache (member : ReturningMember F id) : HeadCache := ⟨member.headCacheDir⟩

/-- The handle it opens. -/
def handle (member : ReturningMember F id) : Handle F where
  id := id
  skipper := none
  registry := member.config.registry
  localTenant := member.config.localTenant
  localTenantId := member.config.localTenantId
  localTenantLocation := member.config.localTenantLocation
  peerOpener := member.config.peerOpener
  defaultBudget := member.config.defaultBudget
  asyncPeerOpener := member.config.asyncPeerOpener

/-- The open is accepted: the log replays against the id and its head passes the cache. -/
structure Accepts (c : Build) (json : LinkJson) (member : ReturningMember F id) (disk : Disk F)
    (chain : List Link) (out : ReplayOutcome) (file : List UInt8) : Prop where
  /-- The log is read as the chain. -/
  read : readLog json member.path disk.dir.log = .ok chain
  /-- The chain replays against the id. -/
  replays : replay c chain (some id) = .ok out
  /-- The head passes the cache, which then holds the file. -/
  passes : member.headCache.checkAndRecord id out.headSeq out.headHash disk.head = .ok file

/-- What opening does: it is accepted, and the head is recorded, or nothing changes. -/
theorem run_open (c : Build) (json : LinkJson) (member : ReturningMember F id) (now : Int64)
    (disk : Disk F) :
    (∃ chain out file, Accepts c json member disk chain out file ∧
        (member.config.open c json now).run disk =
          .ok member.handle { disk with head := some file }) ∨
      (∀ chain out file, ¬ Accepts c json member disk chain out file) ∧
        ∃ fault, (member.config.open c json now).run disk = .error fault disk := by
  obtain ⟨config, readOnly, given, dir, cached⟩ := member
  simp only [HansaConfig.«open», HansaConfig.resolveId, readOnly, given, cached, EStateM.run_bind,
    HandleM.run_ofResult, HandleM.run_readChain]
  cases read : readLog json (config.registry.logPath id) disk.dir.log with
  | error fault =>
    refine .inr ⟨fun chain out file accepts => ?_, fault, rfl⟩
    cases read.symm.trans accepts.read
  | ok chain =>
    by_cases empty : chain = []
    · simp only [if_pos empty]
      refine .inr ⟨fun chain' out file accepts => ?_, _, rfl⟩
      obtain rfl := Except.ok.inj (read.symm.trans accepts.read)
      exact ne_nil_of_replay accepts.replays empty
    simp only [if_neg empty, EStateM.run_bind, HandleM.run_ofResult, HandleM.run_readChain, read]
    cases replays : replay c chain (some id) with
    | error fault =>
      refine .inr ⟨fun chain' out file accepts => ?_, fault, rfl⟩
      obtain rfl := Except.ok.inj (read.symm.trans accepts.read)
      cases replays.symm.trans accepts.replays
    | ok out =>
      cases passes : (HeadCache.mk dir).checkAndRecord id out.headSeq out.headHash disk.head with
      | error fault =>
        simp only [EStateM.run_get, passes]
        refine .inr ⟨fun chain' out' file accepts => ?_, fault, rfl⟩
        obtain rfl := Except.ok.inj (read.symm.trans accepts.read)
        obtain rfl := Except.ok.inj (replays.symm.trans accepts.replays)
        cases passes.symm.trans accepts.passes
      | ok file =>
        simp only [EStateM.run_get, passes]
        exact .inl ⟨chain, out, file, ⟨read, replays, passes⟩, rfl⟩

end ReturningMember

/-! ## Histories of three parties -/

/-- The files as the three parties share them, and what the member has accepted. -/
structure World (F : Type) where
  /-- The registry's directory, and the member's own files. -/
  disk : Disk F
  /-- The chains that the member's opens have accepted, oldest first. -/
  accepted : List (List Link)

/-- What may happen next. -/
inductive Event where
  /-- The skipper's process calls the registry. -/
  | call (op : Op)
  /-- The adversary replaces the log. -/
  | tamper (log : Option (List UInt8))
  /-- The member opens its handle. -/
  | reopen (now : Int64)

variable {F : Type} {id : HansaId}

/-- The same world with another registry directory. -/
def World.withDir (w : World F) (dir : HansaDir) : World F :=
  { w with disk := { w.disk with dir } }

section Protocol

variable (c : Build) (json : LinkJson) (skipper : Skipper) (member : ReturningMember F id)

/-- One step of the three parties. -/
inductive World.Step (w : World F) : Event → World F → Prop where
  /-- A call leaves what it wrote, however it ends. -/
  | call (op : Op) : Step w (.call op)
      (w.withDir (dirAfter ((op.call c json member.config.registry id skipper).run w.disk.dir)))
  /-- The adversary shows a list of links that were written before. -/
  | tamper {log : Option (List UInt8)} {shown : List Link}
      (read : readLog json member.path log = .ok shown)
      (old : ∀ link ∈ shown, link ∈ w.disk.dir.written) :
      Step w (.tamper log) (w.withDir { w.disk.dir with log })
  /-- An open accepts the chain that the log holds. -/
  | accept {now : Int64} {handle : Handle F} {disk : Disk F} {chain : List Link}
      (opened : (member.config.open c json now).run w.disk = .ok handle disk)
      (read : readLog json member.path w.disk.dir.log = .ok chain) : Step w (.reopen now)
      { disk, accepted := w.accepted ++ [chain] }
  /-- An open fails. -/
  | refuse {now : Int64} {fault : Fault} {disk : Disk F}
      (failed : (member.config.open c json now).run w.disk = .error fault disk) :
      Step w (.reopen now) { w with disk }

/-- Where the log shows a head with a larger number than the cached one, it descends from the
cached head. -/
def World.Forward (w : World F) : Prop :=
  ∀ seq hash chain out last, member.headCache.load id w.disk.head = .ok (some (seq, hash)) →
    readLog json member.path w.disk.dir.log = .ok chain → replay c chain (some id) = .ok out →
    last ∈ chain.getLast? → seq < last.seq →
    ∃ cached, cached.hash c = hash ∧
      Descends c (w.disk.dir.written.map Link.toStatement) cached last.toStatement ∧
      cached ∈ w.disk.dir.written.map Link.toStatement

/-- A step before which, if it is an open, the log had gone forward. -/
def World.ForwardStep (w : World F) (event : Event) (w' : World F) : Prop :=
  w.Step c json skipper member event w' ∧ ∀ now, event = .reopen now → w.Forward c json member

/-- What the head cache promises of a chain and one that is accepted later: when the last the
first says about a tenant is a revoke, then the tenant is not active in the second, unless the
skipper signed an admit of it after that revoke. -/
def Protected (c : Build) (id : HansaId) (written : List Link) (earlier later : List Link) :
    Prop :=
  ∀ t before revoke after out, earlier = before ++ revoke :: after → revoke.body.Revokes t →
    (∀ link ∈ after, ¬ link.body.Admits t ∧ ¬ link.body.Revokes t) →
    replay c later (some id) = .ok out → (∃ m ∈ out.active, m.tenantId = t) →
    ∃ signed next, written.map Link.toStatement = signed ++ revoke.toStatement :: next ∧
      revoke.toStatement ∉ signed ∧ ∃ s ∈ next, s.body.Admits t

end Protocol

/-! ## Opens that go forward -/

variable {c : Build} {json : LinkJson} {skipper : Skipper} {key : SkipperPub}
  {member : ReturningMember F id} {written : List Statement}

/-- The history of the head of one chain starts with the history of the head of another. -/
def Precedes (c : Build) (key : SkipperPub) (written : List Statement) (p q : List Link) : Prop :=
  ∃ a ∈ p.getLast?, ∃ b ∈ q.getLast?, ∃ earlier later,
    Lineage c key written a.toStatement earlier ∧ Lineage c key written b.toStatement later ∧
      earlier <+: later

/-- Later writes leave the order of chains as it is. -/
theorem Precedes.weaken {p q : List Link} (order : Precedes c key written p q)
    {written' : List Statement} (grown : written.Sublist written') :
    Precedes c key written' p q := by
  obtain ⟨a, lastP, b, lastQ, earlier, later, lineage, lineage', starts⟩ := order
  exact ⟨a, lastP, b, lastQ, earlier, later, lineage.weaken grown, lineage'.weaken grown, starts⟩

/-- Chains that precede one another are in an order. -/
theorem Precedes.trans (apart : NoCollision c written) {p q r : List Link}
    (first : Precedes c key written p q) (next : Precedes c key written q r) :
    Precedes c key written p r := by
  obtain ⟨a, lastP, b, lastQ, earlier, mid, lineage, midLineage, starts⟩ := first
  obtain ⟨b', lastQ', d, lastR, mid', later, midLineage', lineage', starts'⟩ := next
  obtain rfl := Option.some.inj (lastQ.symm.trans lastQ')
  obtain rfl := midLineage.unique apart midLineage'
  exact ⟨a, lastP, d, lastR, earlier, later, lineage, lineage', starts.trans starts'⟩

/-- What holds of the parties along every run whose opens go forward. -/
structure Guarded (c : Build) (json : LinkJson) (skipper : Skipper)
    (member : ReturningMember F id) (w : World F) : Prop where
  /-- What was written is rooted, and the log holds nothing else. -/
  grown : Grown c json member.path skipper w.disk.dir
  /-- What was accepted replays and was written. -/
  known : ∀ chain ∈ w.accepted, (∃ out, replay c chain (some id) = .ok out) ∧
    ∀ link ∈ chain, link ∈ w.disk.dir.written
  /-- The cache holds the head of the chain that was accepted last. -/
  remembers : w.accepted = [] ∧ w.disk.head = none ∨ ∃ earlier chain out,
    w.accepted = earlier ++ [chain] ∧ replay c chain (some id) = .ok out ∧
      w.disk.head = some (HeadCache.store out.headSeq out.headHash)
  /-- Chains were accepted in the order of their histories. -/
  ordered : w.accepted.Pairwise
    (Precedes c (skipper.pub c) (w.disk.dir.written.map Link.toStatement))

/-- Writes of the skipper keep the parties guarded. -/
theorem Guarded.writes (lawful : json.Lawful) {w : World F}
    (guarded : Guarded c json skipper member w) {dir : HansaDir}
    (writes : Writes c json member.path skipper w.disk.dir dir)
    (apart : NoCollision c (dir.written.map Link.toStatement)) :
    Guarded c json skipper member (w.withDir dir) where
  grown := guarded.grown.writes lawful writes apart
  known chain accepted := by
    obtain ⟨replays, inside⟩ := guarded.known chain accepted
    exact ⟨replays, fun link member => writes.written_extends.subset (inside link member)⟩
  remembers := guarded.remembers
  ordered := guarded.ordered.imp fun order =>
    order.weaken (writes.written_extends.map Link.toStatement).sublist

/-- A head that passes the cache and goes forward has a history that starts with that of the
cached head. -/
theorem Guarded.precedes {w : World F} (guarded : Guarded c json skipper member w)
    (apart : NoCollision c (w.disk.dir.written.map Link.toStatement))
    (forward : w.Forward c json member) {chain : List Link} {out : ReplayOutcome}
    {file : List UInt8} (accepts : member.Accepts c json w.disk chain out file)
    {cached : List Link} {out' : ReplayOutcome} (inside : cached ∈ w.accepted)
    (accepted' : replay c cached (some id) = .ok out')
    (head : w.disk.head = some (HeadCache.store out'.headSeq out'.headHash)) :
    Precedes c (skipper.pub c) (w.disk.dir.written.map Link.toStatement) cached chain := by
  obtain ⟨read, accepted, passes⟩ := accepts
  obtain ⟨last, isLast, seq, hash⟩ := (replay_ok accepted).1.head
  obtain ⟨last', isLast', seq', hash'⟩ := (replay_ok accepted').1.head
  have known := List.mem_map_of_mem (f := Link.toStatement)
    (guarded.grown.reads chain read last (List.mem_of_getLast? isLast))
  have known' := List.mem_map_of_mem (f := Link.toStatement)
    ((guarded.known cached inside).2 last' (List.mem_of_getLast? isLast'))
  obtain ⟨history, lineage⟩ := guarded.grown.rooted _ known
  obtain ⟨history', lineage'⟩ := guarded.grown.rooted _ known'
  refine ⟨last', isLast', last, isLast, history', history, lineage', lineage, ?_⟩
  rw [head, HeadCache.checkAndRecord_store] at passes
  rcases passes.2 with above | ⟨-, same⟩
  · rw [seq] at above
    obtain ⟨source, named, descends, signed⟩ := forward _ _ chain out last
      (head ▸ HeadCache.load_store _ _ _ _) read accepted isLast above
    obtain rfl := apart source signed last'.toStatement known' (named.trans hash')
    exact lineage'.prefix_of_descends apart guarded.grown.rooted descends lineage
  · have equal := apart last'.toStatement known' last.toStatement known
      (hash'.symm.trans (same.trans hash))
    rw [equal] at lineage'
    exact (lineage'.unique apart lineage) ▸ List.prefix_rfl

/-- What is accepted next comes after everything that was accepted before. -/
theorem Guarded.all_precede {w : World F} (guarded : Guarded c json skipper member w)
    (apart : NoCollision c (w.disk.dir.written.map Link.toStatement))
    (forward : w.Forward c json member) {chain : List Link} {out : ReplayOutcome}
    {file : List UInt8} (accepts : member.Accepts c json w.disk chain out file) :
    ∀ p ∈ w.accepted,
      Precedes c (skipper.pub c) (w.disk.dir.written.map Link.toStatement) p chain := by
  intro p inside
  rcases guarded.remembers with ⟨none_, -⟩ | ⟨earlier, cached, out', split, accepted', head⟩
  · rw [none_] at inside
    cases inside
  · have lastInside : cached ∈ w.accepted := by
      rw [split]
      exact List.mem_append_right _ List.mem_cons_self
    have next := guarded.precedes apart forward accepts lastInside accepted' head
    have ordered := guarded.ordered
    rw [split, List.pairwise_append] at ordered
    rw [split] at inside
    rcases List.mem_append.mp inside with older | own
    · exact (ordered.2.2 p older cached List.mem_cons_self).trans apart next
    · exact (List.mem_singleton.mp own) ▸ next

/-- An open that goes forward keeps the parties guarded. -/
theorem Guarded.accept {w : World F} (guarded : Guarded c json skipper member w)
    (apart : NoCollision c (w.disk.dir.written.map Link.toStatement))
    (forward : w.Forward c json member) {chain : List Link} {out : ReplayOutcome}
    {file : List UInt8} (accepts : member.Accepts c json w.disk chain out file) :
    Guarded c json skipper member
      { disk := { w.disk with head := some file }, accepted := w.accepted ++ [chain] } := by
  have stored := HeadCache.eq_store_of_checkAndRecord accepts.passes
  have last := guarded.all_precede apart forward accepts
  constructor
  · exact guarded.grown
  · intro p inside
    rcases List.mem_append.mp inside with older | own
    · exact guarded.known p older
    · rw [List.mem_singleton.mp own]
      exact ⟨⟨out, accepts.replays⟩, guarded.grown.reads chain accepts.read⟩
  · exact .inr ⟨w.accepted, chain, out, rfl, accepts.replays, congrArg some stored⟩
  · refine List.pairwise_append.mpr ⟨guarded.ordered, List.pairwise_singleton _ _, ?_⟩
    intro p inside q own
    exact (List.mem_singleton.mp own) ▸ last p inside

/-- An open adds what it accepts, or changes nothing. -/
theorem World.Step.reopened {w w' : World F} {now : Int64}
    (step : w.Step c json skipper member (.reopen now) w') :
    w' = w ∨ ∃ chain out file, member.Accepts c json w.disk chain out file ∧
      w' = { disk := { w.disk with head := some file }, accepted := w.accepted ++ [chain] } := by
  have outcome := member.run_open c json now w.disk
  cases step with
  | refuse failed =>
    rcases outcome with ⟨_, _, _, _, opened⟩ | ⟨_, _, refused⟩
    · cases opened.symm.trans failed
    · obtain ⟨-, rfl⟩ := EStateM.Result.error.inj (refused.symm.trans failed)
      exact .inl rfl
  | accept opened read =>
    rcases outcome with ⟨chain, out, file, accepts, opened'⟩ | ⟨_, _, refused⟩
    · obtain ⟨-, rfl⟩ := EStateM.Result.ok.inj (opened'.symm.trans opened)
      obtain rfl := Except.ok.inj (accepts.read.symm.trans read)
      exact .inr ⟨chain, out, file, accepts, rfl⟩
    · cases refused.symm.trans opened

/-- Every forward step keeps the parties guarded, as long as nothing written collides. -/
theorem Guarded.step (lawful : json.Lawful) {w w' : World F}
    (guarded : Guarded c json skipper member w) {event : Event}
    (step : w.ForwardStep c json skipper member event w')
    (apart : NoCollision c (w'.disk.dir.written.map Link.toStatement)) :
    Guarded c json skipper member w' := by
  obtain ⟨moves, forwards⟩ := step
  cases event with
  | call op =>
    cases moves
    exact guarded.writes lawful (writes_call op w.disk.dir) apart
  | tamper log =>
    cases moves with
    | tamper read old =>
      refine ⟨⟨guarded.grown.rooted, ?_⟩, guarded.known, guarded.remembers, guarded.ordered⟩
      intro chain read'
      obtain rfl := Except.ok.inj (read.symm.trans read')
      exact old
  | reopen now =>
    rcases moves.reopened with rfl | ⟨chain, out, file, accepts, rfl⟩
    · exact guarded
    · exact guarded.accept apart (forwards now rfl) accepts

/-- Steps only add to what was written. -/
theorem World.Step.written_extends {w w' : World F} {event : Event}
    (step : w.Step c json skipper member event w') :
    w.disk.dir.written <+: w'.disk.dir.written := by
  cases event with
  | call op =>
    cases step
    exact (writes_call op w.disk.dir).written_extends
  | tamper log =>
    cases step
    exact List.prefix_rfl
  | reopen now =>
    rcases step.reopened with rfl | ⟨_, _, _, _, rfl⟩ <;> exact List.prefix_rfl

/-- What a tenant's revoke in an accepted chain says is kept by every chain accepted later whose
history starts with that of the first. -/
theorem Precedes.protects {written : List Link}
    (apart : NoCollision c (written.map Link.toStatement)) {p q : List Link}
    (order : Precedes c key (written.map Link.toStatement) p q)
    (knownP : (∃ out, replay c p (some id) = .ok out) ∧ ∀ link ∈ p, link ∈ written)
    (knownQ : ∀ link ∈ q, link ∈ written) : Protected c id written p q := by
  intro t before revoke after out parts revokes quiet accepted active
  obtain ⟨⟨outP, acceptedP⟩, insideP⟩ := knownP
  obtain ⟨a, lastP, b, lastQ, earlier, later, lineage, lineage', ext, rfl⟩ := order
  have mapped : ∀ {chain : List Link}, (∀ link ∈ chain, link ∈ written) →
      ∀ link ∈ chain, link.toStatement ∈ written.map Link.toStatement :=
    fun inside link member => List.mem_map_of_mem (inside link member)
  obtain ⟨past, rfl⟩ := lineage.ends_in apart acceptedP (mapped insideP)
    (Link.toStatement_ends lastP)
  have lists := lineage'.lists apart accepted (mapped knownQ) (Link.toStatement_ends lastQ)
  obtain ⟨m, inside, own⟩ := active
  have found := (lists.mem_iff m).mp inside
  rw [own] at found
  have shape : past ++ p.map Link.toStatement ++ ext =
      (past ++ before.map Link.toStatement) ++ revoke.toStatement ::
        (after.map Link.toStatement ++ ext) := by
    rw [parts]
    simp
  have admitted : ∃ s ∈ after.map Link.toStatement ++ ext, s.body.Admits t := by
    by_contra none_
    have revoked : historyOf (past ++ before.map Link.toStatement ++ [revoke.toStatement]) t =
        none := historyOf_revoked revokes
    have unadmitted : ∀ s ∈ after.map Link.toStatement ++ ext, ¬ s.body.Admits t :=
      fun s member admits => none_ ⟨s, member, admits⟩
    have absent := historyOf_absent revoked unadmitted
    rw [List.append_assoc, List.singleton_append, ← shape] at absent
    rw [absent] at found
    cases found
  have within := lineage'.within
  rw [shape] at within
  obtain ⟨signed, next, split, fresh, rest⟩ := within.split_first
  obtain ⟨s, member, admits⟩ := admitted
  exact ⟨signed, next, split, fresh, s, rest.subset member, admits⟩

/-- No rollback goes unnoticed along a run whose opens go forward: whatever the member accepts
after it has accepted a revoke respects that revoke. -/
theorem rollback_refused (lawful : json.Lawful) (skipper : Skipper)
    (member : ReturningMember F id) {start : Disk F} (unfounded : start.dir = .initial)
    (fresh : start.head = none) {events : List Event} {w : World F}
    (run : Run (World.ForwardStep c json skipper member) ⟨start, []⟩ events w)
    (apart : NoCollision c (w.disk.dir.written.map Link.toStatement)) :
    w.accepted.Pairwise (Protected c id w.disk.dir.written) := by
  have begins : Guarded c json skipper member ⟨start, []⟩ := by
    refine ⟨?_, fun _ absent => (nomatch absent), .inl ⟨rfl, fresh⟩, .nil⟩
    show Grown c json member.path skipper start.dir
    rw [unfounded]
    exact grown_initial
  have guarded := run.invariant
    (fun w => NoCollision c (w.disk.dir.written.map Link.toStatement) →
      Guarded c json skipper member w) (fun _ => begins)
    (fun w event w' held step apart =>
      (held (apart.of_prefix step.1.written_extends)).step lawful step apart) apart
  refine guarded.ordered.imp_of_mem fun inside inside' order => ?_
  exact order.protects apart (guarded.known _ inside) (guarded.known _ inside').2

/-! ## A log that is cut and grows again -/

/-- A call that leaves a directory is a step to it. -/
theorem World.step_call (w : World F) (op : Op) {dir : HansaDir}
    (leaves : dirAfter ((op.call c json member.config.registry id skipper).run w.disk.dir) = dir) :
    w.Step c json skipper member (.call op) (w.withDir dir) := leaves ▸ .call op

/-- A call of the skipper's process goes forward. -/
theorem World.Step.forward {w w' : World F} {op : Op}
    (step : w.Step c json skipper member (.call op) w') :
    w.ForwardStep c json skipper member (.call op) w' := ⟨step, fun _ other => nomatch other⟩

/-- An open whose head passes the cache is a step. -/
theorem World.step_accept (skipper : Skipper) {w : World F} {chain : List Link}
    {out : ReplayOutcome} {file : List UInt8}
    (accepts : member.Accepts c json w.disk chain out file) (now : Int64) :
    w.Step c json skipper member (.reopen now)
      { disk := { w.disk with head := some file }, accepted := w.accepted ++ [chain] } := by
  rcases member.run_open c json now w.disk with
    ⟨chain', out', file', accepts', opened⟩ | ⟨none_, _⟩
  · obtain rfl := Except.ok.inj (accepts.read.symm.trans accepts'.read)
    obtain rfl := Except.ok.inj (accepts.replays.symm.trans accepts'.replays)
    obtain rfl := Except.ok.inj (accepts.passes.symm.trans accepts'.passes)
    exact .accept opened accepts.read
  · exact absurd accepts (none_ chain out file)

/-- A member of the sample hansa that keeps a head cache. -/
def sampleReturning : ReturningMember Float32 (sampleId 1) where
  config :=
    { skipper := none
      hansaId := some (sampleId 1)
      registry := ⟨⟨[]⟩⟩
      localTenant := sampleHandle.localTenant
      localTenantId := sampleTenant 1
      localTenantLocation := .http "" none
      peerOpener := none
      defaultBudget := .default
      headCacheDir := some ⟨[]⟩
      asyncPeerOpener := none }
  readOnly := rfl
  given := rfl
  headCacheDir := ⟨[]⟩
  cached := rfl

/-- The sample hansa's log in a directory: the chain it is read as, with its result. -/
abbrev SampleLog (dir : HansaDir) (chain : List Link) (out : ReplayOutcome) : Prop :=
  Founded sampleBuild sampleJson ⟨⟨[]⟩⟩ (sampleSkipper 1) dir chain out

/-- The link that the sample skipper signs on top of another one. -/
def sampleLink (last : Link) (body : Body) : Link :=
  Link.signed sampleBuild (sampleSkipper 1) (last.seq + 1) (last.hash sampleBuild) body

/-- It names the link below it. -/
theorem commits_sampleLink (last : Link) (body : Body) :
    last.toStatement.Commits sampleBuild (sampleLink last body).toStatement := rfl

/-- The skipper's process extends a short sample log by an admit or a revoke. -/
theorem SampleLog.appends {dir : HansaDir} {chain : List Link} {out : ReplayOutcome}
    (founded : SampleLog dir chain out) (last : Link) (isLast : last ∈ chain.getLast?) (body : Body)
    (inner : ¬ body.IsRoot) (carried : body.IsUtf8)
    (short : chain.length + 1 ≤ checkpointAfterLinks)
    (room : UInt64.HasSucc sampleBuild.profile last.seq)
    (now : Int64) :
    dirAfter ((FileRegistry.appendNext sampleBuild sampleJson ⟨⟨[]⟩⟩ (sampleId 1)
        (sampleSkipper 1) body now).run dir) =
      dir.append (sampleLink last body) (linkText (sampleLink last body)) ∧
    ∃ out', SampleLog (dir.append (sampleLink last body) (linkText (sampleLink last body)))
        (chain ++ [sampleLink last body]) out' ∧
      rosterOf ((chain ++ [sampleLink last body]).map Link.toStatement) =
        body.change (rosterOf (chain.map Link.toStatement)) := by
  have unpinned := (replay_pinned.mp founded.accepted).1
  obtain ⟨last', isLast', seq, hash⟩ := (replay_ok founded.accepted).1.head
  obtain rfl := Option.some.inj (isLast.symm.trans isLast')
  have same : nextLink sampleBuild (sampleSkipper 1) out body = sampleLink last body := by
    rw [nextLink, seq, hash]
    rfl
  rw [← seq] at room
  have encoded : sampleJson.toString (nextLink sampleBuild (sampleSkipper 1) out body) =
      .ok (linkText (nextLink sampleBuild (sampleSkipper 1) out body)) :=
    sampleJson_toString.mpr ⟨carried, rfl⟩
  obtain ⟨out', founded', -, -, roster⟩ :=
    founded.append sampleBuild_correct sampleJson_lawful inner room encoded
  rw [← same]
  refine ⟨?_, out', founded', roster⟩
  have read : readLog sampleJson (FileRegistry.logPath ⟨⟨[]⟩⟩ (sampleId 1)) dir.log = .ok chain :=
    founded.read
  rw [run_appendNext read, unpinned]
  unfold nextLink at encoded
  simp only [UInt64.succIn_eq room, encoded]
  rw [if_neg (not_lt.mpr short)]
  rfl

/-- Sample statements with different numbers or different bodies do not collide. -/
theorem noCollision_sample {statements : List Statement} (apart : statements.Pairwise fun s s' =>
    s.seq ≠ s'.seq ∨ s.bodyStart ≠ s'.bodyStart) : NoCollision sampleBuild statements := by
  refine noCollision_of_pairwise (apart.imp fun {s s'} differ same => ?_)
  rcases differ with numbers | bodies
  · exact absurd same (sampleHash_ne_of_seq numbers)
  · exact absurd same (sampleHash_ne_of_bodyStart bodies)

/-- The genesis of the sample hansa. -/
def link₀ : Link := genesisLink sampleBuild (sampleSkipper 1) 3 0

/-- A member is admitted. -/
def link₁ : Link := sampleLink link₀ (.admitMember (sampleMember 7) none)

/-- The member is revoked. -/
def link₂ : Link := sampleLink link₁ (.revoke (sampleTenant 7) 0 none)

/-- On top of the revoke, another member is admitted. -/
def link₃ : Link := sampleLink link₂ (.admitMember (sampleMember 8) none)

/-- On top of the first admit, another member is admitted. -/
def link₂' : Link := sampleLink link₁ (.admitMember (sampleMember 8) none)

/-- On top of that, one more. -/
def link₃' : Link := sampleLink link₂' (.admitMember (sampleMember 9) none)

/-- The directory after the first admit. -/
noncomputable def admittedDir : HansaDir := (sampleDir 1).append link₁ (linkText link₁)

/-- The directory after the revoke. -/
noncomputable def revokedDir : HansaDir := admittedDir.append link₂ (linkText link₂)

/-- The directory after one more admit. -/
noncomputable def extendedDir : HansaDir := revokedDir.append link₃ (linkText link₃)

/-- The directory after the log was cut behind the first admit. -/
noncomputable def cutDir : HansaDir := { revokedDir with log := admittedDir.log }

/-- The directory after the cut log has grown by one link. -/
noncomputable def regrowingDir : HansaDir := cutDir.append link₂' (linkText link₂')

/-- The directory after the cut log has grown past the revoke's number. -/
noncomputable def regrownDir : HansaDir := regrowingDir.append link₃' (linkText link₃')

/-- A step of the sample parties. -/
abbrev SampleStep : World Float32 → Event → World Float32 → Prop :=
  World.Step sampleBuild sampleJson (sampleSkipper 1) sampleReturning

/-- What the sample parties have after the member's first open. -/
noncomputable def openedWorld (out : ReplayOutcome) : World Float32 where
  disk := { sampleDisk none with
    dir := revokedDir, head := some (HeadCache.store out.headSeq out.headHash) }
  accepted := [[link₀, link₁, link₂]]

/-- The sample member accepts a log whose head has a larger number than the cached one. -/
theorem SampleLog.reopens {dir dir' : HansaDir} {chain chain' : List Link}
    {out out' : ReplayOutcome} (founded : SampleLog dir chain out)
    (founded' : SampleLog dir' chain' out') (last last' : Link) (isLast : last ∈ chain.getLast?)
    (isLast' : last' ∈ chain'.getLast?) (next : last.seq < last'.seq) {w : World Float32}
    (head : w.disk.head = some (HeadCache.store out.headSeq out.headHash)) :
    SampleStep (w.withDir dir') (.reopen 0)
      { disk := { (w.withDir dir').disk with
          head := some (HeadCache.store out'.headSeq out'.headHash) }
        accepted := w.accepted ++ [chain'] } := by
  obtain ⟨top, isTop, seq, -⟩ := (replay_ok founded.accepted).1.head
  obtain ⟨top', isTop', seq', -⟩ := (replay_ok founded'.accepted).1.head
  obtain rfl := Option.some.inj (isLast.symm.trans isTop)
  obtain rfl := Option.some.inj (isLast'.symm.trans isTop')
  have above : out.headSeq < out'.headSeq := by
    rw [seq, seq']
    exact next
  have passes : sampleReturning.headCache.checkAndRecord (sampleId 1) out'.headSeq out'.headHash
      w.disk.head = .ok (HeadCache.store out'.headSeq out'.headHash) := by
    rw [head]
    exact HeadCache.checkAndRecord_store.mpr ⟨rfl, .inl above⟩
  have accepts : sampleReturning.Accepts sampleBuild sampleJson (w.withDir dir').disk chain' out'
      (HeadCache.store out'.headSeq out'.headHash) := ⟨founded'.read, founded'.accepted, passes⟩
  exact World.step_accept (sampleSkipper 1) accepts 0

/-- The log of the sample hansa right after its founding. -/
theorem sampleLog_founded : ∃ out, SampleLog (sampleDir 1) [link₀] out := by
  obtain ⟨out, founded, -⟩ := founded_found sampleBuild_correct sampleJson_lawful 3 0
    (sampleJson_toString.mpr ⟨trivial, rfl⟩) (show HansaDir.initial.log = none from rfl)
  exact ⟨out, founded⟩

/-- The sample skipper founds, admits and revokes, and the member opens. -/
theorem sample_revoked : ∃ out, SampleLog revokedDir [link₀, link₁, link₂] out ∧
    Run (World.ForwardStep sampleBuild sampleJson (sampleSkipper 1) sampleReturning)
      ⟨sampleDisk none, []⟩
      [.call (.found 3 0), .call (.admitMember (sampleMember 7) none 0),
        .call (.revoke (sampleTenant 7) 0 none 0), .reopen 0] (openedWorld out) := by
  obtain ⟨out₀, founded₀⟩ := sampleLog_founded
  obtain ⟨ran₁, out₁, founded₁, -⟩ := founded₀.appends link₀ rfl
    (.admitMember (sampleMember 7) none) id trivial (by decide) (by decide) 0
  obtain ⟨ran₂, out₂, founded₂, -⟩ := founded₁.appends link₁ rfl
    (.revoke (sampleTenant 7) 0 none) id trivial (by decide) (by decide) 0
  refine ⟨out₂, founded₂, ?_⟩
  set start : World Float32 := ⟨sampleDisk none, []⟩
  have founds : SampleStep start (.call (.found 3 0)) (start.withDir (sampleDir 1)) :=
    World.step_call _ _ sample_founds
  have admits : SampleStep (start.withDir (sampleDir 1))
      (.call (.admitMember (sampleMember 7) none 0)) (start.withDir admittedDir) :=
    World.step_call _ _ ran₁
  have revokes : SampleStep (start.withDir admittedDir)
      (.call (.revoke (sampleTenant 7) 0 none 0)) (start.withDir revokedDir) :=
    World.step_call _ _ ran₂
  have accepts : sampleReturning.Accepts sampleBuild sampleJson (start.withDir revokedDir).disk
      [link₀, link₁, link₂] out₂ (HeadCache.store out₂.headSeq out₂.headHash) :=
    ⟨founded₂.read, founded₂.accepted, rfl⟩
  have opens := World.step_accept (sampleSkipper 1) accepts 0
  have first : (start.withDir revokedDir).Forward sampleBuild sampleJson sampleReturning := by
    intro seq hash chain out last loaded
    cases loaded
  have ran := ((Run.nil.concat founds.forward).concat admits.forward).concat revokes.forward
  exact ran.concat ⟨opens, fun _ _ => first⟩

/-- After one more admit, the head of the sample's log descends from the cached one. -/
theorem sample_forward {out out' : ReplayOutcome}
    (founded : SampleLog revokedDir [link₀, link₁, link₂] out)
    (founded' : SampleLog extendedDir [link₀, link₁, link₂, link₃] out') :
    ((openedWorld out).withDir extendedDir).Forward sampleBuild sampleJson sampleReturning := by
  intro seq hash chain found last loaded read _ isLast _
  obtain ⟨top, isTop, -, cached⟩ := (replay_ok founded.accepted).1.head
  obtain rfl : link₂ = top := Option.some.inj isTop
  have stored : (out.headSeq, out.headHash) = (seq, hash) := Option.some.inj
    (Except.ok.inj ((HeadCache.load_store _ _ _ _).symm.trans loaded))
  obtain rfl : out.headHash = hash := congrArg Prod.snd stored
  obtain rfl := Except.ok.inj (founded'.read.symm.trans read)
  obtain rfl : link₃ = last := Option.some.inj isLast
  have signed : link₂.toStatement ∈ extendedDir.written.map Link.toStatement :=
    List.mem_map_of_mem (by simp [extendedDir, revokedDir, HansaDir.append])
  have signed' : link₃.toStatement ∈ extendedDir.written.map Link.toStatement :=
    List.mem_map_of_mem (by simp [extendedDir, HansaDir.append])
  have descends : Descends sampleBuild (extendedDir.written.map Link.toStatement)
      link₂.toStatement link₃.toStatement :=
    .single ⟨signed, signed', commits_sampleLink _ _, by decide⟩
  exact ⟨link₂.toStatement, cached.symm, descends, signed⟩

/-- A member that opens before and after another admit is protected. -/
theorem rollback_refused_sample :
    [[link₀, link₁, link₂], [link₀, link₁, link₂, link₃]].Pairwise
      (Protected sampleBuild (sampleId 1) extendedDir.written) := by
  obtain ⟨out₂, founded₂, run⟩ := sample_revoked
  obtain ⟨ran₃, out₃, founded₃, -⟩ := founded₂.appends link₂ rfl
    (.admitMember (sampleMember 8) none) id trivial (by decide) (by decide) 0
  have admits : SampleStep (openedWorld out₂) (.call (.admitMember (sampleMember 8) none 0))
      ((openedWorld out₂).withDir extendedDir) := World.step_call _ _ ran₃
  have opens := founded₂.reopens founded₃ link₂ link₃ rfl rfl (by decide)
    (w := openedWorld out₂) rfl
  have apart : NoCollision sampleBuild (extendedDir.written.map Link.toStatement) :=
    noCollision_sample (by decide +kernel)
  exact rollback_refused sampleJson_lawful (sampleSkipper 1) sampleReturning rfl rfl
    ((run.concat admits.forward).concat ⟨opens, fun _ _ => sample_forward founded₂ founded₃⟩) apart

/-- The cut log grows by two admits, and the tenant that was revoked is active in it. -/
theorem sample_regrown (w : World Float32) : ∃ out,
    SampleLog regrownDir [link₀, link₁, link₂', link₃'] out ∧
    (∃ m ∈ out.active, m.tenantId = sampleTenant 7) ∧
    readLog sampleJson sampleReturning.path cutDir.log = .ok [link₀, link₁] ∧
    SampleStep (w.withDir cutDir) (.call (.admitMember (sampleMember 8) none 0))
      (w.withDir regrowingDir) ∧
    SampleStep (w.withDir regrowingDir) (.call (.admitMember (sampleMember 9) none 0))
      (w.withDir regrownDir) := by
  obtain ⟨out₀, founded₀⟩ := sampleLog_founded
  obtain ⟨-, out₁, founded₁, roster₁⟩ := founded₀.appends link₀ rfl
    (.admitMember (sampleMember 7) none) id trivial (by decide) (by decide) 0
  have cut : SampleLog cutDir [link₀, link₁] out₁ :=
    ⟨founded₁.read, founded₁.appendable, founded₁.accepted, founded₁.signer⟩
  obtain ⟨ran₂, out₂, founded₂, roster₂⟩ := cut.appends link₁ rfl
    (.admitMember (sampleMember 8) none) id trivial (by decide) (by decide) 0
  obtain ⟨ran₃, out₃, founded₃, roster₃⟩ := founded₂.appends link₂' rfl
    (.admitMember (sampleMember 9) none) id trivial (by decide) (by decide) 0
  have first : rosterOf ([link₀, link₁].map Link.toStatement) =
      (Body.admitMember (sampleMember 7) none).change
        (rosterOf ([link₀].map Link.toStatement)) := roster₁
  have second : rosterOf ([link₀, link₁, link₂'].map Link.toStatement) =
      (Body.admitMember (sampleMember 8) none).change
        (rosterOf ([link₀, link₁].map Link.toStatement)) := roster₂
  have third : rosterOf ([link₀, link₁, link₂', link₃'].map Link.toStatement) =
      (Body.admitMember (sampleMember 9) none).change
        (rosterOf ([link₀, link₁, link₂'].map Link.toStatement)) := roster₃
  have found : rosterOf ([link₀, link₁, link₂', link₃'].map Link.toStatement) (sampleTenant 7) =
      some (sampleMember 7) := by
    have roster : rosterOf ([link₀, link₁, link₂', link₃'].map Link.toStatement) =
        (Body.admitMember (sampleMember 9) none).change
          ((Body.admitMember (sampleMember 8) none).change
            ((Body.admitMember (sampleMember 7) none).change
              (rosterOf ([link₀].map Link.toStatement)))) := by
      rw [third, second, first]
    rw [roster]
    simp only [Body.change]
    rw [Function.update_of_ne (by decide), Function.update_of_ne (by decide)]
    exact Function.update_self ..
  have active : sampleMember 7 ∈ out₃.active :=
    ((replay_ok founded₃.accepted).1.active.mem_iff _).mpr found
  exact ⟨out₃, founded₃, ⟨_, active, rfl⟩, cut.read, World.step_call _ _ ran₂,
    World.step_call _ _ ran₃⟩

/-- The skipper signed no admit of the revoked tenant after the revoke. -/
theorem sample_unadmitted {signed later : List Statement}
    (split : regrownDir.written.map Link.toStatement = signed ++ link₂.toStatement :: later) :
    ∀ s ∈ later, ¬ s.body.Admits (sampleTenant 7) := by
  intro s member admits
  have increasing : (regrownDir.written.map Link.toStatement).Pairwise
      (fun a b => a.seq ≤ b.seq) := by decide +kernel
  rw [split] at increasing
  have after := (List.pairwise_cons.mp (List.pairwise_append.mp increasing).2.1).1 s member
  have known : s ∈ [link₀, link₁, link₂, link₂', link₃'].map Link.toStatement := by
    show s ∈ regrownDir.written.map Link.toStatement
    rw [split]
    exact List.mem_append_right _ (List.mem_cons_of_mem _ member)
  simp only [List.map_cons, List.map_nil, List.mem_cons, List.not_mem_nil, or_false] at known
  rcases known with rfl | rfl | rfl | rfl | rfl
  · exact admits
  · exact absurd after (by decide)
  · exact admits
  · exact absurd admits (show ¬ sampleTenant 8 = sampleTenant 7 by decide)
  · exact absurd admits (show ¬ sampleTenant 9 = sampleTenant 7 by decide)

/-- A log that is cut behind a revoke and grows past the cached number is accepted, and the
revoked tenant is active again. -/
theorem regrown_log_accepted :
    ¬ ∀ (c : Build) (json : LinkJson) (skipper : Skipper)
      (member : ReturningMember Float32 (.fromSkipper c (skipper.pub c))) (start : Disk Float32)
      (events : List Event) (w : World Float32), c.Correct → json.Lawful →
      start.dir = .initial → start.head = none →
      Run (World.Step c json skipper member) ⟨start, []⟩ events w →
      NoCollision c (w.disk.dir.written.map Link.toStatement) →
      w.accepted.Pairwise
        (Protected c (.fromSkipper c (skipper.pub c)) w.disk.dir.written) := by
  intro claim
  obtain ⟨out, founded, run⟩ := sample_revoked
  obtain ⟨out', founded', active, cut, admits, admits'⟩ := sample_regrown (openedWorld out)
  have tampers : SampleStep (openedWorld out) (.tamper admittedDir.log)
      ((openedWorld out).withDir cutDir) := by
    refine .tamper cut fun link member => ?_
    show link ∈ [link₀, link₁] ++ [link₂]
    exact List.mem_append_left _ member
  have opens := founded.reopens founded' link₂ link₃' rfl rfl (by decide)
    (w := openedWorld out) rfl
  have apart : (regrownDir.written.map Link.toStatement).Pairwise
      (fun s s' => s.seq ≠ s'.seq ∨ s.bodyStart ≠ s'.bodyStart) := by decide +kernel
  have steps := run.mono fun _ _ _ (step : World.ForwardStep _ _ _ _ _ _ _) => step.1
  have ran := (((steps.concat tampers).concat admits).concat admits').concat opens
  have held := claim sampleBuild sampleJson (sampleSkipper 1) sampleReturning (sampleDisk none) _ _
    sampleBuild_correct sampleJson_lawful rfl rfl ran (noCollision_sample apart)
  obtain ⟨signed, later, split, -, s, member, readmits⟩ :=
    (List.pairwise_cons.mp held).1 _ List.mem_cons_self (sampleTenant 7) [link₀, link₁] link₂ []
      out' rfl rfl (fun _ absent => nomatch absent) founded'.accepted active
  exact sample_unadmitted split s member readmits

end Hansa
