import Mathlib.Logic.Relation
import Hansa.Verif.LogFile
import Hansa.Verif.Replay

/-!
# What a registry operation does to the log

Each operation of the registry is computed on a directory whose log can be read. The effect on
the chain is then said once: an operation makes a sequence of elementary writes, each of which
adds the next link or replaces the chain by its checkpoint. Invariants of the log need only be
shown for one such write.
-/

namespace Hansa

/-! ## Running operations -/

/-- A failed computation leaves the directory alone, and so does a finished one. -/
@[simp] theorem FileM.run_ofResult {α : Type} (result : Result α) (dir : HansaDir) :
    (FileM.ofResult result).run dir =
      match result with
      | .ok a => .ok a dir
      | .error fault => .error fault dir := by
  cases result <;> rfl

/-- The directory after a line was appended. -/
def HansaDir.append (dir : HansaDir) (link : Link) (text : String) : HansaDir :=
  { log := some (dir.log.getD [] ++ utf8 text ++ [10]), written := dir.written ++ [link] }

/-- The directory after the log was replaced by one line. -/
def HansaDir.replace (dir : HansaDir) (link : Link) (text : String) : HansaDir :=
  { log := some (utf8 text ++ [10]), written := dir.written ++ [link] }

variable {c : Build} {json : LinkJson} {r : FileRegistry} {hansa : HansaId}

/-- A line that is appended to a log that takes one adds its link, and leaves a log that takes
one. -/
theorem HansaDir.read_append (lawful : json.Lawful) {path : PathBuf} {dir : HansaDir}
    {chain : List Link} {link : Link} {text : String}
    (appendable : ∀ bytes ∈ dir.log, Appendable bytes)
    (read : readLog json path dir.log = .ok chain) (encoded : json.toString link = .ok text) :
    readLog json path (dir.append link text).log = .ok (chain ++ [link]) ∧
      ∀ bytes ∈ (dir.append link text).log, Appendable bytes := by
  constructor
  · rw [HansaDir.append]
    cases isLog : dir.log with
    | none =>
      rw [isLog] at read
      obtain rfl := Except.ok.inj read
      exact readLog_single lawful path encoded
    | some bytes =>
      rw [isLog] at read
      exact (readLog_append lawful bytes read encoded).1 (appendable bytes isLog)
  · rintro bytes ⟨⟩
    exact appendable_concat _

/-- A log that is read after a line was appended reads as the chain with the link. -/
theorem HansaDir.eq_of_read_append (lawful : json.Lawful) {path : PathBuf} {dir : HansaDir}
    {chain chain' : List Link} {link : Link} {text : String}
    (read : readLog json path dir.log = .ok chain) (encoded : json.toString link = .ok text)
    (read' : readLog json path (dir.append link text).log = .ok chain') :
    chain' = chain ++ [link] := by
  rw [HansaDir.append] at read'
  cases isLog : dir.log with
  | none =>
    rw [isLog] at read read'
    obtain rfl := Except.ok.inj read
    exact Except.ok.inj (read'.symm.trans (readLog_single lawful path encoded))
  | some bytes =>
    rw [isLog] at read read'
    obtain ⟨appended, glued⟩ := readLog_append lawful bytes read encoded
    by_cases appendable : Appendable bytes
    · exact Except.ok.inj (read'.symm.trans (appended appendable))
    · exact absurd read' (glued appendable chain')

/-- An encoded link is appended as one line; an error leaves an empty file at most. -/
theorem run_appendLink (link : Link) (dir : HansaDir) :
    (FileRegistry.appendLink json link).run dir =
      match json.toString link with
      | .error e => .error (.err (.json e)) { dir with log := some (dir.log.getD []) }
      | .ok text => .ok () (dir.append link text) := by
  simp only [FileRegistry.appendLink, EStateM.run_bind, EStateM.run_modify]
  cases json.toString link with
  | error e => rfl
  | ok text => simp [HansaDir.append, EStateM.run_modify]

/-- The checkpoint that `checkpoint_locked` signs for a chain with this result. -/
def checkpointLink (c : Build) (skipper : Skipper) (out : ReplayOutcome) (seq : UInt64)
    (now : Int64) : Link :=
  Link.signed c skipper seq out.headHash (.checkpoint out.active out.embeddingDim now)

/-- A compaction of a readable log. -/
theorem run_checkpointLocked {dir : HansaDir} {chain : List Link}
    (read : readLog json (r.logPath hansa) dir.log = .ok chain) (skipper : Skipper) (now : Int64) :
    (r.checkpointLocked c json hansa skipper now).run dir =
      if chain.length ≤ 1 then .ok () dir
      else match replay c chain none with
        | .error fault => .error fault dir
        | .ok out => match UInt64.succIn c.profile out.headSeq with
          | .error fault => .error fault dir
          | .ok seq => match json.toString (checkpointLink c skipper out seq now) with
            | .error e => .error (.err (.json e)) dir
            | .ok text => .ok () (dir.replace (checkpointLink c skipper out seq now) text) := by
  simp only [FileRegistry.checkpointLocked, EStateM.run_bind, run_readChain, read,
    FileM.run_ofResult]
  by_cases short : chain.length ≤ 1
  · simp only [if_pos short]
    rfl
  · simp only [if_neg short, EStateM.run_bind, FileM.run_ofResult]
    cases replay c chain none with
    | error fault => rfl
    | ok out =>
      simp only
      cases UInt64.succIn c.profile out.headSeq with
      | error fault => rfl
      | ok seq =>
        simp only [FileRegistry.writeChainAtomic, FileRegistry.chainBuffer, EStateM.run_bind,
          FileM.run_ofResult, ← checkpointLink.eq_def]
        cases json.toString (checkpointLink c skipper out seq now) with
        | error e => rfl
        | ok text => simp [EStateM.run_modify, HansaDir.replace, bind, Except.bind]

/-- A founding of a readable log. -/
theorem run_found {dir : HansaDir} {chain : List Link}
    (read : readLog json (r.logPath hansa) dir.log = .ok chain) (skipper : Skipper)
    (embeddingDim : UInt32) (createdAt : Int64) :
    (r.found c json hansa skipper embeddingDim createdAt).run dir =
      if chain ≠ [] then .ok () dir
      else (FileRegistry.appendLink json
        (Link.genesis (Genesis.found c skipper embeddingDim createdAt false).1
          (Genesis.found c skipper embeddingDim createdAt false).2)).run dir := by
  simp only [FileRegistry.found, EStateM.run_bind, run_readChain, read, FileM.run_ofResult]
  split <;> rfl

/-- An append to a readable log. -/
theorem run_appendNext {dir : HansaDir} {chain : List Link}
    (read : readLog json (r.logPath hansa) dir.log = .ok chain) (skipper : Skipper) (body : Body)
    (now : Int64) :
    (r.appendNext c json hansa skipper body now).run dir =
      match replay c chain none with
      | .error fault => .error fault dir
      | .ok head => match UInt64.succIn c.profile head.headSeq with
        | .error fault => .error fault dir
        | .ok seq => match json.toString (Link.signed c skipper seq head.headHash body) with
          | .error e => .error (.err (.json e)) { dir with log := some (dir.log.getD []) }
          | .ok text =>
            if chain.length + 1 > checkpointAfterLinks then
              (r.checkpointLocked c json hansa skipper now).run
                (dir.append (Link.signed c skipper seq head.headHash body) text)
            else .ok () (dir.append (Link.signed c skipper seq head.headHash body) text) := by
  simp only [FileRegistry.appendNext, EStateM.run_bind, run_readChain, read, FileM.run_ofResult]
  cases replay c chain none with
  | error fault => rfl
  | ok head =>
    simp only
    cases UInt64.succIn c.profile head.headSeq with
    | error fault => rfl
    | ok seq =>
      simp only [run_appendLink]
      cases json.toString (Link.signed c skipper seq head.headHash body) with
      | error e => rfl
      | ok text =>
        simp only
        split <;> rfl

/-- The members of a readable log. -/
theorem run_members {dir : HansaDir} {chain : List Link}
    (read : readLog json (r.logPath hansa) dir.log = .ok chain) :
    (r.members c json hansa).run dir =
      if chain = [] then .ok [] dir
      else match replay c chain none with
        | .error fault => .error fault dir
        | .ok out => .ok out.active dir := by
  simp only [FileRegistry.members, EStateM.run_bind, run_readChain, read, FileM.run_ofResult]
  split
  · rfl
  · cases replay c chain none <;> rfl

/-- An unreadable log fails every operation and stays as it is. -/
theorem run_readChain_error {dir : HansaDir} {fault : Fault}
    (unread : readLog json (r.logPath hansa) dir.log = .error fault) :
    (r.readChain json hansa).run dir = .error fault dir := by
  rw [run_readChain, unread]
  rfl

/-! ## Operations and their writes -/

/-- What a process with the skipper key may call on the registry. -/
inductive Op where
  /-- `found`. -/
  | found (embeddingDim : UInt32) (createdAt : Int64)
  /-- `append_next` with an admit body. -/
  | admitMember (member : MemberRecord) (memberPub : Option (Bytes 32)) (now : Int64)
  /-- `append_next` with a revoke body. -/
  | revoke (tenantId : TenantId) (time : Int64) (reason : Option String) (now : Int64)
  /-- `compact`. -/
  | compact (now : Int64)

/-- The call an operation makes. -/
def Op.call (c : Build) (json : LinkJson) (r : FileRegistry) (hansa : HansaId)
    (skipper : Skipper) : Op → FileM Unit
  | .found embeddingDim createdAt => r.found c json hansa skipper embeddingDim createdAt
  | .admitMember member memberPub now =>
    r.appendNext c json hansa skipper (.admitMember member memberPub) now
  | .revoke tenantId time reason now =>
    r.appendNext c json hansa skipper (.revoke tenantId time reason) now
  | .compact now => r.compact c json hansa skipper now

/-- The directory a call leaves behind, however it ended. -/
def dirAfter {α : Type} : EStateM.Result Fault HansaDir α → HansaDir
  | .ok _ dir | .error _ dir => dir

/-- The link `append_next` signs for a chain with this result. -/
def nextLink (c : Build) (skipper : Skipper) (out : ReplayOutcome) (body : Body) : Link :=
  Link.signed c skipper (out.headSeq + 1) out.headHash body

/-- The link `found` writes. -/
def genesisLink (c : Build) (skipper : Skipper) (embeddingDim : UInt32) (createdAt : Int64) :
    Link :=
  Link.genesis (Genesis.found c skipper embeddingDim createdAt false).1
    (Genesis.found c skipper embeddingDim createdAt false).2

/-- A genesis alone replays under the id of its skipper, without members. -/
theorem replay_genesisLink (correct : c.Correct) (skipper : Skipper) (embeddingDim : UInt32)
    (createdAt : Int64) :
    replay c [genesisLink c skipper embeddingDim createdAt]
        (some (.fromSkipper c (skipper.pub c))) = .ok
      { skipper := skipper.pub c, embeddingDim, active := [], headSeq := 0,
        headHash := (genesisLink c skipper embeddingDim createdAt).hash c } := by
  refine replay_eq_ok.mpr ⟨⟨⟨_, rfl, ⟨⟨rfl, rfl, rfl⟩, ?_⟩, rfl, rfl⟩, .singleton _, ?_, _, rfl,
    rfl, rfl⟩, pinned_some.mpr rfl⟩
  · exact Genesis.found_valid correct skipper embeddingDim createdAt false
  · exact ⟨.nil, fun m => ⟨fun absent => (nomatch absent), fun absent => (nomatch absent)⟩⟩

/-- One elementary write by a skipper to a directory. -/
inductive Write (c : Build) (json : LinkJson) (path : PathBuf) (skipper : Skipper)
    (dir : HansaDir) : HansaDir → Prop where
  /-- The log is created empty. -/
  | touch : Write c json path skipper dir { dir with log := some (dir.log.getD []) }
  /-- A log without links gets a genesis. -/
  | found {embeddingDim : UInt32} {createdAt : Int64} {text : String}
      (read : readLog json path dir.log = .ok [])
      (encoded : json.toString (genesisLink c skipper embeddingDim createdAt) = .ok text) :
      Write c json path skipper dir (dir.append (genesisLink c skipper embeddingDim createdAt) text)
  /-- A chain gets its next link. -/
  | append {chain : List Link} {out : ReplayOutcome} {body : Body} {text : String}
      (read : readLog json path dir.log = .ok chain) (accepted : replay c chain none = .ok out)
      (room : UInt64.HasSucc c.profile out.headSeq) (inner : ¬ body.IsRoot)
      (encoded : json.toString (nextLink c skipper out body) = .ok text) :
      Write c json path skipper dir (dir.append (nextLink c skipper out body) text)
  /-- A chain is replaced by its checkpoint. -/
  | compact {chain : List Link} {out : ReplayOutcome} {now : Int64} {text : String}
      (read : readLog json path dir.log = .ok chain) (accepted : replay c chain none = .ok out)
      (room : UInt64.HasSucc c.profile out.headSeq)
      (encoded : json.toString (checkpointLink c skipper out (out.headSeq + 1) now) = .ok text) :
      Write c json path skipper dir
        (dir.replace (checkpointLink c skipper out (out.headSeq + 1) now) text)

/-- A sequence of elementary writes. -/
abbrev Writes (c : Build) (json : LinkJson) (path : PathBuf) (skipper : Skipper) :
    HansaDir → HansaDir → Prop :=
  Relation.ReflTransGen (Write c json path skipper)

variable {skipper : Skipper}

/-- An unreadable log fails a compaction, which writes nothing. -/
theorem dirAfter_checkpointLocked_error {dir : HansaDir} {fault : Fault}
    (unread : readLog json (r.logPath hansa) dir.log = .error fault) (now : Int64) :
    (r.checkpointLocked c json hansa skipper now).run dir = .error fault dir := by
  simp only [FileRegistry.checkpointLocked, EStateM.run_bind, run_readChain_error unread]

/-- A compaction leaves the directory alone, or replaces the chain by its checkpoint. -/
theorem dirAfter_checkpointLocked (c : Build) (json : LinkJson) (r : FileRegistry)
    (hansa : HansaId) (skipper : Skipper) (dir : HansaDir) (now : Int64) :
    dirAfter ((r.checkpointLocked c json hansa skipper now).run dir) = dir ∨
    ∃ chain out text, readLog json (r.logPath hansa) dir.log = .ok chain ∧
      replay c chain none = .ok out ∧ UInt64.HasSucc c.profile out.headSeq ∧
      json.toString (checkpointLink c skipper out (out.headSeq + 1) now) = .ok text ∧
      dirAfter ((r.checkpointLocked c json hansa skipper now).run dir) =
        dir.replace (checkpointLink c skipper out (out.headSeq + 1) now) text := by
  cases read : readLog json (r.logPath hansa) dir.log with
  | error fault =>
    rw [dirAfter_checkpointLocked_error read]
    exact .inl rfl
  | ok chain =>
    rw [run_checkpointLocked read]
    split
    · exact .inl rfl
    cases accepted : replay c chain none with
    | error fault => exact .inl rfl
    | ok out =>
      simp only
      cases next : UInt64.succIn c.profile out.headSeq with
      | error fault => exact .inl rfl
      | ok seq =>
        obtain ⟨room, rfl⟩ := UInt64.succIn_eq_ok.mp next
        simp only
        cases encoded : json.toString (checkpointLink c skipper out (out.headSeq + 1) now) with
        | error e => exact .inl rfl
        | ok text => exact .inr ⟨chain, out, text, rfl, accepted, room, encoded, rfl⟩

/-- A compaction makes one write at most. -/
theorem writes_checkpointLocked (dir : HansaDir) (now : Int64) :
    Writes c json (r.logPath hansa) skipper dir
      (dirAfter ((r.checkpointLocked c json hansa skipper now).run dir)) := by
  rcases dirAfter_checkpointLocked c json r hansa skipper dir now with
    same | ⟨chain, out, text, read, accepted, room, encoded, replaced⟩
  · rw [same]
  · rw [replaced]
    exact .single (.compact read accepted room encoded)

/-- An append leaves the directory alone, creates the log, or writes the next link of a chain
that replays, after which the log may be compacted. -/
theorem dirAfter_appendNext (c : Build) (json : LinkJson) (r : FileRegistry) (hansa : HansaId)
    (skipper : Skipper) (dir : HansaDir) (body : Body) (now : Int64) :
    dirAfter ((r.appendNext c json hansa skipper body now).run dir) = dir ∨
    ∃ chain out, readLog json (r.logPath hansa) dir.log = .ok chain ∧
      replay c chain none = .ok out ∧ UInt64.HasSucc c.profile out.headSeq ∧
      (dirAfter ((r.appendNext c json hansa skipper body now).run dir) =
          { dir with log := some (dir.log.getD []) } ∨
        ∃ text, json.toString (nextLink c skipper out body) = .ok text ∧
          (dirAfter ((r.appendNext c json hansa skipper body now).run dir) =
              dir.append (nextLink c skipper out body) text ∨
            dirAfter ((r.appendNext c json hansa skipper body now).run dir) =
              dirAfter ((r.checkpointLocked c json hansa skipper now).run
                (dir.append (nextLink c skipper out body) text)))) := by
  cases read : readLog json (r.logPath hansa) dir.log with
  | error fault =>
    simp only [FileRegistry.appendNext, EStateM.run_bind, run_readChain_error read]
    exact .inl rfl
  | ok chain =>
    rw [run_appendNext read]
    cases accepted : replay c chain none with
    | error fault => exact .inl rfl
    | ok out =>
      simp only
      cases next : UInt64.succIn c.profile out.headSeq with
      | error fault => exact .inl rfl
      | ok seq =>
        obtain ⟨room, rfl⟩ := UInt64.succIn_eq_ok.mp next
        refine .inr ⟨chain, out, rfl, accepted, room, ?_⟩
        simp only
        cases encoded :
            json.toString (Link.signed c skipper (out.headSeq + 1) out.headHash body) with
        | error e => exact .inl rfl
        | ok text =>
          refine .inr ⟨text, encoded, ?_⟩
          simp only
          split
          · exact .inr rfl
          · exact .inl rfl

/-- An append makes two writes at most. -/
theorem writes_appendNext (dir : HansaDir) (body : Body) (inner : ¬ body.IsRoot) (now : Int64) :
    Writes c json (r.logPath hansa) skipper dir
      (dirAfter ((r.appendNext c json hansa skipper body now).run dir)) := by
  rcases dirAfter_appendNext c json r hansa skipper dir body now with
    same | ⟨chain, out, read, accepted, room, touched | ⟨text, encoded, ended⟩⟩
  · rw [same]
  · rw [touched]
    exact .single .touch
  · have appended : Write c json (r.logPath hansa) skipper dir
        (dir.append (nextLink c skipper out body) text) :=
      .append read accepted room inner encoded
    rcases ended with ended | ended
    · rw [ended]
      exact .single appended
    · rw [ended]
      exact .head appended (writes_checkpointLocked _ now)

/-- A founding makes one write at most. -/
theorem writes_found (dir : HansaDir) (embeddingDim : UInt32) (createdAt : Int64) :
    Writes c json (r.logPath hansa) skipper dir
      (dirAfter ((r.found c json hansa skipper embeddingDim createdAt).run dir)) := by
  cases read : readLog json (r.logPath hansa) dir.log with
  | error fault =>
    simp only [FileRegistry.found, EStateM.run_bind, run_readChain_error read]
    exact .refl
  | ok chain =>
    rw [run_found read]
    split
    · exact .refl
    rename_i empty
    obtain rfl := not_not.mp empty
    rw [run_appendLink]
    cases encoded : json.toString (genesisLink c skipper embeddingDim createdAt) with
    | error e =>
      rw [genesisLink] at encoded
      rw [encoded]
      exact .single .touch
    | ok text =>
      have founded : Write c json (r.logPath hansa) skipper dir
          (dir.append (genesisLink c skipper embeddingDim createdAt) text) := .found read encoded
      rw [genesisLink] at encoded
      rw [encoded]
      exact .single founded

/-- Every operation makes a sequence of elementary writes, however it ends. -/
theorem writes_call (op : Op) (dir : HansaDir) :
    Writes c json (r.logPath hansa) skipper dir
      (dirAfter ((op.call c json r hansa skipper).run dir)) := by
  cases op with
  | found embeddingDim createdAt => exact writes_found dir embeddingDim createdAt
  | admitMember member memberPub now =>
    exact writes_appendNext dir (.admitMember member memberPub) id now
  | revoke tenantId time reason now =>
    exact writes_appendNext dir (.revoke tenantId time reason) id now
  | compact now => exact writes_checkpointLocked dir now

end Hansa
