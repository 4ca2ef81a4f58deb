import Hansa.Library.LockProgress
import Hansa.Verif.LogAlone

/-!
# Calls that return beside others

While the lock is free, a call that returns when it is one step may run to its end call by call,
wherever the processes beside it stand, and leaves the same log. A call of `Hansa::admit` may stop
between its two looks at the log, and `members` between its look at the directory and the reading;
others may run in between.
-/

namespace Hansa

open Program LockedProcesses

variable {c : Build} {json : LinkJson} {skipper : Skipper} {r : FileRegistry} {m : MemberMap}

/-- A process that calls the registry. -/
abbrev RegistryProcess :=
  Process FileOp FileOp.Answer String Fault (Option (List MemberRecord)) LogFiles Client

/-- Processes that call the registry of one hansa with the key of one skipper. -/
abbrev RegistryProcesses :=
  LockedProcesses FileOp FileOp.Answer String Fault (Option (List MemberRecord)) LogFiles Client

/-- Steps of processes that call the registry of one hansa with the key of one skipper. No
process is stopped, and no write fails, where a line of the log has been begun and is not
ended. -/
abbrev RegistryStep (c : Build) (json : LinkJson) (r : FileRegistry) (skipper : Skipper) :
    RegistryProcesses → ProcessStep Client → RegistryProcesses → Prop :=
  LockedProcesses.Step FileOp.Untorn LogFiles.Settled (Client.code c json r skipper)

/-- Where processes that call the registry stand. -/
abbrev RegistryStanding :=
  Standing FileOp FileOp.Answer String Fault (Option (List MemberRecord)) LogFiles Client

/-- A run of calls leads from where they stand to where they stand then. -/
abbrev RegistryLeads (c : Build) (json : LinkJson) (r : FileRegistry) (skipper : Skipper) :
    RegistryStanding → List (ProcessStep Client) → RegistryStanding → Prop :=
  LockedProcesses.Leads FileOp.Untorn LogFiles.Settled (Client.code c json r skipper)

/-- What a call does before it takes the lock. -/
def prepareLock : FilesM Unit := do
  .perform .ensureDir ioResult
  .perform .openLock ioResult

/-- The lock file may be opened at any time. -/
theorem mayReturn_prepareLock (s : LogFiles) : MayReturn prepareLock s () s := by
  have ensured : FileOp.ensureDir.Untorn s (.ok ()) s := ⟨rfl, False.elim⟩
  have opened : FileOp.openLock.Untorn s (.ok ()) s := ⟨rfl, False.elim⟩
  exact mayReturn_perform ensured (mayReturn_perform opened (mayReturn_ret () s))

/-- The code of a call that changes the log, by its parts. -/
theorem code_op (op : Op) (reads : Nat) :
    Client.code c json r skipper ⟨.op op, reads⟩ =
      prepareLock.unlocked >>= fun _ =>
        (op.locked c json r skipper reads).locked (fun e => .err (.io e)) >>=
          fun _ => .ret none := by
  show op.steps c json r skipper reads >>= (fun _ => .ret none) = _
  rw [op.steps_eq, FileRegistry.Steps.withLock, bind_assoc]
  rfl

/-- The code of `Hansa::admit`, by its parts. -/
theorem code_admitMember (member : MemberRecord) (now : Int64) (reads : Nat) :
    Client.code c json r skipper ⟨.admitMember member now, reads⟩ =
      (FileRegistry.Steps.checkDim c json r (.fromSkipper c (skipper.pub c)) member
        reads).unlocked >>= fun _ =>
        prepareLock.unlocked >>= fun _ =>
          ((Op.admitMember member none now).locked c json r skipper reads).locked
            (fun e => .err (.io e)) >>= fun _ => .ret none := by
  show FileRegistry.Steps.admitMember c json r (.fromSkipper c (skipper.pub c)) skipper member now
    reads >>= (fun _ => .ret none) = _
  rw [FileRegistry.Steps.admitMember, bind_assoc]
  congr 1
  funext _
  rw [FileRegistry.Steps.appendNext, FileRegistry.Steps.withLock, bind_assoc]
  rfl

/-- What is left of `members` once the log was found to exist. -/
def membersOpened (c : Build) (json : LinkJson) (r : FileRegistry) (hansa : HansaId)
    (reads : Nat) : FilesM (List MemberRecord) := do
  let chain ← FileRegistry.Steps.readOpened json r hansa reads
  if chain = [] then .ret []
  else do
    let out ← .ofExcept (replay c chain none)
    .ret out.active

/-! ## Founded logs -/

/-- Whether a log is founded does not depend on the writes before. -/
theorem Founded.of_log {dir dir' : HansaDir} {chain : List Link} {out : ReplayOutcome}
    (founded : Founded c json r skipper dir chain out) (same : dir'.log = dir.log) :
    Founded c json r skipper dir' chain out :=
  ⟨same ▸ founded.read, same ▸ founded.appendable, founded.accepted, founded.signer⟩

/-- A founded log is a file. -/
theorem Founded.file {s : LogFiles} {chain : List Link} {out : ReplayOutcome}
    (founded : Founded c json r skipper ⟨s.logBytes, []⟩ chain out) :
    ∃ file, s.log = some file := by
  obtain ⟨bytes, isLog⟩ := founded.log
  cases name : s.log with
  | some file => exact ⟨file, rfl⟩
  | none =>
    rw [LogFiles.logBytes, name] at isLog
    cases isLog

/-- An admission to a founded log that has room and is not to be compacted returns. -/
theorem Founded.run_admitMember (correct : c.Correct) (lawful : json.Lawful) {dir : HansaDir}
    {chain : List Link} {out : ReplayOutcome} (founded : Founded c json r skipper dir chain out)
    (room : UInt64.HasSucc c.profile out.headSeq) (short : chain.length < checkpointAfterLinks)
    {member : MemberRecord} (path : member.IsUtf8) (memberPub : Option (Bytes 32)) (now : Int64) :
    ∃ dir' out', ((Op.admitMember member memberPub now).call c json r
        (.fromSkipper c (skipper.pub c)) skipper).run dir = .ok () dir' ∧
      Founded c json r skipper dir'
        (chain ++ [nextLink c skipper out (.admitMember member memberPub)]) out' ∧
      out'.embeddingDim = out.embeddingDim ∧ out'.headSeq = out.headSeq + 1 := by
  obtain ⟨text, encoded⟩ :=
    lawful.encodes (nextLink c skipper out (.admitMember member memberPub)) path
  obtain ⟨out', founded', dim, next, -⟩ := founded.append correct lawful id room encoded
  refine ⟨_, out', ?_, founded', dim, (UInt64.succIn_eq_ok.mp next).2⟩
  rw [Op.call, run_appendNext_encoded founded.read (replay_pinned.mp founded.accepted).1 room
    encoded, afterAppend, if_neg (by omega)]
  rfl

/-! ## Parts of runs -/

section Parts

variable {v : RegistryStanding} {p : Nat} {client : Client} {op : Op}

/-- A process whose lock is free enters its section. -/
theorem leads_lock {reads : Nat}
    (found : v.left[p]? = some (client, some (prepareLock.unlocked >>= fun _ =>
      (op.locked c json r skipper reads).locked (fun e => .err (.io e)) >>= fun _ => .ret none)))
    (unlocked : v.holder = none) :
    ∃ n, RegistryLeads c json r skipper v (List.replicate n (.perform p))
      { v with
        left := v.left.set p
          (client, some (inSection (op.locked c json r skipper reads) fun _ => .ret none))
        holder := some p
        entered := v.entered ++ [(p, client)] } := by
  have inside := (List.getElem?_eq_some_iff.mp found).1
  obtain ⟨n, prepares⟩ := mayReturn_prepareLock v.state
  have first : RegistryLeads c json r skipper v _ _ := leads_unlocked found prepares
  have waits : (v.left.set p (client, some ((op.locked c json r skipper reads).locked
      (fun e => .err (.io e)) >>= fun _ => .ret none)))[p]? =
      some (client, some ((op.locked c json r skipper reads).locked (fun e => .err (.io e)) >>=
        fun _ => .ret none)) := List.getElem?_set_self inside
  have enters : RegistryLeads c json r skipper _ [.perform p] _ :=
    leads_enter (v := ⟨_, v.holder, v.entered, v.state⟩) waits unlocked
  rw [List.set_set] at enters
  have runs := first.trans enters
  rw [← List.replicate_succ'] at runs
  exact ⟨n + 1, runs⟩

/-- A process in its section runs it to the end, if its call returns when it is one step. -/
theorem leads_section (correct : c.Correct) (lawful : json.Lawful) (free : json.PrefixFree)
    (found : v.left[p]? =
      some (client, some (inSection (op.locked c json r skipper 2) fun _ => .ret none)))
    (holds : v.holder = some p) (stands : Stands c json skipper m v.state) {dir' : HansaDir}
    (returns : (op.call c json r (.fromSkipper c (skipper.pub c)) skipper).run
      ⟨v.state.logBytes, []⟩ = .ok () dir') :
    ∃ n t, RegistryLeads c json r skipper v (List.replicate n (.perform p))
        { v with left := v.left.set p (client, some (.ret none)), holder := none, state := t } ∧
      t.logBytes = dir'.log ∧ Stands c json skipper (m.step op) t := by
  obtain ⟨t, ⟨n, runs⟩, log, stands'⟩ := mayReturn_locked correct lawful free stands returns
  have leaves : RegistryLeads c json r skipper v _ _ := leads_leave found holds runs
  rw [← List.replicate_succ'] at leaves
  exact ⟨n + 1, t, leaves, log, stands'⟩

/-- While the lock is free, a call that returns when it is one step may return, wherever other
processes stand. -/
theorem leads_op (correct : c.Correct) (lawful : json.Lawful) (free : json.PrefixFree)
    (found : v.left[p]? = some (⟨.op op, 2⟩, some (Client.code c json r skipper ⟨.op op, 2⟩)))
    (unlocked : v.holder = none) (stands : Stands c json skipper m v.state) {dir' : HansaDir}
    (returns : (op.call c json r (.fromSkipper c (skipper.pub c)) skipper).run
      ⟨v.state.logBytes, []⟩ = .ok () dir') :
    ∃ n t, RegistryLeads c json r skipper v (List.replicate n (.perform p))
        { left := v.left.set p (⟨.op op, 2⟩, some (.ret none))
          holder := none
          entered := v.entered ++ [(p, ⟨.op op, 2⟩)]
          state := t } ∧
      t.logBytes = dir'.log ∧ Stands c json skipper (m.step op) t := by
  have inside := (List.getElem?_eq_some_iff.mp found).1
  rw [code_op] at found
  obtain ⟨n, enters⟩ := leads_lock found unlocked
  obtain ⟨n', t, leaves, log, stands'⟩ := leads_section (v := ⟨_, _, _, _⟩) correct lawful free
    (List.getElem?_set_self inside) rfl stands returns
  rw [List.set_set] at leaves
  have runs := enters.trans leaves
  rw [← List.replicate_add] at runs
  exact ⟨n + n', t, runs, log, stands'⟩

/-- `Hansa::admit` finds that the dimension is the pinned one, and goes on. -/
theorem leads_checkDim {member : MemberRecord} {now : Int64}
    (found : v.left[p]? = some (⟨.admitMember member now, 2⟩,
      some (Client.code c json r skipper ⟨.admitMember member now, 2⟩)))
    (settled : v.state.Settled) {chain : List Link} {head : ReplayOutcome}
    (read : readLog json (r.logPath (.fromSkipper c (skipper.pub c))) v.state.logBytes = .ok chain)
    (accepted : replay c chain (some (.fromSkipper c (skipper.pub c))) = .ok head)
    (fits : member.embeddingDim = head.embeddingDim) :
    ∃ n, RegistryLeads c json r skipper v (List.replicate n (.perform p))
      { v with left := v.left.set p (⟨.admitMember member now, 2⟩,
        some (prepareLock.unlocked >>= fun _ =>
          ((Op.admitMember member none now).locked c json r skipper 2).locked
            (fun e => .err (.io e)) >>= fun _ => .ret none)) } := by
  have checked : MayReturn
      (FileRegistry.Steps.checkDim c json r (.fromSkipper c (skipper.pub c)) member 2) v.state ()
      v.state := by
    refine (mayReturn_readChain settled read).bind ?_
    rw [accepted, ofExcept_ok_bind, if_neg (not_not_intro fits)]
    exact mayReturn_ret () _
  obtain ⟨n, checks⟩ := checked
  rw [code_admitMember] at found
  have runs : RegistryLeads c json r skipper v _ _ := leads_unlocked found checks
  exact ⟨n, runs⟩

/-- `members` finds that the log exists. -/
theorem leads_look {reads : Nat}
    (found : v.left[p]? =
      some (⟨.members, reads⟩, some (Client.code c json r skipper ⟨.members, reads⟩)))
    {file : Nat} (isLog : v.state.log = some file) :
    RegistryLeads c json r skipper v [.perform p]
      { v with left := v.left.set p (⟨.members, reads⟩,
        some ((membersOpened c json r (.fromSkipper c (skipper.pub c)) reads).unlocked >>=
          fun members => .ret (some members))) } := by
  have looked : FileOp.logExists.Untorn v.state true v.state :=
    ⟨⟨rfl, by rw [isLog]; rfl⟩, False.elim⟩
  have once : (FileRegistry.Steps.members c json r (.fromSkipper c (skipper.pub c)) reads).Reaches
      FileOp.Untorn 1 v.state (membersOpened c json r (.fromSkipper c (skipper.pub c)) reads)
      v.state := .next looked (.here _ _)
  exact leads_unlocked found once

/-- `members` reads the log and returns. -/
theorem leads_members
    (found : v.left[p]? = some (client,
      some ((membersOpened c json r (.fromSkipper c (skipper.pub c)) 2).unlocked >>=
        fun members => .ret (some members))))
    {file : Nat} (isLog : v.state.log = some file) (settled : v.state.Settled) {chain : List Link}
    {out : ReplayOutcome}
    (read : readLog json (r.logPath (.fromSkipper c (skipper.pub c))) v.state.logBytes = .ok chain)
    (accepted : replay c chain none = .ok out) :
    ∃ n, RegistryLeads c json r skipper v (List.replicate n (.perform p))
      { v with left := v.left.set p (client, some (.ret (some out.active))) } := by
  have reported : MayReturn (membersOpened c json r (.fromSkipper c (skipper.pub c)) 2) v.state
      out.active v.state := by
    refine (mayReturn_readOpened isLog settled read).bind ?_
    rw [if_neg (ne_nil_of_replay accepted), accepted, ofExcept_ok_bind]
    exact mayReturn_ret out.active _
  obtain ⟨n, reports⟩ := reported
  exact ⟨n, leads_unlocked found reports⟩

/-- A founding of an empty directory returns. -/
theorem leads_found (correct : c.Correct) (lawful : json.Lawful) (free : json.PrefixFree)
    {embeddingDim : UInt32} {createdAt : Int64}
    (found : v.left[p]? = some (⟨.op (.found embeddingDim createdAt), 2⟩,
      some (Client.code c json r skipper ⟨.op (.found embeddingDim createdAt), 2⟩)))
    (unlocked : v.holder = none) (stands : Stands c json skipper m v.state)
    (absent : v.state.logBytes = none) :
    ∃ n t out, RegistryLeads c json r skipper v (List.replicate n (.perform p))
        { left := v.left.set p (⟨.op (.found embeddingDim createdAt), 2⟩, some (.ret none))
          holder := none
          entered := v.entered ++ [(p, ⟨.op (.found embeddingDim createdAt), 2⟩)]
          state := t } ∧
      Stands c json skipper (m.step (.found embeddingDim createdAt)) t ∧
      Founded c json r skipper ⟨t.logBytes, []⟩ [genesisLink c skipper embeddingDim createdAt]
        out ∧ out.embeddingDim = embeddingDim ∧ out.headSeq = 0 := by
  obtain ⟨text, encoded⟩ := lawful.encodes (genesisLink c skipper embeddingDim createdAt) trivial
  have logless : HansaDir.log ⟨v.state.logBytes, []⟩ = none := absent
  obtain ⟨out, founded, dim, first⟩ :=
    founded_found (r := r) correct lawful embeddingDim createdAt encoded logless
  have empty : readLog json (r.logPath (.fromSkipper c (skipper.pub c))) v.state.logBytes =
      .ok [] := by
    rw [absent]
    rfl
  have returns : ((Op.found embeddingDim createdAt).call c json r
      (.fromSkipper c (skipper.pub c)) skipper).run ⟨v.state.logBytes, []⟩ = .ok ()
        (HansaDir.append ⟨v.state.logBytes, []⟩ (genesisLink c skipper embeddingDim createdAt)
          text) := by
    rw [genesisLink] at encoded
    rw [Op.call, run_found empty, if_neg (not_not_intro rfl), run_appendLink, encoded]
    rfl
  obtain ⟨n, t, leads, log, stands'⟩ := leads_op correct lawful free found unlocked stands returns
  exact ⟨n, t, out, leads, stands', founded.of_log log, dim, first⟩

/-- An admission in its section returns, where the log is founded, has room and is not to be
compacted. -/
theorem leads_admitMember (correct : c.Correct) (lawful : json.Lawful) (free : json.PrefixFree)
    {member : MemberRecord} {memberPub : Option (Bytes 32)} {now : Int64}
    (found : v.left[p]? = some (client,
      some (inSection ((Op.admitMember member memberPub now).locked c json r skipper 2) fun _ =>
        .ret none)))
    (holds : v.holder = some p) (stands : Stands c json skipper m v.state) {chain : List Link}
    {out : ReplayOutcome} (founded : Founded c json r skipper ⟨v.state.logBytes, []⟩ chain out)
    (room : UInt64.HasSucc c.profile out.headSeq) (short : chain.length < checkpointAfterLinks)
    (path : member.IsUtf8) :
    ∃ n t out', RegistryLeads c json r skipper v (List.replicate n (.perform p))
        { v with left := v.left.set p (client, some (.ret none)), holder := none, state := t } ∧
      Stands c json skipper (m.step (.admitMember member memberPub now)) t ∧
      Founded c json r skipper ⟨t.logBytes, []⟩
        (chain ++ [nextLink c skipper out (.admitMember member memberPub)]) out' ∧
      out'.embeddingDim = out.embeddingDim ∧ out'.headSeq = out.headSeq + 1 := by
  obtain ⟨dir', out', returns, founded', dim, next⟩ :=
    founded.run_admitMember correct lawful room short path memberPub now
  obtain ⟨n, t, leads, log, stands'⟩ :=
    leads_section correct lawful free found holds stands returns
  exact ⟨n, t, out', leads, stands', founded'.of_log log, dim, next⟩

end Parts

end Hansa
