import Hansa.Verif.ConcurrentRegistry

/-!
# Sections that run to their end

Under the lock no other process is in the way, so what a call does in one step its section does
call by call, when no call of the operating system fails: it reads the log at once and once more
at its end, and writes each line and each buffer at once. With what sections guarantee this makes
the two descriptions of the registry agree on all logs that a call can leave.
-/

namespace Hansa

open Program

variable {c : Build} {json : LinkJson} {skipper : Skipper} {r : FileRegistry} {m : MemberMap}
  {s t : LogFiles} {α β : Type}

/-- A program that runs alone may return a value and leave a directory. -/
def MayReturn (p : FilesM α) (s : LogFiles) (value : α) (t : LogFiles) : Prop :=
  ∃ n, p.Reaches FileOp.Untorn n s (.ret value) t

/-- A value is returned at once. -/
theorem mayReturn_ret (value : α) (s : LogFiles) : MayReturn (.ret value) s value s :=
  ⟨0, .here _ s⟩

/-- A call that is answered, and what comes after it. -/
theorem mayReturn_perform {op : FileOp} {next : op.Answer → FilesM α} {answer : op.Answer}
    {value : α} {u : LogFiles} (done : op.Untorn s answer t)
    (later : MayReturn (next answer) t value u) : MayReturn (.perform op next) s value u := by
  obtain ⟨n, later⟩ := later
  exact ⟨n + 1, .next done later⟩

/-- A sequence goes on where its first part returns. -/
theorem MayReturn.bind {p : FilesM α} {f : α → FilesM β} {value : α} {value' : β} {u : LogFiles}
    (first : MayReturn p s value t) (later : MayReturn (f value) t value' u) :
    MayReturn (p >>= f) s value' u := by
  obtain ⟨n, first⟩ := first
  obtain ⟨m, later⟩ := later
  exact ⟨n + m, first.bind later⟩

/-- A program that may return meets what it guarantees. -/
theorem MayReturn.meets {p : FilesM α} {guar : LogFiles → LogFiles → Prop}
    {post : Except Fault α → LogFiles → List LogFiles → Prop} {value : α}
    (returns : MayReturn p s value t)
    (guarantees : p.Guarantees FileOp.Untorn (fun _ _ => False) guar post s []) :
    ∃ more, post (.ok value) t more := by
  obtain ⟨n, returns⟩ := returns
  exact guarantees.reaches returns

/-! ## Reading -/

/-- `read_chain` behind a log that was found to exist. -/
def FileRegistry.Steps.readOpened (json : LinkJson) (r : FileRegistry) (hansa : HansaId)
    (reads : Nat) : FilesM (List Link) := do
  let file ← .perform .openLog ioResult
  readRest json (r.logPath hansa) file reads 0 [] 0

/-- A settled log that exists and can be read is read at once. -/
theorem mayReturn_readOpened {hansa : HansaId} {file : Nat} (isLog : s.log = some file)
    (settled : s.Settled) {links : List Link}
    (read : readLog json (r.logPath hansa) s.logBytes = .ok links) :
    MayReturn (FileRegistry.Steps.readOpened json r hansa 2) s links s := by
  have bytes := LogFiles.logBytes_of_log isLog
  rw [bytes] at read
  have closed := settled _ bytes
  have opened : FileOp.openLog.Untorn s (.ok file) s :=
    ⟨⟨rfl, .inr ⟨file, isLog, rfl⟩⟩, False.elim⟩
  refine mayReturn_perform opened ?_
  have chunked : (FileOp.read file 0).Untorn s (.ok (s.content file)) s :=
    ⟨⟨rfl, .inr ⟨_, rfl, List.prefix_rfl, fun none_ => by rw [none_, List.drop_nil]⟩⟩, False.elim⟩
  refine mayReturn_perform chunked ?_
  cases content : s.content file with
  | nil =>
    rw [content] at read
    obtain rfl := Except.ok.inj read
    exact mayReturn_ret [] s
  | cons b rest =>
    rw [content] at read closed
    -- The log ends in a newline, so all of it is lines.
    have whole : (b :: rest).rdropWhile (· ≠ 10) = b :: rest ∧
        (b :: rest).rtakeWhile (· ≠ 10) = [] := by
      have cut := List.rdropWhile_append_rtakeWhile (p := fun x => decide (x ≠ (10 : UInt8)))
        (l := b :: rest)
      have none_ : (b :: rest).rtakeWhile (· ≠ 10) = [] := by
        rw [List.rtakeWhile_eq_nil_iff]
        intro nonempty
        have last := closed _ (List.getLast?_eq_getLast_of_ne_nil nonempty)
        simp [last]
      rw [none_, List.append_nil] at cut
      exact ⟨cut, none_⟩
    have ended : (FileOp.read file (0 + (b :: rest).length)).Untorn s (.ok []) s := by
      refine ⟨⟨rfl, .inr ⟨[], rfl, List.nil_prefix, fun _ => ?_⟩⟩, False.elim⟩
      rw [content, Nat.zero_add, List.drop_length]
    have more : MayReturn (FileRegistry.Steps.readRest json (r.logPath hansa) file 1
        (0 + (b :: rest).length) [] (0 + (splitLines (b :: rest)).length)) s [] s :=
      mayReturn_perform ended (mayReturn_ret [] s)
    show MayReturn (do
      let links ← .ofExcept (readLines json (r.logPath hansa) 0
        (splitLines ((b :: rest).rdropWhile (· ≠ 10))))
      let others ← FileRegistry.Steps.readRest json (r.logPath hansa) file 1
        (0 + (b :: rest).length) ((b :: rest).rtakeWhile (· ≠ 10))
        (0 + (splitLines ((b :: rest).rdropWhile (· ≠ 10))).length)
      .ret (links ++ others) : FilesM (List Link)) s links s
    rw [whole.1, whole.2, show readLines json (r.logPath hansa) 0 (splitLines (b :: rest)) =
      .ok links from read, ofExcept_ok_bind]
    refine more.bind ?_
    rw [List.append_nil]
    exact mayReturn_ret links s

/-- A settled log that can be read is read at once. -/
theorem mayReturn_readChain {hansa : HansaId} (settled : s.Settled) {links : List Link}
    (read : readLog json (r.logPath hansa) s.logBytes = .ok links) :
    MayReturn (FileRegistry.Steps.readChain json r hansa 2) s links s := by
  have looked : FileOp.logExists.Untorn s s.log.isSome s := ⟨⟨rfl, rfl⟩, False.elim⟩
  refine mayReturn_perform looked ?_
  cases isLog : s.log with
  | none =>
    rw [LogFiles.logBytes, isLog] at read
    obtain rfl := Except.ok.inj read
    exact mayReturn_ret [] s
  | some file => exact mayReturn_readOpened isLog settled read

/-! ## Writing -/

/-- A buffer is written at once. -/
theorem mayReturn_writeAll (file : Nat) (bytes : List UInt8) :
    MayReturn (FileRegistry.Steps.writeAll file bytes) s ()
      (s.put file (s.content file ++ bytes)) := by
  cases bytes with
  | nil =>
    rw [FileRegistry.Steps.writeAll, LogFiles.put_nothing]
    exact mayReturn_ret () s
  | cons b bytes =>
    rw [FileRegistry.Steps.writeAll]
    have written : (FileOp.write file (b :: bytes)).Untorn s (.ok (bytes.length + 1))
        (s.put file (s.content file ++ b :: bytes)) := by
      refine ⟨.inr ⟨bytes.length + 1, Nat.le_refl _, rfl, ?_⟩, fun none_ => ?_⟩
      · rw [← List.length_cons (a := b), List.take_length]
      · exact absurd none_ (Nat.succ_ne_zero _)
    refine mayReturn_perform written ?_
    simp only [List.drop_length]
    rw [FileRegistry.Steps.writeAll]
    exact mayReturn_ret () _

/-- A line is appended. -/
theorem mayReturn_appendLink (sound : s.Sound json) {link : Link} {text : String}
    (encoded : json.toString link = .ok text) :
    ∃ t, MayReturn (FileRegistry.Steps.appendLink json link) s () t ∧
      t.logBytes = some (s.logBytes.getD [] ++ (utf8 text ++ [10])) := by
  have ensured : FileOp.ensureDir.Untorn s (.ok ()) s := ⟨rfl, False.elim⟩
  have opened : ∃ file t, FileOp.openAppend.Untorn s (.ok file) t ∧ t.Sound json ∧
      t.log = some file ∧ t.content file = s.logBytes.getD [] := by
    cases isLog : s.log with
    | some file =>
      refine ⟨file, s, ⟨.inr (.inl ⟨file, isLog, rfl, rfl⟩), False.elim⟩, sound, isLog, ?_⟩
      rw [LogFiles.logBytes_of_log isLog, Option.getD_some]
    | none =>
      obtain ⟨grows, -⟩ := sound.create_log isLog
      refine ⟨_, _, ⟨.inr (.inr ⟨isLog, rfl, rfl⟩), False.elim⟩, grows.sound, rfl, ?_⟩
      rw [LogFiles.logBytes, isLog]
      exact LogFiles.content_created
  obtain ⟨file, t, opened, sound', isLog, content⟩ := opened
  have written : MayReturn (FileRegistry.Steps.writeAll file (utf8 text ++ [10]) >>= fun _ =>
      .perform (.sync file) ioResult : FilesM Unit) t ()
      (t.put file (t.content file ++ (utf8 text ++ [10]))) := by
    have synced : (FileOp.sync file).Untorn (t.put file (t.content file ++ (utf8 text ++ [10])))
        (.ok ()) (t.put file (t.content file ++ (utf8 text ++ [10]))) := ⟨rfl, False.elim⟩
    exact (mayReturn_writeAll file _).bind (mayReturn_perform synced (mayReturn_ret () _))
  refine ⟨t.put file (t.content file ++ (utf8 text ++ [10])),
    mayReturn_perform ensured (mayReturn_perform opened ?_), ?_⟩
  · rw [encoded]
    exact written
  · rw [LogFiles.logBytes_put sound' isLog, content]

/-- A chain that can be encoded replaces the log. -/
theorem mayReturn_writeChainAtomic {links : List Link} {buffer : List UInt8}
    (buffered : FileRegistry.chainBuffer json links = .ok buffer) :
    ∃ t, MayReturn (FileRegistry.Steps.writeChainAtomic json links) s () t := by
  have created : ∃ file t, FileOp.createTemp.Untorn s (.ok file) t ∧ t.temp = some file := by
    cases isTemp : s.temp with
    | some file => exact ⟨file, _, ⟨.inr (.inl ⟨file, isTemp, rfl, rfl⟩), False.elim⟩, isTemp⟩
    | none => exact ⟨_, _, ⟨.inr (.inr ⟨isTemp, rfl, rfl⟩), False.elim⟩, rfl⟩
  obtain ⟨file, t, created, isTemp⟩ := created
  have renamed : FileOp.rename.Untorn (t.put file (t.content file ++ buffer)) (.ok ())
      { t.put file (t.content file ++ buffer) with log := some file, temp := none } :=
    ⟨.inr ⟨file, isTemp, rfl, rfl⟩, False.elim⟩
  have written : MayReturn (FileRegistry.Steps.writeAll file buffer >>= fun _ =>
      .perform .rename ioResult : FilesM Unit) t ()
      { t.put file (t.content file ++ buffer) with log := some file, temp := none } :=
    (mayReturn_writeAll file buffer).bind (mayReturn_perform renamed (mayReturn_ret () _))
  rw [FileRegistry.Steps.writeChainAtomic, buffered, ofExcept_ok_bind]
  exact ⟨_, mayReturn_perform created written⟩

/-! ## Sections -/

variable {dir dir' : HansaDir} {hansa : HansaId}

/-- A compaction that returns in one step may return call by call. -/
theorem mayReturn_checkpointLocked (settled : s.Settled) (isLog : dir.log = s.logBytes)
    (now : Int64)
    (returns : (r.checkpointLocked c json hansa skipper now).run dir = .ok () dir') :
    ∃ t, MayReturn (FileRegistry.Steps.checkpointLocked c json r hansa skipper now 2) s () t := by
  cases read : readLog json (r.logPath hansa) s.logBytes with
  | error fault =>
    simp only [FileRegistry.checkpointLocked, EStateM.run_bind,
      run_readChain_error (isLog ▸ read)] at returns
    cases returns
  | ok chain =>
    rw [run_checkpointLocked (isLog ▸ read)] at returns
    have first := mayReturn_readChain settled read
    by_cases short : chain.length ≤ 1
    · refine ⟨s, first.bind ?_⟩
      rw [if_pos short]
      exact mayReturn_ret () s
    · rw [if_neg short] at returns
      cases accepted : replay c chain none with
      | error fault => simp only [accepted, reduceCtorEq] at returns
      | ok out =>
        simp only [accepted] at returns
        cases next : UInt64.succIn c.profile out.headSeq with
        | error fault => simp only [next, reduceCtorEq] at returns
        | ok seq =>
          simp only [next] at returns
          cases encoded : json.toString (checkpointLink c skipper out seq now) with
          | error e => simp only [encoded, reduceCtorEq] at returns
          | ok text =>
            obtain ⟨t, written⟩ := mayReturn_writeChainAtomic (s := s) (written_single encoded)
            refine ⟨t, first.bind ?_⟩
            simp only [if_neg short, accepted, next, ofExcept_ok_bind]
            exact written

/-- An append that returns in one step may return call by call. -/
theorem mayReturn_appendLocked (sound : s.Sound json) (settled : s.Settled)
    (isLog : dir.log = s.logBytes) (body : Body) (now : Int64)
    (returns : (r.appendNext c json hansa skipper body now).run dir = .ok () dir') :
    ∃ t, MayReturn (FileRegistry.Steps.appendLocked c json r hansa skipper body now 2) s () t := by
  cases read : readLog json (r.logPath hansa) s.logBytes with
  | error fault =>
    simp only [FileRegistry.appendNext, EStateM.run_bind,
      run_readChain_error (isLog ▸ read)] at returns
    cases returns
  | ok chain =>
    rw [run_appendNext (isLog ▸ read)] at returns
    have first := mayReturn_readChain settled read
    cases accepted : replay c chain none with
    | error fault => simp only [accepted, reduceCtorEq] at returns
    | ok head =>
      simp only [accepted] at returns
      cases next : UInt64.succIn c.profile head.headSeq with
      | error fault => simp only [next, reduceCtorEq] at returns
      | ok seq =>
        simp only [next] at returns
        cases encoded : json.toString (Link.signed c skipper seq head.headHash body) with
        | error e => simp only [encoded, reduceCtorEq] at returns
        | ok text =>
          simp only [encoded] at returns
          obtain ⟨t, appended, bytes⟩ := mayReturn_appendLink sound encoded
          have rest : ∃ u, MayReturn (if chain.length + 1 > checkpointAfterLinks then
              FileRegistry.Steps.checkpointLocked c json r hansa skipper now 2 else .ret ()) t ()
              u := by
            split
            · rename_i long
              rw [if_pos long] at returns
              refine mayReturn_checkpointLocked ?_ ?_ now returns
              · intro all same
                rw [bytes] at same
                obtain rfl := Option.mem_some.mp same
                rw [← List.append_assoc]
                exact closed_concat _
              · rw [HansaDir.append, isLog, bytes, List.append_assoc]
            · exact ⟨t, mayReturn_ret () t⟩
          obtain ⟨u, rest⟩ := rest
          refine ⟨u, first.bind ?_⟩
          simp only [accepted, next, ofExcept_ok_bind]
          exact appended.bind rest

/-- A founding that returns in one step may return call by call. -/
theorem mayReturn_foundLocked (sound : s.Sound json) (settled : s.Settled)
    (isLog : dir.log = s.logBytes) (embeddingDim : UInt32) (createdAt : Int64)
    (returns : (r.found c json hansa skipper embeddingDim createdAt).run dir = .ok () dir') :
    ∃ t, MayReturn (FileRegistry.Steps.foundLocked c json r hansa skipper embeddingDim createdAt 2)
      s () t := by
  cases read : readLog json (r.logPath hansa) s.logBytes with
  | error fault =>
    simp only [FileRegistry.found, EStateM.run_bind, run_readChain_error (isLog ▸ read)] at returns
    cases returns
  | ok chain =>
    rw [run_found (isLog ▸ read), run_appendLink] at returns
    have first := mayReturn_readChain settled read
    by_cases founded : chain ≠ []
    · refine ⟨s, first.bind ?_⟩
      rw [if_pos founded]
      exact mayReturn_ret () s
    · rw [if_neg founded] at returns
      cases encoded : json.toString (genesisLink c skipper embeddingDim createdAt) with
      | error e =>
        rw [genesisLink] at encoded
        simp only [encoded, reduceCtorEq] at returns
      | ok text =>
        obtain ⟨t, appended, -⟩ := mayReturn_appendLink sound encoded
        refine ⟨t, first.bind ?_⟩
        rw [if_neg founded]
        exact appended

/-- The section of a call that returns may return with the log that the call leaves, and takes the
log to the map that the call leaves. -/
theorem mayReturn_locked (correct : c.Correct) (lawful : json.Lawful) (free : json.PrefixFree)
    (stands : Stands c json skipper m s) {op : Op}
    (returns : (op.call c json r (.fromSkipper c (skipper.pub c)) skipper).run ⟨s.logBytes, []⟩ =
      .ok () dir') :
    ∃ t, MayReturn (op.locked c json r skipper 2) s () t ∧ t.logBytes = dir'.log ∧
      Stands c json skipper (m.step op) t := by
  have settled : s.Settled := stands.log.closed
  have may : ∃ t, MayReturn (op.locked c json r skipper 2) s () t := by
    cases op with
    | found embeddingDim createdAt =>
      exact mayReturn_foundLocked stands.sound settled rfl embeddingDim createdAt returns
    | admitMember member memberPub now =>
      exact mayReturn_appendLocked stands.sound settled rfl _ now returns
    | revoke tenantId time reason now =>
      exact mayReturn_appendLocked stands.sound settled rfl _ now returns
    | compact now => exact mayReturn_checkpointLocked settled rfl now returns
  obtain ⟨t, may⟩ := may
  obtain ⟨-, stands', inOneStep⟩ := may.meets (guarantees_locked correct lawful free op 2 stands)
  obtain ⟨dir'', returns', same⟩ := inOneStep ⟨s.logBytes, []⟩ rfl
  obtain ⟨-, rfl⟩ := EStateM.Result.ok.inj (returns.symm.trans returns')
  exact ⟨t, may, same.symm, stands'⟩

/-- A section does what its call does in one step: from a log that stands for a map, some run of the
section alone returns and leaves a log, exactly when the call returns and leaves it. -/
theorem locked_iff_call (correct : c.Correct) (lawful : json.Lawful) (free : json.PrefixFree)
    (stands : Stands c json skipper m s) (op : Op) (log : Option (List UInt8)) :
    (∃ reads t, MayReturn (op.locked c json r skipper reads) s () t ∧ t.logBytes = log) ↔
      ∃ dir', (op.call c json r (.fromSkipper c (skipper.pub c)) skipper).run ⟨s.logBytes, []⟩ =
        .ok () dir' ∧ dir'.log = log := by
  constructor
  · rintro ⟨reads, t, returns, rfl⟩
    obtain ⟨-, -, inOneStep⟩ :=
      returns.meets (guarantees_locked correct lawful free op reads stands)
    exact inOneStep ⟨s.logBytes, []⟩ rfl
  · rintro ⟨dir', returns, rfl⟩
    obtain ⟨t, may, same, -⟩ := mayReturn_locked correct lawful free stands returns
    exact ⟨2, t, may, same⟩

end Hansa
