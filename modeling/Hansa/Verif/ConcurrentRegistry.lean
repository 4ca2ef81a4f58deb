import Hansa.Verif.LogSections

/-!
# The registry under concurrency

Any number of processes call the registry at once, call of the operating system by call, and may
be stopped. The calls that change the log have it to themselves, so each run is serial: the log
stands for the map of members that the calls make one after the other, in the order in which
they took the lock. `members` does not take the lock, and returns the members at one moment
between its call and its return all the same. `Hansa::admit` compares the dimension before it
takes the lock, which is as good as comparing it behind the lock.
-/

namespace Hansa

open Program

/-- A call that a process makes. -/
inductive RegistryCall where
  /-- A call of the registry that changes the log. -/
  | op (op : Op)
  /-- `Registry::members`. -/
  | members
  /-- `Hansa::admit`. -/
  | admitMember (member : MemberRecord) (now : Int64)

/-- A call, and how often it reads a file at most. -/
structure Client where
  /-- The call. -/
  call : RegistryCall
  /-- How many times it reads before it waits. -/
  reads : Nat

/-- What a call does to the map of members. A member is admitted by a handle only if its dimension
is the pinned one. -/
def RegistryCall.effect : RegistryCall → MemberMap → MemberMap
  | .op call, m => m.step call
  | .members, m => m
  | .admitMember member now, m =>
    if m.dim = some member.embeddingDim then m.step (.admitMember member none now) else m

section Code

variable (c : Build) (json : LinkJson) (r : FileRegistry) (skipper : Skipper)

/-- What a call does under the lock. -/
def Op.locked (reads : Nat) : Op → FilesM Unit
  | .found embeddingDim createdAt =>
    FileRegistry.Steps.foundLocked c json r (.fromSkipper c (skipper.pub c)) skipper embeddingDim
      createdAt reads
  | .admitMember member memberPub now =>
    FileRegistry.Steps.appendLocked c json r (.fromSkipper c (skipper.pub c)) skipper
      (.admitMember member memberPub) now reads
  | .revoke tenantId time reason now =>
    FileRegistry.Steps.appendLocked c json r (.fromSkipper c (skipper.pub c)) skipper
      (.revoke tenantId time reason) now reads
  | .compact now =>
    FileRegistry.Steps.checkpointLocked c json r (.fromSkipper c (skipper.pub c)) skipper now reads

/-- The code of a call that changes the log. -/
def Op.steps (reads : Nat) : Op → LockedM Unit
  | .found embeddingDim createdAt =>
    FileRegistry.Steps.found c json r (.fromSkipper c (skipper.pub c)) skipper embeddingDim
      createdAt reads
  | .admitMember member memberPub now =>
    FileRegistry.Steps.appendNext c json r (.fromSkipper c (skipper.pub c)) skipper
      (.admitMember member memberPub) now reads
  | .revoke tenantId time reason now =>
    FileRegistry.Steps.appendNext c json r (.fromSkipper c (skipper.pub c)) skipper
      (.revoke tenantId time reason) now reads
  | .compact now =>
    FileRegistry.Steps.compact c json r (.fromSkipper c (skipper.pub c)) skipper now reads

/-- The code of a call; `members` alone has a value. -/
def Client.code (client : Client) : LockedM (Option (List MemberRecord)) :=
  match client.call with
  | .op op => op.steps c json r skipper client.reads >>= fun _ => .ret none
  | .members =>
    (FileRegistry.Steps.members c json r (.fromSkipper c (skipper.pub c)) client.reads).unlocked
      >>= fun members => .ret (some members)
  | .admitMember member now =>
    FileRegistry.Steps.admitMember c json r (.fromSkipper c (skipper.pub c)) skipper member now
      client.reads >>= fun _ => .ret none

/-- What the lock of a hansa's directory protects. -/
def guardedLog : Guarded FileOp FileOp.Answer Fault (Option (List MemberRecord)) LogFiles Client
    MemberMap where
  performs := FileOp.Untorn
  rely := LogFiles.Grows json
  agrees := Stands c json skipper
  during client m s := s.Sound json ∧ LogDuring c json skipper m (client.call.effect m) s.logBytes
  effect client := client.call.effect
  ends client result s past := client.call = .members → ∀ reply, result = .ok reply →
    ∃ members, reply = some members ∧ ∃ u ∈ s :: past, ∀ dir : HansaDir, dir.log = u.logBytes →
      (r.members c json (.fromSkipper c (skipper.pub c))).run dir = .ok members dir

end Code

variable {c : Build} {json : LinkJson} {r : FileRegistry} {skipper : Skipper} {m : MemberMap}
  {s : LogFiles} {past : List LogFiles}

/-- A call that changes the log runs its section under the lock. -/
theorem Op.steps_eq (op : Op) (reads : Nat) :
    op.steps c json r skipper reads =
      FileRegistry.Steps.withLock (op.locked c json r skipper reads) := by
  cases op <;> rfl

/-! ## Each section refines its call -/

/-- The section of a call, run under the lock, takes the log from the map it finds to the map that
the call leaves. If it returns, it leaves the bytes that the call leaves when it is one step; if it
fails, it leaves one of the two maps. -/
theorem guarantees_locked (correct : c.Correct) (lawful : json.Lawful) (free : json.PrefixFree)
    (op : Op) (reads : Nat) (stands : Stands c json skipper m s) :
    (op.locked c json r skipper reads).Guarantees FileOp.Untorn (fun _ _ => False)
      (Progress c json skipper m (m.step op)) (fun result t _ =>
        Left c json skipper m (m.step op)
          (op.call c json r (.fromSkipper c (skipper.pub c)) skipper) s result t) s past := by
  cases op with
  | found embeddingDim createdAt =>
    exact guarantees_foundLocked correct lawful free stands embeddingDim createdAt reads rfl
  | admitMember member memberPub now =>
    refine guarantees_appendLocked correct lawful free stands id now reads ?_
    intro dim founded carried
    have path : member.IsUtf8 := carried
    simp only [MemberMap.step, founded, Option.isSome_some, path, and_self, if_true]
    rfl
  | revoke tenantId time reason now =>
    refine guarantees_appendLocked correct lawful free stands id now reads ?_
    intro dim founded _
    simp only [MemberMap.step, founded, Option.isSome_some, if_true]
    rfl
  | compact now =>
    exact (guarantees_checkpointLocked correct lawful free stands now reads).weaken
      fun t u keeps => keeps.progress

/-- A section that returned left the second map, and one that failed left one of the two. -/
def Closes (c : Build) (json : LinkJson) (skipper : Skipper) (m m' : MemberMap) :
    Except Fault Unit → LogFiles → Prop
  | .ok _, t => Stands c json skipper m' t
  | .error _, t => Stands c json skipper m t ∨ Stands c json skipper m' t

/-- A section that refines its call leaves one of the two maps. -/
theorem Left.closes {call : FileM Unit} {m' : MemberMap} {result : Except Fault Unit} {t : LogFiles}
    (left : Left c json skipper m m' call s result t) : Closes c json skipper m m' result t := by
  cases result with
  | ok _ => exact left.1
  | error fault => exact left

/-! ## Each call uses the lock as it should -/

/-- A call that is not `members` ends in any way. -/
theorem ends_guardedLog {client : Client} (writer : client.call ≠ .members)
    (result : Except Fault (Option (List MemberRecord))) (s : LogFiles) (past : List LogFiles) :
    (guardedLog c json r skipper).ends client result s past :=
  fun same => absurd same writer

/-- A call under the lock, whose section goes from the map it finds to the map with its effect
wherever an assertion holds that others keep. -/
theorem abides_withLock {client : Client} (writer : client.call ≠ .members)
    (holds : LogFiles → Prop) (kept : ∀ s t, holds s → s.Grows json t → holds t) {f : FilesM Unit}
    (runs : ∀ t more m, holds t → Stands c json skipper m t →
      f.Guarantees FileOp.Untorn (fun _ _ => False)
        (Progress c json skipper m (client.call.effect m))
        (fun result u _ => Closes c json skipper m (client.call.effect m) result u) t more)
    (here : holds s) :
    (guardedLog c json r skipper).Abides client (.outside false false)
      (FileRegistry.Steps.withLock f >>= fun _ => .ret none) s past := by
  have later : ∀ {s t past more}, holds s → Later (LogFiles.Grows json) s past t more → holds t :=
    fun here later => later.invariant holds here fun v w before change => kept v w before change
  rw [FileRegistry.Steps.withLock, bind_assoc]
  refine Guarded.abides_unlocked (guarantees_perform fun t more after answer u ⟨done, _⟩ => ?_)
  obtain rfl := done
  refine ⟨rfl, ?_⟩
  cases answer with
  | error e => exact guarantees_fail (ends_guardedLog writer _ _ _)
  | ok _ =>
  refine guarantees_perform fun v most after' answer w ⟨done, _⟩ => ?_
  obtain rfl := done
  refine ⟨rfl, ?_⟩
  cases answer with
  | error e => exact guarantees_fail (ends_guardedLog writer _ _ _)
  | ok _ =>
  refine guarantees_ret ?_
  show (guardedLog c json r skipper).Abides client (.outside false false)
    (f.locked (fun e => .err (.io e)) >>= fun _ => .ret none) w (w :: most)
  rw [locked_map]
  refine Guarded.abides_locked (fun t more reason _ => ends_guardedLog writer _ _ _)
    fun t more m after'' stands => ?_
  have there : holds t := later (later (later here after) after') after''
  refine Guarantees.andThen ((runs t more m there stands).weaken
    fun v w progress => ⟨progress.1, progress.1.sound, progress.2⟩) ?_ ?_
  · intro fault u most ends
    refine ⟨ends_guardedLog writer _ _ _, ?_⟩
    rcases ends with nothing | effect
    · exact .inr ⟨nothing, fun _ no => nomatch no⟩
    · exact .inl effect
  · intro _ u most ends
    exact guarantees_ret ⟨ends_guardedLog writer _ _ _, .inl ends⟩

/-- A call of the registry that changes the log. -/
theorem abides_op (correct : c.Correct) (lawful : json.Lawful) (free : json.PrefixFree) (op : Op)
    (reads : Nat) :
    (guardedLog c json r skipper).Abides ⟨.op op, reads⟩ (.outside false false)
      (Client.code c json r skipper ⟨.op op, reads⟩) s past := by
  show (guardedLog c json r skipper).Abides _ _
    (op.steps c json r skipper reads >>= fun _ => .ret none) s past
  rw [op.steps_eq]
  have writer : RegistryCall.op op ≠ .members := fun no => by cases no
  exact abides_withLock writer (fun _ => True) (fun _ _ _ _ => trivial)
    (fun t more m _ stands => (guarantees_locked correct lawful free op reads stands).mono
      fun _ _ _ left => left.closes) trivial

/-- `members` returns what it returns in one step at one moment since it was called. -/
theorem abides_members (lawful : json.Lawful) (free : json.PrefixFree) (sound : s.Sound json)
    (reads : Nat) :
    (guardedLog c json r skipper).Abides ⟨.members, reads⟩ (.outside false false)
      (Client.code c json r skipper ⟨.members, reads⟩) s past := by
  have snapshots : (FileRegistry.Steps.readChain json r (.fromSkipper c (skipper.pub c))
      reads).Guarantees FileOp.Untorn (LogFiles.Grows json) (fun s t => t = s)
      (Snapshot json (r.logPath (.fromSkipper c (skipper.pub c))) fun _ => True) s past :=
    guarantees_readChain (fun _ => True) lawful free r _ (fun _ _ grows => grows)
      (fun _ _ _ _ => trivial) (by intros; rfl) sound trivial reads
  refine Guarded.abides_unlocked (snapshots.andThen
    (fun fault t more _ _ reply no => nomatch no) fun chain t more ends => ?_)
  obtain ⟨u, member, -, read⟩ := ends.2 chain rfl
  have snapshot : ∀ members, (∀ dir : HansaDir, dir.log = u.logBytes →
      (r.members c json (.fromSkipper c (skipper.pub c))).run dir = .ok members dir) →
      (guardedLog c json r skipper).Abides ⟨.members, reads⟩ (.outside false false)
        (.ret (some members) : LockedM (Option (List MemberRecord))) t more :=
    fun members inOneStep => ⟨.inr fun _ => rfl, fun _ reply same =>
      ⟨members, (Except.ok.inj same).symm, u, member, inOneStep⟩⟩
  split
  · rename_i empty
    refine guarantees_ret (snapshot [] fun dir same => ?_)
    rw [run_members (same ▸ read), if_pos empty]
  · rename_i nonempty
    cases accepted : replay c chain none with
    | error fault => exact guarantees_fail fun _ reply no => nomatch no
    | ok out =>
      refine guarantees_ret (snapshot out.active fun dir same => ?_)
      rw [run_members (same ▸ read), if_neg nonempty, accepted]

/-- A log that replays pins the dimension of its result. -/
theorem pins_of_replay (lawful : json.Lawful) (free : json.PrefixFree) (sound : s.Sound json)
    {path : PathBuf} {chain : List Link} {expected : Option HansaId} {out : ReplayOutcome}
    (read : readLog json path s.logBytes = .ok chain)
    (accepted : replay c chain expected = .ok out) : s.Pins json out.embeddingDim := by
  obtain ⟨root, isRoot, -, -, rootDim⟩ := (replay_ok accepted).1.root
  cases isLog : s.log with
  | none =>
    rw [LogFiles.logBytes, isLog] at read
    obtain rfl := Except.ok.inj read
    cases isRoot
  | some file =>
    have bytes := LogFiles.logBytes_of_log isLog
    obtain ⟨inside, other⟩ := sound.log file isLog
    rw [bytes] at read
    obtain ⟨text, encoded, front⟩ :=
      (sound.lined file inside other).head lawful free read isRoot
    exact ⟨_, bytes, root, text, encoded, front, rootDim⟩

/-- A log that stands for a map pins the dimension of the map. -/
theorem Stands.dim_of_pins (lawful : json.Lawful) (free : json.PrefixFree)
    (stands : Stands c json skipper m s) {dim : UInt32} (pinned : s.Pins json dim) :
    m.dim = some dim := by
  obtain ⟨bytes, isLog, link, text, encoded, front, rootDim⟩ := pinned
  obtain ⟨chain, -, written, described⟩ := stands.log.read lawful ⟨[]⟩
  rw [Option.mem_def.mp isLog, Option.getD_some] at written
  have first := written.head lawful free encoded front
  rcases described with ⟨rfl, -⟩ | ⟨out, accepted, -, founded, -⟩
  · cases first
  · obtain ⟨root, isRoot, -, -, rootDim'⟩ := (replay_ok accepted).1.root
    obtain rfl := Option.some.inj (first.symm.trans isRoot)
    rw [founded, ← rootDim', rootDim]

/-- `Hansa::admit` admits a member of the pinned dimension alone. -/
theorem abides_admitMember (correct : c.Correct) (lawful : json.Lawful) (free : json.PrefixFree)
    (sound : s.Sound json) (member : MemberRecord) (now : Int64) (reads : Nat) :
    (guardedLog c json r skipper).Abides ⟨.admitMember member now, reads⟩ (.outside false false)
      (Client.code c json r skipper ⟨.admitMember member now, reads⟩) s past := by
  have writer : RegistryCall.admitMember member now ≠ .members := fun no => by cases no
  have snapshots : (FileRegistry.Steps.readChain json r (.fromSkipper c (skipper.pub c))
      reads).Guarantees FileOp.Untorn (LogFiles.Grows json) (fun s t => t = s)
      (Snapshot json (r.logPath (.fromSkipper c (skipper.pub c))) fun _ => True) s past :=
    guarantees_readChain (fun _ => True) lawful free r _ (fun _ _ grows => grows)
      (fun _ _ _ _ => trivial) (by intros; rfl) sound trivial reads
  show (guardedLog c json r skipper).Abides _ _
    ((FileRegistry.Steps.checkDim c json r (.fromSkipper c (skipper.pub c)) member reads).unlocked
      >>= (fun _ => FileRegistry.Steps.appendNext c json r (.fromSkipper c (skipper.pub c)) skipper
        (.admitMember member none) now reads) >>= fun _ => .ret none) s past
  rw [bind_assoc]
  refine Guarded.abides_unlocked (snapshots.andThen
    (fun fault t more _ => ends_guardedLog writer _ _ _) fun chain t more ends => ?_)
  obtain ⟨u, -, moment, read⟩ := ends.2 chain rfl
  cases accepted : replay c chain (some (.fromSkipper c (skipper.pub c))) with
  | error fault => exact guarantees_fail (ends_guardedLog writer _ _ _)
  | ok head =>
  simp only [ofExcept_ok_bind]
  by_cases fits : member.embeddingDim = head.embeddingDim
  swap
  · rw [if_pos fits]
    exact guarantees_fail (ends_guardedLog writer _ _ _)
  rw [if_neg (not_not_intro fits)]
  refine guarantees_ret ?_
  -- The log pinned this dimension when it was read, and still does under the lock.
  have pinned : t.Pins json member.embeddingDim :=
    fits ▸ moment.pins _ (pins_of_replay lawful free moment.sound read accepted)
  refine abides_withLock writer (fun v => v.Pins json member.embeddingDim)
    (fun v w held grows => grows.pins _ held) (fun v most m held stands => ?_) pinned
  have founded := stands.dim_of_pins lawful free held
  refine (guarantees_appendLocked correct lawful free stands id now reads ?_).mono
    fun _ _ _ left => left.closes
  intro dim founded' carried
  have path : member.IsUtf8 := carried
  simp only [RegistryCall.effect, founded, if_true, MemberMap.step, Option.isSome_some, path,
    and_self]
  rw [← founded', founded]
  rfl

/-! ## Runs -/

/-- What a log holds when it is the lock's: the calls on it make a serial run. -/
theorem lawful_guardedLog (correct : c.Correct) (lawful : json.Lawful) (free : json.PrefixFree) :
    (guardedLog c json r skipper).Lawful LogFiles.Settled (Client.code c json r skipper) where
  begins client m s stands := ⟨stands.sound, .inl stands.log⟩
  stops client m s during settled := by
    rcases during.2.settled lawful settled with before | after
    · exact .inl ⟨during.1, before⟩
    · exact .inr ⟨during.1, after⟩
  stable client result s t past ends _ isMembers reply same := by
    obtain ⟨members, isReply, u, member, inOneStep⟩ := ends isMembers reply same
    exact ⟨members, isReply, u, List.mem_cons_of_mem _ member, inOneStep⟩
  abides client s holds := by
    have sound : s.Sound json := by
      rcases holds with ⟨m, stands⟩ | ⟨_, m, during⟩
      · exact stands.sound
      · exact during.1
    obtain ⟨call, reads⟩ := client
    cases call with
    | op op => exact abides_op correct lawful free op reads
    | members => exact abides_members lawful free sound reads
    | admitMember member now => exact abides_admitMember correct lawful free sound member now reads

end Hansa
