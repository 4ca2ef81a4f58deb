import Hansa.Verif.CallProgress
import Hansa.Verif.Instance
import Hansa.Verif.SharedDim

/-!
# Runs of concurrent registry calls

What a directory holds at each moment of a run, and what the calls returned. The calls that
changed the log took effect one after the other, in the order in which they had the lock, and a
call that returned before another was started took effect before it. `members` returns the
members of one moment between its call and its return. While members are admitted by handles
alone, they all have the dimension of the founding.
-/

namespace Hansa

open Program

/-! ## A run -/

/-- The first bytes of an encoded sample link are no link. -/
theorem sampleJson_prefixFree : sampleJson.PrefixFree := by
  intro link text part encoded front different
  obtain ⟨-, rfl⟩ := sampleJson_toString.mp encoded
  refine sampleJson_refuses ?_
  rintro link' ⟨-, blank, -, rfl⟩
  -- The closing brace comes last and only once.
  have ends : ∀ link, utf8 (linkText link) =
      utf8 ("\x7b" ++ String.ofList (List.replicate (linkNumber link) '1')) ++ [125] :=
    fun link => utf8_append _ _
  have once : 125 ∉ utf8 ("\x7b" ++ String.ofList (List.replicate (linkNumber link) '1')) := by
    intro member
    obtain ⟨ch, inside, value⟩ := exists_char_of_byte member (by decide)
    rw [String.toList_append, List.mem_append] at inside
    simp only [String.toList_ofList, List.mem_replicate] at inside
    rcases inside with first | ⟨-, rfl⟩
    · obtain rfl := List.mem_singleton.mp first
      exact absurd value (by decide)
    · exact absurd value (by decide)
  rw [utf8_append, ends link', ends link, ← List.append_assoc] at front
  rcases List.prefix_concat_iff.mp front with same | inner
  · apply different
    apply utf8_injective
    rw [utf8_append, ends link', ends link, ← List.append_assoc]
    exact same
  · exact once (inner.subset (List.mem_append_right _ (List.mem_singleton_self 125)))

/-- What a log that stands for a map is replayed to. -/
theorem LogStands.replayed (lawful : json.Lawful) {path : PathBuf} {log : Option (List UInt8)}
    (stands : LogStands c json skipper m log) {chain : List Link}
    (read : readLog json path log = .ok chain) {out : ReplayOutcome}
    (accepted : replay c chain none = .ok out) :
    m.dim = some out.embeddingDim ∧
      KeyedMap.Lists MemberRecord.tenantId m.roster out.active := by
  obtain ⟨chain', read', -, ⟨rfl, -⟩ | ⟨out', accepted', -, founded, roster⟩⟩ :=
    stands.read lawful path
  · obtain rfl := Except.ok.inj (read.symm.trans read')
    cases accepted
  · obtain rfl := Except.ok.inj (read.symm.trans read')
    obtain rfl := Except.ok.inj (accepted.symm.trans (replay_pinned.mp accepted').1)
    exact ⟨founded, roster ▸ (replay_ok accepted).1.active⟩

/-- Before the first call the directory stands for no members. -/
theorem stands_initial (c : Build) (json : LinkJson) (skipper : Skipper) :
    Stands c json skipper .initial LogFiles.initial := by
  refine ⟨⟨fun file isLog => (nomatch isLog), fun file isTemp => (nomatch isTemp), ?_⟩,
    .inl rfl, rfl⟩
  exact fun file inside => absurd inside (Nat.not_lt_zero file)

/-- Calls of processes: one founds a hansa, two admit a member each through a handle, and two ask
for the members. -/
def sampleClients : List Client :=
  [⟨.op (.found 3 0), 2⟩, ⟨.admitMember (sampleMember 7) 0, 2⟩, ⟨.members, 2⟩,
    ⟨.admitMember (sampleMember 8) 0, 2⟩, ⟨.members, 2⟩]

/-- A directory of registries. -/
def sampleRegistry : FileRegistry := ⟨⟨[]⟩⟩

/-- What the third and the fifth of the sample processes returned. -/
structure SampleReplies (s : RegistryProcesses) (members members' : List MemberRecord) : Prop where
  /-- The third process returned these members. -/
  third : ∃ q, s.processes[2]? = some q ∧ q.command.call = .members ∧
    q.rest = some (.ret (some members))
  /-- The fifth process returned these members. -/
  fifth : ∃ q, s.processes[4]? = some q ∧ q.command.call = .members ∧
    q.rest = some (.ret (some members'))
  /-- The first of the two members was seen by both. -/
  first : sampleMember 7 ∈ members ∧ sampleMember 7 ∈ members'
  /-- The second member was seen by the fifth process. -/
  second : sampleMember 8 ∈ members'

/-- The code of a sample process. -/
noncomputable def sampleCode (i : Fin 5) : LockedM (Option (List MemberRecord)) :=
  Client.code sampleBuild sampleJson sampleRegistry (sampleSkipper 1) (sampleClients.get i)

/-- The sample processes, with what is left of each. -/
def sampleStanding (rests : List (LockedM (Option (List MemberRecord)))) (holder : Option Nat)
    (entered : List (Fin 5)) (s : LogFiles) : RegistryStanding where
  left := sampleClients.zip (rests.map some)
  holder := holder
  entered := entered.map fun i => (i.val, sampleClients.get i)
  state := s

/-- What is left of a sample process that is in its section, and admits a member. -/
noncomputable def sampleSection (n : UInt8) : LockedM (Option (List MemberRecord)) :=
  LockedProcesses.inSection ((Op.admitMember (sampleMember n) none 0).locked sampleBuild sampleJson
    sampleRegistry (sampleSkipper 1) 2) fun _ => .ret none

/-- What is left of a sample process that waits for the lock, and admits a member. -/
noncomputable def sampleWaiting (n : UInt8) : LockedM (Option (List MemberRecord)) :=
  prepareLock.unlocked >>= fun _ =>
    ((Op.admitMember (sampleMember n) none 0).locked sampleBuild sampleJson sampleRegistry
      (sampleSkipper 1) 2).locked (fun e => .err (.io e)) >>= fun _ => .ret none

/-- What is left of a sample process that found the log. -/
noncomputable def sampleOpened : LockedM (Option (List MemberRecord)) :=
  (membersOpened sampleBuild sampleJson sampleRegistry (sampleId 1) 2).unlocked >>=
    fun members => .ret (some members)

/-- The sample processes in the middle of their run: the hansa is founded, the second process is
in its section and has written nothing, and the third found the log before that and has not
read it. -/
noncomputable def sampleMiddle : LogFiles → RegistryStanding :=
  sampleStanding [.ret none, sampleSection 7, sampleOpened, sampleCode 3, sampleCode 4] (some 1)
    [0, 1]

/-- The sample processes at the end of their run. -/
def sampleEnd (members members' : List MemberRecord) : LogFiles → RegistryStanding :=
  sampleStanding [.ret none, .ret none, .ret (some members), .ret none, .ret (some members')] none
    [0, 1, 3]

/-- The sample processes come to the middle of their run. -/
theorem leads_sampleMiddle : ∃ n n' s out,
    RegistryLeads sampleBuild sampleJson sampleRegistry (sampleSkipper 1)
      ⟨[], none, [], LogFiles.initial⟩
      (sampleClients.map .start ++
        (List.replicate n (.perform 0) ++ (List.replicate n' (.perform 1) ++ [.perform 2])))
      (sampleMiddle s) ∧
    Stands sampleBuild sampleJson (sampleSkipper 1) (MemberMap.initial.step (.found 3 0)) s ∧
    Founded sampleBuild sampleJson sampleRegistry (sampleSkipper 1) ⟨s.logBytes, []⟩
      [genesisLink sampleBuild (sampleSkipper 1) 3 0] out ∧
    out.embeddingDim = 3 ∧ out.headSeq = 0 := by
  have starts : RegistryLeads sampleBuild sampleJson sampleRegistry (sampleSkipper 1)
      ⟨[], none, [], LogFiles.initial⟩ (sampleClients.map .start)
      (sampleStanding [sampleCode 0, sampleCode 1, sampleCode 2, sampleCode 3, sampleCode 4] none []
        LogFiles.initial) :=
    LockedProcesses.leads_starts _ _
  obtain ⟨n, s, out, founds, stands, founded, dim, first⟩ :=
    leads_found (v := sampleStanding [sampleCode 0, sampleCode 1, sampleCode 2, sampleCode 3,
      sampleCode 4] none [] LogFiles.initial) (p := 0) sampleBuild_correct sampleJson_lawful
      sampleJson_prefixFree rfl rfl (stands_initial _ _ _) rfl
  obtain ⟨file, isLog⟩ := founded.file
  obtain ⟨k, checks⟩ := leads_checkDim (v := sampleStanding [.ret none, sampleCode 1, sampleCode 2,
    sampleCode 3, sampleCode 4] none [0] s) (p := 1) rfl stands.log.closed founded.read
    founded.accepted dim.symm
  obtain ⟨k', locks⟩ := leads_lock (v := sampleStanding [.ret none, sampleWaiting 7, sampleCode 2,
    sampleCode 3, sampleCode 4] none [0] s) (p := 1) rfl rfl
  have looks := leads_look (v := sampleStanding [.ret none, sampleSection 7, sampleCode 2,
    sampleCode 3, sampleCode 4] (some 1) [0, 1] s) (p := 2) rfl isLog
  have runs := starts.trans (founds.trans ((checks.trans locks).trans looks))
  rw [← List.replicate_add] at runs
  exact ⟨n, k + k', s, out, runs, stands, founded, dim, first⟩

/-- The sample processes come from the middle of their run to its end, and the two that asked for
the members were told of those that were admitted before. -/
theorem leads_sampleEnd {s : LogFiles} {out : ReplayOutcome}
    (stands : Stands sampleBuild sampleJson (sampleSkipper 1)
      (MemberMap.initial.step (.found 3 0)) s)
    (founded : Founded sampleBuild sampleJson sampleRegistry (sampleSkipper 1) ⟨s.logBytes, []⟩
      [genesisLink sampleBuild (sampleSkipper 1) 3 0] out)
    (dim : out.embeddingDim = 3) (first : out.headSeq = 0) :
    ∃ n n' n'' k t members members',
      RegistryLeads sampleBuild sampleJson sampleRegistry (sampleSkipper 1) (sampleMiddle s)
        (List.replicate n (.perform 1) ++ (List.replicate n' (.perform 2) ++
          (List.replicate n'' (.perform 3) ++ List.replicate k (.perform 4))))
        (sampleEnd members members' t) ∧
      sampleMember 7 ∈ members ∧ sampleMember 7 ∈ members' ∧ sampleMember 8 ∈ members' ∧
      ∃ chain out', Founded sampleBuild sampleJson sampleRegistry (sampleSkipper 1)
        ⟨t.logBytes, []⟩ chain out' ∧ chain.length = 3 ∧ out'.headSeq = 2 := by
  -- The second process admits its member, and the third reads the log.
  obtain ⟨n, t, out', admits, stands', founded', dim', second⟩ :=
    leads_admitMember (v := sampleMiddle s) (p := 1) sampleBuild_correct sampleJson_lawful
      sampleJson_prefixFree rfl rfl stands founded (by rw [first]; decide) (by decide) (by decide)
  obtain ⟨file, isLog⟩ := founded'.file
  have unpinned := (replay_pinned.mp founded'.accepted).1
  obtain ⟨n', reads⟩ := leads_members (v := sampleStanding [.ret none, .ret none, sampleOpened,
    sampleCode 3, sampleCode 4] none [0, 1] t) (p := 2) rfl isLog stands'.log.closed founded'.read
    unpinned
  -- The fourth process admits its member, and the fifth finds the log and reads it.
  obtain ⟨l, checks⟩ := leads_checkDim (v := sampleStanding [.ret none, .ret none,
    .ret (some out'.active), sampleCode 3, sampleCode 4] none [0, 1] t) (p := 3) rfl
    stands'.log.closed founded'.read founded'.accepted (dim'.trans dim).symm
  obtain ⟨l', locks⟩ := leads_lock (v := sampleStanding [.ret none, .ret none,
    .ret (some out'.active), sampleWaiting 8, sampleCode 4] none [0, 1] t) (p := 3) rfl rfl
  obtain ⟨l'', u, out'', admits', stands'', founded'', -, third⟩ :=
    leads_admitMember (v := sampleStanding [.ret none, .ret none, .ret (some out'.active),
      sampleSection 8, sampleCode 4] (some 3) [0, 1, 3] t) (p := 3) sampleBuild_correct
      sampleJson_lawful sampleJson_prefixFree rfl rfl stands' founded'
      (by rw [second, first]; decide) (show 2 < checkpointAfterLinks by decide) (by decide)
  obtain ⟨file', isLog'⟩ := founded''.file
  have unpinned' := (replay_pinned.mp founded''.accepted).1
  have looks := leads_look (v := sampleStanding [.ret none, .ret none, .ret (some out'.active),
    .ret none, sampleCode 4] none [0, 1, 3] u) (p := 4) rfl isLog'
  obtain ⟨k, reads'⟩ := leads_members (v := sampleStanding [.ret none, .ret none,
    .ret (some out'.active), .ret none, sampleOpened] none [0, 1, 3] u) (p := 4) rfl isLog'
    stands''.log.closed founded''.read unpinned'
  have runs := admits.trans (reads.trans (((checks.trans locks).trans admits').trans
    (looks.trans reads')))
  rw [← List.replicate_one, ← List.replicate_add, ← List.replicate_add, ← List.replicate_add]
    at runs
  have lists := (stands'.log.replayed sampleJson_lawful founded'.read unpinned).2
  have lists' := (stands''.log.replayed sampleJson_lawful founded''.read unpinned').2
  refine ⟨n, n', l + l' + l'', 1 + k, u, out'.active, out''.active, runs,
    (lists.mem_iff _).mpr rfl, (lists'.mem_iff _).mpr rfl, (lists'.mem_iff _).mpr rfl, _, out'',
    founded'', rfl, ?_⟩
  rw [third, second, first]
  rfl

/-- A run of the sample processes: they come to the middle, and from there to the end. -/
theorem exists_sampleRun : ∃ labels mid labels' last s t members members',
    Run (RegistryStep sampleBuild sampleJson sampleRegistry (sampleSkipper 1))
      (LockedProcesses.idle LogFiles.initial) labels mid ∧
    Run (RegistryStep sampleBuild sampleJson sampleRegistry (sampleSkipper 1)) mid labels' last ∧
    (∀ client, .start client ∈ labels ++ labels' → client ∈ sampleClients) ∧
    mid.standing = sampleMiddle s ∧ last.standing = sampleEnd members members' t ∧
    sampleMember 7 ∈ members ∧ sampleMember 7 ∈ members' ∧ sampleMember 8 ∈ members' ∧
    ∃ chain out, Founded sampleBuild sampleJson sampleRegistry (sampleSkipper 1)
      ⟨t.logBytes, []⟩ chain out ∧ chain.length = 3 ∧ out.headSeq = 2 := by
  obtain ⟨n, n', s, out, begins, stands, founded, dim, first⟩ := leads_sampleMiddle
  obtain ⟨k, k', k'', l, t, members, members', ends, rest⟩ :=
    leads_sampleEnd stands founded dim first
  obtain ⟨mid, run, isMiddle⟩ := begins _ (LockedProcesses.standing_idle LogFiles.initial)
  obtain ⟨last, run', isEnd⟩ := ends mid isMiddle
  refine ⟨_, mid, _, last, s, t, members, members', run, run', ?_, isMiddle, isEnd, rest⟩
  intro client member
  simpa [List.mem_append, List.mem_map, List.mem_replicate] using member

/-! ## What explains a run -/

/-- The map of members after calls took effect, one after the other. -/
def mapAfter (chosen : List (Nat × Client)) : MemberMap :=
  chosen.foldl (fun m entry => entry.2.call.effect m) .initial

/-- Calls that took effect in an order explain where processes are. -/
structure Explains (c : Build) (json : LinkJson) (skipper : Skipper) (s : RegistryProcesses)
    (chosen : List (Nat × Client)) : Prop where
  /-- No process takes the lock twice. -/
  once : (s.entered.map Prod.fst).Nodup
  /-- The calls had the lock in this order. -/
  order : chosen.Sublist s.entered
  /-- A call that returned took effect, if it has one. -/
  returned : ∀ p q value, s.processes[p]? = some q → q.rest = some (.ret value) →
    (p, q.command) ∈ chosen ∨ ∀ m, q.command.call.effect m = m
  /-- While the lock is free the log stands for the map. -/
  free : s.holder = none → LogStands c json skipper (mapAfter chosen) s.state.logBytes
  /-- While a call has the lock, the log stands for the map without or with the effect of the
  call, or for the former with the beginning of one more line. -/
  held : ∀ p, s.holder = some p → ∃ q, s.processes[p]? = some q ∧
    LogDuring c json skipper (mapAfter chosen) (q.command.call.effect (mapAfter chosen))
      s.state.logBytes

variable {c : Build} {json : LinkJson} {r : FileRegistry} {skipper : Skipper} {m m' : MemberMap}
  {s : RegistryProcesses} {chosen : List (Nat × Client)}

/-- Serial runs are explained by the calls that took effect. -/
theorem explains_serial (serial : (guardedLog c json r skipper).Serial .initial s chosen) :
    Explains c json skipper s chosen where
  once := serial.once
  order := by
    cases holder : s.holder with
    | none => exact (serial.free holder).1
    | some p =>
      obtain ⟨q, rest, before, holding⟩ := serial.held p holder
      rw [holding.entered]
      exact holding.sublist.trans (List.sublist_append_left _ _)
  returned p q value found ends := (serial.returned found ends).1
  free holder := (serial.free holder).2.log
  held p holder := by
    obtain ⟨q, rest, before, holding⟩ := serial.held p holder
    exact ⟨q, holding.found, holding.during.2⟩

/-- Before the first call the directory stands for no members. -/
theorem serial_initial :
    (guardedLog c json r skipper).Serial .initial
      (LockedProcesses.idle LogFiles.initial : RegistryProcesses) [] :=
  Guarded.serial_idle (stands_initial c json skipper)

/-- Every run of calls is serial. -/
theorem serial_run (correct : c.Correct) (lawful : json.Lawful) (free : json.PrefixFree)
    {labels : List (ProcessStep Client)}
    (run : Run (RegistryStep c json r skipper) (LockedProcesses.idle LogFiles.initial) labels s) :
    ∃ chosen, (guardedLog c json r skipper).Serial .initial s chosen := by
  obtain ⟨chosen, -, serial⟩ :=
    serial_initial.run (lawful_guardedLog correct lawful free) run
  exact ⟨chosen, serial⟩

/-- Any number of processes may call the registry at once, and may be stopped: at every moment the
log is what the calls that took effect leave when they run one after the other, in the order in
which they had the lock. What took effect stays, so a call that returned took effect before every
call that was started later. -/
theorem registry_serial (correct : c.Correct) (lawful : json.Lawful) (free : json.PrefixFree)
    {labels labels' : List (ProcessStep Client)} {mid last : RegistryProcesses}
    (run : Run (RegistryStep c json r skipper) (LockedProcesses.idle LogFiles.initial) labels mid)
    (later : Run (RegistryStep c json r skipper) mid labels' last) :
    ∃ chosen after, Explains c json skipper mid chosen ∧
      Explains c json skipper last (chosen ++ after) := by
  obtain ⟨chosen, serial⟩ := serial_run correct lawful free run
  obtain ⟨all, ⟨after, rfl⟩, serial'⟩ := serial.run (lawful_guardedLog correct lawful free) later
  exact ⟨chosen, after, explains_serial serial, explains_serial serial'⟩

/-- The log of the sample run is explained in its middle, where a process has the lock, and at its
end. -/
theorem registry_serial_sample : ∃ mid last : RegistryProcesses, ∃ s t members members',
    mid.standing = sampleMiddle s ∧ last.standing = sampleEnd members members' t ∧
    ∃ chosen after, Explains sampleBuild sampleJson (sampleSkipper 1) mid chosen ∧
      Explains sampleBuild sampleJson (sampleSkipper 1) last (chosen ++ after) := by
  obtain ⟨labels, mid, labels', last, s, t, members, members', run, later, -, isMiddle, isEnd, -⟩ :=
    exists_sampleRun
  exact ⟨mid, last, s, t, members, members', isMiddle, isEnd,
    registry_serial sampleBuild_correct sampleJson_lawful sampleJson_prefixFree run later⟩

/-- While the lock is free, some run of a section alone returns and leaves a log exactly when the
call returns and leaves the log in one step. -/
theorem section_refines_call (correct : c.Correct) (lawful : json.Lawful) (free : json.PrefixFree)
    {labels : List (ProcessStep Client)}
    (run : Run (RegistryStep c json r skipper) (LockedProcesses.idle LogFiles.initial) labels s)
    (unlocked : s.holder = none) (op : Op) (log : Option (List UInt8)) :
    (∃ reads t, MayReturn (op.locked c json r skipper reads) s.state () t ∧ t.logBytes = log) ↔
      ∃ dir, (op.call c json r (.fromSkipper c (skipper.pub c)) skipper).run
        ⟨s.state.logBytes, []⟩ = .ok () dir ∧ dir.log = log := by
  obtain ⟨chosen, serial⟩ := serial_run correct lawful free run
  obtain ⟨-, stands⟩ := serial.free unlocked
  exact locked_iff_call correct lawful free stands op log

/-- At the end of the sample run one more member can be admitted, so some run of the section
returns and leaves the same log. -/
theorem section_refines_call_sample : ∃ last : RegistryProcesses, ∃ s members members' dir dir',
    last.standing = sampleEnd members members' s ∧ dir.log = last.state.logBytes ∧
    ((Op.admitMember (sampleMember 9) none 0).call sampleBuild sampleJson sampleRegistry
      (sampleId 1) (sampleSkipper 1)).run dir = .ok () dir' ∧
    ∃ reads t, MayReturn ((Op.admitMember (sampleMember 9) none 0).locked sampleBuild sampleJson
      sampleRegistry (sampleSkipper 1) reads) last.state () t ∧ t.logBytes = dir'.log := by
  obtain ⟨labels, mid, labels', last, -, s, members, members', run, later, -, -, isEnd, -, -, -,
    chain, out, founded, length, third⟩ := exists_sampleRun
  obtain rfl : last.state = s := congrArg LockedProcesses.Standing.state isEnd
  obtain ⟨dir', -, returned, -⟩ := founded.run_admitMember sampleBuild_correct sampleJson_lawful
    (by rw [third]; decide) (by rw [length]; decide)
    (show (sampleMember 9).IsUtf8 by decide) none 0
  have unlocked : last.holder = none := congrArg LockedProcesses.Standing.holder isEnd
  exact ⟨last, _, members, members', ⟨last.state.logBytes, []⟩, dir', isEnd, rfl, returned,
    (section_refines_call sampleBuild_correct sampleJson_lawful sampleJson_prefixFree
      (run.append later) unlocked (.admitMember (sampleMember 9) none 0) dir'.log).mpr
      ⟨dir', returned, rfl⟩⟩

/-! ## What a reader sees -/

/-- A log without links stands for no members. -/
theorem LogStands.unfounded (lawful : json.Lawful) {path : PathBuf} {log : Option (List UInt8)}
    (stands : LogStands c json skipper m log) (read : readLog json path log = .ok []) :
    m.roster = Roster.empty := by
  obtain ⟨chain, read', -, ⟨rfl, none_⟩ | ⟨out, accepted, -⟩⟩ := stands.read lawful path
  · unfold LogStands at stands
    rw [none_] at stands
    exact stands.2
  · obtain rfl := Except.ok.inj (read.symm.trans read')
    cases accepted

/-- A log in the middle of a line is read as the log with the whole line, or not at all. -/
theorem readLog_part (lawful : json.Lawful) (free : json.PrefixFree) {path : PathBuf}
    {front part : List UInt8} {link : Link} {text : String} (closed : Closed front)
    (begun : part ≠ []) (inner : part <+: utf8 text) (encoded : json.toString link = .ok text)
    {chain : List Link} (read : readLog json path (some (front ++ part)) = .ok chain) :
    readLog json path (some (front ++ (utf8 text ++ [10]))) = .ok chain := by
  have inside : 10 ∉ part := fun member =>
    lawful.oneLine link text encoded (inner.subset member)
  rw [readLog, splitLines_append closed, readLines_append_ok 0] at read ⊢
  obtain ⟨one, others, readFront, readPart, rfl⟩ := read
  rw [splitLines_open inside begun] at readPart
  obtain ⟨link', text', encoded', rfl, rfl⟩ :=
    Begun.read lawful free (.inr ⟨link, text, encoded, inner⟩) begun readPart
  -- All of the text is there, so the link is the one that is written.
  obtain rfl := text_eq_of_prefix lawful free encoded' encoded inner
  have same := Except.ok.inj
    ((lawful.fromStr_toString encoded').symm.trans (lawful.fromStr_toString encoded))
  refine ⟨one, [link'], readFront, ?_, rfl⟩
  rw [same]
  exact (written_single encoded).read lawful _

/-- While a section runs, the log is read as a log that stands for one of its two maps. -/
theorem LogDuring.read (lawful : json.Lawful) (free : json.PrefixFree) {path : PathBuf}
    {log : Option (List UInt8)} (during : LogDuring c json skipper m m' log) {chain : List Link}
    (read : readLog json path log = .ok chain) :
    ∃ seen log', (seen = m ∨ seen = m') ∧ LogStands c json skipper seen log' ∧
      readLog json path log' = .ok chain := by
  rcases during with before | after | ⟨front, part, link, text, rfl, begun, inner, encoded, before,
    after⟩
  · exact ⟨m, log, .inl rfl, before, read⟩
  · exact ⟨m', log, .inr rfl, after, read⟩
  · exact ⟨m', _, .inr rfl, after,
      readLog_part lawful free (before.closed front rfl) begun inner encoded read⟩

/-- What a process reads at a moment of a run: the map of the calls that took effect, or the map
with the effect of the call that has the lock. -/
def MapAt (s : RegistryProcesses) (chosen : List (Nat × Client)) (m : MemberMap) : Prop :=
  m = mapAfter chosen ∨ ∃ p q, s.holder = some p ∧ s.processes[p]? = some q ∧
    m = q.command.call.effect (mapAfter chosen)

/-- What is read of the log at a moment stands for the map of the moment. -/
theorem Explains.read (lawful : json.Lawful) (free : json.PrefixFree) {path : PathBuf}
    (explains : Explains c json skipper s chosen) {chain : List Link}
    (read : readLog json path s.state.logBytes = .ok chain) :
    ∃ m log, MapAt s chosen m ∧ LogStands c json skipper m log ∧
      readLog json path log = .ok chain := by
  cases holder : s.holder with
  | none => exact ⟨_, _, .inl rfl, explains.free holder, read⟩
  | some p =>
    obtain ⟨q, found, during⟩ := explains.held p holder
    obtain ⟨m, log, rfl | rfl, stands, read'⟩ := during.read lawful free read
    · exact ⟨_, log, .inl rfl, stands, read'⟩
    · exact ⟨_, log, .inr ⟨p, q, holder, found, rfl⟩, stands, read'⟩

/-- `members` reports what the log replays to. -/
theorem run_members_iff {hansa : HansaId} {dir : HansaDir} {members : List MemberRecord} :
    (r.members c json hansa).run dir = .ok members dir ↔
      ∃ chain, readLog json (r.logPath hansa) dir.log = .ok chain ∧
        (chain = [] ∧ members = [] ∨
          ∃ out, replay c chain none = .ok out ∧ out.active = members) := by
  cases read : readLog json (r.logPath hansa) dir.log with
  | error fault =>
    simp only [FileRegistry.members, EStateM.run_bind, run_readChain_error read, reduceCtorEq,
      false_and, exists_false]
  | ok chain =>
    rw [run_members read]
    by_cases empty : chain = []
    · subst empty
      rw [if_pos rfl]
      constructor
      · intro same
        cases same
        exact ⟨[], rfl, .inl ⟨rfl, rfl⟩⟩
      · rintro ⟨chain, same, ⟨-, rfl⟩ | ⟨out, accepted, -⟩⟩
        · rfl
        · cases same
          cases accepted
    · rw [if_neg empty]
      cases accepted : replay c chain none with
      | error fault => simp [empty, accepted]
      | ok out => simp [empty, accepted]

/-- What `members` would return at a moment of a run lists a map that the log shows. -/
theorem Explains.members (lawful : json.Lawful) (free : json.PrefixFree)
    (explains : Explains c json skipper s chosen) {members : List MemberRecord}
    (runs : ∀ dir : HansaDir, dir.log = s.state.logBytes →
      (r.members c json (.fromSkipper c (skipper.pub c))).run dir = .ok members dir) :
    ∃ m, MapAt s chosen m ∧ KeyedMap.Lists MemberRecord.tenantId m.roster members := by
  obtain ⟨chain, read, reported⟩ := run_members_iff.mp (runs ⟨s.state.logBytes, []⟩ rfl)
  obtain ⟨m, log, mapAt, stands, read'⟩ := explains.read lawful free read
  refine ⟨m, mapAt, ?_⟩
  rcases reported with ⟨rfl, rfl⟩ | ⟨out, accepted, rfl⟩
  · rw [stands.unfounded lawful read']
    exact ⟨.nil, fun m => ⟨fun absent => (nomatch absent), fun absent => (nomatch absent)⟩⟩
  · exact (stands.replayed lawful read' accepted).2

/-- What a `members` call of a run returned, it would have returned in one step at a moment since it
was started. -/
theorem moment_of_members (correct : c.Correct) (lawful : json.Lawful) (free : json.PrefixFree)
    {labels : List (ProcessStep Client)}
    (run : Run (RegistryStep c json r skipper) (LockedProcesses.idle LogFiles.initial) labels s)
    {p : Nat} {q : RegistryProcess} (found : s.processes[p]? = some q)
    (isMembers : q.command.call = .members) {reply : Option (List MemberRecord)}
    (returned : q.rest = some (.ret reply)) :
    ∃ members before after mid, reply = some members ∧ labels = before ++ after ∧
      Run (RegistryStep c json r skipper) (LockedProcesses.idle LogFiles.initial) before mid ∧
      Run (RegistryStep c json r skipper) mid after s ∧ p < mid.processes.length ∧
      ∀ dir : HansaDir, dir.log = mid.state.logBytes →
        (r.members c json (.fromSkipper c (skipper.pub c))).run dir = .ok members dir := by
  obtain ⟨_, serial⟩ := serial_run correct lawful free run
  obtain ⟨members, isReply, u, member, runs⟩ :=
    (serial.returned found returned).2 isMembers reply rfl
  obtain ⟨before, after, mid, split, first, rest, started, rfl⟩ :=
    LockedProcesses.moment run found member
  exact ⟨members, before, after, mid, isReply, split, first, rest, started, runs⟩

/-- A `members` call that returned in a run returned, as one list in order, the members of a map
that the log showed at one moment between its call and its return. -/
theorem members_snapshot (correct : c.Correct) (lawful : json.Lawful) (free : json.PrefixFree)
    {labels : List (ProcessStep Client)}
    (run : Run (RegistryStep c json r skipper) (LockedProcesses.idle LogFiles.initial) labels s)
    {p : Nat} {q : RegistryProcess} (found : s.processes[p]? = some q)
    (isMembers : q.command.call = .members) {reply : Option (List MemberRecord)}
    (returned : q.rest = some (.ret reply)) :
    ∃ members before after mid chosen m, reply = some members ∧ labels = before ++ after ∧
      Run (RegistryStep c json r skipper) (LockedProcesses.idle LogFiles.initial) before mid ∧
      Run (RegistryStep c json r skipper) mid after s ∧ p < mid.processes.length ∧
      Explains c json skipper mid chosen ∧ MapAt mid chosen m ∧
      KeyedMap.Lists MemberRecord.tenantId m.roster members := by
  obtain ⟨members, before, after, mid, isReply, split, first, rest, started, runs⟩ :=
    moment_of_members correct lawful free run found isMembers returned
  obtain ⟨chosen, serial⟩ := serial_run correct lawful free first
  have explains := explains_serial serial
  obtain ⟨m, mapAt, lists⟩ := explains.members lawful free runs
  exact ⟨members, before, after, mid, chosen, m, isReply, split, first, rest, started, explains,
    mapAt, lists⟩

/-- The third process of the sample run, which looked for the log before the second wrote and read
it after, returned the members of one moment, and the second's member among them. -/
theorem members_snapshot_sample : ∃ last : RegistryProcesses, ∃ members chosen m mid,
    (∃ t members', last.standing = sampleEnd members members' t) ∧ sampleMember 7 ∈ members ∧
    Explains sampleBuild sampleJson (sampleSkipper 1) mid chosen ∧ MapAt mid chosen m ∧
    KeyedMap.Lists MemberRecord.tenantId m.roster members := by
  obtain ⟨labels, mid, labels', last, -, t, members, members', run, later, -, -, isEnd, inside,
    -⟩ := exists_sampleRun
  obtain ⟨q, found, call, returned⟩ := LockedProcesses.exists_of_standing (p := 2)
    (congrArg (fun v => v.left[2]?) isEnd)
  obtain ⟨_, before, after, moment, chosen, m, ⟨⟩, -, -, -, -, explains, mapAt, lists⟩ :=
    members_snapshot sampleBuild_correct sampleJson_lawful sampleJson_prefixFree
      (run.append later) found (congrArg Client.call call) returned
  exact ⟨last, members, chosen, m, moment, ⟨t, members', isEnd⟩, inside, explains, mapAt, lists⟩

/-! ## One dimension -/

/-- A call that does not admit a member without comparing its dimension. -/
def RegistryCall.Compares : RegistryCall → Prop
  | .op (.admitMember ..) => False
  | _ => True

/-- All members have the dimension of the founding. -/
def MemberMap.Uniform (m : MemberMap) : Prop :=
  ∀ tenant record, m.roster tenant = some record → m.dim = some record.embeddingDim

/-- Before the first founding there are no members. -/
theorem uniform_initial : MemberMap.initial.Uniform := fun _ _ none_ => nomatch none_

/-- A member after an operation was there before, or is admitted by it. -/
theorem MemberMap.step_roster {op : Op} {tenant : TenantId} {record : MemberRecord}
    (found : (m.step op).roster tenant = some record) :
    m.roster tenant = some record ∨ ∃ memberPub now, op = .admitMember record memberPub now := by
  have update : ∀ {own : TenantId} {value : Option MemberRecord},
      Function.update m.roster own value tenant = some record →
        value = some record ∨ m.roster tenant = some record := by
    intro own value found
    by_cases same : tenant = own
    · subst same
      rw [Function.update_self] at found
      exact .inl found
    · rw [Function.update_of_ne same] at found
      exact .inr found
  cases op with
  | found embeddingDim createdAt =>
    rw [step] at found
    split at found
    · cases found
    · exact .inl found
  | admitMember member memberPub now =>
    rw [step] at found
    split at found
    · rcases update found with new | old
      · obtain rfl := Option.some.inj new
        exact .inr ⟨memberPub, now, rfl⟩
      · exact .inl old
    · exact .inl found
  | revoke tenantId time reason now =>
    rw [step] at found
    split at found
    · rcases update found with none_ | old
      · cases none_
      · exact .inl old
    · exact .inl found
  | compact now => exact .inl found

/-- A call keeps the dimension that a founding pinned. -/
theorem RegistryCall.effect_dim (call : RegistryCall) {dim : UInt32} (founded : m.dim = some dim) :
    (call.effect m).dim = some dim := by
  cases call with
  | op op => exact MemberMap.step_dim founded op
  | members => exact founded
  | admitMember member now =>
    rw [effect]
    split
    · exact MemberMap.step_dim founded _
    · exact founded

/-- The members after a call that compares have the dimension that was pinned before the call. -/
theorem RegistryCall.Compares.effect {call : RegistryCall} (compares : call.Compares)
    (uniform : m.Uniform) {tenant : TenantId} {record : MemberRecord}
    (found : (call.effect m).roster tenant = some record) :
    m.dim = some record.embeddingDim := by
  cases call with
  | members => exact uniform tenant record found
  | admitMember member now =>
    rw [RegistryCall.effect] at found
    split at found
    · rename_i fits
      rcases MemberMap.step_roster found with old | ⟨memberPub, now', same⟩
      · exact uniform tenant record old
      · obtain ⟨rfl, -, -⟩ := Op.admitMember.inj same
        exact fits
    · exact uniform tenant record found
  | op op =>
    rcases MemberMap.step_roster found with old | ⟨memberPub, now, rfl⟩
    · exact uniform tenant record old
    · exact compares.elim

/-- A call that compares keeps the dimension of all members. -/
theorem RegistryCall.Compares.uniform {call : RegistryCall} (compares : call.Compares)
    (uniform : m.Uniform) : (call.effect m).Uniform :=
  fun _ _ found => call.effect_dim (compares.effect uniform found)

/-- Calls that compare leave members of one dimension. -/
theorem uniform_mapAfter (compares : ∀ entry ∈ chosen, entry.2.call.Compares) :
    (mapAfter chosen).Uniform := by
  have fold : ∀ {m : MemberMap}, m.Uniform →
      (chosen.foldl (fun m entry => entry.2.call.effect m) m).Uniform := by
    induction chosen with
    | nil => exact fun uniform => uniform
    | cons entry chosen ih =>
      intro m uniform
      have first := (compares entry List.mem_cons_self).uniform uniform
      exact ih (fun entry' member => compares entry' (List.mem_cons_of_mem _ member)) first
  exact fold uniform_initial

/-- The members that a moment shows have the dimension that was pinned then. -/
theorem MapAt.dim (mapAt : MapAt s chosen m) (compares : ∀ entry ∈ chosen, entry.2.call.Compares)
    (running : ∀ q ∈ s.processes, q.command.call.Compares) {tenant : TenantId}
    {record : MemberRecord} (found : m.roster tenant = some record) :
    (mapAfter chosen).dim = some record.embeddingDim := by
  have uniform := uniform_mapAfter compares
  rcases mapAt with rfl | ⟨p, q, -, isProcess, rfl⟩
  · exact uniform tenant record found
  · exact (running q (List.mem_of_getElem? isProcess)).effect uniform found

/-- A log that stands for a founded map begins with a link that pins its dimension. -/
theorem LogStands.pins {bytes : List UInt8} (stands : LogStands c json skipper m (some bytes))
    {dim : UInt32} (founded : m.dim = some dim) :
    ∃ link text, json.toString link = .ok text ∧ utf8 text <+: bytes ∧
      link.body.rootDim? = some dim := by
  unfold LogStands at stands
  rw [founded] at stands
  obtain ⟨_, chain, out, ⟨⟩, written, accepted, -, rfl, -⟩ := stands
  obtain ⟨root, isRoot, -, -, rootDim⟩ := (replay_ok accepted).1.root
  cases chain with
  | nil => cases isRoot
  | cons link links =>
    obtain rfl := Option.some.inj isRoot
    obtain ⟨text, rest, encoded, -, rfl⟩ := written_cons.mp written
    exact ⟨link, text, encoded, ⟨[10] ++ rest, by rw [List.append_assoc]⟩, rootDim⟩

/-- A founded map has a log. -/
theorem LogStands.isSome {log : Option (List UInt8)} (stands : LogStands c json skipper m log)
    {dim : UInt32} (founded : m.dim = some dim) : ∃ bytes, log = some bytes := by
  unfold LogStands at stands
  rw [founded] at stands
  obtain ⟨bytes, -, -, isLog, -⟩ := stands
  exact ⟨bytes, isLog⟩

/-- The directory pins the dimension of the map of the calls that took effect. -/
theorem Explains.pins (explains : Explains c json skipper s chosen) {dim : UInt32}
    (founded : (mapAfter chosen).dim = some dim) : s.state.Pins json dim := by
  have stands : ∀ {m log}, LogStands c json skipper m log → m.dim = some dim →
      ∃ bytes ∈ log, ∃ link text, json.toString link = .ok text ∧ utf8 text <+: bytes ∧
        link.body.rootDim? = some dim := by
    intro m log stands founded
    obtain ⟨bytes, rfl⟩ := stands.isSome founded
    exact ⟨bytes, rfl, stands.pins founded⟩
  cases holder : s.holder with
  | none => exact stands (explains.free holder) founded
  | some p =>
    obtain ⟨q, -, before | after | ⟨front, part, -, -, isLog, -, -, -, before, -⟩⟩ :=
      explains.held p holder
    · exact stands before founded
    · exact stands after (q.command.call.effect_dim founded)
    · obtain ⟨link, text, encoded, isFront, root⟩ := before.pins founded
      exact ⟨front ++ part, isLog, link, text, encoded,
        isFront.trans (List.prefix_append front part), root⟩

/-- A directory pins one dimension. -/
theorem LogFiles.Pins.unique (lawful : json.Lawful) (free : json.PrefixFree) {files : LogFiles}
    {dim dim' : UInt32} (one : files.Pins json dim) (two : files.Pins json dim') : dim = dim' := by
  obtain ⟨bytes, isLog, link, text, encoded, front, root⟩ := one
  obtain ⟨bytes', isLog', link', text', encoded', front', root'⟩ := two
  obtain rfl := Option.some.inj (isLog.symm.trans isLog')
  have same : text = text' := by
    rcases List.prefix_or_prefix_of_prefix front front' with shorter | longer
    · exact text_eq_of_prefix lawful free encoded encoded' shorter
    · symm
      exact text_eq_of_prefix lawful free encoded' encoded longer
  subst same
  have links := Except.ok.inj
    ((lawful.fromStr_toString encoded).symm.trans (lawful.fromStr_toString encoded'))
  subst links
  exact Option.some.inj (root.symm.trans root')

/-- In a run of calls that compare, the map that a moment shows has members of the dimension that
was pinned by then. -/
theorem Explains.dim (explains : Explains c json skipper s chosen)
    {labels : List (ProcessStep Client)}
    (run : Run (RegistryStep c json r skipper) (LockedProcesses.idle LogFiles.initial) labels s)
    (compares : ∀ client, .start client ∈ labels → client.call.Compares)
    (mapAt : MapAt s chosen m) {tenant : TenantId} {record : MemberRecord}
    (found : m.roster tenant = some record) :
    (mapAfter chosen).dim = some record.embeddingDim := by
  obtain ⟨running, entered⟩ := LockedProcesses.started run
  refine mapAt.dim (fun entry member => ?_) (fun q member => compares _ (running q member)) found
  exact compares _ (entered entry (explains.order.subset member))

/-- What a `members` call of a run of calls that compare returned has the pinned dimension. -/
theorem pins_of_members (correct : c.Correct) (lawful : json.Lawful) (free : json.PrefixFree)
    {labels : List (ProcessStep Client)}
    (run : Run (RegistryStep c json r skipper) (LockedProcesses.idle LogFiles.initial) labels s)
    (compares : ∀ client, .start client ∈ labels → client.call.Compares) {p : Nat}
    {q : RegistryProcess} (found : s.processes[p]? = some q)
    (isMembers : q.command.call = .members) {members : List MemberRecord}
    (returned : q.rest = some (.ret (some members))) {record : MemberRecord}
    (member : record ∈ members) : s.state.Pins json record.embeddingDim := by
  obtain ⟨_, before, after, mid, ⟨⟩, rfl, first, rest, -, runs⟩ :=
    moment_of_members correct lawful free run found isMembers returned
  obtain ⟨chosen, serial⟩ := serial_run correct lawful free first
  have explains := explains_serial serial
  obtain ⟨m, mapAt, lists⟩ := explains.members lawful free runs
  have founded := explains.dim first
    (fun client started => compares client (List.mem_append_left _ started)) mapAt
    ((lists.mem_iff record).mp member)
  exact serial.invariant (lawful_guardedLog correct lawful free)
    (fun files => files.Pins json record.embeddingDim) (explains.pins founded)
    (fun v w pinned grows => LogFiles.Grows.pins grows _ pinned) rest

/-- While members are admitted by handles alone, which compare the dimension before they take the
lock, all members that any `members` calls of a run return have one dimension, and those of the log
have the one that its root pins. -/
theorem members_one_dim (correct : c.Correct) (lawful : json.Lawful) (free : json.PrefixFree)
    {labels : List (ProcessStep Client)}
    (run : Run (RegistryStep c json r skipper) (LockedProcesses.idle LogFiles.initial) labels s)
    (compares : ∀ client, .start client ∈ labels → client.call.Compares) :
    (∀ (p p' : Nat) (q q' : RegistryProcess) (members members' : List MemberRecord),
      s.processes[p]? = some q → q.command.call = .members → q.rest = some (.ret (some members)) →
      s.processes[p']? = some q' → q'.command.call = .members →
      q'.rest = some (.ret (some members')) →
      ∀ record ∈ members, ∀ record' ∈ members', record.embeddingDim = record'.embeddingDim) ∧
    SharesDim c json (r.logPath (.fromSkipper c (skipper.pub c))) ⟨s.state.logBytes, []⟩ := by
  constructor
  · intro p p' q q' members members' found isMembers returned found' isMembers' returned' record
      member record' member'
    have one := pins_of_members correct lawful free run compares found isMembers returned member
    have two := pins_of_members correct lawful free run compares found' isMembers' returned' member'
    exact one.unique lawful free two
  · intro chain out read accepted record active
    obtain ⟨chosen, serial⟩ := serial_run correct lawful free run
    have explains := explains_serial serial
    obtain ⟨m, log, mapAt, stands, read'⟩ := explains.read lawful free read
    obtain ⟨founded, lists⟩ := stands.replayed lawful read' accepted
    have pinned := explains.dim run compares mapAt ((lists.mem_iff record).mp active)
    have same : m.dim = some record.embeddingDim := by
      rcases mapAt with rfl | ⟨p, q, -, -, rfl⟩
      · exact pinned
      · exact q.command.call.effect_dim pinned
    rw [(replay_ok accepted).1.pins, ← founded, same]

/-- The two readers of the sample run were told of different members, of one dimension, which the
log pins. -/
theorem members_one_dim_sample : ∃ last : RegistryProcesses, ∃ members members' t,
    last.standing = sampleEnd members members' t ∧ sampleMember 7 ∈ members ∧
    sampleMember 8 ∈ members' ∧
    (∀ record ∈ members, ∀ record' ∈ members', record.embeddingDim = record'.embeddingDim) ∧
    SharesDim sampleBuild sampleJson (sampleRegistry.logPath (sampleId 1))
      ⟨last.state.logBytes, []⟩ := by
  obtain ⟨labels, mid, labels', last, -, t, members, members', run, later, started, -, isEnd, first,
    -, second, -⟩ := exists_sampleRun
  obtain ⟨q, found, call, returned⟩ := LockedProcesses.exists_of_standing (p := 2)
    (congrArg (fun v => v.left[2]?) isEnd)
  obtain ⟨q', found', call', returned'⟩ := LockedProcesses.exists_of_standing (p := 4)
    (congrArg (fun v => v.left[4]?) isEnd)
  have compares : ∀ client ∈ sampleClients, client.call.Compares := by
    simp [sampleClients, RegistryCall.Compares]
  obtain ⟨agree, shares⟩ :=
    members_one_dim sampleBuild_correct sampleJson_lawful sampleJson_prefixFree (run.append later)
      fun client member => compares client (started client member)
  exact ⟨last, members, members', t, isEnd, first, second,
    agree 2 4 q q' members members' found (congrArg Client.call call) returned found'
      (congrArg Client.call call') returned', shares⟩

end Hansa
