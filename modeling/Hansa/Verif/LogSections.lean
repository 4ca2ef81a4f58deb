import Hansa.Verif.LogWriting

/-!
# Sections of the registry

The code that `with_lock` runs, as sections of processes that share the directory: each call
keeps the directory sound and the log between the map that the section found and the map it
leaves. What a section returns tells which of the two it left.
-/

namespace Hansa

open Program

variable {c : Build} {json : LinkJson} {skipper : Skipper} {r : FileRegistry}
  {m m' : MemberMap} {s : LogFiles} {past : List LogFiles}

/-- The log stands for one of two maps, or for the first with a beginning of the line behind it
that leads to the second. -/
def LogDuring (c : Build) (json : LinkJson) (skipper : Skipper) (m m' : MemberMap)
    (log : Option (List UInt8)) : Prop :=
  LogStands c json skipper m log ∨ LogStands c json skipper m' log ∨
    ∃ front part link text, log = some (front ++ part) ∧ part ≠ [] ∧ part <+: utf8 text ∧
      json.toString link = .ok text ∧ LogStands c json skipper m (some front) ∧
      LogStands c json skipper m' (some (front ++ (utf8 text ++ [10])))

/-- The log in the middle of a line. -/
theorem logDuring_part {front done : List UInt8} {link : Link} {text : String}
    (encoded : json.toString link = .ok text) (before : LogStands c json skipper m (some front))
    (after : LogStands c json skipper m' (some (front ++ (utf8 text ++ [10]))))
    (part : done <+: utf8 text ++ [10]) :
    LogDuring c json skipper m m' (some (front ++ done)) := by
  rcases List.prefix_concat_iff.mp part with rfl | inner
  · exact .inr (.inl after)
  · by_cases nothing : done = []
    · subst nothing
      rw [List.append_nil]
      exact .inl before
    · exact .inr (.inr ⟨front, done, link, text, rfl, nothing, inner, encoded, before, after⟩)

/-- A settled log stands for one of the maps. -/
theorem LogDuring.settled (lawful : json.Lawful) {log : Option (List UInt8)}
    (during : LogDuring c json skipper m m' log) (closed : ∀ bytes ∈ log, Closed bytes) :
    LogStands c json skipper m log ∨ LogStands c json skipper m' log := by
  rcases during with before | after |
    ⟨front, part, link, text, rfl, begun, inner, encoded, before, -⟩
  · exact .inl before
  · exact .inr after
  · exfalso
    have inside := (show Begun json part from .inr ⟨link, text, encoded, inner⟩).inside lawful
    obtain ⟨-, none_⟩ := closed_open_inj (closed _ rfl) (before.closed front rfl)
      List.not_mem_nil inside (List.append_nil (front ++ part))
    exact begun none_.symm

/-- What a call of a section does. -/
def Progress (c : Build) (json : LinkJson) (skipper : Skipper) (m m' : MemberMap)
    (s t : LogFiles) : Prop :=
  s.Grows json t ∧ LogDuring c json skipper m m' t.logBytes

/-- The directory is sound, and the log stands for a map. -/
structure Stands (c : Build) (json : LinkJson) (skipper : Skipper) (m : MemberMap)
    (s : LogFiles) : Prop where
  /-- The directory is sound. -/
  sound : s.Sound json
  /-- The log stands for the map. -/
  log : LogStands c json skipper m s.logBytes

/-- How the section of a call ends: with the second map, and with the log that the call leaves
when it is one step, if it returns; with one of the two maps if it fails. -/
def Left (c : Build) (json : LinkJson) (skipper : Skipper) (m m' : MemberMap)
    (call : FileM Unit) (s : LogFiles) : Except Fault Unit → LogFiles → Prop
  | .ok _, t => Stands c json skipper m' t ∧ ∀ dir : HansaDir, dir.log = s.logBytes →
      ∃ dir', call.run dir = .ok () dir' ∧ dir'.log = t.logBytes
  | .error _, t => Stands c json skipper m t ∨ Stands c json skipper m' t

/-- A section ends as another call does that does the same in one step. -/
theorem Left.congr {call call' : FileM Unit} {result : Except Fault Unit} {t : LogFiles}
    (left : Left c json skipper m m' call s result t)
    (same : ∀ dir : HansaDir, dir.log = s.logBytes → call'.run dir = call.run dir) :
    Left c json skipper m m' call' s result t := by
  cases result with
  | error fault => exact left
  | ok _ => exact ⟨left.1, fun dir isLog => same dir isLog ▸ left.2 dir isLog⟩

/-- A call that changes nothing is progress. -/
theorem Stands.still (stands : Stands c json skipper m s) : Progress c json skipper m m' s s :=
  ⟨stands.sound.grows, .inl stands.log⟩

/-- A call after which the log stands for the second map. -/
def KeepsMap (c : Build) (json : LinkJson) (skipper : Skipper) (m : MemberMap) (s t : LogFiles) :
    Prop :=
  s.Grows json t ∧ LogStands c json skipper m t.logBytes

/-- A call that leaves the second map is progress. -/
theorem KeepsMap.progress {t : LogFiles} (keeps : KeepsMap c json skipper m' s t) :
    Progress c json skipper m m' s t :=
  ⟨keeps.1, .inr (.inl keeps.2)⟩

/-- After a call that keeps a map the directory stands for it. -/
theorem KeepsMap.stands {t : LogFiles} (keeps : KeepsMap c json skipper m s t) :
    Stands c json skipper m t :=
  ⟨keeps.1.sound, keeps.2⟩

/-! ## Reading under the lock -/

/-- Under the lock the log is read as what it stands for. -/
theorem guarantees_readLocked (lawful : json.Lawful) (free : json.PrefixFree) (hansa : HansaId)
    {guar : LogFiles → LogFiles → Prop} (sound : s.Sound json) (still : guar s s) (reads : Nat) :
    (FileRegistry.Steps.readChain json r hansa reads).Guarantees FileOp.Untorn (fun _ _ => False)
      guar (fun result t _ => t = s ∧ ∀ links, result = .ok links →
        readLog json (r.logPath hansa) s.logBytes = .ok links) s past := by
  refine (guarantees_readChain (fun u => u = s) lawful free r hansa
    (fun _ _ no => no.elim) (fun _ _ _ no => no.elim) (fun u same _ => same ▸ still) sound rfl
    reads).mono fun result t more ⟨held, ends⟩ => ⟨held, fun links same => ?_⟩
  obtain ⟨u, -, moment, read⟩ := ends links same
  exact moment.held ▸ read

/-! ## Writing a buffer -/

/-- `write_all` writes its bytes in pieces, and fails only where the log is settled. -/
theorem guarantees_writeAll (guar : LogFiles → LogFiles → Prop) (file : Nat)
    (line : List UInt8) (inv : List UInt8 → LogFiles → Prop)
    (still : ∀ done s, inv done s → guar s s)
    (grow : ∀ done part s, inv done s → done ++ part <+: line →
      guar s (s.put file (s.content file ++ part)) ∧
        inv (done ++ part) (s.put file (s.content file ++ part)))
    {done rest : List UInt8} (past : List LogFiles) (whole : done ++ rest = line)
    (here : inv done s) :
    (FileRegistry.Steps.writeAll file rest).Guarantees FileOp.Untorn (fun _ _ => False) guar
      (fun result t _ => match result with
        | .ok () => inv line t
        | .error _ => ∃ done rest, done ++ rest = line ∧ rest ≠ [] ∧ inv done t ∧ t.Settled)
      s past := by
  induction size : rest.length using Nat.strong_induction_on generalizing done rest s past with
  | _ size' ih =>
    subst size
    cases rest with
    | nil =>
      rw [FileRegistry.Steps.writeAll]
      rw [List.append_nil] at whole
      exact guarantees_ret (whole ▸ here)
    | cons b bytes =>
      rw [FileRegistry.Steps.writeAll]
      refine guarantees_alone fun answer t fate => ?_
      obtain ⟨done', settled⟩ := fate
      rcases done' with ⟨⟨e, rfl⟩, rfl⟩ | ⟨n, most, rfl, rfl⟩
      · exact ⟨still done t here,
          guarantees_fail
            ⟨done, b :: bytes, whole, List.cons_ne_nil b bytes, here, settled trivial⟩⟩
      · have front : done ++ (b :: bytes).take n <+: line := by
          rw [← whole]
          exact (List.prefix_append_right_inj done).mpr (List.take_prefix n _)
        obtain ⟨change, next⟩ := grow done _ s here front
        refine ⟨change, ?_⟩
        cases n with
        | zero =>
          have same : s.put file (s.content file ++ (b :: bytes).take 0) = s :=
            s.put_nothing file
          rw [same]
          exact guarantees_fail
            ⟨done, b :: bytes, whole, List.cons_ne_nil b bytes, here, settled rfl⟩
        | succ n =>
          refine ih (bytes.drop n).length ?_ _ ?_ next rfl
          · rw [List.length_drop, List.length_cons]
            omega
          · rw [List.append_assoc, List.take_succ_cons, List.cons_append, List.take_append_drop]
            exact whole

/-! ## Appending a line -/

/-- `append_link` takes the log from one map to the next, if its line does. -/
theorem guarantees_appendLink (lawful : json.Lawful) {link : Link}
    (stands : Stands c json skipper m s)
    (appended : ∀ text, json.toString link = .ok text →
      LogStands c json skipper m' (some (s.logBytes.getD [] ++ (utf8 text ++ [10])))) :
    (FileRegistry.Steps.appendLink json link).Guarantees FileOp.Untorn (fun _ _ => False)
      (Progress c json skipper m m')
      (fun result t _ => Left c json skipper m m' (FileRegistry.appendLink json link) s result t)
      s past := by
  refine guarantees_alone fun answer t fate => ?_
  obtain rfl := fate.1
  refine ⟨stands.still, ?_⟩
  cases answer with
  | error e => exact guarantees_fail (.inl stands)
  | ok _ =>
  refine guarantees_alone fun answer u fate => ?_
  obtain ⟨done, -⟩ := fate
  -- The log exists now, and stands for the same map.
  have opened : (∃ e, answer = .error e) ∧ u = t ∨ ∃ file, answer = .ok file ∧
      u.log = some file ∧ t.Grows json u ∧ u.logBytes = some (t.logBytes.getD []) := by
    rcases done with failed | ⟨file, isLog, rfl, rfl⟩ | ⟨absent, rfl, rfl⟩
    · exact .inl failed
    · refine .inr ⟨file, rfl, isLog, stands.sound.grows, ?_⟩
      rw [LogFiles.logBytes_of_log isLog, Option.getD_some]
    · obtain ⟨grows, bytes⟩ := stands.sound.create_log absent
      refine .inr ⟨_, rfl, rfl, grows, bytes.trans ?_⟩
      rw [show t.logBytes = none by rw [LogFiles.logBytes, absent]; rfl, Option.getD_none]
  rcases opened with ⟨⟨e, rfl⟩, rfl⟩ | ⟨file, rfl, isLog, grows, bytes⟩
  · exact ⟨stands.still, guarantees_fail (.inl stands)⟩
  have before : LogStands c json skipper m u.logBytes := bytes ▸ stands.log.touch
  refine ⟨⟨grows, .inl before⟩, ?_⟩
  have sound := grows.sound
  cases encoded : json.toString link with
  | error e => exact guarantees_fail (.inl ⟨sound, before⟩)
  | ok text =>
  obtain ⟨chain, -, written, -⟩ := stands.log.read lawful ⟨[]⟩
  have after := appended text encoded
  have inOneStep : ∀ dir : HansaDir, dir.log = t.logBytes →
      ∃ dir', (FileRegistry.appendLink json link).run dir = .ok () dir' ∧
        dir'.log = some (t.logBytes.getD [] ++ (utf8 text ++ [10])) := by
    intro dir same
    refine ⟨dir.append link text, by rw [run_appendLink, encoded], ?_⟩
    rw [HansaDir.append, same, List.append_assoc]
  generalize t.logBytes.getD [] = front at bytes after written inOneStep
  rw [bytes] at before
  have lined : ∀ done, done <+: utf8 text ++ [10] → Lined json (front ++ done) := by
    intro done part
    rcases List.prefix_concat_iff.mp part with rfl | inner
    · exact (written.append (written_single encoded)).lined
    · exact ⟨front, done, chain, rfl, written, .inr ⟨link, text, encoded, inner⟩⟩
  have line := guarantees_writeAll (Progress c json skipper m m') file (utf8 text ++ [10])
    (fun done v => v.Sound json ∧ v.log = some file ∧ v.content file = front ++ done ∧
      done <+: utf8 text ++ [10])
    (by
      rintro done v ⟨sound, isLog, content, part⟩
      refine ⟨sound.grows, ?_⟩
      rw [LogFiles.logBytes_of_log isLog, content]
      exact logDuring_part encoded before after part)
    (by
      rintro done part v ⟨sound, isLog, content, -⟩ inside
      have longer : v.content file <+: v.content file ++ part := List.prefix_append _ _
      have grows := sound.put_log isLog longer (by
        rw [content, List.append_assoc]
        exact lined _ inside)
      have now := LogFiles.logBytes_put sound isLog (v.content file ++ part)
      rw [content, List.append_assoc] at now grows ⊢
      refine ⟨⟨grows, now ▸ logDuring_part encoded before after inside⟩, grows.sound, isLog, ?_,
        inside⟩
      rw [LogFiles.content_put (sound.log file isLog).1, if_pos rfl])
    (t :: t :: past) (List.nil_append _)
    ⟨sound, isLog, by
      rw [LogFiles.logBytes_of_log isLog] at bytes
      rw [Option.some.inj bytes, List.append_nil], List.nil_prefix⟩
  have finish : (FileRegistry.Steps.writeAll file (utf8 text ++ [10]) >>= fun _ =>
      .perform (.sync file) ioResult : FilesM Unit).Guarantees FileOp.Untorn (fun _ _ => False)
      (Progress c json skipper m m')
      (fun result v _ => Left c json skipper m m' (FileRegistry.appendLink json link) t result v) u
      (t :: t :: past) := by
    refine line.andThen ?_ ?_
    · -- A write failed at the beginning of the line.
      rintro e v more ⟨done, rest, whole, left, ⟨sound, isLog, content, part⟩, settled⟩
      refine .inl ⟨sound, ?_⟩
      have closed := settled _ (LogFiles.logBytes_of_log isLog)
      rw [LogFiles.logBytes_of_log isLog]
      rw [content] at closed ⊢
      have inside : 10 ∉ done := by
        rcases List.prefix_concat_iff.mp part with same | inner
        · rw [same] at whole
          exact absurd (List.append_right_eq_self.mp whole) left
        · exact fun member => lawful.oneLine link text encoded (inner.subset member)
      obtain ⟨-, rfl⟩ := closed_open_inj closed written.closed List.not_mem_nil inside
        (List.append_nil _)
      rw [List.append_nil]
      exact before
    · rintro ⟨⟩ v more ⟨sound, isLog, content, -⟩
      have bytes' := LogFiles.logBytes_of_log isLog
      rw [content] at bytes'
      have stands' : Stands c json skipper m' v := ⟨sound, bytes' ▸ after⟩
      refine guarantees_alone fun answer w fate => ?_
      obtain rfl := fate.1
      refine ⟨⟨sound.grows, .inr (.inl stands'.log)⟩, ?_⟩
      cases answer with
      | error e => exact guarantees_fail (.inr stands')
      | ok _ => exact guarantees_ret ⟨stands', bytes' ▸ inOneStep⟩
  exact finish

/-! ## Replacing the log -/

/-- A log keeps the dimension that its first link pins when a checkpoint of its chain takes its
place. -/
theorem pins_checkpoint (lawful : json.Lawful) (free : json.PrefixFree) {chain : List Link}
    {out : ReplayOutcome} {expected : Option HansaId} {seq : UInt64} {now : Int64}
    {bytes : List UInt8} {t : LogFiles} (written : Written json (s.logBytes.getD []) chain)
    (accepted : replay c chain expected = .ok out) (isLog : t.logBytes = some bytes)
    (checkpoint : Written json bytes [checkpointLink c skipper out seq now]) {dim : UInt32}
    (pinned : s.Pins json dim) : t.Pins json dim := by
  obtain ⟨before, isBefore, link, text, encoded, front, root⟩ := pinned
  rw [Option.mem_def.mp isBefore, Option.getD_some] at written
  have first := written.head lawful free encoded front
  obtain ⟨root', isRoot, -, -, rootDim⟩ := (replay_ok accepted).1.root
  obtain rfl := Option.some.inj (first.symm.trans isRoot)
  rw [root] at rootDim
  obtain ⟨text', rest, encoded', -, rfl⟩ := written_cons.mp checkpoint
  refine ⟨_, isLog, _, text', encoded', ⟨[10] ++ rest, by simp⟩, ?_⟩
  rw [Option.some.inj rootDim]
  rfl

/-- `write_chain_atomic` keeps a map that its links stand for. -/
theorem guarantees_writeChainAtomic {links : List Link} (stands : Stands c json skipper m s)
    (replaces : ∀ buffer, Written json buffer links → LogStands c json skipper m (some buffer))
    (pins : ∀ buffer t dim, Written json buffer links → LogFiles.logBytes t = some buffer →
      s.Pins json dim → t.Pins json dim) :
    (FileRegistry.Steps.writeChainAtomic json links).Guarantees FileOp.Untorn (fun _ _ => False)
      (KeepsMap c json skipper m)
      (fun result t _ =>
        Left c json skipper m m (FileRegistry.writeChainAtomic json links) s result t) s past := by
  cases buffered : FileRegistry.chainBuffer json links with
  | error fault =>
    have failed : FileRegistry.Steps.writeChainAtomic json links = .fail fault := by
      rw [FileRegistry.Steps.writeChainAtomic, buffered]
      rfl
    rw [failed]
    exact guarantees_fail (.inl stands)
  | ok buffer =>
  have steps : FileRegistry.Steps.writeChainAtomic json links =
      .perform .createTemp fun answer => ioResult answer >>= fun file =>
        FileRegistry.Steps.writeAll file buffer >>= fun _ => .perform .rename ioResult := by
    rw [FileRegistry.Steps.writeChainAtomic, buffered]
    rfl
  rw [steps]
  have still : ∀ {t}, Stands c json skipper m t → KeepsMap c json skipper m t t :=
    fun here => ⟨here.sound.grows, here.log⟩
  refine guarantees_alone fun answer t ⟨done, _⟩ => ?_
  -- The temporary file is there, and empty.
  have created : (∃ e, answer = .error e) ∧ t = s ∨ ∃ file, answer = .ok file ∧
      t.temp = some file ∧ t.content file = [] ∧ s.Grows json t ∧ t.logBytes = s.logBytes := by
    rcases done with failed | ⟨file, isTemp, rfl, rfl⟩ | ⟨absent, rfl, rfl⟩
    · exact .inl failed
    · obtain ⟨grows, same⟩ := stands.sound.put_temp isTemp []
      refine .inr ⟨file, rfl, isTemp, ?_, grows, same⟩
      rw [LogFiles.content_put (stands.sound.temp file isTemp), if_pos rfl]
    · obtain ⟨grows, same⟩ := stands.sound.create_temp absent
      exact .inr ⟨_, rfl, rfl, LogFiles.content_created, grows, same⟩
  rcases created with ⟨⟨e, rfl⟩, rfl⟩ | ⟨file, rfl, isTemp, empty, grows, same⟩
  · exact ⟨still stands, guarantees_fail (.inl stands)⟩
  have here : LogStands c json skipper m t.logBytes := same ▸ stands.log
  refine ⟨⟨grows, here⟩, ?_⟩
  have filled := guarantees_writeAll (KeepsMap c json skipper m) file buffer
    (fun done v => v.Sound json ∧ v.temp = some file ∧ v.content file = done ∧
      v.logBytes = s.logBytes)
    (fun done v ⟨sound, _, _, same⟩ => ⟨sound.grows, same ▸ stands.log⟩)
    (fun done part v ⟨sound, isTemp, content, same⟩ _ => by
      obtain ⟨grows, kept⟩ := sound.put_temp isTemp (v.content file ++ part)
      refine ⟨⟨grows, (kept.trans same) ▸ stands.log⟩, grows.sound, isTemp, ?_, kept.trans same⟩
      rw [LogFiles.content_put (sound.temp file isTemp), if_pos rfl, content])
    (s :: past) (List.nil_append buffer) ⟨grows.sound, isTemp, empty, same⟩
  refine filled.andThen ?_ ?_
  · rintro e v more ⟨done, rest, -, -, ⟨sound, -, -, same⟩, -⟩
    exact .inl ⟨sound, same ▸ stands.log⟩
  · rintro ⟨⟩ v more ⟨sound, isTemp, content, same⟩
    have stands' : Stands c json skipper m v := ⟨sound, same ▸ stands.log⟩
    refine guarantees_alone fun answer w ⟨done, _⟩ => ?_
    rcases done with ⟨⟨e, rfl⟩, rfl⟩ | ⟨file', isTemp', rfl, rfl⟩
    · exact ⟨still stands', guarantees_fail (.inl stands')⟩
    · obtain rfl := Option.some.inj (isTemp.symm.trans isTemp')
      have written : Written json (v.content file) links := content ▸ buffered
      obtain ⟨grows, isLog⟩ := sound.rename isTemp written fun dim pinned =>
        pins _ _ dim written rfl (by rwa [LogFiles.Pins, same] at pinned)
      have renamed : KeepsMap c json skipper m v _ := ⟨grows, isLog ▸ replaces _ written⟩
      refine ⟨renamed, guarantees_ret ⟨renamed.stands, fun dir _ => ?_⟩⟩
      refine ⟨{ log := some buffer, written := dir.written ++ links }, ?_, ?_⟩
      · rw [FileRegistry.writeChainAtomic, buffered]
        rfl
      · rw [isLog, content]

/-- `checkpoint_locked` keeps the map at every call. -/
theorem guarantees_checkpointLocked (correct : c.Correct) (lawful : json.Lawful)
    (free : json.PrefixFree) (stands : Stands c json skipper m s) (now : Int64) (reads : Nat) :
    (FileRegistry.Steps.checkpointLocked c json r (.fromSkipper c (skipper.pub c)) skipper now
        reads).Guarantees FileOp.Untorn (fun _ _ => False) (KeepsMap c json skipper m)
      (fun result t _ => Left c json skipper m m
        (r.checkpointLocked c json (.fromSkipper c (skipper.pub c)) skipper now) s result t)
      s past := by
  have still : ∀ {t}, Stands c json skipper m t → KeepsMap c json skipper m t t :=
    fun here => ⟨here.sound.grows, here.log⟩
  refine (guarantees_readLocked lawful free _ stands.sound (still stands) reads).andThen
    (fun fault t more ends => .inl (ends.1 ▸ stands)) fun chain t more ends => ?_
  obtain ⟨rfl, read⟩ := ends
  have inOneStep : ∀ dir : HansaDir, dir.log = t.logBytes →
      readLog json (r.logPath (.fromSkipper c (skipper.pub c))) dir.log = .ok chain :=
    fun dir same => same ▸ read chain rfl
  split
  · rename_i short
    refine guarantees_ret ⟨stands, fun dir same => ⟨dir, ?_, same⟩⟩
    rw [run_checkpointLocked (inOneStep dir same), if_pos short]
  obtain ⟨chain', read', written, described⟩ := stands.log.read lawful
    (r.logPath (.fromSkipper c (skipper.pub c)))
  obtain rfl := Except.ok.inj ((read chain rfl).symm.trans read')
  rcases described with ⟨rfl, -⟩ | ⟨out, accepted, signer, dim, roster⟩
  · exact absurd (Nat.zero_le 1) ‹_›
  simp only [(replay_pinned.mp accepted).1, ofExcept_ok_bind]
  cases next : UInt64.succIn c.profile out.headSeq with
  | error fault => exact .inl stands
  | ok seq =>
    refine (guarantees_writeChainAtomic stands
      (fun buffer checkpoint => LogStands.compact correct accepted dim roster checkpoint)
      fun buffer u dim checkpoint isLog pinned =>
        pins_checkpoint lawful free written accepted isLog checkpoint pinned).mono ?_
    intro result u most ends
    refine ends.congr fun dir same => ?_
    simp only [FileRegistry.checkpointLocked, EStateM.run_bind, run_readChain, inOneStep dir same,
      FileM.run_ofResult, ‹¬ chain.length ≤ 1›, if_false, (replay_pinned.mp accepted).1, next]
    rfl

/-! ## Appending the next link -/

/-- An append to a chain that replays, by its parts. -/
theorem run_appendNext_parts (skipper : Skipper) {hansa : HansaId} {dir : HansaDir}
    {chain : List Link} {out : ReplayOutcome}
    (read : readLog json (r.logPath hansa) dir.log = .ok chain)
    (accepted : replay c chain none = .ok out) (room : UInt64.HasSucc c.profile out.headSeq)
    (body : Body) (now : Int64) :
    (r.appendNext c json hansa skipper body now).run dir =
      match (FileRegistry.appendLink json (nextLink c skipper out body)).run dir with
      | .error fault dir' => .error fault dir'
      | .ok _ dir' => if chain.length + 1 > checkpointAfterLinks then
          (r.checkpointLocked c json hansa skipper now).run dir' else .ok () dir' := by
  rw [run_appendNext read, accepted, run_appendLink, nextLink]
  simp only [UInt64.succIn_eq room]
  cases json.toString (Link.signed c skipper (out.headSeq + 1) out.headHash body) <;> rfl

/-- What `append_next` does under the lock takes the log to the map with the body's change, if JSON
can carry the body and the hansa is founded; it returns only then. -/
theorem guarantees_appendLocked (correct : c.Correct) (lawful : json.Lawful)
    (free : json.PrefixFree) (stands : Stands c json skipper m s) {body : Body}
    (inner : ¬ body.IsRoot) (now : Int64) (reads : Nat)
    (changes : ∀ dim, m.dim = some dim → body.IsUtf8 →
      m' = ⟨some dim, body.change m.roster⟩) :
    (FileRegistry.Steps.appendLocked c json r (.fromSkipper c (skipper.pub c)) skipper body now
        reads).Guarantees FileOp.Untorn (fun _ _ => False) (Progress c json skipper m m')
      (fun result t _ => Left c json skipper m m'
        (r.appendNext c json (.fromSkipper c (skipper.pub c)) skipper body now) s result t)
      s past := by
  refine (guarantees_readLocked lawful free _ stands.sound stands.still reads).andThen
    (fun fault t more ends => .inl (ends.1 ▸ stands)) fun chain t more ends => ?_
  obtain ⟨rfl, read⟩ := ends
  obtain ⟨chain', read', written, described⟩ := stands.log.read lawful
    (r.logPath (.fromSkipper c (skipper.pub c)))
  obtain rfl := Except.ok.inj ((read chain rfl).symm.trans read')
  rcases described with ⟨rfl, -⟩ | ⟨out, accepted, signer, dim, roster⟩
  · -- Nothing can be appended to an empty chain.
    exact guarantees_fail (.inl stands)
  simp only [(replay_pinned.mp accepted).1, ofExcept_ok_bind]
  cases next : UInt64.succIn c.profile out.headSeq with
  | error fault => exact guarantees_fail (.inl stands)
  | ok seq =>
    obtain ⟨room, rfl⟩ := UInt64.succIn_eq_ok.mp next
    have appended : ∀ text, json.toString (nextLink c skipper out body) = .ok text →
        LogStands c json skipper m' (some (t.logBytes.getD [] ++ (utf8 text ++ [10]))) := by
      intro text encoded
      have carried : body.IsUtf8 := by
        by_contra invalid
        obtain ⟨e, refused⟩ := lawful.refuses (nextLink c skipper out body) invalid
        cases encoded.symm.trans refused
      rw [changes _ dim carried, ← roster]
      exact LogStands.append correct inner written accepted signer room encoded
    have parts : ∀ dir : HansaDir, dir.log = t.logBytes → _ := fun dir same =>
      run_appendNext_parts skipper (same ▸ read chain rfl)
        (replay_pinned.mp accepted).1 room body now
    refine (guarantees_appendLink lawful stands appended).andThen
      (fun fault u more ends => ends) fun _ u more ends => ?_
    obtain ⟨stands', appends⟩ := ends
    -- The link is there; what follows keeps the map.
    by_cases grown : chain.length + 1 > checkpointAfterLinks
    · rw [if_pos grown]
      refine ((guarantees_checkpointLocked correct lawful free stands' now reads).weaken
        fun v w keeps => keeps.progress).mono fun result v more ends => ?_
      cases result with
      | error fault => exact .inr (ends.elim id id)
      | ok _ =>
        refine ⟨ends.1, fun dir same => ?_⟩
        obtain ⟨mid, run, log⟩ := appends dir same
        obtain ⟨last, run', log'⟩ := ends.2 mid log
        refine ⟨last, ?_, log'⟩
        rw [parts dir same, run]
        simp only [if_pos grown, run']
    · rw [if_neg grown]
      refine guarantees_ret ⟨stands', fun dir same => ?_⟩
      obtain ⟨last, run, log⟩ := appends dir same
      refine ⟨last, ?_, log⟩
      rw [parts dir same, run]
      simp only [if_neg grown]

/-- What `found` does under the lock founds the map, unless it was founded. -/
theorem guarantees_foundLocked (correct : c.Correct) (lawful : json.Lawful)
    (free : json.PrefixFree) (stands : Stands c json skipper m s) (embeddingDim : UInt32)
    (createdAt : Int64) (reads : Nat)
    (founds : m' = if m.dim.isNone then ⟨some embeddingDim, Roster.empty⟩ else m) :
    (FileRegistry.Steps.foundLocked c json r (.fromSkipper c (skipper.pub c)) skipper embeddingDim
        createdAt reads).Guarantees FileOp.Untorn (fun _ _ => False)
      (Progress c json skipper m m') (fun result t _ => Left c json skipper m m'
        (r.found c json (.fromSkipper c (skipper.pub c)) skipper embeddingDim createdAt) s result t)
      s past := by
  refine (guarantees_readLocked lawful free _ stands.sound stands.still reads).andThen
    (fun fault t more ends => .inl (ends.1 ▸ stands)) fun chain t more ends => ?_
  obtain ⟨rfl, read⟩ := ends
  obtain ⟨chain', read', written, described⟩ := stands.log.read lawful
    (r.logPath (.fromSkipper c (skipper.pub c)))
  obtain rfl := Except.ok.inj ((read chain rfl).symm.trans read')
  rcases described with ⟨rfl, founding⟩ | ⟨out, accepted, signer, dim, roster⟩
  · rw [founding, Option.isNone_none, if_pos rfl] at founds
    subst founds
    refine (guarantees_appendLink lawful stands fun text encoded =>
      LogStands.found correct written encoded).mono fun result u more ends => ?_
    refine ends.congr fun dir same => ?_
    rw [run_found (same ▸ read [] rfl), if_neg (not_not_intro rfl)]
    rfl
  · rw [dim, Option.isNone_some, if_neg Bool.false_ne_true] at founds
    subst founds
    rw [if_pos (ne_nil_of_replay accepted)]
    refine guarantees_ret ⟨stands, fun dir same => ⟨dir, ?_, same⟩⟩
    rw [run_found (same ▸ read chain rfl), if_pos (ne_nil_of_replay accepted)]

end Hansa
