import Hansa.Verif.Instance

/-!
# When extending the chain is safe

An append or a compaction is safe on a log when it either returns an error and leaves the
chain as it was, or returns normally and leaves a chain that still replays under the hansa's
id with the effect asked for. The registry signs with whatever key and whatever body it is
given, so safety is a condition on both; it is computed here exactly.
-/

namespace Hansa

variable {c : Build} {json : LinkJson} {r : FileRegistry} {hansa : HansaId}

/-! ## Members that JSON can carry -/

/-- Every member of a roster has a valid path. -/
def Roster.IsUtf8 (roster : Roster) : Prop := ∀ t m, roster t = some m → m.IsUtf8

/-- Storing a record with a valid path keeps all paths valid. -/
theorem Roster.IsUtf8.update {roster : Roster} (valid : roster.IsUtf8) {m : MemberRecord}
    (path : m.IsUtf8) : Roster.IsUtf8 (Function.update roster m.tenantId (some m)) := by
  intro t m' found
  by_cases same : t = m.tenantId
  · subst same
    rw [Function.update_self] at found
    obtain rfl := Option.some.inj found
    exact path
  · rw [Function.update_of_ne same] at found
    exact valid t m' found

/-- Records with valid paths make a roster with valid paths. -/
theorem Roster.isUtf8_ofRecords {members : List MemberRecord} (paths : ∀ m ∈ members, m.IsUtf8) :
    (ofRecords members).IsUtf8 := by
  have step : ∀ roster : Roster, roster.IsUtf8 → Roster.IsUtf8
      (members.foldl (fun roster m => Function.update roster m.tenantId (some m)) roster) := by
    induction members with
    | nil => exact fun _ valid => valid
    | cons m members ih =>
      obtain ⟨path, rest⟩ := List.forall_mem_cons.mp paths
      exact fun roster valid => ih rest _ (valid.update path)
  exact step _ (fun _ _ found => nomatch found)

/-- A body with valid paths keeps all paths of a roster valid. -/
theorem Body.isUtf8_apply {body : Body} (paths : body.IsUtf8) {roster : Roster}
    (valid : roster.IsUtf8) : (body.apply roster).IsUtf8 := by
  cases body with
  | genesis => exact fun _ _ found => nomatch found
  | checkpoint => exact Roster.isUtf8_ofRecords paths
  | admitMember => exact valid.update paths
  | revoke tenantId =>
    intro t m found
    by_cases same : t = tenantId
    · subst same
      simp [apply] at found
    · rw [apply, Function.update_of_ne same] at found
      exact valid t m found

/-- The roster of links with valid paths has valid paths. -/
theorem rosterOf_isUtf8 {chain : List Link} (paths : ∀ link ∈ chain, link.IsUtf8) :
    (rosterOf (chain.map Link.toStatement)).IsUtf8 := by
  have step : ∀ roster : Roster, roster.IsUtf8 →
      (roster.after (chain.map Link.toStatement)).IsUtf8 := by
    induction chain with
    | nil => exact fun _ valid => valid
    | cons link chain ih =>
      obtain ⟨path, rest⟩ := List.forall_mem_cons.mp paths
      exact fun roster valid => ih rest _ (Body.isUtf8_apply path valid)
  exact step _ (fun _ _ found => nomatch found)

/-- The checkpoint of a readable chain can be encoded. -/
theorem encodes_checkpoint (lawful : json.Lawful) {path : PathBuf} {log : Option (List UInt8)}
    {chain : List Link} (read : readLog json path log = .ok chain) {out : ReplayOutcome}
    (described : Replays c chain out) (skipper : Skipper) (seq : UInt64) (now : Int64) :
    ∃ text, json.toString (checkpointLink c skipper out seq now) = .ok text := by
  have paths : ∀ link ∈ chain, link.IsUtf8 := by
    cases log with
    | none =>
      obtain rfl := Except.ok.inj read
      exact fun _ none => nomatch none
    | some bytes => exact isUtf8_of_readLines lawful read
  refine lawful.encodes _ fun m member => ?_
  exact rosterOf_isUtf8 paths m.tenantId m ((described.active.mem_iff m).mp member)

/-! ## Compaction -/

/-- A link signed by a skipper carries its signature. -/
theorem Link.signed_signed (correct : c.Correct) (skipper : Skipper) (seq : UInt64)
    (prev : Bytes 32) (body : Body) : (Link.signed c skipper seq prev body).Signed c :=
  correct skipper _

/-- What a caller of `compact` may rely on. -/
def CompactSafe (c : Build) (json : LinkJson) (r : FileRegistry) (hansa : HansaId)
    (dir : HansaDir) (chain : List Link) (out : ReplayOutcome) (skipper : Skipper)
    (now : Int64) : Prop :=
  match (r.compact c json hansa skipper now).run dir with
  | .error (.err _) dir' => readLog json (r.logPath hansa) dir'.log = .ok chain
  | .error .panic _ => False
  | .ok () dir' => ∃ chain' out', readLog json (r.logPath hansa) dir'.log = .ok chain' ∧
      replay c chain' (some hansa) = .ok out' ∧
      out'.active = out.active ∧ out'.embeddingDim = out.embeddingDim

/-- A chain with one link needs no compaction; any other must be compacted by the key that
hashes to the id, before the sequence numbers run out. -/
def MayCompact (c : Build) (hansa : HansaId) (chain : List Link) (out : ReplayOutcome)
    (skipper : Skipper) : Prop :=
  chain.length ≤ 1 ∨
    UInt64.HasSucc c.profile out.headSeq ∧ HansaId.fromSkipper c (skipper.pub c) = hansa

/-- The checkpoint of an accepted chain replays alone, under the id its signer hashes to. -/
theorem replay_checkpointLink (correct : c.Correct) {chain : List Link}
    {expected expected' : Option HansaId} {out : ReplayOutcome}
    (accepted : replay c chain expected = .ok out) (skipper : Skipper) (seq : UInt64)
    (now : Int64) (pinned : Pinned c expected' (skipper.pub c)) :
    replay c [checkpointLink c skipper out seq now] expected' = .ok
      { skipper := skipper.pub c, embeddingDim := out.embeddingDim, active := out.active,
        headSeq := seq, headHash := (checkpointLink c skipper out seq now).hash c } :=
  replay_checkpoint rfl (Link.signed_signed correct skipper seq _ _) pinned (rosterOf_keyed _)
    (replay_ok accepted).1.active

/-- A compaction of a longer chain, with room for its sequence number, writes the checkpoint. -/
theorem run_compact_long (lawful : json.Lawful) {dir : HansaDir} {chain : List Link}
    {expected : Option HansaId} {out : ReplayOutcome}
    (read : readLog json (r.logPath hansa) dir.log = .ok chain)
    (accepted : replay c chain expected = .ok out) (long : ¬ chain.length ≤ 1)
    (room : UInt64.HasSucc c.profile out.headSeq) (skipper : Skipper) (now : Int64) :
    ∃ text,
      json.toString (checkpointLink c skipper out (out.headSeq + 1) now) = .ok text ∧
      (r.compact c json hansa skipper now).run dir =
        .ok () (dir.replace (checkpointLink c skipper out (out.headSeq + 1) now) text) := by
  have unpinned := (replay_pinned.mp accepted).1
  obtain ⟨text, encoded⟩ := encodes_checkpoint lawful read (replay_ok unpinned).1 skipper
    (out.headSeq + 1) now
  refine ⟨text, encoded, ?_⟩
  rw [FileRegistry.compact, run_checkpointLocked read, if_neg long, unpinned]
  simp only [UInt64.succIn_eq room, encoded]

/-- Compaction is safe exactly when it may be done. -/
theorem compactSafe_iff (correct : c.Correct) (lawful : json.Lawful) {dir : HansaDir}
    {chain : List Link} {out : ReplayOutcome}
    (read : readLog json (r.logPath hansa) dir.log = .ok chain)
    (accepted : replay c chain (some hansa) = .ok out) (skipper : Skipper) (now : Int64) :
    CompactSafe c json r hansa dir chain out skipper now ↔
      MayCompact c hansa chain out skipper := by
  by_cases short : chain.length ≤ 1
  · have run : (r.compact c json hansa skipper now).run dir = .ok () dir := by
      rw [FileRegistry.compact, run_checkpointLocked read, if_pos short]
    simp only [CompactSafe, run, MayCompact, short, true_or, iff_true]
    exact ⟨chain, out, read, accepted, rfl, rfl⟩
  by_cases room : UInt64.HasSucc c.profile out.headSeq
  · obtain ⟨text, encoded, run⟩ := run_compact_long lawful read accepted short room skipper now
    have read' := readLog_single lawful (r.logPath hansa) encoded
    simp only [CompactSafe, run, MayCompact, short, false_or, room, true_and]
    constructor
    · rintro ⟨chain', out', readBack, accepted', -, -⟩
      obtain rfl := Except.ok.inj (readBack.symm.trans read')
      obtain ⟨described, pinned⟩ := replay_ok accepted'
      obtain ⟨first, isFirst, -, key, -⟩ := described.root
      obtain rfl := Option.some.inj isFirst
      rw [key] at pinned
      exact pinned_some.mp pinned
    · intro bound
      exact ⟨_, _, read', replay_checkpointLink correct accepted skipper _ now
        (pinned_some.mpr bound), rfl, rfl⟩
  · have run : (r.compact c json hansa skipper now).run dir = .error .panic dir := by
      rw [FileRegistry.compact, run_checkpointLocked read, if_neg short,
        (replay_pinned.mp accepted).1]
      simp only [UInt64.succIn_panic room]
    simp only [CompactSafe, run, MayCompact, short, room, false_and, or_self]

/-! ## Appending -/

/-- What a caller of `append_next` may rely on, of how the call ends. -/
def Appended (c : Build) (json : LinkJson) (path : PathBuf) (hansa : HansaId)
    (chain : List Link) (out : ReplayOutcome) (body : Body) :
    EStateM.Result Fault HansaDir Unit → Prop
  | .error (.err _) dir' => readLog json path dir'.log = .ok chain
  | .error .panic _ => False
  | .ok () dir' => ∃ chain' out', readLog json path dir'.log = .ok chain' ∧
      replay c chain' (some hansa) = .ok out' ∧ out'.embeddingDim = out.embeddingDim ∧
      KeyedMap.Lists MemberRecord.tenantId
        (body.change (rosterOf (chain.map Link.toStatement))) out'.active

/-- An append that a caller may rely on. -/
def AppendSafe (c : Build) (json : LinkJson) (r : FileRegistry) (hansa : HansaId)
    (dir : HansaDir) (chain : List Link) (out : ReplayOutcome) (skipper : Skipper) (body : Body)
    (now : Int64) : Prop :=
  Appended c json (r.logPath hansa) hansa chain out body
    ((r.appendNext c json hansa skipper body now).run dir)

/-- There must be a next sequence number; then either JSON refuses the body before anything is
written, or the log takes a line, the root's key signs, the body is an admit or a revoke, and
the checkpoint that may follow finds a sequence number as well. -/
def MayAppend (c : Build) (log : Option (List UInt8)) (chain : List Link) (out : ReplayOutcome)
    (skipper : Skipper) (body : Body) : Prop :=
  UInt64.HasSucc c.profile out.headSeq ∧
    (¬ body.IsUtf8 ∨
      (∀ bytes ∈ log, Appendable bytes) ∧ skipper.pub c = out.skipper ∧ ¬ body.IsRoot ∧
        (checkpointAfterLinks ≤ chain.length → UInt64.HasSucc c.profile (out.headSeq + 1)))

/-- A link signed on the head of a chain may come next exactly when the root's key signs an
admit or a revoke. -/
theorem next_signed_iff (correct : c.Correct) {out : ReplayOutcome}
    (room : UInt64.HasSucc c.profile out.headSeq) (skipper : Skipper) (body : Body) :
    (Link.signed c skipper (out.headSeq + 1) out.headHash body).Next c out ↔
      skipper.pub c = out.skipper ∧ ¬ body.IsRoot := by
  constructor
  · exact fun next => ⟨next.signer, next.inner⟩
  · rintro ⟨signer, inner⟩
    exact ⟨UInt64.succIn_eq room, rfl, signer, inner,
      Link.signed_signed correct skipper _ _ _⟩

/-- A log with links exists as a file. -/
theorem log_of_read {path : PathBuf} {log : Option (List UInt8)} {chain : List Link}
    (read : readLog json path log = .ok chain) (links : chain ≠ []) :
    ∃ bytes, log = some bytes := by
  cases log with
  | none => exact absurd (Except.ok.inj read).symm links
  | some bytes => exact ⟨bytes, rfl⟩

/-- An accepted chain is not empty. -/
theorem ne_nil_of_replay {chain : List Link} {expected : Option HansaId} {out : ReplayOutcome}
    (accepted : replay c chain expected = .ok out) : chain ≠ [] := by
  rintro rfl
  cases accepted

/-- An accepted chain with one more link is long enough to be compacted. -/
theorem not_length_concat_le_one {chain : List Link} {expected : Option HansaId}
    {out : ReplayOutcome} (accepted : replay c chain expected = .ok out) (link : Link) :
    ¬ (chain ++ [link]).length ≤ 1 := by
  have nonempty := List.length_pos_iff.mpr (ne_nil_of_replay accepted)
  simp only [List.length_append, List.length_singleton]
  omega

/-- The end of `append_next`: with the line written, the log may have to be compacted. -/
def afterAppend (c : Build) (json : LinkJson) (r : FileRegistry) (hansa : HansaId)
    (chain : List Link) (skipper : Skipper) (now : Int64) (mid : HansaDir) :
    EStateM.Result Fault HansaDir Unit :=
  if chain.length + 1 > checkpointAfterLinks then (r.compact c json hansa skipper now).run mid
  else .ok () mid

/-- With a sequence number and an encoding for its link, `append_next` writes the line. -/
theorem run_appendNext_encoded {dir : HansaDir} {chain : List Link} {out : ReplayOutcome}
    (read : readLog json (r.logPath hansa) dir.log = .ok chain)
    (accepted : replay c chain none = .ok out) (room : UInt64.HasSucc c.profile out.headSeq)
    {skipper : Skipper} {body : Body} {text : String}
    (encoded : json.toString (Link.signed c skipper (out.headSeq + 1) out.headHash body) =
      .ok text) (now : Int64) :
    (r.appendNext c json hansa skipper body now).run dir =
      afterAppend c json r hansa chain skipper now
        (dir.append (Link.signed c skipper (out.headSeq + 1) out.headHash body) text) := by
  rw [run_appendNext read, accepted]
  simp only [UInt64.succIn_eq room, encoded, afterAppend, FileRegistry.compact]

/-- An append that returns over an unreadable log leaves an unreadable log. -/
theorem afterAppend_unreadable {mid : HansaDir}
    (unreadable : ∀ links, readLog json (r.logPath hansa) mid.log ≠ .ok links)
    (chain : List Link) (skipper : Skipper) (now : Int64) :
    afterAppend c json r hansa chain skipper now mid = .ok () mid ∨
      ∃ fault, afterAppend c json r hansa chain skipper now mid = .error fault mid := by
  unfold afterAppend
  split
  · cases read : readLog json (r.logPath hansa) mid.log with
    | ok links => exact absurd read (unreadable links)
    | error fault => exact .inr ⟨fault, dirAfter_checkpointLocked_error read now⟩
  · exact .inl rfl

/-- No caller can rely on an append that leaves an unreadable log. -/
theorem not_appended_unreadable {mid : HansaDir}
    (unreadable : ∀ links, readLog json (r.logPath hansa) mid.log ≠ .ok links)
    (chain : List Link) (out : ReplayOutcome) (skipper : Skipper) (body : Body) (now : Int64) :
    ¬ Appended c json (r.logPath hansa) hansa chain out body
      (afterAppend c json r hansa chain skipper now mid) := by
  rcases afterAppend_unreadable unreadable chain skipper now with run | ⟨fault, run⟩
  · rw [run]
    rintro ⟨links, -, read, -⟩
    exact unreadable links read
  · rw [run]
    cases fault with
    | panic => exact id
    | err e => exact unreadable chain

/-- A link that may not come next stays in the log, whether or not the append returns. -/
theorem afterAppend_foreign {mid : HansaDir} {chain : List Link} {out : ReplayOutcome}
    {link : Link} (accepted : replay c chain none = .ok out)
    (reads : readLog json (r.logPath hansa) mid.log = .ok (chain ++ [link]))
    (foreign : ¬ link.Next c out) (skipper : Skipper) (now : Int64) :
    afterAppend c json r hansa chain skipper now mid = .ok () mid ∨
      ∃ fault, afterAppend c json r hansa chain skipper now mid = .error fault mid := by
  have long := not_length_concat_le_one accepted link
  unfold afterAppend
  split
  · cases replayed : replay c (chain ++ [link]) none with
    | ok out' => exact absurd (next_of_replay_concat accepted replayed) foreign
    | error fault =>
      refine .inr ⟨fault, ?_⟩
      rw [FileRegistry.compact, run_checkpointLocked reads, if_neg long, replayed]
  · exact .inl rfl

/-- With a link in the log that may not come next, the chain no longer replays. -/
theorem not_appended_foreign {mid : HansaDir} {chain : List Link} {out : ReplayOutcome}
    {link : Link} (accepted : replay c chain none = .ok out)
    (reads : readLog json (r.logPath hansa) mid.log = .ok (chain ++ [link]))
    (foreign : ¬ link.Next c out) (skipper : Skipper) (body : Body) (now : Int64) :
    ¬ Appended c json (r.logPath hansa) hansa chain out body
      (afterAppend c json r hansa chain skipper now mid) := by
  rcases afterAppend_foreign accepted reads foreign skipper now with run | ⟨fault, run⟩
  · rw [run]
    rintro ⟨chain', out', read, accepted', -, -⟩
    obtain rfl := Except.ok.inj (reads.symm.trans read)
    exact foreign (next_of_replay_concat accepted accepted')
  · rw [run]
    cases fault with
    | panic => exact id
    | err e =>
      intro unchanged
      have same := Except.ok.inj (reads.symm.trans unchanged)
      simp at same

/-- A next link extends the chain, and the checkpoint that may follow keeps the result. -/
theorem afterAppend_next (correct : c.Correct) (lawful : json.Lawful) {mid : HansaDir}
    {chain : List Link} {expected : Option HansaId} {out : ReplayOutcome} {skipper : Skipper}
    {body : Body} (accepted : replay c chain expected = .ok out)
    (reads : readLog json (r.logPath hansa) mid.log =
      .ok (chain ++ [Link.signed c skipper (out.headSeq + 1) out.headHash body]))
    (next : (Link.signed c skipper (out.headSeq + 1) out.headHash body).Next c out)
    (now : Int64)
    (room' : checkpointAfterLinks ≤ chain.length → UInt64.HasSucc c.profile (out.headSeq + 1)) :
    ∃ dir' chain' out', afterAppend c json r hansa chain skipper now mid = .ok () dir' ∧
      readLog json (r.logPath hansa) dir'.log = .ok chain' ∧
      replay c chain' expected = .ok out' ∧ out'.embeddingDim = out.embeddingDim ∧
      KeyedMap.Lists MemberRecord.tenantId
        (body.change (rosterOf (chain.map Link.toStatement))) out'.active := by
  obtain ⟨active, lists, accepted'⟩ := replay_concat accepted next
  unfold afterAppend
  by_cases grown : checkpointAfterLinks ≤ chain.length
  · have long := not_length_concat_le_one accepted
      (Link.signed c skipper (out.headSeq + 1) out.headHash body)
    obtain ⟨text, encoded, run⟩ :=
      run_compact_long lawful reads accepted' long (room' grown) skipper now
    have bound : Pinned c expected (skipper.pub c) := by
      rw [show skipper.pub c = out.skipper from next.signer]
      exact (replay_ok accepted).2
    rw [if_pos (Nat.lt_succ_of_le grown), run]
    exact ⟨_, _, _, rfl, readLog_single lawful (r.logPath hansa) encoded,
      replay_checkpointLink correct accepted' skipper _ now bound, rfl, lists⟩
  · rw [if_neg (by omega)]
    exact ⟨_, _, _, rfl, reads, accepted', rfl, lists⟩

/-- Without a sequence number for the checkpoint that has to follow, the append panics. -/
theorem afterAppend_panics {mid : HansaDir} {chain : List Link} {out : ReplayOutcome}
    {skipper : Skipper} {body : Body} (accepted : replay c chain none = .ok out)
    (reads : readLog json (r.logPath hansa) mid.log =
      .ok (chain ++ [Link.signed c skipper (out.headSeq + 1) out.headHash body]))
    (next : (Link.signed c skipper (out.headSeq + 1) out.headHash body).Next c out)
    (now : Int64) (grown : checkpointAfterLinks ≤ chain.length)
    (full : ¬ UInt64.HasSucc c.profile (out.headSeq + 1)) :
    afterAppend c json r hansa chain skipper now mid = .error .panic mid := by
  obtain ⟨active, -, accepted'⟩ := replay_concat accepted next
  have long := not_length_concat_le_one accepted
    (Link.signed c skipper (out.headSeq + 1) out.headHash body)
  rw [afterAppend, if_pos (Nat.lt_succ_of_le grown), FileRegistry.compact,
    run_checkpointLocked reads, if_neg long, accepted']
  simp only [Link.signed, UInt64.succIn_panic full]

/-- An append of a next link can be relied on unless the checkpoint that has to follow finds no
sequence number. -/
theorem appended_next_iff (correct : c.Correct) (lawful : json.Lawful) {mid : HansaDir}
    {chain : List Link} {out : ReplayOutcome} {skipper : Skipper} {body : Body}
    (accepted : replay c chain (some hansa) = .ok out)
    (reads : readLog json (r.logPath hansa) mid.log =
      .ok (chain ++ [Link.signed c skipper (out.headSeq + 1) out.headHash body]))
    (next : (Link.signed c skipper (out.headSeq + 1) out.headHash body).Next c out)
    (now : Int64) :
    Appended c json (r.logPath hansa) hansa chain out body
        (afterAppend c json r hansa chain skipper now mid) ↔
      (checkpointAfterLinks ≤ chain.length → UInt64.HasSucc c.profile (out.headSeq + 1)) := by
  constructor
  · intro appended grown
    by_contra full
    rw [afterAppend_panics (replay_pinned.mp accepted).1 reads next now grown full] at appended
    exact appended
  · intro room'
    obtain ⟨dir', chain', out', run, reads', accepted', dim, lists⟩ :=
      afterAppend_next correct lawful accepted reads next now room'
    rw [run]
    exact ⟨chain', out', reads', accepted', dim, lists⟩

/-- Appending is safe exactly when it may be done. -/
theorem appendSafe_iff (correct : c.Correct) (lawful : json.Lawful) {dir : HansaDir}
    {chain : List Link} {out : ReplayOutcome}
    (read : readLog json (r.logPath hansa) dir.log = .ok chain)
    (accepted : replay c chain (some hansa) = .ok out) (skipper : Skipper) (body : Body)
    (now : Int64) :
    AppendSafe c json r hansa dir chain out skipper body now ↔
      MayAppend c dir.log chain out skipper body := by
  have unpinned := (replay_pinned.mp accepted).1
  have links := ne_nil_of_replay accepted
  obtain ⟨bytes, isLog⟩ := log_of_read read links
  by_cases room : UInt64.HasSucc c.profile out.headSeq
  swap
  · have run : (r.appendNext c json hansa skipper body now).run dir = .error .panic dir := by
      rw [run_appendNext read, unpinned]
      simp only [UInt64.succIn_panic room]
    simp only [AppendSafe, run, Appended, MayAppend, room, false_and]
  set link := Link.signed c skipper (out.headSeq + 1) out.headHash body with isLink
  by_cases carried : body.IsUtf8
  swap
  · obtain ⟨e, refused⟩ := lawful.refuses link carried
    have run : (r.appendNext c json hansa skipper body now).run dir =
        .error (.err (.json e)) dir := by
      rw [run_appendNext read, unpinned]
      simp only [UInt64.succIn_eq room, ← isLink, refused, isLog, Option.getD_some]
      rw [← isLog]
    simp only [AppendSafe, run, MayAppend, room, carried, not_false_eq_true, true_or, and_self,
      iff_true]
    exact read
  obtain ⟨text, encoded⟩ := lawful.encodes link carried
  have run : (r.appendNext c json hansa skipper body now).run dir =
      afterAppend c json r hansa chain skipper now (dir.append link text) :=
    run_appendNext_encoded read unpinned room encoded now
  have appended : (dir.append link text).log = some (bytes ++ utf8 text ++ [10]) := by
    rw [HansaDir.append, isLog, Option.getD_some]
  obtain ⟨reads, unreadable⟩ := readLog_append lawful bytes (isLog ▸ read) encoded
  rw [← appended] at reads unreadable
  rw [AppendSafe, run, MayAppend]
  simp only [room, carried, not_true_eq_false, true_and, false_or, isLog, Option.mem_some_iff,
    forall_eq']
  by_cases takes : Appendable bytes
  · by_cases next : link.Next c out
    · obtain ⟨signer, inner⟩ := (next_signed_iff correct room skipper body).mp next
      simp only [takes, signer, inner, not_false_eq_true, true_and]
      exact appended_next_iff correct lawful accepted (reads takes) next now
    · have foreign := not_appended_foreign unpinned (reads takes) next skipper body now
      simp only [foreign, takes, true_and, false_iff]
      rintro ⟨signer, inner, -⟩
      exact next ((next_signed_iff correct room skipper body).mpr ⟨signer, inner⟩)
  · have lost := not_appended_unreadable (unreadable takes) chain out skipper body now (c := c)
    simp only [lost, takes, false_and]

/-- Extending a chain that replays under the hansa's id is safe exactly under these conditions
on the signer, the body, the log's last line and the room for sequence numbers. -/
theorem extension_safe_iff (correct : c.Correct) (lawful : json.Lawful) {dir : HansaDir}
    {chain : List Link} {out : ReplayOutcome}
    (read : readLog json (r.logPath hansa) dir.log = .ok chain)
    (accepted : replay c chain (some hansa) = .ok out) (skipper : Skipper) (body : Body)
    (now : Int64) :
    (AppendSafe c json r hansa dir chain out skipper body now ↔
      MayAppend c dir.log chain out skipper body) ∧
    (CompactSafe c json r hansa dir chain out skipper now ↔
      MayCompact c hansa chain out skipper) :=
  ⟨appendSafe_iff correct lawful read accepted skipper body now,
    compactSafe_iff correct lawful read accepted skipper now⟩

/-- On a fresh hansa its skipper may append a revoke, and need not compact. -/
theorem extension_safe_founded :
    AppendSafe sampleBuild sampleJson ⟨⟨[]⟩⟩ (sampleId 1) (sampleDir 1)
      [genesisLink sampleBuild (sampleSkipper 1) 3 0]
      { skipper := (sampleSkipper 1).pub sampleBuild, embeddingDim := 3, active := [],
        headSeq := 0,
        headHash := (genesisLink sampleBuild (sampleSkipper 1) 3 0).hash sampleBuild }
      (sampleSkipper 1) (.revoke (sampleTenant 7) 0 none) 0 := by
  have safe := extension_safe_iff (r := ⟨⟨[]⟩⟩) sampleBuild_correct sampleJson_lawful
    (readLog_sampleDir 1 _) (replay_genesisLink sampleBuild_correct (sampleSkipper 1) 3 0)
    (sampleSkipper 1) (.revoke (sampleTenant 7) 0 none) 0
  refine safe.1.mpr ⟨by decide, .inr ⟨?_, rfl, id, fun long => absurd long (by decide)⟩⟩
  rintro bytes ⟨⟩
  exact appendable_concat _

/-- The registry lets a key that is not the root's append to a fresh hansa, and the chain it
leaves no longer replays. -/
theorem foreign_append_unsafe :
    readLog sampleJson (FileRegistry.logPath ⟨⟨[]⟩⟩ (sampleId 1)) (sampleDir 1).log =
        .ok [genesisLink sampleBuild (sampleSkipper 1) 3 0] ∧
      ∃ out, replay sampleBuild [genesisLink sampleBuild (sampleSkipper 1) 3 0]
          (some (sampleId 1)) = .ok out ∧
        ¬ AppendSafe sampleBuild sampleJson ⟨⟨[]⟩⟩ (sampleId 1) (sampleDir 1)
          [genesisLink sampleBuild (sampleSkipper 1) 3 0] out (sampleSkipper 2)
          (.revoke (sampleTenant 7) 0 none) 0 := by
  have accepted := replay_genesisLink sampleBuild_correct (sampleSkipper 1) 3 0
  refine ⟨readLog_sampleDir 1 _, _, accepted, fun safe => ?_⟩
  obtain ⟨-, uncarried | ⟨-, signer, -⟩⟩ := (appendSafe_iff sampleBuild_correct sampleJson_lawful
    (readLog_sampleDir 1 _) accepted (sampleSkipper 2) (.revoke (sampleTenant 7) 0 none) 0).mp safe
  · exact uncarried trivial
  · have bytes := congrArg (fun key : SkipperPub => key.asBytes.toList.head?) signer
    exact absurd bytes (by decide)

end Hansa
