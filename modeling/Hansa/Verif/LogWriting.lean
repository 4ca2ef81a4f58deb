import Hansa.Verif.LogReading
import Hansa.Verif.Refinement

/-!
# Writing a log that others read

What the registry does under the lock, call by call. Between two calls the log stands for the
map of members that the section found, or for the map it leaves, or it holds the first map and a
beginning of the line that leads to the second. However a section ends, the log stands for one
of the two maps, unless a write failed in the middle of a line; and a section that returns has
left the second.
-/

namespace Hansa

open Program

variable {c : Build} {json : LinkJson} {skipper : Skipper} {r : FileRegistry} {m m' : MemberMap}

/-! ## Calls on a sound directory -/

namespace LogFiles

variable {s : LogFiles} {file : Nat}

/-- The content of a file after one was changed. -/
theorem content_put (inside : file < s.contents.length) (bytes : List UInt8) (other : Nat) :
    (s.put file bytes).content other = if other = file then bytes else s.content other := by
  rw [content, put, List.getElem?_set]
  by_cases same : file = other
  · subst same
    rw [if_pos rfl, if_pos inside, if_pos rfl]
    rfl
  · rw [if_neg same, if_neg (Ne.symm same)]
    rfl

/-- Writing nothing changes nothing. -/
theorem put_nothing (s : LogFiles) (file : Nat) : s.put file (s.content file ++ []) = s := by
  rw [List.append_nil, put, content]
  have same : s.contents.set file (s.contents[file]?.getD []) = s.contents := by
    by_cases inside : file < s.contents.length
    · rw [List.getElem?_eq_getElem inside, Option.getD_some, List.set_getElem_self]
    · exact List.set_eq_of_length_le (Nat.le_of_not_lt inside)
  rw [same]

/-- The content of a file after another was created. -/
theorem content_create (inside : file < s.contents.length) :
    s.create.content file = s.content file := by
  rw [content, create, List.getElem?_append_left inside]
  rfl

/-- A created file is empty. -/
theorem content_created : s.create.content s.contents.length = [] := by
  rw [content, create, List.getElem?_append_right (Nat.le_refl _), Nat.sub_self]
  rfl

/-- Creating a file adds one. -/
theorem length_create : s.create.contents.length = s.contents.length + 1 := by
  rw [create, List.length_append]
  rfl

/-- The bytes of the log after its file was changed. -/
theorem logBytes_put (sound : s.Sound json) (isLog : s.log = some file) (bytes : List UInt8) :
    (s.put file bytes).logBytes = some bytes := by
  rw [logBytes_of_log (show (s.put file bytes).log = some file from isLog),
    content_put (sound.log file isLog).1, if_pos rfl]

/-- The log grows. -/
theorem Sound.put_log (sound : s.Sound json) (isLog : s.log = some file) {bytes : List UInt8}
    (longer : s.content file <+: bytes) (lined : Lined json bytes) :
    s.Grows json (s.put file bytes) := by
  obtain ⟨inside, other⟩ := sound.log file isLog
  have files : (s.put file bytes).contents.length = s.contents.length := List.length_set
  constructor
  · constructor
    · rw [files]
      exact sound.log
    · rw [files]
      exact sound.temp
    · intro file' inside' kept
      rw [content_put inside]
      split
      · exact lined
      · exact sound.lined file' (files ▸ inside') kept
  · exact files.ge
  · intro file' inside' kept
    refine ⟨kept, ?_⟩
    rw [content_put inside]
    split
    · rename_i same
      subst same
      exact ⟨longer, .inr isLog⟩
    · exact ⟨List.prefix_rfl, .inl rfl⟩
  · exact fun present => present
  · rintro dim ⟨before, isBefore, link, text, encoded, front, root⟩
    rw [logBytes_of_log isLog] at isBefore
    obtain rfl := Option.mem_some.mp isBefore
    exact ⟨bytes, logBytes_put sound isLog bytes, link, text, encoded, front.trans longer, root⟩

/-- The temporary file is changed. -/
theorem Sound.put_temp (sound : s.Sound json) (isTemp : s.temp = some file)
    (bytes : List UInt8) :
    s.Grows json (s.put file bytes) ∧ (s.put file bytes).logBytes = s.logBytes := by
  have inside := sound.temp file isTemp
  have files : (s.put file bytes).contents.length = s.contents.length := List.length_set
  have kept : ∀ file', s.temp ≠ some file' →
      (s.put file bytes).content file' = s.content file' := by
    intro file' other
    rw [content_put inside, if_neg]
    rintro rfl
    exact other isTemp
  have same : (s.put file bytes).logBytes = s.logBytes := by
    cases isLog : s.log with
    | none => rw [logBytes, logBytes, show (s.put file bytes).log = s.log from rfl, isLog]; rfl
    | some file' =>
      rw [logBytes_of_log isLog, logBytes_of_log (show (s.put file bytes).log = _ from isLog),
        kept file' (sound.log file' isLog).2]
  refine ⟨⟨⟨?_, ?_, ?_⟩, files.ge, ?_, fun present => present, ?_⟩, same⟩
  · rw [files]
    exact sound.log
  · rw [files]
    exact sound.temp
  · intro file' inside' other
    rw [kept file' other]
    exact sound.lined file' (files ▸ inside') other
  · intro file' inside' other
    rw [kept file' other]
    exact ⟨other, List.prefix_rfl, .inl rfl⟩
  · intro dim pinned
    rwa [Pins, same]

/-- The log is created. -/
theorem Sound.create_log (sound : s.Sound json) (absent : s.log = none) :
    s.Grows json { s.create with log := some s.contents.length } ∧
      LogFiles.logBytes { s.create with log := some s.contents.length } = some [] := by
  have content : ∀ file', file' < s.contents.length →
      LogFiles.content { s.create with log := some s.contents.length } file' = s.content file' :=
    fun file' inside => content_create inside
  have created : LogFiles.content { s.create with log := some s.contents.length }
      s.contents.length = [] := content_created
  refine ⟨⟨⟨?_, ?_, ?_⟩, ?_, ?_, fun _ => rfl, ?_⟩, ?_⟩
  · intro file' isLog
    obtain rfl := Option.some.inj isLog
    refine ⟨?_, fun isTemp => ?_⟩
    · rw [length_create]
      exact Nat.lt_succ_self _
    · exact absurd (sound.temp _ isTemp) (Nat.lt_irrefl _)
  · intro file' isTemp
    rw [length_create]
    exact Nat.lt_succ_of_lt (sound.temp file' isTemp)
  · intro file' inside kept
    rw [length_create] at inside
    rcases Nat.lt_succ_iff_lt_or_eq.mp inside with old | rfl
    · rw [content file' old]
      exact sound.lined file' old kept
    · rw [created]
      exact written_nil.lined
  · rw [length_create]
    exact Nat.le_succ _
  · intro file' inside kept
    rw [content file' inside]
    exact ⟨kept, List.prefix_rfl, .inl rfl⟩
  · rintro dim ⟨bytes, isBytes, -⟩
    rw [logBytes, absent] at isBytes
    cases isBytes
  · rw [logBytes_of_log rfl, created]

/-- The temporary file is created. -/
theorem Sound.create_temp (sound : s.Sound json) (absent : s.temp = none) :
    s.Grows json { s.create with temp := some s.contents.length } ∧
      LogFiles.logBytes { s.create with temp := some s.contents.length } = s.logBytes := by
  have content : ∀ file', file' < s.contents.length →
      LogFiles.content { s.create with temp := some s.contents.length } file' = s.content file' :=
    fun file' inside => content_create inside
  have same : LogFiles.logBytes { s.create with temp := some s.contents.length } = s.logBytes := by
    cases isLog : s.log with
    | none => rw [logBytes, logBytes, show LogFiles.log { s.create with
        temp := some s.contents.length } = s.log from rfl, isLog]; rfl
    | some file' =>
      rw [logBytes_of_log isLog, logBytes_of_log (show LogFiles.log { s.create with
        temp := some s.contents.length } = _ from isLog), content file' (sound.log file' isLog).1]
  have old : ∀ file', file' < s.contents.length → some s.contents.length ≠ some file' :=
    fun file' inside isNew => absurd (Option.some.inj isNew) (Nat.ne_of_gt inside)
  refine ⟨⟨⟨?_, ?_, ?_⟩, ?_, ?_, fun present => present, ?_⟩, same⟩
  · intro file' isLog
    have inside := (sound.log file' isLog).1
    rw [length_create]
    exact ⟨Nat.lt_succ_of_lt inside, old file' inside⟩
  · intro file' isTemp
    obtain rfl := Option.some.inj isTemp
    rw [length_create]
    exact Nat.lt_succ_self _
  · intro file' inside kept
    rw [length_create] at inside
    rcases Nat.lt_succ_iff_lt_or_eq.mp inside with before | rfl
    · rw [content file' before]
      have unnamed : s.temp ≠ some file' := by
        rw [absent]
        exact (Option.some_ne_none file').symm
      exact sound.lined file' before unnamed
    · exact absurd rfl kept
  · rw [length_create]
    exact Nat.le_succ _
  · intro file' inside kept
    rw [content file' inside]
    exact ⟨old file' inside, List.prefix_rfl, .inl rfl⟩
  · intro dim pinned
    rwa [Pins, same]

/-- The temporary file becomes the log. -/
theorem Sound.rename (sound : s.Sound json) (isTemp : s.temp = some file) {links : List Link}
    (written : Written json (s.content file) links)
    (pins : ∀ dim, s.Pins json dim →
      LogFiles.Pins json { s with log := some file, temp := none } dim) :
    s.Grows json { s with log := some file, temp := none } ∧
      LogFiles.logBytes { s with log := some file, temp := none } = some (s.content file) := by
  have inside := sound.temp file isTemp
  refine ⟨⟨⟨?_, (fun _ none_ => nomatch none_), ?_⟩, Nat.le_refl _, ?_, fun _ => rfl, pins⟩, rfl⟩
  · intro file' isLog
    obtain rfl := Option.some.inj isLog
    exact ⟨inside, fun none_ => nomatch none_⟩
  · intro file' inside' _
    by_cases same : file' = file
    · subst same
      exact written.lined
    · refine sound.lined file' inside' fun isTemp' => same ?_
      exact Option.some.inj (isTemp'.symm.trans isTemp)
  · exact fun file' _ _ => ⟨(fun none_ => nomatch none_), List.prefix_rfl, .inl rfl⟩

end LogFiles

/-! ## Logs that stand for a map -/

/-- The bytes of the log stand for a map of members. -/
def LogStands (c : Build) (json : LinkJson) (skipper : Skipper) (m : MemberMap)
    (log : Option (List UInt8)) : Prop :=
  match m.dim with
  | none => (log = none ∨ log = some []) ∧ m.roster = Roster.empty
  | some dim => ∃ bytes chain out, log = some bytes ∧ Written json bytes chain ∧
      replay c chain (some (.fromSkipper c (skipper.pub c))) = .ok out ∧
      out.skipper = skipper.pub c ∧ out.embeddingDim = dim ∧
      rosterOf (chain.map Link.toStatement) = m.roster

/-- What a log that stands for a map is read as. -/
theorem LogStands.read (lawful : json.Lawful) (path : PathBuf) {log : Option (List UInt8)}
    (stands : LogStands c json skipper m log) :
    ∃ chain, readLog json path log = .ok chain ∧ Written json (log.getD []) chain ∧
      (chain = [] ∧ m.dim = none ∨ ∃ out,
        replay c chain (some (.fromSkipper c (skipper.pub c))) = .ok out ∧
        out.skipper = skipper.pub c ∧ m.dim = some out.embeddingDim ∧
        rosterOf (chain.map Link.toStatement) = m.roster) := by
  unfold LogStands at stands
  cases founding : m.dim with
  | none =>
    rw [founding] at stands
    rcases stands.1 with rfl | rfl
    · exact ⟨[], rfl, written_nil, .inl ⟨rfl, rfl⟩⟩
    · exact ⟨[], rfl, written_nil, .inl ⟨rfl, rfl⟩⟩
  | some dim =>
    rw [founding] at stands
    obtain ⟨bytes, chain, out, rfl, written, accepted, signer, rfl, roster⟩ := stands
    exact ⟨chain, written.read lawful 0, written, .inr ⟨out, accepted, signer, rfl, roster⟩⟩

/-- A log that stands for a map is settled. -/
theorem LogStands.closed {log : Option (List UInt8)} (stands : LogStands c json skipper m log) :
    ∀ bytes ∈ log, Closed bytes := by
  unfold LogStands at stands
  cases founding : m.dim with
  | none =>
    rw [founding] at stands
    rcases stands.1 with rfl | rfl
    · exact fun _ none_ => nomatch none_
    · rintro bytes ⟨⟩
      exact closed_nil
  | some dim =>
    rw [founding] at stands
    obtain ⟨bytes, chain, out, rfl, written, -⟩ := stands
    rintro bytes' ⟨⟩
    exact written.closed

/-- An empty log stands for what no log stands for. -/
theorem LogStands.touch {log : Option (List UInt8)} (stands : LogStands c json skipper m log) :
    LogStands c json skipper m (some (log.getD [])) := by
  cases log with
  | some bytes => exact stands
  | none =>
    unfold LogStands at stands ⊢
    cases founding : m.dim with
    | none =>
      rw [founding] at stands
      exact ⟨.inr rfl, stands.2⟩
    | some dim =>
      rw [founding] at stands
      obtain ⟨bytes, -, -, none_, -⟩ := stands
      cases none_

/-- A genesis founds the map. -/
theorem LogStands.found (correct : c.Correct) {log : Option (List UInt8)}
    {embeddingDim : UInt32} {createdAt : Int64} {text : String}
    (written : Written json (log.getD []) [])
    (encoded : json.toString (genesisLink c skipper embeddingDim createdAt) = .ok text) :
    LogStands c json skipper ⟨some embeddingDim, Roster.empty⟩
      (some (log.getD [] ++ (utf8 text ++ [10]))) :=
  ⟨_, _, _, rfl, written.append (written_single encoded),
    replay_genesisLink correct skipper embeddingDim createdAt, rfl, rfl, rfl⟩

/-- A next link changes the members by its body. -/
theorem LogStands.append (correct : c.Correct) {log : Option (List UInt8)} {chain : List Link}
    {out : ReplayOutcome} {body : Body} (inner : ¬ body.IsRoot)
    (written : Written json (log.getD []) chain)
    (accepted : replay c chain (some (.fromSkipper c (skipper.pub c))) = .ok out)
    (signer : out.skipper = skipper.pub c) (room : UInt64.HasSucc c.profile out.headSeq)
    {text : String} (encoded : json.toString (nextLink c skipper out body) = .ok text) :
    LogStands c json skipper
      ⟨some out.embeddingDim, body.change (rosterOf (chain.map Link.toStatement))⟩
      (some (log.getD [] ++ (utf8 text ++ [10]))) := by
  have next : (nextLink c skipper out body).Next c out :=
    (next_signed_iff correct room skipper body).mpr ⟨signer.symm, inner⟩
  obtain ⟨active, -, accepted'⟩ := replay_concat accepted next
  refine ⟨_, _, _, rfl, written.append (written_single encoded), accepted', signer, rfl, ?_⟩
  rw [List.map_append, List.map_singleton, rosterOf_concat]
  exact Body.apply_inner inner _

/-- A checkpoint leaves the map, and pins the dimension that the chain pinned. -/
theorem LogStands.compact (correct : c.Correct) {chain : List Link} {out : ReplayOutcome}
    (accepted : replay c chain (some (.fromSkipper c (skipper.pub c))) = .ok out)
    (dim : m.dim = some out.embeddingDim)
    (roster : rosterOf (chain.map Link.toStatement) = m.roster) {seq : UInt64} {now : Int64}
    {bytes : List UInt8} (written : Written json bytes [checkpointLink c skipper out seq now]) :
    LogStands c json skipper m (some bytes) := by
  unfold LogStands
  rw [dim]
  refine ⟨_, _, _, rfl, written, replay_checkpointLink correct accepted skipper seq now
    (pinned_some.mpr rfl), rfl, rfl, ?_⟩
  rw [← roster]
  exact Roster.ofRecords_lists (rosterOf_keyed _) (replay_ok accepted).1.active

end Hansa
