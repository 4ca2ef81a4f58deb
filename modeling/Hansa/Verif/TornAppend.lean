import Hansa.Verif.Extend

/-!
# Appends that are cut short

`append_link` writes its line in place, so a crash or a write error can leave any first part of
the line in the log. The log survives when it still reads as the old chain, with or without the
new link, and the hansa's skipper can go on appending. This module computes when it does:
exactly when all of the line was written or none of it, which the code does not see to.
-/

namespace Hansa

variable {c : Build} {json : LinkJson} {r : FileRegistry} {owner : Skipper}

/-- The directory after an append of which `n` bytes of the line reached the log. -/
def HansaDir.torn (dir : HansaDir) (text : String) (n : Nat) : HansaDir :=
  { dir with log := some (dir.log.getD [] ++ (utf8 text ++ [10]).take n) }

/-- With all bytes of the line, the log is the one `append_link` leaves. -/
theorem log_run_appendLink {link : Link} {text : String} (encoded : json.toString link = .ok text)
    (dir : HansaDir) :
    (dirAfter ((FileRegistry.appendLink json link).run dir)).log =
      (dir.torn text (utf8 text ++ [10]).length).log := by
  rw [run_appendLink, encoded, HansaDir.torn, List.take_length, ← List.append_assoc]
  rfl

/-- The id of the hansa that a skipper founds. -/
abbrev Skipper.hansaId (c : Build) (skipper : Skipper) : HansaId :=
  .fromSkipper c (skipper.pub c)

/-- The chain replays under its owner's id, with the owner's key at its root. -/
structure OwnedChain (c : Build) (owner : Skipper) (chain : List Link) (out : ReplayOutcome) :
    Prop where
  /-- The chain replays. -/
  accepted : replay c chain (some (owner.hansaId c)) = .ok out
  /-- Its root key is the owner's. -/
  signer : owner.pub c = out.skipper

/-- The owner can append to the log, and leaves a chain that replays. -/
def Continues (c : Build) (json : LinkJson) (r : FileRegistry) (owner : Skipper)
    (dir : HansaDir) : Prop :=
  ∀ (body : Body) (now : Int64), ¬ body.IsRoot → body.IsUtf8 →
    ∃ dir' chain' out,
      (r.appendNext c json (owner.hansaId c) owner body now).run dir = .ok () dir' ∧
      readLog json (r.logPath (owner.hansaId c)) dir'.log = .ok chain' ∧
      replay c chain' (some (owner.hansaId c)) = .ok out

/-- What an append that was cut short should leave behind. -/
structure Survives (c : Build) (json : LinkJson) (r : FileRegistry) (owner : Skipper)
    (chain : List Link) (link : Link) (dir : HansaDir) : Prop where
  /-- The log reads as the old chain, with or without the new link. -/
  reads : readLog json (r.logPath (owner.hansaId c)) dir.log = .ok chain ∨
    readLog json (r.logPath (owner.hansaId c)) dir.log = .ok (chain ++ [link])
  /-- The owner's next append succeeds. -/
  continues : Continues c json r owner dir

/-- The chain is the owner's, and has sequence numbers for the next link and for the checkpoint
that may have to follow it. -/
def Extendable (c : Build) (owner : Skipper) (chain : List Link) : Prop :=
  ∃ out, OwnedChain c owner chain out ∧ UInt64.HasSucc c.profile out.headSeq ∧
    (checkpointAfterLinks ≤ chain.length → UInt64.HasSucc c.profile (out.headSeq + 1))

/-! ## Going on -/

/-- A root that has the owner's key replays under the owner's id. -/
theorem ownedChain_of_signer {chain : List Link} {out : ReplayOutcome}
    (accepted : replay c chain none = .ok out) (signer : owner.pub c = out.skipper) :
    OwnedChain c owner chain out :=
  ⟨replay_pinned.mpr ⟨accepted, pinned_some.mpr (signer ▸ rfl)⟩, signer⟩

/-- An extendable chain on a log that takes a line lets the owner go on. -/
theorem continues_of_extendable (correct : c.Correct) (lawful : json.Lawful) {dir : HansaDir}
    {chain : List Link} (read : readLog json (r.logPath (owner.hansaId c)) dir.log = .ok chain)
    (takes : ∀ bytes ∈ dir.log, Appendable bytes) (extendable : Extendable c owner chain) :
    Continues c json r owner dir := by
  intro body now inner carried
  obtain ⟨out, owned, room, room'⟩ := extendable
  obtain ⟨text, encoded⟩ := lawful.encodes (nextLink c owner out body) carried
  have next := (next_signed_iff correct room owner body).mpr ⟨owned.signer, inner⟩
  have reads := (HansaDir.read_append lawful takes read encoded).1
  obtain ⟨dir', chain', out', run, reads', accepted', -⟩ :=
    afterAppend_next correct lawful owned.accepted reads next now room'
  refine ⟨dir', chain', out', ?_, reads', accepted'⟩
  rw [run_appendNext_encoded read (replay_pinned.mp owned.accepted).1 room encoded now]
  exact run

/-- An append that left a readable log found one that takes a line. -/
theorem appendable_of_done (lawful : json.Lawful) {hansa : HansaId} {dir dir' : HansaDir}
    {chain chain' : List Link} {link : Link} {text : String} {now : Int64}
    (read : readLog json (r.logPath hansa) dir.log = .ok chain)
    (encoded : json.toString link = .ok text)
    (done : afterAppend c json r hansa chain owner now (dir.append link text) = .ok () dir')
    (reads' : readLog json (r.logPath hansa) dir'.log = .ok chain') :
    ∀ bytes ∈ dir.log, Appendable bytes := by
  intro bytes isLog
  by_contra strict
  have unreadable := (readLog_append lawful bytes (Option.mem_def.mp isLog ▸ read) encoded).2 strict
  have appended : (dir.append link text).log = some (bytes ++ utf8 text ++ [10]) := by
    rw [HansaDir.append, Option.mem_def.mp isLog, Option.getD_some]
  rw [← appended] at unreadable
  rcases afterAppend_unreadable unreadable chain owner now (c := c) with run | ⟨fault, run⟩
  · cases run.symm.trans done
    exact unreadable chain' reads'
  · cases run.symm.trans done

/-- An append that left a chain that replays wrote a link that may come next. -/
theorem next_of_done {hansa : HansaId} {mid dir' : HansaDir} {chain chain' : List Link}
    {link : Link} {out out' : ReplayOutcome} {now : Int64}
    (accepted : replay c chain none = .ok out)
    (reads : readLog json (r.logPath hansa) mid.log = .ok (chain ++ [link]))
    (done : afterAppend c json r hansa chain owner now mid = .ok () dir')
    (reads' : readLog json (r.logPath hansa) dir'.log = .ok chain')
    (accepted' : replay c chain' (some hansa) = .ok out') : link.Next c out := by
  by_contra foreign
  rcases afterAppend_foreign accepted reads foreign owner now with run | ⟨fault, run⟩
  · cases run.symm.trans done
    obtain rfl := Except.ok.inj (reads.symm.trans reads')
    exact foreign (next_of_replay_concat accepted accepted')
  · cases run.symm.trans done

/-- An append that went well had a chain to extend and a log that takes a line. -/
theorem extendable_of_appended (lawful : json.Lawful) {dir dir' : HansaDir}
    {chain chain' : List Link} {body : Body} (carried : body.IsUtf8) {now : Int64}
    {out' : ReplayOutcome}
    (read : readLog json (r.logPath (owner.hansaId c)) dir.log = .ok chain)
    (run : (r.appendNext c json (owner.hansaId c) owner body now).run dir = .ok () dir')
    (reads' : readLog json (r.logPath (owner.hansaId c)) dir'.log = .ok chain')
    (accepted' : replay c chain' (some (owner.hansaId c)) = .ok out') :
    (∀ bytes ∈ dir.log, Appendable bytes) ∧ Extendable c owner chain := by
  cases accepted : replay c chain none with
  | error fault =>
    rw [run_appendNext read, accepted] at run
    cases run
  | ok out =>
    by_cases room : UInt64.HasSucc c.profile out.headSeq
    swap
    · rw [run_appendNext read, accepted] at run
      simp only [UInt64.succIn_panic room] at run
      cases run
    obtain ⟨text, encoded⟩ := lawful.encodes (nextLink c owner out body) carried
    have done : afterAppend c json r (owner.hansaId c) chain owner now
        (dir.append (nextLink c owner out body) text) = .ok () dir' := by
      rwa [run_appendNext_encoded read accepted room encoded now] at run
    have takes := appendable_of_done lawful read encoded done reads'
    have reads := (HansaDir.read_append lawful takes read encoded).1
    have next := next_of_done accepted reads done reads' accepted'
    refine ⟨takes, out, ownedChain_of_signer accepted next.signer, room, fun grown => ?_⟩
    by_contra full
    cases (afterAppend_panics accepted reads next now grown full).symm.trans done

/-- The owner can go on exactly when the log takes a line and the chain can be extended. -/
theorem continues_iff (correct : c.Correct) (lawful : json.Lawful) {dir : HansaDir}
    {chain : List Link} (read : readLog json (r.logPath (owner.hansaId c)) dir.log = .ok chain) :
    Continues c json r owner dir ↔
      (∀ bytes ∈ dir.log, Appendable bytes) ∧ Extendable c owner chain := by
  constructor
  · intro continues
    -- Any body that JSON carries tells.
    have carried : Body.IsUtf8 (.revoke ⟨Vector.replicate 16 0⟩ 0 none) := trivial
    obtain ⟨dir', chain', out', run, reads', accepted'⟩ := continues _ 0 id carried
    exact extendable_of_appended lawful carried read run reads' accepted'
  · exact fun ⟨takes, extendable⟩ =>
      continues_of_extendable correct lawful read takes extendable

/-! ## Cutting the line -/

/-- What stands behind the last newline grows with bytes that have none. -/
theorem rtakeWhile_append_open {bytes line : List UInt8} (inside : 10 ∉ line) :
    (bytes ++ line).rtakeWhile (· ≠ 10) = bytes.rtakeWhile (· ≠ 10) ++ line := by
  have plain : ∀ b ∈ line.reverse, decide (b ≠ 10) = true := by
    intro b member
    simp only [decide_eq_true_eq]
    rintro rfl
    exact inside (List.mem_reverse.mp member)
  simp only [List.rtakeWhile, List.reverse_append, List.takeWhile_append_of_pos plain,
    List.reverse_reverse]

/-- A line that was begun but not ended leaves a log that takes no line. -/
theorem not_appendable_torn (lawful : json.Lawful) {link : Link} {text : String}
    (encoded : json.toString link = .ok text) (bytes : List UInt8) {n : Nat} (begun : n ≠ 0)
    (short : n ≤ (utf8 text).length) : ¬ Appendable (bytes ++ (utf8 text ++ [10]).take n) := by
  have oneLine := lawful.oneLine link text encoded
  obtain ⟨fields, isText⟩ := lawful.object link text encoded
  obtain ⟨rest, isLine⟩ : ∃ rest, utf8 text = 123 :: rest := by
    refine ⟨utf8 (fields ++ "\x7d"), ?_⟩
    rw [isText, String.append_assoc, utf8_append]
    rfl
  obtain ⟨m, rfl⟩ := Nat.exists_eq_succ_of_ne_zero begun
  rw [List.take_append_of_le_length short]
  have inside : 10 ∉ (utf8 text).take (m + 1) := fun member => oneLine (List.mem_of_mem_take member)
  intro spaces
  rw [Appendable, rtakeWhile_append_open inside, isLine, List.take_succ_cons] at spaces
  have brace := spaces 123 (List.mem_append_right _ (List.mem_cons_self ..))
  exact absurd brace (by decide)

/-- A missing log reads like an empty one. -/
theorem readLog_getD (json : LinkJson) (path : PathBuf) (log : Option (List UInt8)) :
    readLog json path (some (log.getD [])) = readLog json path log := by
  cases log <;> rfl

/-- A missing log takes a line like an empty one. -/
theorem appendable_getD {log : Option (List UInt8)} :
    Appendable (log.getD []) ↔ ∀ bytes ∈ log, Appendable bytes := by
  cases log with
  | none => simp [Appendable]
  | some bytes => simp

/-- A log that survives takes a line. -/
theorem Survives.appendable (correct : c.Correct) (lawful : json.Lawful) {dir : HansaDir}
    {chain : List Link} {link : Link} (survives : Survives c json r owner chain link dir)
    {bytes : List UInt8} (isLog : dir.log = some bytes) : Appendable bytes := by
  rcases survives.reads with read | read
  · exact ((continues_iff correct lawful read).mp survives.continues).1 bytes isLog
  · exact ((continues_iff correct lawful read).mp survives.continues).1 bytes isLog

/-- An append that was cut short leaves a usable log exactly when the log took a line, all of
the line was written or none of it, and the chain that is then in the log can be extended. -/
theorem torn_append_survives_iff (correct : c.Correct) (lawful : json.Lawful) {dir : HansaDir}
    {chain : List Link} {link : Link} {text : String}
    (read : readLog json (r.logPath (owner.hansaId c)) dir.log = .ok chain)
    (encoded : json.toString link = .ok text) {n : Nat} (part : n ≤ (utf8 text ++ [10]).length) :
    Survives c json r owner chain link (dir.torn text n) ↔
      (∀ bytes ∈ dir.log, Appendable bytes) ∧
        (n = 0 ∧ Extendable c owner chain ∨
          n = (utf8 text ++ [10]).length ∧ Extendable c owner (chain ++ [link])) := by
  rw [← readLog_getD] at read
  rw [← appendable_getD]
  have length : (utf8 text ++ [10]).length = (utf8 text).length + 1 := by simp
  by_cases untouched : n = 0
  · subst untouched
    have reads : readLog json (r.logPath (owner.hansaId c)) (dir.torn text 0).log = .ok chain := by
      rwa [HansaDir.torn, List.take_zero, List.append_nil]
    have isLog : (dir.torn text 0).log = some (dir.log.getD []) := by
      rw [HansaDir.torn, List.take_zero, List.append_nil]
    have goesOn := continues_iff correct lawful reads
    simp only [isLog, Option.mem_some_iff, forall_eq'] at goesOn
    have different : (0 : Nat) ≠ (utf8 text ++ [10]).length := by omega
    simp only [different, false_and, or_false, true_and]
    exact ⟨fun survives => goesOn.mp survives.continues,
      fun usable => ⟨.inl reads, goesOn.mpr usable⟩⟩
  by_cases whole : n = (utf8 text ++ [10]).length
  · subst whole
    have isLog : (dir.torn text (utf8 text ++ [10]).length).log =
        some (dir.log.getD [] ++ utf8 text ++ [10]) := by
      rw [← log_run_appendLink encoded, run_appendLink, encoded]
      rfl
    obtain ⟨reads, unreadable⟩ := readLog_append lawful (dir.log.getD []) read encoded
    rw [← isLog] at reads unreadable
    simp only [untouched, false_and, false_or, true_and]
    by_cases takes : Appendable (dir.log.getD [])
    · have goesOn := continues_iff correct lawful (reads takes)
      simp only [isLog, Option.mem_some_iff, forall_eq', appendable_concat, true_and] at goesOn
      simp only [takes, true_and]
      exact ⟨fun survives => goesOn.mp survives.continues,
        fun extendable => ⟨.inr (reads takes), goesOn.mpr extendable⟩⟩
    · simp only [takes, false_and, iff_false]
      rintro ⟨old | new, -⟩
      · exact unreadable takes _ old
      · exact unreadable takes _ new
  · simp only [untouched, whole, false_and, or_self, and_false, iff_false]
    exact fun survives => not_appendable_torn lawful encoded _ untouched (by omega)
      (survives.appendable correct lawful rfl)

/-! ## A revoke on a fresh hansa -/

/-- What a fresh sample hansa replays to. -/
def foundedOutcome : ReplayOutcome :=
  { skipper := (sampleSkipper 1).pub sampleBuild, embeddingDim := 3, active := [], headSeq := 0,
    headHash := (genesisLink sampleBuild (sampleSkipper 1) 3 0).hash sampleBuild }

/-- The link its skipper signs to revoke a member. -/
def firstRevoke : Link :=
  nextLink sampleBuild (sampleSkipper 1) foundedOutcome (.revoke (sampleTenant 7) 0 none)

/-- JSON carries the revoke. -/
theorem encoded_firstRevoke : sampleJson.toString firstRevoke = .ok (linkText firstRevoke) :=
  sampleJson_toString.mpr ⟨trivial, rfl⟩

/-- A fresh hansa can be extended. -/
theorem extendable_founded :
    Extendable sampleBuild (sampleSkipper 1) [genesisLink sampleBuild (sampleSkipper 1) 3 0] :=
  ⟨foundedOutcome, ⟨replay_genesisLink sampleBuild_correct (sampleSkipper 1) 3 0, rfl⟩,
    by decide, fun long => absurd long (by decide)⟩

/-- With none of the revoke's bytes written, the fresh hansa goes on. -/
theorem torn_append_survives_founded :
    Survives sampleBuild sampleJson ⟨⟨[]⟩⟩ (sampleSkipper 1)
      [genesisLink sampleBuild (sampleSkipper 1) 3 0] firstRevoke
      ((sampleDir 1).torn (linkText firstRevoke) 0) := by
  refine (torn_append_survives_iff sampleBuild_correct sampleJson_lawful
    (readLog_sampleDir 1 _) encoded_firstRevoke (Nat.zero_le _)).mpr
    ⟨?_, .inl ⟨rfl, extendable_founded⟩⟩
  rintro bytes ⟨⟩
  exact appendable_concat _

/-- The revoke is a link that `append_next` writes, and without its newline alone the log can
no longer be extended. -/
theorem missing_newline_strands :
    (FileRegistry.appendNext sampleBuild sampleJson ⟨⟨[]⟩⟩ (sampleId 1) (sampleSkipper 1)
        (.revoke (sampleTenant 7) 0 none) 0).run (sampleDir 1) =
      .ok () ((sampleDir 1).append firstRevoke (linkText firstRevoke)) ∧
    ¬ Survives sampleBuild sampleJson ⟨⟨[]⟩⟩ (sampleSkipper 1)
      [genesisLink sampleBuild (sampleSkipper 1) 3 0] firstRevoke
      ((sampleDir 1).torn (linkText firstRevoke) (utf8 (linkText firstRevoke)).length) := by
  have read := readLog_sampleDir 1 (FileRegistry.logPath ⟨⟨[]⟩⟩ (sampleId 1))
  have accepted := replay_genesisLink sampleBuild_correct (sampleSkipper 1) 3 0
  constructor
  · rw [run_appendNext_encoded read (replay_pinned.mp accepted).1 (by decide) encoded_firstRevoke 0,
      afterAppend, if_neg (by decide)]
    rfl
  · intro survives
    have begun : (utf8 (linkText firstRevoke)).length ≠ 0 := by
      rw [linkText, String.append_assoc, utf8_append]
      exact Nat.succ_ne_zero _
    exact not_appendable_torn sampleJson_lawful encoded_firstRevoke _ begun le_rfl
      (survives.appendable sampleBuild_correct sampleJson_lawful rfl)

end Hansa
