import Hansa.Verif.Digest
import Hansa.Verif.Extend
import Hansa.Verif.Membership

/-!
# Refused calls

A call that changes the membership is refused when the handle has no skipper, when the
dimension does not match, and when the log does not replay. The checks of an admission and of
a revocation stand before their effects, but joining publishes a missing saga before it is
checked, and an append checks the chain without the new link: where the log is long enough to
be compacted at once, a link that the chain does not take is found out after it was written.
-/

namespace Hansa

variable {c : Build} {json : LinkJson} {path : PathBuf}

/-- The errors of the three checks: there is no skipper, the dimension does not match, or some
log does not replay. -/
inductive Refusal (c : Build) (json : LinkJson) (path : PathBuf) : HansaError → Prop where
  /-- The handle has no skipper. -/
  | unauthorized : Refusal c json path .unauthorized
  /-- The member's dimension is not the pinned one. -/
  | dimMismatch (existing joining : UInt32) :
    Refusal c json path (.dimMismatch existing joining)
  /-- A log is not read, or its chain does not replay. -/
  | unreplayed {log : Option (List UInt8)} {expected : Option HansaId} {e : HansaError}
    (failed : replayLog c json path log expected = .error (.err e)) : Refusal c json path e

/-! ## Errors of reading and replaying -/

/-- An error of the JSON encoder. -/
def HansaError.IsJson : HansaError → Prop
  | .json _ => True
  | _ => False

/-- A computation that reports no error of the JSON encoder. -/
def WithoutJson {α : Type} (result : Result α) : Prop :=
  ∀ e, result = .error (.err e) → ¬ e.IsJson

/-- A sequence reports what its parts report. -/
theorem WithoutJson.bind {α β : Type} {x : Result α} {f : α → Result β} (first : WithoutJson x)
    (next : ∀ a, WithoutJson (f a)) : WithoutJson (x >>= f) := by
  intro e failed
  cases x with
  | ok a => exact next a e failed
  | error fault =>
    obtain rfl : fault = .err e := Except.error.inj failed
    exact first e rfl

/-- A value is no error. -/
theorem withoutJson_ok {α : Type} (a : α) : WithoutJson (.ok a : Result α) :=
  fun _ failed => nomatch failed

/-- An error of another kind. -/
theorem withoutJson_fail {α : Type} {e : HansaError} (other : ¬ e.IsJson) :
    WithoutJson (fail e : Result α) := by
  intro e' failed
  obtain rfl := Fault.err.inj (Except.error.inj failed)
  exact other

/-- Lines that are not read are reported without a panic. -/
theorem readLines_error {lines : List (List UInt8 × Bool)} {n : Nat} {fault : Fault}
    (failed : readLines json path n lines = .error fault) :
    ∃ e, fault = .err e ∧ ¬ e.IsJson := by
  induction lines generalizing n with
  | nil => cases failed
  | cons line lines ih =>
    rw [readLines] at failed
    cases text : fromUtf8 (lineContent line) with
    | none =>
      simp only [text] at failed
      exact ⟨_, (Except.error.inj failed).symm, id⟩
    | some text' =>
      simp only [text] at failed
      split at failed
      · exact ih failed
      · cases decoded : json.fromStr text' with
        | error e =>
          simp only [decoded] at failed
          exact ⟨_, (Except.error.inj failed).symm, id⟩
        | ok link =>
          simp only [decoded] at failed
          cases rest : readLines json path (n + 1) lines with
          | error fault' =>
            simp only [rest, bind, Except.bind] at failed
            exact ih (rest.trans failed)
          | ok links =>
            simp only [rest, bind, Except.bind] at failed
            cases failed

/-- A log that is not read is reported without a panic. -/
theorem readLog_error {log : Option (List UInt8)} {fault : Fault}
    (failed : readLog json path log = .error fault) : ∃ e, fault = .err e ∧ ¬ e.IsJson := by
  cases log with
  | none => cases failed
  | some bytes => exact readLines_error failed

/-- Verifying a signature reports that it is bad. -/
theorem SkipperPub.withoutJson_verify (key : SkipperPub) (domain msg : List UInt8) (sig : Sig) :
    WithoutJson (key.verify c domain msg sig) := by
  unfold SkipperPub.verify
  split
  · exact withoutJson_ok ()
  · exact withoutJson_fail id

/-- Verifying a genesis reports the check that fails. -/
theorem Genesis.withoutJson_verify (g : Genesis) (sig : Sig) :
    WithoutJson (g.verify c sig) := by
  unfold Genesis.verify
  split
  · exact withoutJson_fail id
  · split
    · exact withoutJson_fail id
    · exact SkipperPub.withoutJson_verify _ _ _ _

/-- The root match reports the check that fails. -/
theorem withoutJson_replayRoot (first : Link) (expected : Option HansaId) :
    WithoutJson (replayRoot c first expected) := by
  unfold replayRoot
  split
  · split
    · exact withoutJson_fail id
    · cases expected with
      | none =>
        exact (Genesis.withoutJson_verify _ _).bind fun _ => withoutJson_ok _
      | some id =>
        refine WithoutJson.bind ?_ fun _ => withoutJson_ok _
        unfold Genesis.verifyFor
        split
        · exact withoutJson_fail fun json => json
        · exact Genesis.withoutJson_verify _ _
  · split
    · exact withoutJson_fail id
    · split
      · exact withoutJson_fail id
      · exact withoutJson_ok _
  · exact withoutJson_fail id

/-- One iteration reports the check that fails. -/
theorem withoutJson_replayLink (key : SkipperPub) (s : ReplayState) (link : Link) :
    WithoutJson (replayLink c key s link) := by
  unfold replayLink
  refine WithoutJson.bind ?_ fun next => ?_
  · unfold UInt64.succIn UInt64.addIn
    split
    · exact fun _ panicked => nomatch panicked
    · exact withoutJson_ok _
  · split
    · exact withoutJson_fail id
    · split
      · exact withoutJson_fail id
      · split
        · exact withoutJson_fail id
        · refine WithoutJson.bind ?_ fun _ => withoutJson_ok _
          unfold replayBody
          split
          · exact withoutJson_fail id
          · exact withoutJson_fail id
          · exact withoutJson_ok _
          · exact withoutJson_ok _

/-- The loop reports the check that fails. -/
theorem withoutJson_replayLinks (key : SkipperPub) (s : ReplayState) (links : List Link) :
    WithoutJson (replayLinks c key s links) := by
  induction links generalizing s with
  | nil => exact withoutJson_ok s
  | cons link links ih => exact (withoutJson_replayLink key s link).bind ih

/-- Replay reports the check that fails. -/
theorem withoutJson_replay (chain : List Link) (expected : Option HansaId) :
    WithoutJson (replay c chain expected) := by
  cases chain with
  | nil => exact withoutJson_fail id
  | cons first rest =>
    exact (withoutJson_replayRoot first expected).bind fun root =>
      (withoutJson_replayLinks root.1 _ rest).bind fun _ => withoutJson_ok _

/-- No refusal is an error of the JSON encoder. -/
theorem Refusal.not_json {e : HansaError} (refusal : Refusal c json path e) : ¬ e.IsJson := by
  cases refusal with
  | unauthorized => exact id
  | dimMismatch existing joining => exact id
  | unreplayed failed =>
    rename_i log expected
    have reads : WithoutJson (readLog json path log) := by
      intro e unread
      obtain ⟨e', same, other⟩ := readLog_error unread
      obtain rfl := Fault.err.inj same
      exact other
    exact reads.bind (fun chain => withoutJson_replay chain expected) e failed

/-! ## An append that fails -/

/-- Links are folded one after another. -/
theorem replayLinks_append (key : SkipperPub) (s : ReplayState) (before after : List Link) :
    replayLinks c key s (before ++ after) = (do
      let s ← replayLinks c key s before
      replayLinks c key s after) := by
  induction before generalizing s with
  | nil => rfl
  | cons link before ih =>
    rw [List.cons_append, replayLinks, replayLinks]
    cases replayLink c key s link with
    | error fault => rfl
    | ok s' => exact ih s'

/-- A link of another signer, with the next number and hash, is reported as unauthorised. -/
theorem replay_foreign {chain : List Link} {out : ReplayOutcome}
    (accepted : replay c chain none = .ok out) (link : Link)
    (next : UInt64.succIn c.profile out.headSeq = .ok link.seq) (prev : link.prev = out.headHash)
    (signer : link.signedBy ≠ out.skipper) :
    replay c (chain ++ [link]) none = .error (.err .unauthorized) := by
  cases chain with
  | nil => cases accepted
  | cons first rest =>
    obtain ⟨⟨key, dim, active, seq⟩, root, later⟩ := Except.bind_eq_ok.mp accepted
    obtain ⟨s, folded, same⟩ := Except.bind_eq_ok.mp later
    obtain rfl := Except.ok.inj same
    have last : replayLinks c key s [link] = .error (.err .unauthorized) := by
      rw [replayLinks, replayLink, next]
      simp only [bind, Except.bind, prev, ne_eq, not_true_eq_false, or_self, if_false]
      rw [if_pos signer]
      rfl
    rw [List.cons_append, replay, root]
    simp only [bind, Except.bind, replayLinks_append, folded, last]

variable {r : FileRegistry} {hansa : HansaId} {skipper : Skipper} {dir : HansaDir}

/-- An append that writes its link and is then refused: the chain replays, there is a sequence
number and an encoding for the link, and the chain is long enough to be compacted at once, but
the log does not take a line, or the skipper's key is not the chain's root key. -/
def Overruns (c : Build) (json : LinkJson) (path : PathBuf) (dir : HansaDir) (skipper : Skipper)
    (body : Body) : Prop :=
  ∃ chain out, readLog json path dir.log = .ok chain ∧ replay c chain none = .ok out ∧
    UInt64.HasSucc c.profile out.headSeq ∧ body.IsUtf8 ∧ checkpointAfterLinks ≤ chain.length ∧
    ¬ ((∀ bytes ∈ dir.log, Appendable bytes) ∧ skipper.pub c = out.skipper)

/-- An append that overruns is refused, with its link in the log. -/
theorem Overruns.refused (lawful : json.Lawful) {body : Body}
    (overruns : Overruns c json (r.logPath hansa) dir skipper body) (now : Int64) :
    ∃ e dir', (r.appendNext c json hansa skipper body now).run dir = .error (.err e) dir' ∧
      Refusal c json (r.logPath hansa) e ∧ dir'.log ≠ dir.log := by
  obtain ⟨chain, out, read, accepted, room, carried, long, strays⟩ := overruns
  obtain ⟨bytes, isLog⟩ := log_of_read read (ne_nil_of_replay accepted)
  obtain ⟨text, encoded⟩ := lawful.encodes (nextLink c skipper out body) carried
  have run := run_appendNext_encoded read accepted room encoded now
  rw [afterAppend, if_pos (Nat.lt_succ_of_le long)] at run
  obtain ⟨reads, unreadable⟩ := readLog_append lawful bytes (isLog ▸ read) encoded
  have appended : (dir.append (nextLink c skipper out body) text).log =
      some (bytes ++ utf8 text ++ [10]) := by
    rw [HansaDir.append, isLog, Option.getD_some]
  have grown : (dir.append (nextLink c skipper out body) text).log ≠ dir.log := by
    rw [appended, isLog]
    intro same
    have lengths := congrArg List.length (Option.some.inj same)
    simp only [List.length_append, List.length_singleton] at lengths
    omega
  rw [← appended] at reads unreadable
  by_cases takes : Appendable bytes
  · have signer : skipper.pub c ≠ out.skipper := by
      refine fun same => strays ⟨fun bytes' isLog' => ?_, same⟩
      obtain rfl := Option.some.inj (isLog.symm.trans isLog')
      exact takes
    have stops := replay_foreign accepted (nextLink c skipper out body)
      (UInt64.succIn_eq room) rfl signer
    have links := not_length_concat_le_one accepted (nextLink c skipper out body)
    have compacted := run_checkpointLocked (c := c) (reads takes) skipper now
    rw [if_neg links, stops] at compacted
    exact ⟨_, _, run.trans compacted, .unauthorized, grown⟩
  · cases glued : readLog json (r.logPath hansa)
        (dir.append (nextLink c skipper out body) text).log with
    | ok links => exact absurd glued (unreadable takes links)
    | error fault =>
      obtain ⟨e, rfl, -⟩ := readLog_error glued
      have compacted : (r.checkpointLocked c json hansa skipper now).run
          (dir.append (nextLink c skipper out body) text) = .error (.err e) _ :=
        dirAfter_checkpointLocked_error glued now
      have failed : replayLog c json (r.logPath hansa)
          (dir.append (nextLink c skipper out body) text).log none = .error (.err e) := by
        rw [replayLog, glued]
        rfl
      exact ⟨e, _, run.trans compacted, .unreplayed failed, grown⟩

/-- Where the link comes next and the log takes its line, an append reports no error: it returns
or panics. -/
theorem appendNext_of_next (correct : c.Correct) (lawful : json.Lawful) {body : Body}
    (inner : ¬ body.IsRoot) {chain : List Link} {out : ReplayOutcome}
    (read : readLog json (r.logPath hansa) dir.log = .ok chain)
    (accepted : replay c chain none = .ok out) (room : UInt64.HasSucc c.profile out.headSeq)
    (carried : body.IsUtf8) (takes : ∀ bytes ∈ dir.log, Appendable bytes)
    (signer : skipper.pub c = out.skipper) (now : Int64) (e : HansaError) (dir' : HansaDir) :
    (r.appendNext c json hansa skipper body now).run dir ≠ .error (.err e) dir' := by
  intro failed
  have next : (nextLink c skipper out body).Next c out :=
    (next_signed_iff correct room skipper body).mpr ⟨signer, inner⟩
  obtain ⟨text, encoded⟩ := lawful.encodes (nextLink c skipper out body) carried
  have reads := (HansaDir.read_append lawful takes read encoded).1
  have run := run_appendNext_encoded read accepted room encoded now
  by_cases room' : checkpointAfterLinks ≤ chain.length → UInt64.HasSucc c.profile (out.headSeq + 1)
  · obtain ⟨_, _, _, returned, -⟩ :=
      afterAppend_next correct lawful accepted reads next now room'
    cases (run.trans returned).symm.trans failed
  · obtain ⟨grown, full⟩ := Classical.not_imp.mp room'
    have panicked := afterAppend_panics accepted reads next now grown full
    cases (run.trans panicked).symm.trans failed

/-- An append that reports an error has left the log alone, or has overrun; what it reports is
no refusal only where its link has no encoding. -/
theorem appendNext_error (correct : c.Correct) (lawful : json.Lawful) {body : Body}
    (inner : ¬ body.IsRoot) {now : Int64} {e : HansaError} {dir' : HansaDir}
    (failed : (r.appendNext c json hansa skipper body now).run dir = .error (.err e) dir') :
    dir'.log = dir.log ∧
        (replayLog c json (r.logPath hansa) dir.log none = .error (.err e) ∨ e.IsJson) ∨
      Overruns c json (r.logPath hansa) dir skipper body := by
  cases read : readLog json (r.logPath hansa) dir.log with
  | error fault =>
    simp only [FileRegistry.appendNext, EStateM.run_bind, run_readChain_error read] at failed
    obtain ⟨rfl, rfl⟩ := EStateM.Result.error.inj failed
    refine .inl ⟨rfl, .inl ?_⟩
    rw [replayLog, read]
    rfl
  | ok chain =>
    have shown : replayLog c json (r.logPath hansa) dir.log none = replay c chain none := by
      rw [replayLog, read]
      rfl
    cases accepted : replay c chain none with
    | error fault =>
      rw [run_appendNext read, accepted] at failed
      obtain ⟨rfl, rfl⟩ := EStateM.Result.error.inj failed
      exact .inl ⟨rfl, .inl (shown.trans accepted)⟩
    | ok out =>
      by_cases room : UInt64.HasSucc c.profile out.headSeq
      swap
      · rw [run_appendNext read, accepted] at failed
        simp only [UInt64.succIn_panic room] at failed
        cases failed
      by_cases carried : body.IsUtf8
      swap
      · obtain ⟨message, refused⟩ := lawful.refuses (nextLink c skipper out body) carried
        obtain ⟨bytes, isLog⟩ := log_of_read read (ne_nil_of_replay accepted)
        rw [nextLink] at refused
        rw [run_appendNext read, accepted] at failed
        simp only [UInt64.succIn_eq room, refused] at failed
        obtain ⟨same, rfl⟩ := EStateM.Result.error.inj failed
        obtain rfl := Fault.err.inj same
        refine .inl ⟨?_, .inr trivial⟩
        simp only [isLog, Option.getD_some]
      by_cases long : checkpointAfterLinks ≤ chain.length
      swap
      · obtain ⟨text, encoded⟩ := lawful.encodes (nextLink c skipper out body) carried
        have run := run_appendNext_encoded read accepted room encoded now
        rw [afterAppend, if_neg (by omega)] at run
        cases run.symm.trans failed
      by_cases strays : (∀ bytes ∈ dir.log, Appendable bytes) ∧ skipper.pub c = out.skipper
      · exact absurd failed (appendNext_of_next correct lawful inner read accepted room carried
          strays.1 strays.2 now e dir')
      · exact .inr ⟨chain, out, read, accepted, room, carried, long, strays⟩

/-! ## Calls of a handle -/

section Calls

variable {F : Type} {h : Handle F} {disk disk' : Disk F} {member : MemberRecord} {now : Int64}
  {e : HansaError}

/-- An append through a handle ends as the append of the registry does. -/
theorem HandleM.run_registry_error {call : FileM Unit} {fault : Fault} :
    (HandleM.registry call).run disk = .error fault disk' ↔
      ∃ dir', call.run disk.dir = .error fault dir' ∧ { disk with dir := dir' } = disk' := by
  rw [HandleM.run_registry]
  cases call.run disk.dir with
  | ok a dir' =>
    constructor
    · exact fun out => nomatch out
    · rintro ⟨_, out, _⟩
      cases out
  | error fault' dir' =>
    constructor
    · intro out
      obtain ⟨rfl, rfl⟩ := EStateM.Result.error.inj out
      exact ⟨dir', rfl, rfl⟩
    · rintro ⟨mid, out, rfl⟩
      obtain ⟨rfl, rfl⟩ := EStateM.Result.error.inj out
      rfl

/-- A handle refuses to admit a member: it has no skipper, the log does not replay under its
id, or the dimension is not the pinned one. -/
def Handle.Refuses (c : Build) (json : LinkJson) (h : Handle F) (disk : Disk F)
    (member : MemberRecord) : Prop :=
  h.skipper = none ∨
    (∃ e, replayLog c json (h.registry.logPath h.id) disk.dir.log (some h.id) = .error (.err e)) ∨
    ∃ head, replayLog c json (h.registry.logPath h.id) disk.dir.log (some h.id) = .ok head ∧
      member.embeddingDim ≠ head.embeddingDim

/-- A handle passes a member on to the registry. -/
def Handle.PassesOn (c : Build) (json : LinkJson) (h : Handle F) (disk : Disk F)
    (member : MemberRecord) (skipper : Skipper) : Prop :=
  h.skipper = some skipper ∧
    ∃ head, replayLog c json (h.registry.logPath h.id) disk.dir.log (some h.id) = .ok head ∧
      member.embeddingDim = head.embeddingDim

/-- A refused admission reports the check and leaves the files alone. -/
theorem Handle.Refuses.run (refuses : h.Refuses c json disk member) (now : Int64) :
    ∃ e, (h.admitMember c json member now).run disk = .error (.err e) disk ∧
      Refusal c json (h.registry.logPath h.id) e := by
  rw [Handle.run_admitMember]
  cases signs : h.skipper with
  | none => exact ⟨_, rfl, .unauthorized⟩
  | some skipper =>
    rcases refuses with none | ⟨e, failed⟩ | ⟨head, shown, differs⟩
    · cases signs.symm.trans none
    · rw [failed]
      exact ⟨e, rfl, .unreplayed failed⟩
    · rw [shown]
      simp only [if_pos differs]
      exact ⟨_, rfl, .dimMismatch _ _⟩

/-- An admission that is passed on is an append. -/
theorem Handle.PassesOn.run {skipper : Skipper} (passes : h.PassesOn c json disk member skipper)
    (now : Int64) :
    (h.admitMember c json member now).run disk = (HandleM.registry (h.registry.appendNext c json
      h.id skipper (.admitMember member none) now) : HandleM F Unit).run disk := by
  obtain ⟨signs, head, shown, same⟩ := passes
  rw [Handle.run_admitMember, signs]
  simp only [shown, if_neg (not_not_intro same)]

/-- An admission that reports an error is refused, or passed on. -/
theorem Handle.admitMember_error
    (failed : (h.admitMember c json member now).run disk = .error (.err e) disk') :
    h.Refuses c json disk member ∧ disk' = disk ∨
      ∃ skipper, h.PassesOn c json disk member skipper := by
  rw [Handle.run_admitMember] at failed
  cases signs : h.skipper with
  | none =>
    simp only [signs] at failed
    obtain ⟨-, rfl⟩ := EStateM.Result.error.inj failed
    exact .inl ⟨.inl signs, rfl⟩
  | some skipper =>
    simp only [signs] at failed
    cases shown : replayLog c json (h.registry.logPath h.id) disk.dir.log (some h.id) with
    | error fault =>
      rw [shown] at failed
      obtain ⟨rfl, rfl⟩ := EStateM.Result.error.inj failed
      exact .inl ⟨.inr (.inl ⟨e, shown⟩), rfl⟩
    | ok head =>
      simp only [shown] at failed
      by_cases differs : member.embeddingDim ≠ head.embeddingDim
      · rw [if_pos differs] at failed
        obtain ⟨-, rfl⟩ := EStateM.Result.error.inj failed
        exact .inl ⟨.inr (.inr ⟨head, shown, differs⟩), rfl⟩
      · exact .inr ⟨skipper, signs, head, shown, not_not.mp differs⟩

/-- An append through a handle that overruns is refused, with its link in the log. -/
theorem Handle.append_refused (lawful : json.Lawful) {skipper : Skipper} {body : Body}
    (overruns : Overruns c json (h.registry.logPath h.id) disk.dir skipper body) (now : Int64) :
    ∃ e disk', (HandleM.registry (h.registry.appendNext c json h.id skipper body now) :
        HandleM F Unit).run disk = .error (.err e) disk' ∧
      Refusal c json (h.registry.logPath h.id) e ∧ disk'.dir.log ≠ disk.dir.log := by
  obtain ⟨e, dir', run, refusal, grown⟩ := overruns.refused lawful now
  exact ⟨e, _, HandleM.run_registry_error.mpr ⟨dir', run, rfl⟩, refusal, grown⟩

/-- An append through a handle that reports an error keeps the files, or has overrun. -/
theorem Handle.append_error (correct : c.Correct) (lawful : json.Lawful) {skipper : Skipper}
    {body : Body}
    (failed : (HandleM.registry (h.registry.appendNext c json h.id skipper body now) :
      HandleM F Unit).run disk = .error (.err e) disk') (inner : ¬ body.IsRoot) :
    disk'.sagas = disk.sagas ∧
      (disk'.dir.log = disk.dir.log ∧
          (replayLog c json (h.registry.logPath h.id) disk.dir.log none = .error (.err e) ∨
            e.IsJson) ∨
        Overruns c json (h.registry.logPath h.id) disk.dir skipper body) := by
  obtain ⟨dir', appended, rfl⟩ := HandleM.run_registry_error.mp failed
  exact ⟨rfl, appendNext_error correct lawful inner appended⟩

/-- No admission that is passed on overruns. -/
def Handle.AdmitsSoundly (c : Build) (json : LinkJson) (h : Handle F) (disk : Disk F)
    (member : MemberRecord) : Prop :=
  ∀ skipper, h.PassesOn c json disk member skipper →
    ¬ Overruns c json (h.registry.logPath h.id) disk.dir skipper (.admitMember member none)

/-- No revocation overruns. -/
def Handle.RevokesSoundly (c : Build) (json : LinkJson) (h : Handle F) (disk : Disk F)
    (tenant : TenantId) (now : Int64) : Prop :=
  ∀ skipper, h.skipper = some skipper →
    ¬ Overruns c json (h.registry.logPath h.id) disk.dir skipper (.revoke tenant now none)

/-- An admission keeps the files when it is refused exactly when it does not overrun. -/
theorem Handle.admit_clean_iff (correct : c.Correct) (lawful : json.Lawful) (disk : Disk F)
    (member : MemberRecord) (now : Int64) :
    (∀ e disk', (h.admitMember c json member now).run disk = .error (.err e) disk' →
      Refusal c json (h.registry.logPath h.id) e →
      disk'.dir.log = disk.dir.log ∧ disk'.sagas = disk.sagas) ↔
    h.AdmitsSoundly c json disk member := by
  constructor
  · intro clean skipper passes overruns
    obtain ⟨e, disk', run, refusal, grown⟩ := Handle.append_refused lawful overruns now
    exact grown (clean e disk' ((passes.run now).trans run) refusal).1
  · intro sound e disk' failed refusal
    rcases Handle.admitMember_error failed with ⟨-, rfl⟩ | ⟨skipper, passes⟩
    · exact ⟨rfl, rfl⟩
    · rw [passes.run now] at failed
      obtain ⟨sagas, ⟨log, -⟩ | overruns⟩ :=
        Handle.append_error correct lawful failed fun root => root
      · exact ⟨log, sagas⟩
      · exact absurd overruns (sound skipper passes)

/-- A revocation keeps the files when it is refused exactly when it does not overrun. -/
theorem Handle.revoke_clean_iff (correct : c.Correct) (lawful : json.Lawful) (disk : Disk F)
    (tenant : TenantId) (now : Int64) :
    (∀ e disk', (h.revoke c json tenant now).run disk = .error (.err e) disk' →
      Refusal c json (h.registry.logPath h.id) e →
      disk'.dir.log = disk.dir.log ∧ disk'.sagas = disk.sagas) ↔
    h.RevokesSoundly c json disk tenant now := by
  constructor
  · intro clean skipper signs overruns
    obtain ⟨e, disk', run, refusal, grown⟩ := Handle.append_refused lawful overruns now
    have revoked : (h.revoke c json tenant now).run disk = _ := h.run_revoke tenant now disk
    rw [signs] at revoked
    exact grown (clean e disk' (revoked.trans run) refusal).1
  · intro sound e disk' failed refusal
    rw [Handle.run_revoke] at failed
    cases signs : h.skipper with
    | none =>
      simp only [signs] at failed
      obtain ⟨-, rfl⟩ := EStateM.Result.error.inj failed
      exact ⟨rfl, rfl⟩
    | some skipper =>
      simp only [signs] at failed
      obtain ⟨sagas, ⟨log, -⟩ | overruns⟩ :=
        Handle.append_error correct lawful failed fun root => root
      · exact ⟨log, sagas⟩
      · exact absurd overruns (sound skipper signs)

/-- An admission that is not refused reports a refusal only when it overruns. -/
theorem Handle.overruns_of_refusal (correct : c.Correct) (lawful : json.Lawful)
    {disk disk' : Disk F} {member : MemberRecord} {now : Int64} {e : HansaError}
    (failed : (h.admitMember c json member now).run disk = .error (.err e) disk')
    (refusal : Refusal c json (h.registry.logPath h.id) e)
    (passes : ¬ h.Refuses c json disk member) : ¬ h.AdmitsSoundly c json disk member := by
  intro sound
  rcases Handle.admitMember_error failed with ⟨refuses, -⟩ | ⟨skipper, passed⟩
  · exact passes refuses
  · rw [passed.run now] at failed
    obtain ⟨-, ⟨-, unread | encoding⟩ | overruns⟩ :=
        Handle.append_error correct lawful failed fun root => root
    · obtain ⟨-, head, shown, -⟩ := passed
      obtain ⟨chain, read, accepted⟩ := replayLog_eq_ok.mp shown
      have shows := replayLog_eq_ok.mpr ⟨chain, read, (replay_pinned.mp accepted).1⟩
      cases shows.symm.trans unread
    · exact refusal.not_json encoding
    · exact sound skipper passed overruns

end Calls

/-! ## When a refusal changes nothing -/

/-- The calls that change the membership. -/
inductive MemberCall where
  /-- `Hansa::join`. -/
  | join (tags : List String) (now : Int64)
  /-- `Hansa::admit`. -/
  | admitMember (member : MemberRecord) (now : Int64)
  /-- `Hansa::revoke`. -/
  | revoke (tenant : TenantId) (now : Int64)
  /-- `Hansa::leave`. -/
  | leave (now : Int64)

section Clean

variable {F D : Type} [FloatLike F] [FloatLike D] [Widen F D] (c : Build) (json : LinkJson)
  (rng : SmallRng D) (h : Handle F)

/-- The call on the handle. -/
def MemberCall.call : MemberCall → HandleM F Unit
  | .join tags now => h.join c json rng tags now
  | .admitMember member now => h.admitMember c json member now
  | .revoke tenant now => h.revoke c json tenant now
  | .leave now => h.leave c json now

/-- When the call is refused, the log and the saga files are as before. -/
def MemberCall.RefusedCleanly (disk : Disk F) (call : MemberCall) : Prop :=
  ∀ e disk', (call.call c json rng h).run disk = .error (.err e) disk' →
    Refusal c json (h.registry.logPath h.id) e →
    disk'.dir.log = disk.dir.log ∧ disk'.sagas = disk.sagas

/-- The append does not overrun; and joining finds a saga of its own, or is not refused, or
cannot build a saga at all. -/
def MemberCall.Soundly (disk : Disk F) : MemberCall → Prop
  | .join tags now =>
    (disk.sagas h.localTenantId ≠ none → h.AdmitsSoundly c json disk (h.ownRecord now)) ∧
      (disk.sagas h.localTenantId = none → (∃ saga, h.ownSaga rng tags now 0 = .ok saga) →
        ¬ h.Refuses c json disk (h.ownRecord now) ∧ h.AdmitsSoundly c json disk (h.ownRecord now))
  | .admitMember member _ => h.AdmitsSoundly c json disk member
  | .revoke tenant now => h.RevokesSoundly c json disk tenant now
  | .leave now => h.RevokesSoundly c json disk h.localTenantId now

variable {c json rng h}

/-- With a saga in its place, joining is an admission. -/
theorem Handle.join_clean_iff_of_saga (correct : c.Correct) (lawful : json.Lawful)
    {disk : Disk F} (there : disk.sagas h.localTenantId ≠ none) (tags : List String)
    (now : Int64) :
    (MemberCall.join tags now).RefusedCleanly c json rng h disk ↔
      h.AdmitsSoundly c json disk (h.ownRecord now) := by
  have present : ¬ (disk.sagas h.localTenantId).isNone :=
    fun none => there (Option.isNone_iff_eq_none.mp none)
  simp only [MemberCall.RefusedCleanly, MemberCall.call, Handle.run_join, if_neg present]
  exact Handle.admit_clean_iff correct lawful disk (h.ownRecord now) now

/-- Without a saga, joining keeps the files when it cannot build one, or when it is neither
refused nor overruns. -/
theorem Handle.join_clean_iff_of_none (correct : c.Correct) (lawful : json.Lawful)
    {disk : Disk F} (missing : disk.sagas h.localTenantId = none) (tags : List String)
    (now : Int64) :
    (MemberCall.join tags now).RefusedCleanly c json rng h disk ↔
      ((∃ saga, h.ownSaga rng tags now 0 = .ok saga) →
        ¬ h.Refuses c json disk (h.ownRecord now) ∧
          h.AdmitsSoundly c json disk (h.ownRecord now)) := by
  have absent : (disk.sagas h.localTenantId).isNone := Option.isNone_iff_eq_none.mpr missing
  simp only [MemberCall.RefusedCleanly, MemberCall.call, Handle.run_join, if_pos absent]
  cases built : h.ownSaga rng tags now 0 with
  | error fault =>
    constructor
    · rintro - ⟨saga, same⟩
      cases same
    · intro _ e disk' failed _
      obtain ⟨-, rfl⟩ := EStateM.Result.error.inj failed
      exact ⟨rfl, rfl⟩
  | ok saga =>
    have published : (disk.publish h.localTenantId saga).sagas ≠ disk.sagas := by
      intro same
      have own := congrFun same h.localTenantId
      simp only [Disk.publish, Function.update_self, missing] at own
      cases own
    constructor
    · rintro clean -
      constructor
      · intro refuses
        have refuses' : h.Refuses c json (disk.publish h.localTenantId saga) (h.ownRecord now) :=
          refuses
        obtain ⟨e, run, refusal⟩ := refuses'.run now
        exact published (clean e _ run refusal).2
      · intro skipper passes overruns
        have passes' : h.PassesOn c json (disk.publish h.localTenantId saga) (h.ownRecord now)
          skipper := passes
        have overruns' : Overruns c json (h.registry.logPath h.id)
          (disk.publish h.localTenantId saga).dir skipper (.admitMember (h.ownRecord now) none) :=
          overruns
        obtain ⟨e, disk', run, refusal, grown⟩ := Handle.append_refused lawful overruns' now
        exact grown (clean e disk' ((passes'.run now).trans run) refusal).1
    · intro condition e disk' failed refusal
      obtain ⟨passes, sound⟩ := condition ⟨saga, rfl⟩
      have refused := Handle.overruns_of_refusal correct lawful failed refusal passes
      exact absurd sound refused

/-- A refused call leaves the log and the saga files as they were exactly when its append does
not overrun and, for joining, when there is a saga already, or none can be built, or the
admission is not refused. -/
theorem refused_cleanly_iff (correct : c.Correct) (lawful : json.Lawful) (disk : Disk F)
    (call : MemberCall) :
    call.RefusedCleanly c json rng h disk ↔ call.Soundly c json rng h disk := by
  cases call with
  | join tags now =>
    by_cases missing : disk.sagas h.localTenantId = none
    · rw [Handle.join_clean_iff_of_none correct lawful missing]
      exact ⟨fun sound => ⟨fun there => absurd missing there, fun _ => sound⟩,
        fun sound => sound.2 missing⟩
    · rw [Handle.join_clean_iff_of_saga correct lawful missing]
      exact ⟨fun sound => ⟨fun _ => sound, fun none => absurd none missing⟩,
        fun sound => sound.1 missing⟩
  | admitMember member now => exact Handle.admit_clean_iff correct lawful disk member now
  | revoke tenant now => exact Handle.revoke_clean_iff correct lawful disk tenant now
  | leave now =>
    refine Iff.trans ?_ (Handle.revoke_clean_iff correct lawful disk h.localTenantId now)
    have same : ∀ e disk', (h.leave c json now).run disk = .error (.err e) disk' ↔
        (h.revoke c json h.localTenantId now).run disk = .error (.err e) disk' := by
      intro e disk'
      rw [Handle.run_leave]
      cases (h.revoke c json h.localTenantId now).run disk with
      | ok a mid => exact ⟨fun out => (nomatch out), fun out => nomatch out⟩
      | error fault mid => exact Iff.rfl
    simp only [MemberCall.RefusedCleanly, MemberCall.call, same]

end Clean

/-- Without a skipper a revocation is refused, and changes nothing. -/
theorem refused_cleanly_sample :
    (MemberCall.revoke (sampleTenant 7) 0).RefusedCleanly sampleBuild sampleJson sampleRng
      sampleHandle (sampleDisk none) :=
  (refused_cleanly_iff sampleBuild_correct sampleJson_lawful (sampleDisk none)
    (.revoke (sampleTenant 7) 0)).mpr fun _ signs => nomatch signs

/-- Without a skipper joining is refused, and publishes a saga. -/
theorem refused_join_publishes :
    ¬ ∀ (c : Build) (json : LinkJson) (rng : SmallRng Float) (h : Handle Float32)
      (disk : Disk Float32) (call : MemberCall), c.Correct → json.Lawful →
        call.RefusedCleanly c json rng h disk := by
  intro claim
  have clean := claim _ _ sampleRng sampleHandle (sampleDisk none) (.join [] 0)
    sampleBuild_correct sampleJson_lawful
  obtain ⟨saga, built⟩ : ∃ saga, sampleHandle.ownSaga sampleRng [] 0 0 = .ok saga := ⟨_, rfl⟩
  have run : (sampleHandle.join sampleBuild sampleJson sampleRng [] 0).run (sampleDisk none) =
      .error (.err .unauthorized) ((sampleDisk none).publish (sampleTenant 1) saga) := by
    have missing : ((sampleDisk none).sagas sampleHandle.localTenantId).isNone := rfl
    rw [Handle.run_join, if_pos missing, built]
    exact Handle.run_admitMember sampleHandle _ 0 _
  have kept := (clean .unauthorized _ run .unauthorized).2
  have own := congrFun kept (sampleTenant 1)
  simp only [Disk.publish, Function.update_self] at own
  cases own

end Hansa
