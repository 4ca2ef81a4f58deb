import Mathlib.Data.List.Induction
import Hansa.Library.Transition
import Hansa.Verif.Extend

/-!
# The registry as a map of members

To its callers the registry is a map from tenants to members with a dimension fixed once. The
map knows neither links nor checkpoints. Every run of registry calls by the holder of the
skipper key simulates the same run on the map: what the log replays to is the map, whatever
was compacted in between, and the log itself stays bounded.
-/

namespace Hansa

/-! ## The abstract map -/

/-- What the registry is for: the pinned dimension, once founded, and the members. -/
structure MemberMap where
  /-- The dimension of the first founding. -/
  dim : Option UInt32
  /-- The members by tenant id. -/
  roster : Roster

/-- Before the first founding. -/
def MemberMap.initial : MemberMap := ⟨none, Roster.empty⟩

/-- An operation on the map; an admit with a path that is no string is refused. -/
def MemberMap.step (m : MemberMap) : Op → MemberMap
  | .found embeddingDim _ => if m.dim.isNone then ⟨some embeddingDim, Roster.empty⟩ else m
  | .admitMember member _ _ =>
    if m.dim.isSome ∧ member.IsUtf8 then
      { m with roster := Function.update m.roster member.tenantId (some member) }
    else m
  | .revoke tenantId .. =>
    if m.dim.isSome then { m with roster := Function.update m.roster tenantId none } else m
  | .compact _ => m

/-- A founding pins the dimension for good. -/
theorem MemberMap.step_dim {m : MemberMap} {dim : UInt32} (founded : m.dim = some dim) (op : Op) :
    (m.step op).dim = some dim := by
  have isSome : m.dim.isSome = true := by rw [founded, Option.isSome_some]
  have isNone : m.dim.isNone = false := by rw [founded, Option.isNone_some]
  cases op with
  | found embeddingDim createdAt =>
    rw [step, isNone, if_neg Bool.false_ne_true]
    exact founded
  | admitMember member memberPub now =>
    rw [step]
    split <;> exact founded
  | revoke tenantId time reason now =>
    rw [step, if_pos isSome]
    exact founded
  | compact now => exact founded

/-! ## Agreement -/

/-- A call that returned, with a value or an error, and left this directory. -/
def Ends {α : Type} (result : EStateM.Result Fault HansaDir α) (dir : HansaDir) : Prop :=
  dirAfter result = dir ∧ ∀ mid, result ≠ .error .panic mid

/-- A step of the registry: a call with the skipper's key that returned. -/
def Op.Step (c : Build) (json : LinkJson) (r : FileRegistry) (skipper : Skipper)
    (dir : HansaDir) (op : Op) (dir' : HansaDir) : Prop :=
  Ends ((op.call c json r (.fromSkipper c (skipper.pub c)) skipper).run dir) dir'

/-- A log that replays under the skipper's id, rooted in the skipper's key. -/
structure Founded (c : Build) (json : LinkJson) (r : FileRegistry) (skipper : Skipper)
    (dir : HansaDir) (chain : List Link) (out : ReplayOutcome) : Prop where
  /-- The log is read as the chain. -/
  read : readLog json (r.logPath (.fromSkipper c (skipper.pub c))) dir.log = .ok chain
  /-- The log takes a line. -/
  appendable : ∀ bytes ∈ dir.log, Appendable bytes
  /-- The chain replays under the id. -/
  accepted : replay c chain (some (.fromSkipper c (skipper.pub c))) = .ok out
  /-- The chain is rooted in the skipper's key. -/
  signer : out.skipper = skipper.pub c

/-- The directory holds what the map says. -/
def Agrees (c : Build) (json : LinkJson) (r : FileRegistry) (skipper : Skipper)
    (dir : HansaDir) (m : MemberMap) : Prop :=
  match m.dim with
  | none => dir.log = none ∧ m.roster = Roster.empty
  | some dim => ∃ chain out, Founded c json r skipper dir chain out ∧ out.embeddingDim = dim ∧
      rosterOf (chain.map Link.toStatement) = m.roster ∧ chain.length ≤ checkpointAfterLinks

variable {c : Build} {json : LinkJson} {r : FileRegistry} {skipper : Skipper} {dir : HansaDir}
  {chain : List Link} {out : ReplayOutcome}

/-- A founded log exists as a file. -/
theorem Founded.log (founded : Founded c json r skipper dir chain out) :
    ∃ bytes, dir.log = some bytes :=
  log_of_read founded.read (ne_nil_of_replay founded.accepted)

/-- Creating a log that exists changes nothing. -/
theorem Founded.touch (founded : Founded c json r skipper dir chain out) :
    { dir with log := some (dir.log.getD []) } = dir := by
  obtain ⟨bytes, isLog⟩ := founded.log
  obtain ⟨log, written⟩ := dir
  obtain rfl : log = some bytes := isLog
  rfl

/-! ## Elementary writes keep a log founded -/

/-- A genesis line founds an empty directory. -/
theorem founded_found (correct : c.Correct) (lawful : json.Lawful) (embeddingDim : UInt32)
    (createdAt : Int64) {text : String}
    (encoded : json.toString (genesisLink c skipper embeddingDim createdAt) = .ok text)
    (absent : dir.log = none) :
    ∃ out, Founded c json r skipper
        (dir.append (genesisLink c skipper embeddingDim createdAt) text)
        [genesisLink c skipper embeddingDim createdAt] out ∧
      out.embeddingDim = embeddingDim ∧ out.headSeq = 0 := by
  have read : readLog json (r.logPath (.fromSkipper c (skipper.pub c))) dir.log = .ok [] := by
    rw [absent]
    rfl
  have unlogged : ∀ bytes ∈ dir.log, Appendable bytes := by
    rw [absent]
    exact fun _ none => nomatch none
  obtain ⟨reads, appendable⟩ := HansaDir.read_append lawful unlogged read encoded
  exact ⟨_, ⟨reads, appendable, replay_genesisLink correct skipper embeddingDim createdAt, rfl⟩,
    rfl, rfl⟩

/-- A next link keeps the log founded and changes the roster by its body. -/
theorem Founded.append (correct : c.Correct) (lawful : json.Lawful)
    (founded : Founded c json r skipper dir chain out) {body : Body} (inner : ¬ body.IsRoot)
    (room : UInt64.HasSucc c.profile out.headSeq) {text : String}
    (encoded : json.toString (nextLink c skipper out body) = .ok text) :
    ∃ out', Founded c json r skipper (dir.append (nextLink c skipper out body) text)
        (chain ++ [nextLink c skipper out body]) out' ∧
      out'.embeddingDim = out.embeddingDim ∧
      UInt64.succIn c.profile out.headSeq = .ok out'.headSeq ∧
      rosterOf ((chain ++ [nextLink c skipper out body]).map Link.toStatement) =
        body.change (rosterOf (chain.map Link.toStatement)) := by
  have next : (nextLink c skipper out body).Next c out :=
    (next_signed_iff correct room skipper body).mpr ⟨founded.signer.symm, inner⟩
  obtain ⟨active, -, accepted⟩ := replay_concat founded.accepted next
  obtain ⟨reads, appendable⟩ :=
    HansaDir.read_append lawful founded.appendable founded.read encoded
  refine ⟨_, ⟨reads, appendable, accepted, founded.signer⟩, rfl, next.seq, ?_⟩
  rw [List.map_append, List.map_singleton, rosterOf_concat]
  exact Body.apply_inner inner _

/-- A checkpoint keeps the log founded, with the same dimension and roster. -/
theorem Founded.compact (correct : c.Correct) (lawful : json.Lawful)
    (founded : Founded c json r skipper dir chain out) (room : UInt64.HasSucc c.profile out.headSeq)
    {now : Int64} {text : String}
    (encoded : json.toString (checkpointLink c skipper out (out.headSeq + 1) now) = .ok text) :
    ∃ out', Founded c json r skipper
        (dir.replace (checkpointLink c skipper out (out.headSeq + 1) now) text)
        [checkpointLink c skipper out (out.headSeq + 1) now] out' ∧
      out'.embeddingDim = out.embeddingDim ∧
      UInt64.succIn c.profile out.headSeq = .ok out'.headSeq ∧
      rosterOf ([checkpointLink c skipper out (out.headSeq + 1) now].map Link.toStatement) =
        rosterOf (chain.map Link.toStatement) := by
  refine ⟨_, ⟨readLog_single lawful _ encoded, ?_, replay_checkpointLink correct founded.accepted
    skipper _ now (pinned_some.mpr rfl), rfl⟩, rfl,
    UInt64.succIn_eq room, ?_⟩
  · rintro bytes ⟨⟩
    exact appendable_concat _
  · exact Roster.ofRecords_lists (rosterOf_keyed _) (replay_ok founded.accepted).1.active

/-! ## Calls on a founded log -/

/-- The next two sequence numbers do not wrap, as they might in a release build. -/
def ReplayOutcome.Counts (c : Build) (out : ReplayOutcome) : Prop :=
  c.profile = .dev ∨ out.headSeq.toNat + 2 < 2 ^ 64

/-- The next sequence number is a larger one. -/
theorem ReplayOutcome.Counts.lt (counts : out.Counts c) {seq : UInt64}
    (next : UInt64.succIn c.profile out.headSeq = .ok seq) : out.headSeq < seq := by
  have further := UInt64.toNat_succIn next (counts.imp_right (by omega))
  exact UInt64.lt_iff_toNat_lt.mpr (by omega)

/-- The second sequence number from here is a larger one. -/
theorem ReplayOutcome.Counts.lt_second (counts : out.Counts c) {seq seq' : UInt64}
    (next : UInt64.succIn c.profile out.headSeq = .ok seq)
    (next' : UInt64.succIn c.profile seq = .ok seq') : out.headSeq < seq' := by
  have most := UInt64.toNat_succIn_le next
  have further := UInt64.toNat_succIn next (counts.imp_right (by omega))
  have further' := UInt64.toNat_succIn next' (counts.imp_right (by omega))
  exact UInt64.lt_iff_toNat_lt.mpr (by omega)

/-- What a call that returned leaves behind: a founded log of bounded length, with the same
dimension, whose head has moved by at most `steps`, and has moved if anything was written. -/
def Moves (c : Build) (json : LinkJson) (r : FileRegistry) (skipper : Skipper)
    (dir : HansaDir) (out : ReplayOutcome) (roster : Roster) (steps : Nat)
    (dir' : HansaDir) : Prop :=
  ∃ chain' out', Founded c json r skipper dir' chain' out' ∧
    out'.embeddingDim = out.embeddingDim ∧ chain'.length ≤ checkpointAfterLinks ∧
    rosterOf (chain'.map Link.toStatement) = roster ∧
    (dir'.log ≠ dir.log → out.Counts c → out.headSeq < out'.headSeq) ∧
    out'.headSeq.toNat ≤ out.headSeq.toNat + steps

/-- A directory that was left alone has moved by nothing. -/
theorem Founded.moves_self (founded : Founded c json r skipper dir chain out)
    (bounded : chain.length ≤ checkpointAfterLinks) (steps : Nat) :
    Moves c json r skipper dir out (rosterOf (chain.map Link.toStatement)) steps dir :=
  ⟨chain, out, founded, rfl, bounded, rfl, fun changed => absurd rfl changed,
    Nat.le_add_right _ _⟩

/-- A compaction that returned leaves the members as they were, and at most one link if there
was more than one. -/
theorem Founded.call_compact (correct : c.Correct) (lawful : json.Lawful)
    (founded : Founded c json r skipper dir chain out) {now : Int64} {dir' : HansaDir}
    (ends : Ends ((r.compact c json (.fromSkipper c (skipper.pub c)) skipper now).run dir) dir') :
    dir' = dir ∧ chain.length ≤ 1 ∨
    ∃ chain' out', Founded c json r skipper dir' chain' out' ∧ chain'.length = 1 ∧
      out'.embeddingDim = out.embeddingDim ∧
      UInt64.succIn c.profile out.headSeq = .ok out'.headSeq ∧
      rosterOf (chain'.map Link.toStatement) = rosterOf (chain.map Link.toStatement) := by
  obtain ⟨rfl, returned⟩ := ends
  by_cases short : chain.length ≤ 1
  · left
    rw [FileRegistry.compact, run_checkpointLocked founded.read, if_pos short]
    exact ⟨rfl, short⟩
  right
  have unpinned := (replay_pinned.mp founded.accepted).1
  by_cases room : UInt64.HasSucc c.profile out.headSeq
  · obtain ⟨text, encoded, run⟩ := run_compact_long lawful founded.read unpinned short room
      skipper now
    obtain ⟨out', founded', dim, seq, roster⟩ := founded.compact correct lawful room encoded
    rw [run]
    exact ⟨_, out', founded', rfl, dim, seq, roster⟩
  · refine absurd ?_ (returned dir)
    rw [FileRegistry.compact, run_checkpointLocked founded.read, if_neg short, unpinned]
    simp only [UInt64.succIn_panic room]

/-- An append of an admit or revoke that returned changes the roster by the body, if JSON can
carry the body, and leaves everything as it was otherwise. -/
theorem Founded.call_appendNext (correct : c.Correct) (lawful : json.Lawful)
    (founded : Founded c json r skipper dir chain out)
    (bounded : chain.length ≤ checkpointAfterLinks) (body : Body) (inner : ¬ body.IsRoot)
    {now : Int64} {dir' : HansaDir}
    (ends : Ends
      ((r.appendNext c json (.fromSkipper c (skipper.pub c)) skipper body now).run dir) dir') :
    Moves c json r skipper dir out
      (if body.IsUtf8 then body.change (rosterOf (chain.map Link.toStatement))
        else rosterOf (chain.map Link.toStatement)) 2 dir' := by
  have unpinned := (replay_pinned.mp founded.accepted).1
  obtain ⟨finish, returned⟩ := ends
  rw [run_appendNext founded.read, unpinned] at finish returned
  by_cases room : UInt64.HasSucc c.profile out.headSeq
  swap
  · simp only [UInt64.succIn_panic room] at returned
    exact absurd rfl (returned dir)
  simp only [UInt64.succIn_eq room] at finish returned
  by_cases carried : body.IsUtf8
  swap
  · obtain ⟨e, refused⟩ := lawful.refuses (nextLink c skipper out body) carried
    rw [nextLink] at refused
    simp only [refused, founded.touch] at finish
    obtain rfl : dir = dir' := finish
    rw [if_neg carried]
    exact founded.moves_self bounded 2
  obtain ⟨text, encoded⟩ := lawful.encodes (nextLink c skipper out body) carried
  obtain ⟨mid, founded', dim, seq, roster⟩ :=
    founded.append correct lawful inner room encoded
  rw [nextLink] at encoded
  simp only [encoded] at finish returned
  rw [if_pos carried]
  by_cases grown : chain.length + 1 > checkpointAfterLinks
  · rw [if_pos grown] at finish returned
    have length := not_length_concat_le_one founded.accepted (nextLink c skipper out body)
    rcases founded'.call_compact correct lawful ⟨finish, returned⟩ with
      ⟨-, short⟩ | ⟨chain', out', last, single, dim', seq', roster'⟩
    · exact absurd short length
    · refine ⟨chain', out', last, dim'.trans dim, ?_, roster'.trans roster,
        fun _ counts => counts.lt_second seq seq', ?_⟩
      · rw [single]
        decide
      · have most := UInt64.toNat_succIn_le seq
        have most' := UInt64.toNat_succIn_le seq'
        omega
  · rw [if_neg grown] at finish
    obtain rfl := finish
    refine ⟨_, mid, founded', dim, ?_, roster, fun _ counts => counts.lt seq, ?_⟩
    · simp only [List.length_append, List.length_singleton]
      omega
    · have most := UInt64.toNat_succIn_le seq
      omega

/-! ## The simulation -/

/-- One call on a founded log moves it as the map moves. -/
theorem Founded.step (correct : c.Correct) (lawful : json.Lawful)
    (founded : Founded c json r skipper dir chain out)
    (bounded : chain.length ≤ checkpointAfterLinks) {m : MemberMap}
    (dim : m.dim = some out.embeddingDim)
    (roster : rosterOf (chain.map Link.toStatement) = m.roster) {op : Op} {dir' : HansaDir}
    (step : op.Step c json r skipper dir dir') :
    (m.step op).dim = m.dim ∧ Moves c json r skipper dir out (m.step op).roster 2 dir' := by
  cases op with
  | found embeddingDim createdAt =>
    obtain ⟨finish, -⟩ := step
    rw [Op.call, run_found founded.read, if_pos (ne_nil_of_replay founded.accepted)] at finish
    obtain rfl : dir = dir' := finish
    simp only [MemberMap.step, dim, Option.isNone_some, Bool.false_eq_true, if_false, true_and]
    exact roster ▸ founded.moves_self bounded 2
  | admitMember member memberPub now =>
    have moves := founded.call_appendNext correct lawful bounded (.admitMember member memberPub) id
      step
    rw [roster] at moves
    by_cases carried : (Body.admitMember member memberPub).IsUtf8
    · have path : member.IsUtf8 := carried
      rw [if_pos carried] at moves
      simp only [MemberMap.step, dim, Option.isSome_some, path, and_self, if_true, true_and]
      exact moves
    · have path : ¬ member.IsUtf8 := carried
      rw [if_neg carried] at moves
      simp only [MemberMap.step, path, and_false, if_false, true_and]
      exact moves
  | revoke tenantId time reason now =>
    have moves := founded.call_appendNext correct lawful bounded
      (.revoke tenantId time reason) id step
    rw [roster, if_pos (show (Body.revoke tenantId time reason).IsUtf8 from trivial)] at moves
    simp only [MemberMap.step, dim, Option.isSome_some, if_true, true_and]
    exact moves
  | compact now =>
    refine ⟨rfl, ?_⟩
    rcases founded.call_compact correct lawful step with
      ⟨rfl, -⟩ | ⟨chain', out', last, single, dim', seq, roster'⟩
    · exact roster ▸ founded.moves_self bounded 2
    · refine ⟨chain', out', last, dim', ?_, roster'.trans roster, fun _ counts => counts.lt seq,
        ?_⟩
      · rw [single]
        decide
      · have most := UInt64.toNat_succIn_le seq
        omega

/-- Before the first founding only a founding writes, and an append fails. -/
theorem step_unfounded (correct : c.Correct) (lawful : json.Lawful) (absent : dir.log = none)
    {op : Op} {dir' : HansaDir} (step : op.Step c json r skipper dir dir') :
    (∃ embeddingDim createdAt, op = .found embeddingDim createdAt ∧
      ∃ chain out, Founded c json r skipper dir' chain out ∧ out.embeddingDim = embeddingDim ∧
        chain.length = 1 ∧ rosterOf (chain.map Link.toStatement) = Roster.empty ∧
        out.headSeq = 0) ∨
    (∀ embeddingDim createdAt, op ≠ .found embeddingDim createdAt) ∧ dir' = dir := by
  have read : readLog json (r.logPath (.fromSkipper c (skipper.pub c))) dir.log = .ok [] := by
    rw [absent]
    rfl
  obtain ⟨finish, -⟩ := step
  cases op with
  | found embeddingDim createdAt =>
    refine .inl ⟨embeddingDim, createdAt, rfl, ?_⟩
    obtain ⟨text, encoded⟩ := lawful.encodes (genesisLink c skipper embeddingDim createdAt) trivial
    obtain ⟨out, founded, dim, seq⟩ :=
      founded_found (r := r) correct lawful embeddingDim createdAt encoded absent
    rw [Op.call, run_found read, if_neg (not_not_intro rfl), run_appendLink] at finish
    rw [genesisLink] at encoded
    rw [encoded] at finish
    obtain rfl := finish
    exact ⟨_, out, founded, dim, rfl, rfl, seq⟩
  | admitMember member memberPub now =>
    rw [Op.call, run_appendNext read] at finish
    refine .inr ⟨?_, finish.symm⟩
    intro embeddingDim createdAt same
    cases same
  | revoke tenantId time reason now =>
    rw [Op.call, run_appendNext read] at finish
    refine .inr ⟨?_, finish.symm⟩
    intro embeddingDim createdAt same
    cases same
  | compact now =>
    rw [Op.call, FileRegistry.compact, run_checkpointLocked read] at finish
    refine .inr ⟨?_, finish.symm⟩
    intro embeddingDim createdAt same
    cases same

/-- One call moves the directory as it moves the map. -/
theorem Agrees.step (correct : c.Correct) (lawful : json.Lawful) {m : MemberMap}
    (agrees : Agrees c json r skipper dir m) {op : Op} {dir' : HansaDir}
    (step : op.Step c json r skipper dir dir') : Agrees c json r skipper dir' (m.step op) := by
  unfold Agrees at agrees
  cases founding : m.dim with
  | none =>
    rw [founding] at agrees
    obtain ⟨absent, empty⟩ := agrees
    rcases step_unfounded correct lawful absent step with
      ⟨embeddingDim, createdAt, rfl, chain, out, founded, dim, single, roster, -⟩ | ⟨other, rfl⟩
    · simp only [Agrees, MemberMap.step, founding, Option.isNone_none, if_true]
      exact ⟨chain, out, founded, dim, roster, by rw [single]; decide⟩
    · have same : m.step op = m := by
        cases op with
        | found embeddingDim createdAt => exact absurd rfl (other embeddingDim createdAt)
        | admitMember | revoke | compact => simp [MemberMap.step, founding]
      simp only [Agrees, same, founding]
      exact ⟨absent, empty⟩
  | some dim =>
    rw [founding] at agrees
    obtain ⟨chain, out, founded, rfl, roster, bounded⟩ := agrees
    obtain ⟨dims, chain', out', founded', dim', bounded', roster', -⟩ :=
      founded.step correct lawful bounded founding roster step
    simp only [Agrees, dims, founding]
    exact ⟨chain', out', founded', dim', roster', bounded'⟩

/-- Runs of the registry keep the directory in agreement with the map. -/
theorem Agrees.run (correct : c.Correct) (lawful : json.Lawful) {ops : List Op}
    (run : Run (fun dir op dir' => Op.Step c json r skipper dir op dir') .initial ops dir) :
    Agrees c json r skipper dir (ops.foldl MemberMap.step .initial) :=
  run.simulates _ MemberMap.step .initial ⟨rfl, rfl⟩
    (fun _ _ _ _ agrees step => agrees.step correct lawful step)

/-! ## Room for sequence numbers -/

/-- With two successors of the head's number, every call on a founded log returns. -/
theorem Founded.returns (correct : c.Correct) (lawful : json.Lawful)
    (founded : Founded c json r skipper dir chain out)
    (room : UInt64.HasSucc c.profile out.headSeq)
    (room' : UInt64.HasSucc c.profile (out.headSeq + 1)) (op : Op) :
    ∃ dir', op.Step c json r skipper dir dir' := by
  have append : ∀ (body : Body) (now : Int64), ¬ body.IsRoot → ∀ mid,
      (r.appendNext c json (.fromSkipper c (skipper.pub c)) skipper body now).run dir ≠
        .error .panic mid := by
    intro body now inner mid panicked
    have safe := (appendSafe_iff correct lawful founded.read founded.accepted skipper body now).mpr
      ⟨room, .inr ⟨founded.appendable, founded.signer.symm, inner, fun _ => room'⟩⟩
    rw [AppendSafe, panicked] at safe
    exact safe
  refine ⟨_, rfl, ?_⟩
  cases op with
  | found embeddingDim createdAt =>
    intro mid
    rw [Op.call, run_found founded.read, if_pos (ne_nil_of_replay founded.accepted)]
    intro panicked
    cases panicked
  | admitMember member memberPub now => exact append (.admitMember member memberPub) now id
  | revoke tenantId time reason now => exact append (.revoke tenantId time reason) now id
  | compact now =>
    intro mid panicked
    have safe := (compactSafe_iff correct lawful founded.read founded.accepted skipper now).mpr
      (.inr ⟨room, rfl⟩)
    rw [CompactSafe, show (r.compact c json (.fromSkipper c (skipper.pub c)) skipper now).run dir =
      .error .panic mid from panicked] at safe
    exact safe

/-- The head is no further than two sequence numbers for each call. -/
theorem head_le_run (correct : c.Correct) (lawful : json.Lawful) {ops : List Op}
    (run : Run (fun dir op dir' => Op.Step c json r skipper dir op dir') .initial ops dir) :
    dir.log = none ∨ ∃ chain out, Founded c json r skipper dir chain out ∧
      chain.length ≤ checkpointAfterLinks ∧ out.headSeq.toNat ≤ 2 * ops.length := by
  refine run.counted (fun dir n => dir.log = none ∨ ∃ chain out,
    Founded c json r skipper dir chain out ∧ chain.length ≤ checkpointAfterLinks ∧
      out.headSeq.toNat ≤ 2 * n) (.inl rfl) ?_
  rintro dir op dir' n (absent | ⟨chain, out, founded, bounded, seq⟩) step
  · rcases step_unfounded correct lawful absent step with
      ⟨embeddingDim, createdAt, rfl, chain, out, founded, -, single, -, seq⟩ | ⟨-, rfl⟩
    · refine .inr ⟨chain, out, founded, ?_, ?_⟩
      · rw [single]
        decide
      · rw [seq]
        exact Nat.zero_le _
    · exact .inl absent
  · obtain ⟨-, chain', out', founded', -, bounded', -, -, seq'⟩ :=
      founded.step (m := ⟨some out.embeddingDim, _⟩) correct lawful bounded rfl rfl step
    exact .inr ⟨chain', out', founded', bounded', by omega⟩

/-- The sequence numbers that follow the head of the log do not wrap. -/
def HeadCounts (c : Build) (json : LinkJson) (r : FileRegistry) (skipper : Skipper)
    (dir : HansaDir) : Prop :=
  ∀ chain out, readLog json (r.logPath (.fromSkipper c (skipper.pub c))) dir.log = .ok chain →
    replay c chain (some (.fromSkipper c (skipper.pub c))) = .ok out → out.Counts c

/-- The sequence numbers of a run do not wrap in a development build, or while it is shorter than
2^62 calls. -/
theorem counts_of_run (correct : c.Correct) (lawful : json.Lawful) {ops : List Op}
    (run : Run (fun dir op dir' => Op.Step c json r skipper dir op dir') .initial ops dir)
    (short : c.profile = .dev ∨ ops.length < 2 ^ 62) : HeadCounts c json r skipper dir := by
  intro chain out read accepted
  refine short.imp_right fun few => ?_
  rcases head_le_run correct lawful run with absent | ⟨chain', out', founded, -, seq⟩
  · rw [absent] at read
    exact absurd (Except.ok.inj read).symm (ne_nil_of_replay accepted)
  · obtain rfl := Except.ok.inj (read.symm.trans founded.read)
    obtain rfl := Except.ok.inj (accepted.symm.trans founded.accepted)
    omega

/-- Every next call returns in a release build, and after fewer than 2^62 calls in any build. -/
theorem returns_of_run (correct : c.Correct) (lawful : json.Lawful) {ops : List Op}
    (run : Run (fun dir op dir' => Op.Step c json r skipper dir op dir') .initial ops dir)
    (short : c.profile = .release ∨ ops.length < 2 ^ 62) (op : Op) :
    ∃ dir', op.Step c json r skipper dir dir' := by
  rcases head_le_run correct lawful run with absent | ⟨chain, out, founded, -, seq⟩
  · have read : readLog json (r.logPath (.fromSkipper c (skipper.pub c))) dir.log = .ok [] := by
      rw [absent]
      rfl
    refine ⟨_, rfl, ?_⟩
    cases op with
    | found embeddingDim createdAt =>
      intro mid
      rw [Op.call, run_found read, if_neg (not_not_intro rfl), run_appendLink]
      split <;> (intro panicked; cases panicked)
    | admitMember | revoke =>
      intro mid
      rw [Op.call, run_appendNext read]
      intro panicked
      cases panicked
    | compact now =>
      intro mid
      rw [Op.call, FileRegistry.compact, run_checkpointLocked read]
      intro panicked
      cases panicked
  · rcases short with wraps | few
    · exact founded.returns correct lawful (UInt64.hasSucc_release wraps _)
        (UInt64.hasSucc_release wraps _) op
    · exact founded.returns correct lawful (UInt64.hasSucc_of_lt (by omega))
        (UInt64.hasSucc_succ (by omega)) op

/-- Every list of at most 2^62 calls has a run. -/
theorem exists_run (correct : c.Correct) (lawful : json.Lawful) (r : FileRegistry)
    (skipper : Skipper) (ops : List Op) (short : ops.length ≤ 2 ^ 62) :
    ∃ dir, Run (fun dir op dir' => Op.Step c json r skipper dir op dir') .initial ops dir := by
  induction ops using List.reverseRecOn with
  | nil => exact ⟨_, .nil⟩
  | append_singleton ops op ih =>
    rw [List.length_append, List.length_singleton] at short
    obtain ⟨mid, run⟩ := ih (by omega)
    obtain ⟨dir, step⟩ := returns_of_run correct lawful run (.inr (by omega)) op
    exact ⟨dir, run.concat step⟩

/-! ## The refinement -/

/-- The log replays to the map: it is empty before the first founding, and afterwards a chain
of bounded length that replays under the id to the map's dimension and sorted members. -/
def Refines (c : Build) (json : LinkJson) (r : FileRegistry) (skipper : Skipper)
    (dir : HansaDir) (m : MemberMap) : Prop :=
  ∃ chain, (r.readChain json (.fromSkipper c (skipper.pub c))).run dir = .ok chain dir ∧
    chain.length ≤ checkpointAfterLinks ∧
    match m.dim with
    | none => chain = []
    | some dim => ∃ out, replay c chain (some (.fromSkipper c (skipper.pub c))) = .ok out ∧
        out.embeddingDim = dim ∧ KeyedMap.Lists MemberRecord.tenantId m.roster out.active

/-- The head of the log is beyond the head of an earlier log. -/
def Advances (c : Build) (json : LinkJson) (r : FileRegistry) (skipper : Skipper)
    (dir dir' : HansaDir) : Prop :=
  ∀ chain out, readLog json (r.logPath (.fromSkipper c (skipper.pub c))) dir.log = .ok chain →
    replay c chain (some (.fromSkipper c (skipper.pub c))) = .ok out →
    ∃ chain' out',
      readLog json (r.logPath (.fromSkipper c (skipper.pub c))) dir'.log = .ok chain' ∧
      replay c chain' (some (.fromSkipper c (skipper.pub c))) = .ok out' ∧
      out.headSeq < out'.headSeq

/-- A map that a founded directory agrees with has a dimension. -/
theorem Agrees.dim_of_founded {m : MemberMap} (agrees : Agrees c json r skipper dir m)
    (founded : Founded c json r skipper dir chain out) : ∃ dim, m.dim = some dim := by
  cases founding : m.dim with
  | none =>
    rw [Agrees, founding] at agrees
    obtain ⟨bytes, log⟩ := founded.log
    exact absurd (agrees.1.symm.trans log) (Option.some_ne_none bytes).symm
  | some dim => exact ⟨dim, rfl⟩

/-- A directory in agreement with a map replays to it. -/
theorem Agrees.refines {m : MemberMap} (agrees : Agrees c json r skipper dir m) :
    Refines c json r skipper dir m := by
  unfold Agrees at agrees
  unfold Refines
  cases founding : m.dim with
  | none =>
    rw [founding] at agrees
    obtain ⟨absent, -⟩ := agrees
    refine ⟨[], ?_, Nat.zero_le _, rfl⟩
    rw [run_readChain, absent]
    rfl
  | some dim =>
    rw [founding] at agrees
    obtain ⟨chain, out, founded, dims, roster, bounded⟩ := agrees
    refine ⟨chain, ?_, bounded, out, founded.accepted, dims, ?_⟩
    · rw [run_readChain, founded.read]
      rfl
    · exact roster ▸ (replay_ok founded.accepted).1.active

/-- The members that a directory in agreement with a map reports are the map's, in order. -/
theorem Agrees.members {m : MemberMap} (agrees : Agrees c json r skipper dir m) :
    ∃ records, (r.members c json (.fromSkipper c (skipper.pub c))).run dir = .ok records dir ∧
      KeyedMap.Lists MemberRecord.tenantId m.roster records := by
  unfold Agrees at agrees
  cases founding : m.dim with
  | none =>
    rw [founding] at agrees
    obtain ⟨absent, empty⟩ := agrees
    have read : readLog json (r.logPath (.fromSkipper c (skipper.pub c))) dir.log = .ok [] := by
      rw [absent]
      rfl
    rw [run_members read, if_pos rfl, empty]
    exact ⟨[], rfl, .nil, fun m => ⟨fun absent => (nomatch absent), fun absent => (nomatch absent)⟩⟩
  | some dim =>
    rw [founding] at agrees
    obtain ⟨chain, out, founded, dims, roster, bounded⟩ := agrees
    rw [run_members founded.read, if_neg (ne_nil_of_replay founded.accepted),
      (replay_pinned.mp founded.accepted).1]
    exact ⟨out.active, rfl, roster ▸ (replay_ok founded.accepted).1.active⟩

/-- A call that changes the log of a directory in agreement with a map moves its head on, as long
as the sequence numbers do not wrap. -/
theorem Agrees.advances (correct : c.Correct) (lawful : json.Lawful) {m : MemberMap}
    (agrees : Agrees c json r skipper dir m) {op : Op} {dir' : HansaDir}
    (step : op.Step c json r skipper dir dir') (changed : dir'.log ≠ dir.log)
    (counts : HeadCounts c json r skipper dir) : Advances c json r skipper dir dir' := by
  intro chain out read accepted
  unfold Agrees at agrees
  cases founding : m.dim with
  | none =>
    rw [founding] at agrees
    rw [agrees.1] at read
    exact absurd (Except.ok.inj read).symm (ne_nil_of_replay accepted)
  | some dim =>
    rw [founding] at agrees
    obtain ⟨chain₁, out₁, founded, rfl, roster, bounded⟩ := agrees
    obtain rfl := Except.ok.inj (founded.read.symm.trans read)
    obtain rfl := Except.ok.inj (founded.accepted.symm.trans accepted)
    obtain ⟨-, chain', out', founded', -, -, -, moved, -⟩ :=
      founded.step correct lawful bounded founding roster step
    exact ⟨chain', out', founded'.read, founded'.accepted, moved changed (counts _ _ read accepted)⟩

/-- A call that moves the members of a founded map changes the log. -/
theorem Agrees.changed (correct : c.Correct) (lawful : json.Lawful) {m : MemberMap}
    (agrees : Agrees c json r skipper dir m) {dim : UInt32} (founding : m.dim = some dim) {op : Op}
    {dir' : HansaDir} (step : op.Step c json r skipper dir dir')
    (moved : (m.step op).roster ≠ m.roster) : dir'.log ≠ dir.log := by
  have agrees' := agrees.step correct lawful step
  rw [Agrees, founding] at agrees
  rw [Agrees, MemberMap.step_dim founding op] at agrees'
  obtain ⟨chain, out, founded, -, roster, -⟩ := agrees
  obtain ⟨chain', out', founded', -, roster', -⟩ := agrees'
  intro same
  have read := founded'.read
  rw [same] at read
  obtain rfl := Except.ok.inj (founded.read.symm.trans read)
  exact moved (roster'.symm.trans roster)

/-- An append before the first founding fails and writes nothing. -/
theorem run_appendNext_unfounded (absent : dir.log = none) (hansa : HansaId) (body : Body)
    (now : Int64) :
    ∃ e, (r.appendNext c json hansa skipper body now).run dir = .error (.err e) dir := by
  have read : readLog json (r.logPath hansa) dir.log = .ok [] := by
    rw [absent]
    rfl
  rw [run_appendNext read]
  exact ⟨.chainBroken 0, rfl⟩

/-- The file registry refines the map of members: after every run of calls with the skipper's
key, the log replays to the map, the members reported are the map's, every call that changes
the log moves its head on while sequence numbers do not wrap, and an append before the first
founding fails and writes nothing. Calls always return in a release build. In both builds they
return for 2^62 calls at least, and until then no sequence number wraps. -/
theorem registry_refines (correct : c.Correct) (lawful : json.Lawful) {ops : List Op}
    (run : Run (fun dir op dir' => Op.Step c json r skipper dir op dir') .initial ops dir) :
    Refines c json r skipper dir (ops.foldl MemberMap.step .initial) ∧
    (∃ records, (r.members c json (.fromSkipper c (skipper.pub c))).run dir = .ok records dir ∧
      KeyedMap.Lists MemberRecord.tenantId (ops.foldl MemberMap.step .initial).roster records) ∧
    (∀ op dir', Op.Step c json r skipper dir op dir' → dir'.log ≠ dir.log →
      HeadCounts c json r skipper dir → Advances c json r skipper dir dir') ∧
    ((ops.foldl MemberMap.step .initial).dim = none → ∀ body now, ∃ e,
      (r.appendNext c json (.fromSkipper c (skipper.pub c)) skipper body now).run dir =
        .error (.err e) dir) ∧
    (c.profile = .dev ∨ ops.length < 2 ^ 62 → HeadCounts c json r skipper dir) ∧
    (c.profile = .release ∨ ops.length < 2 ^ 62 →
      ∀ op, ∃ dir', Op.Step c json r skipper dir op dir') := by
  have agrees := Agrees.run correct lawful run
  refine ⟨agrees.refines, agrees.members, fun op dir' => agrees.advances correct lawful, ?_,
    counts_of_run correct lawful run, returns_of_run correct lawful run⟩
  intro unfounded body now
  rw [Agrees, unfounded] at agrees
  exact run_appendNext_unfounded agrees.1 _ body now

/-- A run that founds, admits, admits again, revokes somebody else and compacts. -/
theorem registry_refines_sample :
    ∃ dir, Refines sampleBuild sampleJson ⟨⟨[]⟩⟩ (sampleSkipper 1) dir
      ([.found 3 0, .admitMember (sampleMember 7) none 0, .admitMember (sampleMember 7) none 1,
        .revoke (sampleTenant 8) 0 none 2, .compact 3].foldl MemberMap.step .initial) := by
  obtain ⟨dir, run⟩ := exists_run sampleBuild_correct sampleJson_lawful ⟨⟨[]⟩⟩ (sampleSkipper 1)
    [.found 3 0, .admitMember (sampleMember 7) none 0, .admitMember (sampleMember 7) none 1,
      .revoke (sampleTenant 8) 0 none 2, .compact 3] (by decide)
  exact ⟨dir, (registry_refines sampleBuild_correct sampleJson_lawful run).1⟩

/-- Some call moves the members of a founded map. -/
theorem MemberMap.exists_move {m : MemberMap} {dim : UInt32} (founding : m.dim = some dim) :
    ∃ op, (m.step op).roster ≠ m.roster := by
  by_cases absent : m.roster (sampleTenant 7) = none
  · refine ⟨.admitMember (sampleMember 7) none 0, fun same => ?_⟩
    have present := congrFun same (sampleTenant 7)
    rw [step, if_pos ⟨by rw [founding, Option.isSome_some], by decide⟩, absent] at present
    simp [sampleMember] at present
  · refine ⟨.revoke (sampleTenant 7) 0 none 0, fun same => absent ?_⟩
    have gone := congrFun same (sampleTenant 7)
    rw [step, if_pos (by rw [founding, Option.isSome_some])] at gone
    simp only [Function.update_self] at gone
    exact gone.symm

/-- If every call that changes the log moved the head on in a release build, where calls always
return, then a run could move the head as far as is wanted. -/
theorem exists_far_run (correct : c.Correct) (lawful : json.Lawful) (wraps : c.profile = .release)
    (advances : ∀ ops dir,
      Run (fun dir op dir' => Op.Step c json r skipper dir op dir') .initial ops dir →
      ∀ op dir', Op.Step c json r skipper dir op dir' → dir'.log ≠ dir.log →
        Advances c json r skipper dir dir') (n : Nat) :
    ∃ ops dir, Run (fun dir op dir' => Op.Step c json r skipper dir op dir') .initial ops dir ∧
      ∃ chain out, Founded c json r skipper dir chain out ∧ n ≤ out.headSeq.toNat := by
  induction n with
  | zero =>
    obtain ⟨dir, step⟩ := returns_of_run correct lawful .nil (.inl wraps) (.found 3 0)
    refine ⟨_, dir, Run.nil.concat step, ?_⟩
    rcases step_unfounded correct lawful rfl step with
      ⟨_, _, -, chain, out, founded, -⟩ | ⟨other, -⟩
    · exact ⟨chain, out, founded, Nat.zero_le _⟩
    · exact absurd rfl (other 3 0)
  | succ n ih =>
    obtain ⟨ops, dir, run, chain, out, founded, far⟩ := ih
    have agrees := Agrees.run correct lawful run
    obtain ⟨dim, founding⟩ := agrees.dim_of_founded founded
    obtain ⟨op, moved⟩ := MemberMap.exists_move founding
    obtain ⟨dir', step⟩ := returns_of_run correct lawful run (.inl wraps) op
    obtain ⟨chain', out', read, accepted, further⟩ := advances ops dir run op dir' step
      (agrees.changed correct lawful founding step moved) chain out founded.read founded.accepted
    have agrees' := agrees.step correct lawful step
    rw [Agrees, MemberMap.step_dim founding op] at agrees'
    obtain ⟨chain'', out'', founded', -⟩ := agrees'
    obtain rfl := Except.ok.inj (read.symm.trans founded'.read)
    obtain rfl := Except.ok.inj (accepted.symm.trans founded'.accepted)
    have counted := UInt64.lt_iff_toNat_lt.mp further
    exact ⟨_, dir', run.concat step, chain', out', founded', by omega⟩

/-- A long run of a release build wraps the head's sequence number. -/
theorem head_wraps :
    ¬ ∀ (c : Build) (json : LinkJson) (r : FileRegistry) (skipper : Skipper) (ops : List Op)
      (dir : HansaDir), c.Correct → json.Lawful →
      Run (fun dir op dir' => Op.Step c json r skipper dir op dir') .initial ops dir →
      ∀ op dir', Op.Step c json r skipper dir op dir' → dir'.log ≠ dir.log →
        Advances c json r skipper dir dir' := by
  intro advances
  obtain ⟨ops, dir, -, chain, out, -, far⟩ :=
    exists_far_run (c := { sampleBuild with profile := .release }) (r := ⟨⟨[]⟩⟩)
      sampleBuild_correct sampleJson_lawful rfl
      (fun ops dir => advances _ _ _ (sampleSkipper 1) ops dir sampleBuild_correct
        sampleJson_lawful) (2 ^ 64)
  exact absurd out.headSeq.toNat_lt (by omega)

end Hansa
