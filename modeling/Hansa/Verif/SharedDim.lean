import Hansa.Verif.Digest
import Hansa.Verif.Membership
import Hansa.Verif.Migration

/-!
# The pinned dimension

The root of a chain pins the dimension that all members share. A handle admits a member of no
other dimension, and neither a revocation, a compaction nor another founding changes the
dimension. A migration admits what it reads, so it keeps the rule exactly when the unsigned
members have the dimension that the chain has, or gets from the migration.
-/

namespace Hansa

variable {c : Build} {json : LinkJson} {path : PathBuf} {dim : UInt32} {dir : HansaDir}

/-- Every member that the log shows has the dimension that the root of the chain pins. -/
def SharesDim (c : Build) (json : LinkJson) (path : PathBuf) (dir : HansaDir) : Prop :=
  ∀ chain out, readLog json path dir.log = .ok chain → replay c chain none = .ok out →
    ∀ m ∈ out.active, (chain.head?.bind fun root => root.body.rootDim?) = some m.embeddingDim

/-- A chain that the log shows has this dimension, and so have its members. -/
def HasDim (c : Build) (json : LinkJson) (path : PathBuf) (dim : UInt32) (dir : HansaDir) :
    Prop :=
  ∀ chain out, readLog json path dir.log = .ok chain → replay c chain none = .ok out →
    out.embeddingDim = dim ∧ ∀ m ∈ out.active, m.embeddingDim = dim

/-- The root of a chain pins the dimension of its result. -/
theorem Replays.pins {chain : List Link} {out : ReplayOutcome} (described : Replays c chain out) :
    (chain.head?.bind fun root => root.body.rootDim?) = some out.embeddingDim := by
  obtain ⟨first, isFirst, -, -, dim⟩ := described.root
  rw [show chain.head? = some first from isFirst]
  exact dim

/-- With one dimension, the members have the pinned one. -/
theorem HasDim.shares (has : HasDim c json path dim dir) : SharesDim c json path dir := by
  intro chain out read accepted m active
  obtain ⟨pinned, members⟩ := has chain out read accepted
  rw [(replay_ok accepted).1.pins, pinned, members m active]

/-- Members that have the pinned dimension have one dimension. -/
theorem SharesDim.hasDim (shares : SharesDim c json path dir) {chain : List Link}
    {out : ReplayOutcome} (read : readLog json path dir.log = .ok chain)
    (accepted : replay c chain none = .ok out) : HasDim c json path out.embeddingDim dir := by
  intro chain' out' read' accepted'
  obtain rfl := Except.ok.inj (read.symm.trans read')
  obtain rfl := Except.ok.inj (accepted.symm.trans accepted')
  refine ⟨rfl, fun m active => ?_⟩
  have pinned := shares chain out read accepted m active
  rw [(replay_ok accepted).1.pins] at pinned
  exact (Option.some.inj pinned).symm

/-- A body that a chain of this dimension takes. -/
def Body.FitsDim (dim : UInt32) : Body → Prop
  | .admitMember member _ => member.embeddingDim = dim
  | .revoke .. => True
  | .genesis _ | .checkpoint .. => False

/-- Members of one dimension stay so under a body that fits. -/
theorem Body.FitsDim.change {body : Body} (fits : body.FitsDim dim) {roster : Roster}
    (all : ∀ t m, roster t = some m → m.embeddingDim = dim) :
    ∀ t m, body.change roster t = some m → m.embeddingDim = dim := by
  intro t m found
  cases body with
  | genesis | checkpoint => exact fits.elim
  | admitMember member memberPub =>
    by_cases own : t = member.tenantId
    · rw [own, Body.change, Function.update_self] at found
      obtain rfl := Option.some.inj found
      exact fits
    · rw [Body.change, Function.update_of_ne own] at found
      exact all t m found
  | revoke tenantId time reason =>
    by_cases own : t = tenantId
    · rw [own, Body.change, Function.update_self] at found
      cases found
    · rw [Body.change, Function.update_of_ne own] at found
      exact all t m found

/-! ## What is written -/

/-- A link whose body fits keeps the dimension. -/
theorem HasDim.append (lawful : json.Lawful) (has : HasDim c json path dim dir)
    {skipper : Skipper} {chain : List Link} {out : ReplayOutcome} {body : Body} {text : String}
    (read : readLog json path dir.log = .ok chain) (accepted : replay c chain none = .ok out)
    (fits : body.FitsDim dim) (encoded : json.toString (nextLink c skipper out body) = .ok text) :
    HasDim c json path dim (dir.append (nextLink c skipper out body) text) := by
  intro chain' out' read' accepted'
  obtain rfl := HansaDir.eq_of_read_append lawful read encoded read'
  have next := next_of_replay_concat accepted accepted'
  obtain ⟨active, lists, replayed⟩ := replay_concat accepted next
  obtain rfl := Except.ok.inj (replayed.symm.trans accepted')
  obtain ⟨pinned, members⟩ := has chain out read accepted
  have described := (replay_ok accepted).1
  have all : ∀ t m, rosterOf (chain.map Link.toStatement) t = some m → m.embeddingDim = dim := by
    intro t m found
    have key := rosterOf_keyed _ t m found
    exact members m ((described.active.mem_iff m).mpr (key ▸ found))
  refine ⟨pinned, fun m isActive => ?_⟩
  exact fits.change all m.tenantId m ((lists.mem_iff m).mp isActive)

/-- A checkpoint keeps the dimension. -/
theorem HasDim.replace (lawful : json.Lawful) (has : HasDim c json path dim dir)
    {skipper : Skipper} {chain : List Link} {out : ReplayOutcome} {seq : UInt64} {now : Int64}
    {text : String} (read : readLog json path dir.log = .ok chain)
    (accepted : replay c chain none = .ok out)
    (encoded : json.toString (checkpointLink c skipper out seq now) = .ok text) :
    HasDim c json path dim (dir.replace (checkpointLink c skipper out seq now) text) := by
  intro chain' out' read' accepted'
  obtain rfl := Except.ok.inj ((readLog_single lawful path encoded).symm.trans read')
  obtain ⟨pinned, members⟩ := has chain out read accepted
  have described := (replay_ok accepted').1
  constructor
  · rw [← pinned]
    exact (Option.some.inj described.pins).symm
  · intro m isActive
    have listed : Roster.ofRecords out.active m.tenantId = some m :=
      (described.active.mem_iff m).mp isActive
    exact members m (mem_of_ofRecords listed)

/-- A genesis has no members. -/
theorem hasDim_found (lawful : json.Lawful) {skipper : Skipper} {createdAt : Int64}
    {text : String} (read : readLog json path dir.log = .ok [])
    (encoded : json.toString (genesisLink c skipper dim createdAt) = .ok text) :
    HasDim c json path dim (dir.append (genesisLink c skipper dim createdAt) text) := by
  intro chain out read' accepted
  obtain rfl := HansaDir.eq_of_read_append lawful read encoded read'
  have described := (replay_ok accepted).1
  constructor
  · exact (Option.some.inj described.pins).symm
  · intro m isActive
    have listed : Roster.empty m.tenantId = some m := (described.active.mem_iff m).mp isActive
    cases listed

/-- Creating the log keeps the dimension. -/
theorem HasDim.touch (has : HasDim c json path dim dir) :
    HasDim c json path dim { dir with log := some (dir.log.getD []) } := by
  intro chain out read accepted
  cases isLog : dir.log with
  | none =>
    simp only [isLog, Option.getD_none] at read
    obtain rfl := Except.ok.inj read
    cases accepted
  | some bytes =>
    simp only [isLog, Option.getD_some] at read
    exact has chain out (isLog ▸ read) accepted

/-! ## Calls of the registry -/

section Registry

variable {r : FileRegistry} {hansa : HansaId} {skipper : Skipper}

/-- The directory that a call leaves. -/
theorem FileM.after_eq {α : Type} (call : FileM α) (dir : HansaDir) :
    call.after dir = dirAfter (call.run dir) := by
  unfold EStateM.after
  cases call.run dir <;> rfl

/-- A compaction keeps the dimension. -/
theorem HasDim.keeps_compact (lawful : json.Lawful) (now : Int64) :
    EStateM.Keeps (HasDim c json (r.logPath hansa) dim)
      (r.checkpointLocked c json hansa skipper now) := by
  intro dir has
  rw [FileM.after_eq]
  rcases dirAfter_checkpointLocked c json r hansa skipper dir now with
    same | ⟨chain, out, text, read, accepted, -, encoded, replaced⟩
  · rw [same]
    exact has
  · rw [replaced]
    exact has.replace lawful read accepted encoded

/-- An append of a body that fits keeps the dimension. -/
theorem HasDim.keeps_appendNext (lawful : json.Lawful) {body : Body} (fits : body.FitsDim dim)
    (now : Int64) :
    EStateM.Keeps (HasDim c json (r.logPath hansa) dim)
      (r.appendNext c json hansa skipper body now) := by
  intro dir has
  rw [FileM.after_eq]
  rcases dirAfter_appendNext c json r hansa skipper dir body now with
    same | ⟨chain, out, read, accepted, -, touched | ⟨text, encoded, ended⟩⟩
  · rw [same]
    exact has
  · rw [touched]
    exact has.touch
  · have appended := has.append lawful read accepted fits encoded
    rcases ended with ended | ended
    · rw [ended]
      exact appended
    · rw [ended, ← FileM.after_eq]
      exact HasDim.keeps_compact lawful now _ appended

/-- A founding leaves a log alone that cannot be read, and one with links. -/
theorem after_found_of_ne (c : Build) (skipper : Skipper) (embeddingDim : UInt32)
    (createdAt : Int64)
    (other : readLog json (r.logPath hansa) dir.log ≠ .ok []) :
    (r.found c json hansa skipper embeddingDim createdAt).after dir = dir := by
  rw [FileM.after_eq]
  cases read : readLog json (r.logPath hansa) dir.log with
  | error fault =>
    simp only [FileRegistry.found, EStateM.run_bind, run_readChain_error read]
    rfl
  | ok chain =>
    have links : chain ≠ [] := by
      rintro rfl
      exact other read
    rw [run_found read, if_pos links]
    rfl

/-- A founding of a log without links pins the dimension it names. -/
theorem hasDim_after_found (lawful : json.Lawful) (createdAt : Int64)
    (read : readLog json (r.logPath hansa) dir.log = .ok []) :
    HasDim c json (r.logPath hansa) dim
      ((r.found c json hansa skipper dim createdAt).after dir) := by
  have vacuous : HasDim c json (r.logPath hansa) dim dir := by
    intro chain out read' accepted
    obtain rfl := Except.ok.inj (read.symm.trans read')
    cases accepted
  rw [FileM.after_eq, run_found read, if_neg (not_not_intro rfl), run_appendLink]
  cases encoded : json.toString (genesisLink c skipper dim createdAt) with
  | error e =>
    rw [genesisLink] at encoded
    rw [encoded]
    exact vacuous.touch
  | ok text =>
    have founded := hasDim_found lawful read encoded
    rw [genesisLink] at encoded
    rw [encoded]
    exact founded

/-- A founding keeps the rule. -/
theorem SharesDim.keeps_found (lawful : json.Lawful) (embeddingDim : UInt32) (createdAt : Int64) :
    EStateM.Keeps (SharesDim c json (r.logPath hansa))
      (r.found c json hansa skipper embeddingDim createdAt) := by
  intro dir shares
  by_cases read : readLog json (r.logPath hansa) dir.log = .ok []
  · exact (hasDim_after_found lawful createdAt read).shares
  · rw [after_found_of_ne c skipper embeddingDim createdAt read]
    exact shares

/-- A log that does not replay. -/
def Stuck (c : Build) (json : LinkJson) (path : PathBuf) (dir : HansaDir) : Prop :=
  ∀ out, replayLog c json path dir.log none ≠ .ok out

/-- What does not replay shows no members. -/
theorem Stuck.shares (stuck : Stuck c json path dir) : SharesDim c json path dir :=
  fun chain out read accepted => absurd (replayLog_eq_ok.mpr ⟨chain, read, accepted⟩) (stuck out)

/-- Nothing is appended to a log that does not replay. -/
theorem Stuck.keeps_appendNext (body : Body) (now : Int64) :
    EStateM.Keeps (Stuck c json (r.logPath hansa))
      (r.appendNext c json hansa skipper body now) := by
  intro dir stuck
  rw [FileM.after_eq]
  rcases dirAfter_appendNext c json r hansa skipper dir body now with
    same | ⟨chain, out, read, accepted, -⟩
  · rw [same]
    exact stuck
  · exact absurd (replayLog_eq_ok.mpr ⟨chain, read, accepted⟩) (stuck out)

/-- A log of any kind keeps the rule under the append of a body that fits its dimension. -/
theorem SharesDim.after_appendNext (lawful : json.Lawful) {body : Body} (now : Int64)
    (shares : SharesDim c json (r.logPath hansa) dir)
    (fits : ∀ out, replayLog c json (r.logPath hansa) dir.log none = .ok out →
      body.FitsDim out.embeddingDim) :
    SharesDim c json (r.logPath hansa)
      ((r.appendNext c json hansa skipper body now).after dir) := by
  by_cases replays : ∃ out, replayLog c json (r.logPath hansa) dir.log none = .ok out
  · obtain ⟨out, shown⟩ := replays
    obtain ⟨chain, read, accepted⟩ := replayLog_eq_ok.mp shown
    exact (HasDim.keeps_appendNext lawful (fits out shown) now dir
      (shares.hasDim read accepted)).shares
  · have stuck : Stuck c json (r.logPath hansa) dir := fun out shown => replays ⟨out, shown⟩
    exact (Stuck.keeps_appendNext body now dir stuck).shares

/-- A compaction keeps the rule. -/
theorem SharesDim.keeps_compact (lawful : json.Lawful) (now : Int64) :
    EStateM.Keeps (SharesDim c json (r.logPath hansa))
      (r.compact c json hansa skipper now) := by
  intro dir shares
  rw [FileM.after_eq, FileRegistry.compact]
  rcases dirAfter_checkpointLocked c json r hansa skipper dir now with
    same | ⟨chain, out, text, read, accepted, -, encoded, replaced⟩
  · rw [same]
    exact shares
  · rw [replaced]
    exact ((shares.hasDim read accepted).replace lawful read accepted encoded).shares

end Registry

/-! ## Migration -/

section Migrate

variable {v1 : V1Json} {r : FileRegistry} {skipper : Skipper}

/-- The dimension that the chain of a log pins, or that a migration pins for a log without
links. -/
def Pins (c : Build) (json : LinkJson) (path : PathBuf) (dir : HansaDir) (embeddingDim : UInt32)
    (dim : UInt32) : Prop :=
  (readLog json path dir.log = .ok [] ∧ embeddingDim = dim) ∨
    ∃ out, replayLog c json path dir.log none = .ok out ∧ out.embeddingDim = dim

/-- Admitting members of the dimension keeps it. -/
theorem HasDim.keeps_readmitAll (lawful : json.Lawful) (clock : TenantId → Int64)
    {members : List MemberRecord} (same : ∀ m ∈ members, m.embeddingDim = dim) :
    EStateM.Keeps (HasDim c json (r.logPath (.fromSkipper c (skipper.pub c))) dim)
      (readmitAll c json r skipper clock members) := by
  induction members with
  | nil => exact EStateM.keeps_pure ()
  | cons m members ih =>
    have fits : (Body.admitMember m none).FitsDim dim := same m List.mem_cons_self
    exact EStateM.Keeps.bind (HasDim.keeps_appendNext lawful fits _)
      fun _ => ih fun other member => same other (List.mem_cons_of_mem m member)

/-- Admitting members to a log that does not replay leaves it so. -/
theorem Stuck.keeps_readmitAll (clock : TenantId → Int64) (members : List MemberRecord) :
    EStateM.Keeps (Stuck c json (r.logPath (.fromSkipper c (skipper.pub c))))
      (readmitAll c json r skipper clock members) := by
  induction members with
  | nil => exact EStateM.keeps_pure ()
  | cons m members ih =>
    exact EStateM.Keeps.bind (Stuck.keeps_appendNext _ _) fun _ => ih

/-- What holds after the founding, and is kept by the admissions, holds after a migration. -/
theorem migrateV1_after_keeps {v1Root : HansaId → V1Dir} {key : HansaKey}
    {members : List MemberRecord}
    (read : readV1Members v1 (v1Root (key.hansaId c)) = .ok members) (embeddingDim : UInt32)
    (now : Int64) (clock : TenantId → Int64) (inv : HansaDir → Prop)
    (founded : inv ((r.found c json (.fromSkipper c (skipper.pub c)) skipper embeddingDim
      now).after dir))
    (keeps : EStateM.Keeps inv (readmitAll c json r skipper clock members)) :
    inv ((migrateV1 c json v1 r skipper v1Root key embeddingDim now clock).after dir) := by
  have whole : (migrateV1 c json v1 r skipper v1Root key embeddingDim now clock).after dir =
      (do
        r.found c json (.fromSkipper c (skipper.pub c)) skipper embeddingDim now
        readmitAll c json r skipper clock members
        pure (HansaId.fromSkipper c (skipper.pub c)) : FileM HansaId).after dir := by
    rw [migrateV1, read]
    rfl
  rw [whole]
  exact EStateM.after_bind founded fun _ =>
    EStateM.Keeps.bind keeps fun _ => EStateM.keeps_pure _

/-- A migration of members that have the dimension keeps the rule. -/
theorem SharesDim.after_migrateV1 (lawful : json.Lawful) {v1Root : HansaId → V1Dir}
    {key : HansaKey} {embeddingDim : UInt32} (now : Int64) (clock : TenantId → Int64)
    (shares : SharesDim c json (r.logPath (.fromSkipper c (skipper.pub c))) dir)
    (fits : ∀ members, readV1Members v1 (v1Root (key.hansaId c)) = .ok members → ∀ dim,
      Pins c json (r.logPath (.fromSkipper c (skipper.pub c))) dir embeddingDim dim →
      ∀ m ∈ members, m.embeddingDim = dim) :
    SharesDim c json (r.logPath (.fromSkipper c (skipper.pub c)))
      ((migrateV1 c json v1 r skipper v1Root key embeddingDim now clock).after dir) := by
  cases read : readV1Members v1 (v1Root (key.hansaId c)) with
  | error fault =>
    have failed : (migrateV1 c json v1 r skipper v1Root key embeddingDim now clock).after dir =
        dir := by
      rw [FileM.after_eq, migrateV1, read]
      rfl
    rw [failed]
    exact shares
  | ok members =>
    have fits := fits members read
    by_cases unfounded :
        readLog json (r.logPath (.fromSkipper c (skipper.pub c))) dir.log = .ok []
    · have same := fits embeddingDim (.inl ⟨unfounded, rfl⟩)
      exact (migrateV1_after_keeps read embeddingDim now clock _
        (hasDim_after_found lawful now unfounded)
        (HasDim.keeps_readmitAll lawful clock same)).shares
    · have kept := after_found_of_ne c skipper embeddingDim now unfounded
      by_cases replays : ∃ out, replayLog c json (r.logPath (.fromSkipper c (skipper.pub c)))
          dir.log none = .ok out
      · obtain ⟨out, shown⟩ := replays
        obtain ⟨chain, reads, accepted⟩ := replayLog_eq_ok.mp shown
        have same := fits out.embeddingDim (.inr ⟨out, shown, rfl⟩)
        have has := shares.hasDim reads accepted
        rw [← kept] at has
        exact (migrateV1_after_keeps read embeddingDim now clock _ has
          (HasDim.keeps_readmitAll lawful clock same)).shares
      · have stuck : Stuck c json (r.logPath (.fromSkipper c (skipper.pub c))) dir :=
          fun out shown => replays ⟨out, shown⟩
        rw [← kept] at stuck
        exact (migrateV1_after_keeps read embeddingDim now clock _ stuck
          (Stuck.keeps_readmitAll clock members)).shares

end Migrate

/-! ## Calls of a handle -/

section Handle

variable {F : Type}

/-- What a call of the registry leaves on the disk. -/
theorem HandleM.after_registry {α : Type} (call : FileM α) (disk : Disk F) :
    (HandleM.registry call).after disk = { disk with dir := call.after disk.dir } := by
  unfold EStateM.after
  rw [HandleM.run_registry]
  cases call.run disk.dir <;> rfl

/-- The rule, for the log of a handle's hansa. -/
def Disk.SharesDim (c : Build) (json : LinkJson) (h : Handle F) (disk : Disk F) : Prop :=
  Hansa.SharesDim c json (h.registry.logPath h.id) disk.dir

variable {h : Handle F}

/-- An append of a body that fits the dimension keeps the rule. -/
theorem Disk.SharesDim.after_appendNext (lawful : json.Lawful) {disk : Disk F}
    (shares : disk.SharesDim c json h) (skipper : Skipper) (body : Body) (now : Int64)
    (fits : ∀ out, replayLog c json (h.registry.logPath h.id) disk.dir.log none = .ok out →
      body.FitsDim out.embeddingDim) :
    Disk.SharesDim c json h
      ((HandleM.registry (h.registry.appendNext c json h.id skipper body now) :
        HandleM F Unit).after disk) := by
  rw [HandleM.after_registry]
  exact Hansa.SharesDim.after_appendNext lawful now shares fits

/-- Admitting a member keeps the rule: its dimension was compared with the pinned one. -/
theorem Disk.SharesDim.keeps_admitMember (lawful : json.Lawful) (member : MemberRecord)
    (now : Int64) :
    EStateM.Keeps (Disk.SharesDim c json h) (h.admitMember c json member now) := by
  intro disk shares
  have appends := fun skipper =>
    shares.after_appendNext lawful skipper (.admitMember member none) now
  unfold EStateM.after at appends ⊢
  rw [Handle.run_admitMember]
  cases h.skipper with
  | none => exact shares
  | some skipper =>
    simp only
    cases pinned : replayLog c json (h.registry.logPath h.id) disk.dir.log (some h.id) with
    | error fault => exact shares
    | ok head =>
      simp only
      by_cases differs : member.embeddingDim ≠ head.embeddingDim
      · rw [if_pos differs]
        exact shares
      rw [if_neg differs]
      refine appends skipper fun out shown => ?_
      obtain ⟨chain, read, accepted⟩ := replayLog_eq_ok.mp pinned
      obtain ⟨chain', read', accepted'⟩ := replayLog_eq_ok.mp shown
      obtain rfl := Except.ok.inj (read.symm.trans read')
      obtain rfl := Except.ok.inj ((replay_pinned.mp accepted).1.symm.trans accepted')
      exact not_not.mp differs

/-- Revoking a tenant keeps the rule. -/
theorem Disk.SharesDim.keeps_revoke (lawful : json.Lawful) (tenant : TenantId) (now : Int64) :
    EStateM.Keeps (Disk.SharesDim c json h) (h.revoke c json tenant now) := by
  intro disk shares
  have appends := fun skipper =>
    shares.after_appendNext lawful skipper (.revoke tenant now none) now
  unfold EStateM.after at appends ⊢
  rw [Handle.run_revoke]
  cases h.skipper with
  | none => exact shares
  | some skipper => exact appends skipper fun _ _ => trivial

/-- Leaving keeps the rule. -/
theorem Disk.SharesDim.keeps_leave (lawful : json.Lawful) (now : Int64) :
    EStateM.Keeps (Disk.SharesDim c json h) (h.leave c json now) :=
  EStateM.Keeps.bind (keeps_revoke lawful h.localTenantId now) fun _ =>
    EStateM.keeps_modify fun _ shares => shares

/-- Compacting keeps the rule. -/
theorem Disk.SharesDim.keeps_compact (lawful : json.Lawful) (now : Int64) :
    EStateM.Keeps (Disk.SharesDim c json h) (h.compact c json now) := by
  refine EStateM.Keeps.bind ?_ fun skipper disk shares => ?_
  · unfold Handle.authority
    cases h.skipper with
    | none => exact EStateM.keeps_throw _
    | some skipper => exact EStateM.keeps_pure skipper
  · rw [HandleM.after_registry]
    exact Hansa.SharesDim.keeps_compact lawful now disk.dir shares

/-- Joining keeps the rule: it publishes a saga and admits the own tenant. -/
theorem Disk.SharesDim.keeps_join {D : Type} [FloatLike F] [FloatLike D] [Widen F D]
    (lawful : json.Lawful) (rng : SmallRng D) (tags : List String) (now : Int64) :
    EStateM.Keeps (Disk.SharesDim c json h) (h.join c json rng tags now) := by
  intro disk shares
  have admits := keeps_admitMember (c := c) (h := h) lawful (h.ownRecord now) now
  unfold EStateM.Keeps EStateM.after at admits
  unfold EStateM.after
  rw [Handle.run_join]
  by_cases missing : (disk.sagas h.localTenantId).isNone
  · rw [if_pos missing]
    cases h.ownSaga rng tags now 0 with
    | error fault => exact shares
    | ok saga => exact admits (disk.publish h.localTenantId saga) shares
  · rw [if_neg missing]
    exact admits disk shares

end Handle

/-! ## Runs -/

/-- The calls that write the log of a hansa. -/
inductive HansaCall (F : Type) where
  /-- `found`. -/
  | found (skipper : Skipper) (embeddingDim : UInt32) (createdAt : Int64)
  /-- `Hansa::admit`. -/
  | admitMember (h : Handle F) (member : MemberRecord) (now : Int64)
  /-- `Hansa::join`. -/
  | join (h : Handle F) (tags : List String) (now : Int64)
  /-- `Hansa::revoke`. -/
  | revoke (h : Handle F) (tenant : TenantId) (now : Int64)
  /-- `Hansa::leave`. -/
  | leave (h : Handle F) (now : Int64)
  /-- `Hansa::compact`. -/
  | compact (h : Handle F) (now : Int64)
  /-- `migrate_v1`. -/
  | migrate (v1Root : HansaId → V1Dir) (key : HansaKey) (skipper : Skipper)
    (embeddingDim : UInt32) (now : Int64) (clock : TenantId → Int64)

section Runs

variable {F D : Type} [FloatLike F] [FloatLike D] [Widen F D] (c : Build) (json : LinkJson)
  (v1 : V1Json) (rng : SmallRng D) (r : FileRegistry) (id : HansaId)

/-- The call of a label, on the registry and the hansa. -/
def HansaCall.call : HansaCall F → HandleM F Unit
  | .found skipper embeddingDim createdAt =>
    .registry (r.found c json id skipper embeddingDim createdAt)
  | .admitMember h member now => h.admitMember c json member now
  | .join h tags now => h.join c json rng tags now
  | .revoke h tenant now => h.revoke c json tenant now
  | .leave h now => h.leave c json now
  | .compact h now => h.compact c json now
  | .migrate v1Root key skipper embeddingDim now clock => do
    let _ ← HandleM.registry (migrateV1 c json v1 r skipper v1Root key embeddingDim now clock)

/-- The call is one on this hansa: through a handle on it, or with the skipper of its id. -/
def HansaCall.On : HansaCall F → Prop
  | .found .. => True
  | .admitMember h .. | .join h .. | .revoke h .. | .leave h .. | .compact h .. =>
    h.registry = r ∧ h.id = id
  | .migrate _ _ skipper .. => HansaId.fromSkipper c (skipper.pub c) = id

/-- A migration reads members of the dimension that the chain has, or that it pins itself. -/
def HansaCall.Fits (disk : Disk F) : HansaCall F → Prop
  | .migrate v1Root key _ embeddingDim _ _ =>
    ∀ members, readV1Members v1 (v1Root (key.hansaId c)) = .ok members →
      ∀ dim, Pins c json (r.logPath id) disk.dir embeddingDim dim →
        ∀ m ∈ members, m.embeddingDim = dim
  | _ => True

/-- One call on the hansa, however it ends. -/
def HansaCall.Leaves (disk : Disk F) (call : HansaCall F) (disk' : Disk F) : Prop :=
  call.On c r id ∧ (call.call c json v1 rng r id).after disk = disk'

variable {c json v1 rng r id}

/-- A migration works on the log alone. -/
theorem after_migrate (v1Root : HansaId → V1Dir) (key : HansaKey) (skipper : Skipper)
    (embeddingDim : UInt32) (now : Int64) (clock : TenantId → Int64) (disk : Disk F) :
    (((HansaCall.migrate v1Root key skipper embeddingDim now clock).call c json v1 rng r id).after
        disk).dir =
      (migrateV1 c json v1 r skipper v1Root key embeddingDim now clock).after disk.dir := by
  unfold EStateM.after
  rw [HansaCall.call, EStateM.run_bind, HandleM.run_registry]
  cases (migrateV1 c json v1 r skipper v1Root key embeddingDim now clock).run disk.dir <;> rfl

/-- A call that fits keeps the rule. -/
theorem SharesDim.step (lawful : json.Lawful) {disk disk' : Disk F} {call : HansaCall F}
    (shares : SharesDim c json (r.logPath id) disk.dir)
    (fits : call.Fits c json v1 r id disk) (step : call.Leaves c json v1 rng r id disk disk') :
    SharesDim c json (r.logPath id) disk'.dir := by
  obtain ⟨on, rfl⟩ := step
  cases call with
  | found skipper embeddingDim createdAt =>
    rw [HansaCall.call, HandleM.after_registry]
    exact SharesDim.keeps_found lawful embeddingDim createdAt disk.dir shares
  | admitMember h member now =>
    obtain ⟨rfl, rfl⟩ := on
    exact Disk.SharesDim.keeps_admitMember lawful member now disk shares
  | join h tags now =>
    obtain ⟨rfl, rfl⟩ := on
    exact Disk.SharesDim.keeps_join lawful rng tags now disk shares
  | revoke h tenant now =>
    obtain ⟨rfl, rfl⟩ := on
    exact Disk.SharesDim.keeps_revoke lawful tenant now disk shares
  | leave h now =>
    obtain ⟨rfl, rfl⟩ := on
    exact Disk.SharesDim.keeps_leave lawful now disk shares
  | compact h now =>
    obtain ⟨rfl, rfl⟩ := on
    exact Disk.SharesDim.keeps_compact lawful now disk shares
  | migrate v1Root key skipper embeddingDim now clock =>
    obtain rfl : HansaId.fromSkipper c (skipper.pub c) = id := on
    rw [after_migrate]
    exact shares.after_migrateV1 lawful now clock fits

/-- In every run whose migrations read members of the pinned dimension, every member that the
log shows has the dimension that the root of the chain pins. -/
theorem members_share_dim (lawful : json.Lawful) {start disk : Disk F}
    (begins : start.dir = .initial) {calls : List (HansaCall F)}
    (run : Run (fun s call t => call.Fits c json v1 r id s ∧ call.Leaves c json v1 rng r id s t)
      start calls disk) :
    SharesDim c json (r.logPath id) disk.dir := by
  refine run.invariant (fun s => SharesDim c json (r.logPath id) s.dir) ?_
    fun s call t shares step => shares.step lawful step.1 step.2
  rw [begins]
  intro chain out read accepted
  obtain rfl := Except.ok.inj (show Except.ok [] = Except.ok chain from read)
  cases accepted

end Runs

/-- A migration of the sample log, on a disk without files, that names a dimension. -/
def sampleMigration (embeddingDim : UInt32) : HansaCall Float32 :=
  .migrate sampleV1Root zeroKey (sampleSkipper 1) embeddingDim 0 fun _ => 0

/-- The disk that the sample migration leaves. -/
noncomputable def sampleMigrated (embeddingDim : UInt32) : Disk Float32 :=
  ((sampleMigration embeddingDim).call sampleBuild sampleJson sampleV1Json sampleRng ⟨⟨[]⟩⟩
    (sampleId 1)).after (sampleDisk none)

/-- The sample migration with the dimension of the member keeps the rule. -/
theorem members_share_dim_sample :
    SharesDim sampleBuild sampleJson (FileRegistry.logPath ⟨⟨[]⟩⟩ (sampleId 1))
      (sampleMigrated 3).dir := by
  have fits : (sampleMigration 3).Fits sampleBuild sampleJson sampleV1Json ⟨⟨[]⟩⟩ (sampleId 1)
      (sampleDisk none) := by
    intro members read dim pins m member
    obtain rfl := Except.ok.inj (readV1Members_sample.symm.trans read)
    obtain rfl := List.mem_singleton.mp member
    rcases pins with ⟨-, named⟩ | ⟨out, shown, -⟩
    · exact named
    · cases shown
  have run : Run (fun s call t =>
      HansaCall.Fits sampleBuild sampleJson sampleV1Json ⟨⟨[]⟩⟩ (sampleId 1) s call ∧
      call.Leaves sampleBuild sampleJson sampleV1Json sampleRng ⟨⟨[]⟩⟩ (sampleId 1) s t)
      (sampleDisk none) [sampleMigration 3] (sampleMigrated 3) :=
    .concat .nil ⟨fits, rfl, rfl⟩
  exact members_share_dim sampleJson_lawful rfl run

/-- The sample migration with another dimension leaves a member that does not have it. -/
theorem migrated_dim_differs :
    ¬ ∀ (c : Build) (json : LinkJson) (v1 : V1Json) (rng : SmallRng Float) (r : FileRegistry)
      (id : HansaId) (start disk : Disk Float32) (calls : List (HansaCall Float32)),
      c.Correct → json.Lawful → v1.Lawful → start.dir = .initial →
      Run (HansaCall.Leaves c json v1 rng r id) start calls disk →
        SharesDim c json (r.logPath id) disk.dir := by
  intro claim
  have run : Run (HansaCall.Leaves sampleBuild sampleJson sampleV1Json sampleRng ⟨⟨[]⟩⟩
      (sampleId 1)) (sampleDisk none) [sampleMigration 8] (sampleMigrated 8) :=
    .concat .nil ⟨rfl, rfl⟩
  have shares := claim _ _ _ _ _ _ _ _ _ sampleBuild_correct sampleJson_lawful
    sampleV1Json_lawful rfl run
  have unfounded := unfounded_initial sampleJson (FileRegistry.logPath ⟨⟨[]⟩⟩ (sampleId 1))
  obtain ⟨dir', migrated, chain, out, founded, pinned, -, roster, -⟩ :=
    unfounded.run_migrateV1 sampleBuild_correct sampleJson_lawful
      (isUtf8_of_readV1Members sampleV1Json_lawful readV1Members_sample) (by decide)
      (show readV1Members sampleV1Json (sampleV1Root (zeroKey.hansaId sampleBuild)) =
        .ok [rejoinedMember] from readV1Members_sample) 8 0 fun _ => 0
  have left : (sampleMigrated 8).dir = dir' := by
    rw [sampleMigrated, sampleMigration, after_migrate, FileM.after_eq]
    exact congrArg dirAfter migrated
  have unpinned := (replay_pinned.mp founded.accepted).1
  have described := (replay_ok unpinned).1
  have active : rejoinedMember ∈ out.active := by
    rw [described.active.mem_iff, roster]
    exact Function.update_self (sampleTenant 7) (some rejoinedMember) Roster.empty
  have dims := shares chain out (left ▸ founded.read) unpinned rejoinedMember active
  rw [described.pins, pinned] at dims
  exact absurd (Option.some.inj dims) (by decide)

end Hansa
