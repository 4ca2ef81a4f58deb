import Hansa.Library.StateErrors
import Hansa.Migrate
import Hansa.Verif.Instance
import Hansa.Verif.LastEvent
import Hansa.Verif.Refinement

/-!
# Migration keeps the members

The unsigned files say of each tenant what their last event says; migration founds a signed
chain and admits the active members to it, one append after another. Whatever part of that
has been done, doing all of it again leaves exactly these members: an admission replaces a
record by itself, and the log may be compacted at any point of the way.
-/

namespace Hansa

/-! ## The unsigned files -/

/-- What an unsigned event says about its tenant. -/
def V1Event.tenantEvent : V1Event → TenantEvent
  | .join member => .admits member
  | .leave tenantId => .revokes tenantId

/-- The events that the lines of an unsigned log carry. -/
def v1Events (json : V1Json) : List (List UInt8 × Bool) → Result (List V1Event)
  | [] => .ok []
  | line :: lines =>
    match fromUtf8 (lineContent line) with
    | none => fail (.io "stream did not contain valid UTF-8")
    | some text =>
      if isBlank text then v1Events json lines
      else match json.eventFromStr text with
        | .error e => fail (.json e)
        | .ok event => do
          let events ← v1Events json lines
          .ok (event :: events)

/-- The records that a snapshot lists. -/
def v1Snapshot (json : V1Json) (snap : Option (List UInt8)) : Result (List MemberRecord) :=
  match snap with
  | none | some [] => .ok []
  | some bytes =>
    match json.membersFromSlice bytes with
    | .error e => fail (.json e)
    | .ok members => .ok members

/-- The events of an unsigned hansa: each record of the snapshot joins, then the log follows. -/
def V1Dir.history (json : V1Json) (dir : V1Dir) : Result (List TenantEvent) := do
  let members ← v1Snapshot json dir.snap
  let events ← v1Events json (splitLines (dir.log.getD []))
  .ok (members.map .admits ++ events.map V1Event.tenantEvent)

/-- What JSON decoding guarantees: a path that is read is a string. -/
structure V1Json.Lawful (json : V1Json) : Prop where
  /-- The paths of a snapshot are strings. -/
  members : ∀ bytes ms, json.membersFromSlice bytes = .ok ms → ∀ m ∈ ms, m.IsUtf8
  /-- The path of a joining member is a string. -/
  event : ∀ text m, json.eventFromStr text = .ok (.join m) → m.IsUtf8

variable {v1 : V1Json}

/-- The loop over the lines decodes their events and applies them in order. -/
theorem readV1Lines_eq (active : ActiveMap) (lines : List (List UInt8 × Bool)) :
    readV1Lines v1 active lines =
      (v1Events v1 lines).map fun events => events.foldl V1Event.applyTo active := by
  induction lines generalizing active with
  | nil => rfl
  | cons line lines ih =>
    rw [readV1Lines, v1Events]
    cases fromUtf8 (lineContent line) with
    | none => rfl
    | some text =>
      simp only
      split
      · exact ih active
      · cases v1.eventFromStr text with
        | error e => rfl
        | ok event =>
          simp only [ih]
          cases v1Events v1 lines <;> rfl

/-- The snapshot stores its records one after another. -/
theorem readV1Snap_eq (snap : Option (List UInt8)) :
    readV1Snap v1 snap = (v1Snapshot v1 snap).map fun members =>
      KeyedMap.empty.insertAll members := by
  rcases snap with _ | (_ | ⟨b, bytes⟩)
  · rfl
  · rfl
  · simp only [readV1Snap, v1Snapshot]
    cases v1.membersFromSlice (b :: bytes) <;> rfl

/-- One unsigned event changes the lookup of its tenant. -/
theorem V1Event.get?_applyTo (active : ActiveMap) (event : V1Event) :
    (event.applyTo active).get? = event.tenantEvent.apply active.get? := by
  cases event with
  | join member => exact KeyedMap.get?_insert active member
  | leave tenantId => exact KeyedMap.get?_erase active tenantId

/-- Unsigned events change the lookups as the events about tenants do. -/
theorem get?_foldl_applyTo (events : List V1Event) (active : ActiveMap) :
    (events.foldl V1Event.applyTo active).get? =
      (events.map V1Event.tenantEvent).foldl TenantEvent.apply active.get? := by
  induction events generalizing active with
  | nil => rfl
  | cons event events ih =>
    rw [List.foldl_cons, ih, event.get?_applyTo]
    rfl

/-- The last event of a tenant is about that tenant. -/
theorem keyed_lastEvent (history : List TenantEvent) :
    Roster.Keyed fun t => (lastEvent history t).bind TenantEvent.record? := by
  intro t m found
  have about := List.find?_some (lastEvent_admits.mp found)
  exact of_decide_eq_true about

/-- Events applied to the records of a snapshot leave what the last event of a tenant says. -/
theorem get?_applied_records (records : List MemberRecord) (events : List V1Event) :
    (events.foldl V1Event.applyTo (KeyedMap.empty.insertAll records)).get? =
      fun t => (lastEvent (records.map .admits ++ events.map V1Event.tenantEvent) t).bind
        TenantEvent.record? := by
  have joined : Roster.ofRecords records =
      (records.map .admits).foldl TenantEvent.apply .empty := by
    rw [List.foldl_map]
    rfl
  funext t
  rw [get?_foldl_applyTo, get?_empty_insertAll, joined, ← List.foldl_append, foldl_apply_eq]

/-- Members that were read list what the last event of each tenant says. -/
theorem readV1Members_lists {dir : V1Dir} {members : List MemberRecord}
    (read : readV1Members v1 dir = .ok members) :
    ∃ history, dir.history v1 = .ok history ∧ KeyedMap.Lists MemberRecord.tenantId
      (fun t => (lastEvent history t).bind TenantEvent.record?) members := by
  have whole : readV1Members v1 dir = (do
      let active ← readV1Snap v1 dir.snap
      let active ← readV1Lines v1 active (splitLines (dir.log.getD []))
      .ok active.sorted) := by
    unfold readV1Members
    cases dir.log <;> rfl
  rw [whole, readV1Snap_eq] at read
  unfold V1Dir.history
  cases snapshot : v1Snapshot v1 dir.snap with
  | error fault =>
    rw [snapshot] at read
    cases read
  | ok records =>
    cases log : v1Events v1 (splitLines (dir.log.getD [])) with
    | error fault =>
      simp only [snapshot, readV1Lines_eq, log, Except.map, bind, Except.bind] at read
      cases read
    | ok events =>
      simp only [snapshot, readV1Lines_eq, log, Except.map, bind, Except.bind] at read
      obtain rfl := Except.ok.inj read
      refine ⟨_, rfl, ?_⟩
      rw [← get?_applied_records]
      exact KeyedMap.sorted_lists _

/-- The records of a snapshot have valid paths. -/
theorem isUtf8_of_v1Snapshot (v1Lawful : v1.Lawful) {snap : Option (List UInt8)}
    {members : List MemberRecord} (read : v1Snapshot v1 snap = .ok members) :
    ∀ m ∈ members, m.IsUtf8 := by
  rcases snap with _ | (_ | ⟨b, bytes⟩)
  · obtain rfl := Except.ok.inj read
    exact fun _ absent => nomatch absent
  · obtain rfl := Except.ok.inj read
    exact fun _ absent => nomatch absent
  · simp only [v1Snapshot] at read
    cases decoded : v1.membersFromSlice (b :: bytes) with
    | error e =>
      rw [decoded] at read
      cases read
    | ok ms =>
      rw [decoded] at read
      obtain rfl := Except.ok.inj read
      exact v1Lawful.members _ _ decoded

/-- The members that join in a log have valid paths. -/
theorem isUtf8_of_v1Events (v1Lawful : v1.Lawful) {lines : List (List UInt8 × Bool)}
    {events : List V1Event} (read : v1Events v1 lines = .ok events) :
    ∀ m, V1Event.join m ∈ events → m.IsUtf8 := by
  induction lines generalizing events with
  | nil =>
    obtain rfl := Except.ok.inj read
    exact fun _ absent => nomatch absent
  | cons line lines ih =>
    rw [v1Events] at read
    cases text : fromUtf8 (lineContent line) with
    | none =>
      rw [text] at read
      cases read
    | some text' =>
      simp only [text] at read
      split at read
      · exact ih read
      · cases decoded : v1.eventFromStr text' with
        | error e =>
          rw [decoded] at read
          cases read
        | ok event =>
          simp only [decoded] at read
          obtain ⟨rest, later, same⟩ := Except.bind_eq_ok.mp read
          obtain rfl := Except.ok.inj same
          intro m member
          rcases List.mem_cons.mp member with rfl | member
          · exact v1Lawful.event _ _ decoded
          · exact ih later m member

/-- The members that were read have valid paths. -/
theorem isUtf8_of_readV1Members (v1Lawful : v1.Lawful) {dir : V1Dir}
    {members : List MemberRecord} (read : readV1Members v1 dir = .ok members) :
    ∀ m ∈ members, m.IsUtf8 := by
  obtain ⟨history, decoded, lists⟩ := readV1Members_lists read
  obtain ⟨records, snapshot, rest⟩ := Except.bind_eq_ok.mp decoded
  obtain ⟨events, log, same⟩ := Except.bind_eq_ok.mp rest
  obtain rfl := Except.ok.inj same
  intro m member
  have last := lastEvent_admits.mp ((lists.mem_iff m).mp member)
  have told := List.mem_reverse.mp (List.mem_of_find?_eq_some last)
  rcases List.mem_append.mp told with inSnapshot | inLog
  · obtain ⟨other, listed, same⟩ := List.mem_map.mp inSnapshot
    obtain rfl := TenantEvent.admits.inj same
    exact isUtf8_of_v1Snapshot v1Lawful snapshot _ listed
  · obtain ⟨other, listed, same⟩ := List.mem_map.mp inLog
    cases other with
    | leave t => cases same
    | join member' =>
      obtain rfl := TenantEvent.admits.inj same
      exact isUtf8_of_v1Events v1Lawful log _ listed

/-! ## The signed chain -/

section Chain

variable {c : Build} {json : LinkJson} {r : FileRegistry} {skipper : Skipper} {dir : HansaDir}
  {dim : UInt32} {roster : Roster} {most : Nat}

/-- The roster with more records stored one after another. -/
def Roster.storeAll (roster : Roster) (members : List MemberRecord) : Roster :=
  members.foldl (fun roster m => Function.update roster m.tenantId (some m)) roster

/-- A log without links that takes one: the hansa is not founded yet. -/
structure Unfounded (json : LinkJson) (path : PathBuf) (dir : HansaDir) : Prop where
  /-- The log has no links. -/
  read : readLog json path dir.log = .ok []
  /-- The log takes a line. -/
  appendable : ∀ bytes ∈ dir.log, Appendable bytes

/-- A directory without a log is not founded. -/
theorem unfounded_initial (json : LinkJson) (path : PathBuf) : Unfounded json path .initial :=
  ⟨rfl, fun _ absent => nomatch absent⟩

/-- The log of the skipper's hansa has this dimension and this roster, its length is bounded,
and its head is no further than `most`. -/
def FoundedWith (c : Build) (json : LinkJson) (r : FileRegistry) (skipper : Skipper)
    (dim : UInt32) (roster : Roster) (most : Nat) (dir : HansaDir) : Prop :=
  ∃ chain out, Founded c json r skipper dir chain out ∧ out.embeddingDim = dim ∧
    chain.length ≤ checkpointAfterLinks ∧ rosterOf (chain.map Link.toStatement) = roster ∧
    out.headSeq.toNat ≤ most

/-- A founding of a hansa that is not founded pins the dimension. -/
theorem Unfounded.run_found (correct : c.Correct) (lawful : json.Lawful)
    (unfounded : Unfounded json (r.logPath (.fromSkipper c (skipper.pub c))) dir)
    (embeddingDim : UInt32) (createdAt : Int64) :
    ∃ dir', (r.found c json (.fromSkipper c (skipper.pub c)) skipper embeddingDim createdAt).run
        dir = .ok () dir' ∧ FoundedWith c json r skipper embeddingDim .empty 0 dir' := by
  obtain ⟨text, encoded⟩ := lawful.encodes (genesisLink c skipper embeddingDim createdAt) trivial
  obtain ⟨reads, appendable⟩ :=
    HansaDir.read_append lawful unfounded.appendable unfounded.read encoded
  have accepted := replay_genesisLink correct skipper embeddingDim createdAt
  refine ⟨_, ?_, _, _, ⟨reads, appendable, accepted, rfl⟩, rfl,
    show (1 : Nat) ≤ _ from by decide, rfl, le_rfl⟩
  rw [Hansa.run_found unfounded.read, if_neg (not_not_intro rfl), run_appendLink]
  rw [genesisLink] at encoded
  rw [encoded]
  rfl

/-- A founding of a founded hansa changes nothing, whatever dimension it names. -/
theorem FoundedWith.run_found (founded : FoundedWith c json r skipper dim roster most dir)
    (embeddingDim : UInt32) (createdAt : Int64) :
    (r.found c json (.fromSkipper c (skipper.pub c)) skipper embeddingDim createdAt).run dir =
      .ok () dir := by
  obtain ⟨chain, out, there, -⟩ := founded
  rw [Hansa.run_found there.read, if_pos (ne_nil_of_replay there.accepted)]

/-- An admission stores the member, and moves the head by two at most. -/
theorem FoundedWith.run_admit (correct : c.Correct) (lawful : json.Lawful)
    (founded : FoundedWith c json r skipper dim roster most dir) {member : MemberRecord}
    (path : member.IsUtf8) (room : most + 2 < 2 ^ 64) (now : Int64) :
    ∃ dir', (r.appendNext c json (.fromSkipper c (skipper.pub c)) skipper
        (.admitMember member none) now).run dir = .ok () dir' ∧
      FoundedWith c json r skipper dim (Function.update roster member.tenantId (some member))
        (most + 2) dir' := by
  obtain ⟨chain, out, there, rfl, bounded, rfl, head⟩ := founded
  have unpinned := (replay_pinned.mp there.accepted).1
  have fits : UInt64.HasSucc c.profile out.headSeq := UInt64.hasSucc_of_lt (by omega)
  have carried : (Body.admitMember member none).IsUtf8 := path
  obtain ⟨text, encoded⟩ :=
    lawful.encodes (nextLink c skipper out (.admitMember member none)) carried
  have next : (nextLink c skipper out (.admitMember member none)).Next c out :=
    (next_signed_iff correct fits skipper _).mpr ⟨there.signer.symm, id⟩
  obtain ⟨reads, -⟩ := HansaDir.read_append lawful there.appendable there.read encoded
  obtain ⟨dir', -, -, returned, -⟩ := afterAppend_next correct lawful there.accepted reads next
    now (fun _ => UInt64.hasSucc_succ (by omega))
  have run := (run_appendNext_encoded there.read unpinned fits encoded now).trans returned
  have ends : Ends ((r.appendNext c json (.fromSkipper c (skipper.pub c)) skipper
      (.admitMember member none) now).run dir) dir' := by
    rw [run]
    exact ⟨rfl, fun _ panicked => nomatch panicked⟩
  obtain ⟨chain', out', founded', dim', bounded', roster', -, head'⟩ :=
    there.call_appendNext correct lawful bounded (.admitMember member none) id ends
  rw [if_pos carried] at roster'
  exact ⟨dir', run, chain', out', founded', dim', bounded', roster', by omega⟩

/-- Admitting members one after another stores them one after another. -/
theorem FoundedWith.run_readmitAll (correct : c.Correct) (lawful : json.Lawful)
    (clock : TenantId → Int64) {members : List MemberRecord} (paths : ∀ m ∈ members, m.IsUtf8)
    (founded : FoundedWith c json r skipper dim roster most dir)
    (room : most + 2 * members.length < 2 ^ 64) :
    ∃ dir', (readmitAll c json r skipper clock members).run dir = .ok () dir' ∧
      FoundedWith c json r skipper dim (roster.storeAll members) (most + 2 * members.length)
        dir' := by
  induction members generalizing dir roster most with
  | nil => exact ⟨dir, rfl, founded⟩
  | cons m members ih =>
    rw [List.length_cons] at room
    obtain ⟨mid, admitted, next⟩ := founded.run_admit correct lawful
      (paths m List.mem_cons_self) (by omega) (clock m.tenantId)
    obtain ⟨dir', rest, stored⟩ := ih (fun other member => paths other (.tail m member)) next
      (by omega)
    refine ⟨dir', ?_, ?_⟩
    · rw [readmitAll, EStateM.run_bind, admitted]
      exact rest
    · have count : most + 2 * (members.length + 1) = most + 2 + 2 * members.length := by omega
      rw [List.length_cons, count]
      exact stored

/-- The log shows the members that its roster lists. -/
theorem FoundedWith.run_members (founded : FoundedWith c json r skipper dim roster most dir)
    {members : List MemberRecord} (lists : KeyedMap.Lists MemberRecord.tenantId roster members) :
    (r.members c json (.fromSkipper c (skipper.pub c))).run dir = .ok members dir := by
  obtain ⟨chain, out, there, -, -, rfl, -⟩ := founded
  have unpinned := (replay_pinned.mp there.accepted).1
  have same : out.active = members := (replay_ok unpinned).1.active.unique lists
  rw [Hansa.run_members there.read, if_neg (ne_nil_of_replay there.accepted), unpinned, ← same]

/-! ## Stopping and running again -/

/-- Calls one after another, up to the first that fails. -/
def inOrder : List (FileM Unit) → FileM Unit
  | [] => pure ()
  | step :: steps => do
    step
    inOrder steps

/-- The registry steps of a migration: it founds the hansa, then admits one member a step. -/
def migrationSteps (c : Build) (json : LinkJson) (r : FileRegistry) (skipper : Skipper)
    (embeddingDim : UInt32) (now : Int64) (clock : TenantId → Int64)
    (members : List MemberRecord) : List (FileM Unit) :=
  r.found c json (.fromSkipper c (skipper.pub c)) skipper embeddingDim now ::
    members.map fun m => r.appendNext c json (.fromSkipper c (skipper.pub c)) skipper
      (.admitMember m none) (clock m.tenantId)

/-- The loop of the migration takes its steps in order. -/
theorem readmit_eq (clock : TenantId → Int64) (members : List MemberRecord) :
    readmitAll c json r skipper clock members =
      inOrder (members.map fun m => r.appendNext c json (.fromSkipper c (skipper.pub c)) skipper
        (.admitMember m none) (clock m.tenantId)) := by
  induction members with
  | nil => rfl
  | cons m members ih =>
    rw [readmitAll, ih]
    rfl

/-- A migration that could read the members takes its steps in order. -/
theorem run_migrateV1 {v1Root : HansaId → V1Dir} {key : HansaKey} {members : List MemberRecord}
    (read : readV1Members v1 (v1Root (key.hansaId c)) = .ok members) (embeddingDim : UInt32)
    (now : Int64) (clock : TenantId → Int64) (dir : HansaDir) :
    (migrateV1 c json v1 r skipper v1Root key embeddingDim now clock).run dir =
      (do
        inOrder (migrationSteps c json r skipper embeddingDim now clock members)
        pure (HansaId.fromSkipper c (skipper.pub c)) : FileM HansaId).run dir := by
  simp only [migrateV1, read, migrationSteps, inOrder, readmit_eq, EStateM.run_bind,
    FileM.run_ofResult]
  cases EStateM.run (r.found c json (.fromSkipper c (skipper.pub c)) skipper embeddingDim now)
    dir <;> rfl

/-- A state that a migration of these members, stopped or not, leaves behind. -/
def Underway (c : Build) (json : LinkJson) (r : FileRegistry) (skipper : Skipper)
    (members : List MemberRecord) (most : Nat) (dir : HansaDir) : Prop :=
  Unfounded json (r.logPath (.fromSkipper c (skipper.pub c))) dir ∨
    ∃ dim roster, FoundedWith c json r skipper dim roster most dir ∧
      ∀ t, roster t ≠ none → ∃ m ∈ members, m.tenantId = t

/-- Where rosters agree on the tenants that are not stored, they agree after the storing. -/
theorem Roster.storeAll_congr {t : TenantId} (members : List MemberRecord)
    {roster roster' : Roster}
    (agree : (∀ m ∈ members, m.tenantId ≠ t) → roster t = roster' t) :
    roster.storeAll members t = roster'.storeAll members t := by
  induction members generalizing roster roster' with
  | nil => exact agree (fun _ absent => nomatch absent)
  | cons m members ih =>
    refine ih fun others => ?_
    show Function.update roster m.tenantId (some m) t =
      Function.update roster' m.tenantId (some m) t
    by_cases own : t = m.tenantId
    · rw [own, Function.update_self, Function.update_self]
    · rw [Function.update_of_ne own, Function.update_of_ne own]
      exact agree (List.forall_mem_cons.mpr ⟨Ne.symm own, others⟩)

/-- Storing members over a roster of the same tenants leaves these members. -/
theorem Roster.storeAll_eq {members : List MemberRecord}
    (known : ∀ t, roster t ≠ none → ∃ m ∈ members, m.tenantId = t) :
    roster.storeAll members = .ofRecords members := by
  funext t
  show roster.storeAll members t = Roster.empty.storeAll members t
  refine Roster.storeAll_congr members fun others => ?_
  by_contra stored
  obtain ⟨m, member, same⟩ := known t stored
  exact others m member same

/-- A stopped migration leaves a state from which it can be run again. -/
theorem Unfounded.run_stopped (correct : c.Correct) (lawful : json.Lawful)
    (unfounded : Unfounded json (r.logPath (.fromSkipper c (skipper.pub c))) dir)
    {members : List MemberRecord} (paths : ∀ m ∈ members, m.IsUtf8)
    (room : 2 * members.length < 2 ^ 64) (embeddingDim : UInt32) (now : Int64)
    (clock : TenantId → Int64) (k : Nat) :
    ∃ mid, (inOrder ((migrationSteps c json r skipper embeddingDim now clock members).take k)).run
        dir = .ok () mid ∧
      Underway c json r skipper members (2 * members.length) mid := by
  cases k with
  | zero => exact ⟨dir, rfl, .inl unfounded⟩
  | succ k =>
    obtain ⟨first, founds, founded⟩ := unfounded.run_found correct lawful embeddingDim now
    have few : (members.take k).length ≤ members.length := List.length_take_le' k members
    have some_paths : ∀ m ∈ members.take k, m.IsUtf8 := fun m member =>
      paths m (List.mem_of_mem_take member)
    obtain ⟨mid, admits, stored⟩ :=
      founded.run_readmitAll correct lawful clock some_paths (by omega)
    refine ⟨mid, ?_, .inr ⟨embeddingDim, .ofRecords (members.take k), ?_, ?_⟩⟩
    · rw [migrationSteps, List.take_succ_cons, inOrder, EStateM.run_bind, founds, ← List.map_take,
        ← readmit_eq]
      exact admits
    · obtain ⟨chain, out, there, dim, bounded, roster, head⟩ := stored
      exact ⟨chain, out, there, dim, bounded, roster, by omega⟩
    · intro t known
      obtain ⟨m, there⟩ := Option.ne_none_iff_exists'.mp known
      exact ⟨m, List.mem_of_mem_take (mem_of_ofRecords there), Roster.keyed_ofRecords _ t m there⟩

/-- A migration into a hansa that is not founded pins the dimension it names and leaves the
members. -/
theorem Unfounded.run_migrateV1 (correct : c.Correct) (lawful : json.Lawful)
    (unfounded : Unfounded json (r.logPath (.fromSkipper c (skipper.pub c))) dir)
    {members : List MemberRecord} (paths : ∀ m ∈ members, m.IsUtf8)
    (room : 2 * members.length < 2 ^ 64) {v1Root : HansaId → V1Dir} {key : HansaKey}
    (read : readV1Members v1 (v1Root (key.hansaId c)) = .ok members) (embeddingDim : UInt32)
    (now : Int64) (clock : TenantId → Int64) :
    ∃ dir', (migrateV1 c json v1 r skipper v1Root key embeddingDim now clock).run dir =
        .ok (.fromSkipper c (skipper.pub c)) dir' ∧
      FoundedWith c json r skipper embeddingDim (.ofRecords members) (2 * members.length) dir' := by
  obtain ⟨first, founds, founded⟩ := unfounded.run_found correct lawful embeddingDim now
  obtain ⟨dir', admits, chain, out, there, dim, bounded, roster, head⟩ :=
    founded.run_readmitAll correct lawful clock paths (by omega)
  refine ⟨dir', ?_, chain, out, there, dim, bounded, roster, by omega⟩
  rw [Hansa.run_migrateV1 read]
  simp only [migrationSteps, inOrder, EStateM.run_bind, founds, ← readmit_eq, admits]
  rfl

/-- From wherever a migration was stopped, a migration returns and leaves the members. -/
theorem Underway.run_migrateV1 (correct : c.Correct) (lawful : json.Lawful)
    {members : List MemberRecord} (underway : Underway c json r skipper members most dir)
    (paths : ∀ m ∈ members, m.IsUtf8) (room : most + 2 * members.length < 2 ^ 64)
    {v1Root : HansaId → V1Dir} {key : HansaKey}
    (read : readV1Members v1 (v1Root (key.hansaId c)) = .ok members) (embeddingDim : UInt32)
    (now : Int64) (clock : TenantId → Int64) :
    ∃ dir' dim, (migrateV1 c json v1 r skipper v1Root key embeddingDim now clock).run dir =
        .ok (.fromSkipper c (skipper.pub c)) dir' ∧
      FoundedWith c json r skipper dim (.ofRecords members) (most + 2 * members.length) dir' := by
  rcases underway with unfounded | ⟨dim, roster, founded, known⟩
  · obtain ⟨dir', run, chain, out, there, dim, bounded, roster, head⟩ :=
      unfounded.run_migrateV1 correct lawful paths (by omega) read embeddingDim now clock
    exact ⟨dir', embeddingDim, run, chain, out, there, dim, bounded, roster, by omega⟩
  · obtain ⟨dir', admits, stored⟩ := founded.run_readmitAll correct lawful clock paths room
    refine ⟨dir', dim, ?_, Roster.storeAll_eq known ▸ stored⟩
    rw [Hansa.run_migrateV1 read]
    simp only [migrationSteps, inOrder, EStateM.run_bind, founded.run_found, ← readmit_eq, admits]
    rfl

/-- The active members list the last events of the unsigned hansa, and a migration into a hansa
that is not founded leaves exactly them, also when it is stopped between its steps and run
again, or is run twice. A list of records takes 2^63 bytes at most, and a record has more than
16 bytes. -/
theorem migration_keeps_members (correct : c.Correct) (lawful : json.Lawful)
    (v1Lawful : v1.Lawful) {v1Root : HansaId → V1Dir} {key : HansaKey}
    {members : List MemberRecord}
    (read : readV1Members v1 (v1Root (key.hansaId c)) = .ok members)
    (room : members.length < 2 ^ 59)
    (unfounded : Unfounded json (r.logPath (.fromSkipper c (skipper.pub c))) dir)
    (embeddingDim embeddingDim' : UInt32) (now now' : Int64) (clock clock' : TenantId → Int64) :
    (∃ history, (v1Root (key.hansaId c)).history v1 = .ok history ∧
      ∀ m, m ∈ members ↔ lastEvent history m.tenantId = some (.admits m)) ∧
    (∃ dir', (migrateV1 c json v1 r skipper v1Root key embeddingDim now clock).run dir =
        .ok (.fromSkipper c (skipper.pub c)) dir' ∧
      (r.members c json (.fromSkipper c (skipper.pub c))).run dir' = .ok members dir') ∧
    (∀ k, ∃ mid dir',
      (inOrder ((migrationSteps c json r skipper embeddingDim now clock members).take k)).run dir =
        .ok () mid ∧
      (migrateV1 c json v1 r skipper v1Root key embeddingDim' now' clock').run mid =
        .ok (.fromSkipper c (skipper.pub c)) dir' ∧
      (r.members c json (.fromSkipper c (skipper.pub c))).run dir' = .ok members dir') ∧
    ∃ mid dir', (migrateV1 c json v1 r skipper v1Root key embeddingDim now clock).run dir =
        .ok (.fromSkipper c (skipper.pub c)) mid ∧
      (migrateV1 c json v1 r skipper v1Root key embeddingDim' now' clock').run mid =
        .ok (.fromSkipper c (skipper.pub c)) dir' ∧
      (r.members c json (.fromSkipper c (skipper.pub c))).run dir' = .ok members dir' := by
  have paths := isUtf8_of_readV1Members v1Lawful read
  have fresh : Underway c json r skipper members 0 dir := .inl unfounded
  obtain ⟨history, told, lists⟩ := readV1Members_lists read
  have listed : KeyedMap.Lists MemberRecord.tenantId (Roster.ofRecords members) members := by
    rwa [Roster.ofRecords_lists (keyed_lastEvent history) lists]
  refine ⟨⟨history, told, fun m => ?_⟩, ?_, fun k => ?_, ?_⟩
  · rw [lists.mem_iff, lastEvent_admits]
  · obtain ⟨dir', dim, run, founded⟩ := fresh.run_migrateV1 correct lawful paths (by omega)
      read embeddingDim now clock
    exact ⟨dir', run, founded.run_members listed⟩
  · obtain ⟨mid, stopped, underway⟩ := unfounded.run_stopped correct lawful paths (by omega)
      embeddingDim now clock k
    obtain ⟨dir', dim, run, founded⟩ :=
      underway.run_migrateV1 correct lawful paths (by omega) read embeddingDim' now' clock'
    exact ⟨mid, dir', stopped, run, founded.run_members listed⟩
  · obtain ⟨mid, dim, run, founded⟩ := fresh.run_migrateV1 correct lawful paths (by omega)
      read embeddingDim now clock
    have underway : Underway c json r skipper members (0 + 2 * members.length) mid := by
      refine .inr ⟨dim, _, founded, fun t known => ?_⟩
      obtain ⟨m, there⟩ := Option.ne_none_iff_exists'.mp known
      exact ⟨m, mem_of_ofRecords there, Roster.keyed_ofRecords _ t m there⟩
    obtain ⟨dir', dim', run', founded'⟩ :=
      underway.run_migrateV1 correct lawful paths (by omega) read embeddingDim' now' clock'
    exact ⟨mid, dir', run, run', founded'.run_members listed⟩

end Chain

/-! ## A small unsigned log -/

/-- The text of a log with a line for each event. -/
def v1Log (events : List (String × V1Event)) : List UInt8 :=
  events.flatMap fun line => utf8 line.1 ++ [10]

/-- A text is a line, and decodes to its event. -/
structure IsV1Line (v1 : V1Json) (line : String × V1Event) : Prop where
  /-- It has no line break. -/
  whole : 10 ∉ utf8 line.1
  /-- It does not end with a carriage return. -/
  content : lineContent (utf8 line.1, true) = utf8 line.1
  /-- It is not blank. -/
  written : isBlank line.1 = false
  /-- It decodes. -/
  decodes : v1.eventFromStr line.1 = .ok line.2

/-- A log of such lines applies their events one after another. -/
theorem readV1Lines_v1Log {v1 : V1Json} {events : List (String × V1Event)}
    (lines : ∀ line ∈ events, IsV1Line v1 line) (active : ActiveMap) :
    readV1Lines v1 active (splitLines (v1Log events)) =
      .ok (events.foldl (fun active line => line.2.applyTo active) active) := by
  induction events generalizing active with
  | nil => rfl
  | cons line events ih =>
    obtain ⟨first, later⟩ := List.forall_mem_cons.mp lines
    have closed : Closed (utf8 line.1 ++ [10]) := by
      intro b last
      rw [List.getLast?_concat] at last
      exact (Option.some.inj last).symm
    have split : splitLines (v1Log (line :: events)) =
        (utf8 line.1, true) :: splitLines (v1Log events) := by
      rw [v1Log, List.flatMap_cons, splitLines_append closed, splitLines_ended first.whole]
      rfl
    rw [split, readV1Lines, first.content, fromUtf8_utf8]
    simp only [first.written, Bool.false_eq_true, if_false, first.decodes]
    exact ih later _

/-- The line of a log with which a member joins. -/
def joinText (tenantId joinedAt : String) : String :=
  "\x7b\"event\":\"join\",\"tenant_id\":\"" ++ tenantId ++
    "\",\"tenant_location\":\x7b\"Http\":\x7b\"base_url\":\"\",\"bearer\":null\x7d\x7d," ++
    "\"embedding_dim\":3,\"joined_at\":" ++ joinedAt ++ "\x7d"

/-- The line of a log with which a member leaves. -/
def leaveText (tenantId : String) : String :=
  "\x7b\"event\":\"leave\",\"tenant_id\":\"" ++ tenantId ++ "\"\x7d"

/-- A text with a front that is not blank is not blank. -/
theorem isBlank_append_left {s : String} (written : isBlank s = false) (t : String) :
    isBlank (s ++ t) = false := by
  rw [isBlank_append, written, Bool.false_and]

/-- The line of a join is not blank. -/
theorem isBlank_joinText (tenantId joinedAt : String) :
    isBlank (joinText tenantId joinedAt) = false := by
  have opens : isBlank "\x7b\"event\":\"join\",\"tenant_id\":\"" = false := by decide +kernel
  repeat' apply isBlank_append_left
  exact opens

/-- The line of a leave is not blank. -/
theorem isBlank_leaveText (tenantId : String) : isBlank (leaveText tenantId) = false := by
  have opens : isBlank "\x7b\"event\":\"leave\",\"tenant_id\":\"" = false := by decide +kernel
  repeat' apply isBlank_append_left
  exact opens

/-- The record with which a member joins again. -/
def rejoinedMember : MemberRecord := { sampleMember 7 with joinedAt := 5 }

/-- Two members join, the first joins again later, and the second leaves. -/
def sampleEvents : List (String × V1Event) :=
  [(joinText "07070707070707070707070707070707" "0", .join (sampleMember 7)),
    (joinText "08080808080808080808080808080808" "0", .join (sampleMember 8)),
    (joinText "07070707070707070707070707070707" "5", .join rejoinedMember),
    (leaveText "08080808080808080808080808080808", .leave (sampleTenant 8))]

/-- JSON for these lines. -/
def sampleV1Json : V1Json where
  membersFromSlice _ := .error "expected value at line 1 column 1"
  eventFromStr text :=
    match sampleEvents.find? fun line => utf8 line.1 = utf8 text with
    | some line => .ok line.2
    | none => .error "expected value"

/-- The sample decoding is lawful. -/
theorem sampleV1Json_lawful : sampleV1Json.Lawful where
  members _ _ decoded := nomatch decoded
  event text m decoded := by
    simp only [sampleV1Json] at decoded
    split at decoded
    · next line found =>
      have member : V1Event.join m ∈ sampleEvents.map Prod.snd :=
        Except.ok.inj decoded ▸ List.mem_map_of_mem (List.mem_of_find?_eq_some found)
      simp only [sampleEvents, List.map_cons, List.map_nil, List.mem_cons, V1Event.join.injEq,
        reduceCtorEq, List.not_mem_nil, or_false] at member
      rcases member with rfl | rfl | rfl <;> trivial
    · cases decoded

/-- The files of an unsigned hansa with these events. -/
def sampleV1Dir : V1Dir := ⟨none, some (v1Log sampleEvents)⟩

/-- A root under which every unsigned hansa has these files. -/
def sampleV1Root : HansaId → V1Dir := fun _ => sampleV1Dir

/-- A key that is all zeros. -/
def zeroKey : HansaKey := ⟨Vector.replicate 32 0⟩

/-- The lines of the sample decode. -/
theorem isV1Line_sampleEvents : ∀ line ∈ sampleEvents, IsV1Line sampleV1Json line := by
  have texts : ∀ line ∈ sampleEvents, 10 ∉ utf8 line.1 ∧
      lineContent (utf8 line.1, true) = utf8 line.1 := by decide +kernel
  have written : ∀ line ∈ sampleEvents, isBlank line.1 = false := by
    simp [sampleEvents, isBlank_joinText, isBlank_leaveText]
  have finds : ∀ line ∈ sampleEvents,
      (sampleEvents.find? fun line' => utf8 line'.1 = utf8 line.1) = some line := by
    decide +kernel
  intro line member
  refine ⟨(texts line member).1, (texts line member).2, written line member, ?_⟩
  simp only [sampleV1Json, finds line member]

/-- The member that joined again is read, with its later record. -/
theorem readV1Members_sample : readV1Members sampleV1Json sampleV1Dir =
    .ok [rejoinedMember] := by
  have read := readV1Lines_v1Log isV1Line_sampleEvents .empty
  have active : (sampleEvents.foldl (fun active line => line.2.applyTo active)
      (.empty : ActiveMap)).sorted = [rejoinedMember] := rfl
  exact Except.bind_eq_ok.mpr
    ⟨.empty, rfl, Except.bind_eq_ok.mpr ⟨_, read, congrArg Except.ok active⟩⟩

/-- The sample log migrates, also in two parts. -/
theorem migration_keeps_members_sample :
    ∃ mid dir', (inOrder ((migrationSteps sampleBuild sampleJson ⟨⟨[]⟩⟩ (sampleSkipper 1) 3 0
        (fun _ => 0) [rejoinedMember]).take 1)).run .initial =
        .ok () mid ∧
      (migrateV1 sampleBuild sampleJson sampleV1Json ⟨⟨[]⟩⟩ (sampleSkipper 1)
        sampleV1Root zeroKey 3 1 fun _ => 1).run mid =
        .ok (.fromSkipper sampleBuild ((sampleSkipper 1).pub sampleBuild)) dir' ∧
      (FileRegistry.members sampleBuild sampleJson ⟨⟨[]⟩⟩
        (.fromSkipper sampleBuild ((sampleSkipper 1).pub sampleBuild))).run dir' =
        .ok [rejoinedMember] dir' := by
  have read : readV1Members sampleV1Json (sampleV1Root (zeroKey.hansaId sampleBuild)) =
      .ok [rejoinedMember] := readV1Members_sample
  have few : [rejoinedMember].length < 2 ^ 59 :=
    Nat.one_lt_two_pow (by decide)
  exact (migration_keeps_members sampleBuild_correct sampleJson_lawful sampleV1Json_lawful read
    few (unfounded_initial _ _) 3 3 0 1 (fun _ => 0) (fun _ => 1)).2.2.1 1

end Hansa
