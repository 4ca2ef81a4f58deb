import Hansa.Verif.CliInstance
import Hansa.Verif.CliParts
import Hansa.Verif.KeyFile
import Hansa.Verif.RecordIds

/-!
# The roster of the command line

Any number of commands may run at once and be stopped anywhere. A command loads the
configuration, works on its own copy and saves it later, so it can undo what others saved in
between. What is saved is a sane configuration all the same: it lists every agent once, the
active agent is listed, and the identity of every agent can be read.
-/

namespace Hansa.Cli

open Program

/-! ## Sane configurations -/

/-- What commands rely on in a configuration. -/
structure Config.Sane (config : Config) : Prop where
  /-- No agent is listed twice. -/
  distinct : (config.members.map fun m => (m.hansa, m.tenant)).Nodup
  /-- The active agent is listed, if there are agents. -/
  active : config.members = [] ∨
    ∃ m ∈ config.members, Config.keyOf m.hansa m.tenant = config.active
  /-- The id of each agent can be read. -/
  ids : ∀ m ∈ config.members, ∃ id, m.tenantIdBytes = .ok id

/-- The parts of equal names are equal. -/
theorem Member.eq_of_names {m m' : Member} (same : m.names = m'.names) :
    m.hansa = m'.hansa ∧ m.tenant = m'.tenant ∧ m.tenantIdHex = m'.tenantIdHex := by
  obtain ⟨hansa, rest⟩ := Prod.mk.inj same
  obtain ⟨tenant, hex⟩ := Prod.mk.inj rest
  exact ⟨hansa, tenant, hex⟩

namespace Config

variable {config config' : Config} {m : Member}

/-- The active agent of a sane configuration is found. -/
theorem Sane.activeIndex (sane : config.Sane) (filled : config.members ≠ []) :
    ∃ i, config.activeIndex = .ok i := by
  obtain none_ | ⟨m, member, isActive⟩ := sane.active
  · exact absurd none_ filled
  · unfold Config.activeIndex
    rw [if_neg filled]
    cases found : config.members.findIdx? (fun m => keyOf m.hansa m.tenant = config.active) with
    | some i => exact ⟨i, rfl⟩
    | none =>
      have absent := List.findIdx?_eq_none_iff.mp found m member
      exact absurd isActive (of_decide_eq_false absent)

/-- Only the names of the members matter, and the active agent. -/
theorem Sane.congr (sane : config.Sane)
    (names : config'.members.map Member.names = config.members.map Member.names)
    (active : config'.active = config.active) : config'.Sane := by
  have same : ∀ {m}, m ∈ config'.members → ∃ m' ∈ config.members, m'.names = m.names := by
    intro m member
    have listed : m.names ∈ config.members.map Member.names := by
      rw [← names]
      exact List.mem_map_of_mem member
    exact List.mem_map.mp listed
  have same' : ∀ {m}, m ∈ config.members → ∃ m' ∈ config'.members, m'.names = m.names := by
    intro m member
    have listed : m.names ∈ config'.members.map Member.names := by
      rw [names]
      exact List.mem_map_of_mem member
    exact List.mem_map.mp listed
  refine ⟨?_, ?_, ?_⟩
  · have pairs : ∀ c : Config, (c.members.map fun m => (m.hansa, m.tenant)) =
        (c.members.map Member.names).map fun n => (n.1, n.2.1) := by
      intro c
      rw [List.map_map]
      rfl
    rw [pairs, names, ← pairs]
    exact sane.distinct
  · rcases sane.active with none_ | ⟨m, member, isActive⟩
    · left
      rw [none_] at names
      exact List.map_eq_nil_iff.mp names
    · obtain ⟨m', member', named⟩ := same' member
      obtain ⟨isHansa, isTenant, -⟩ := Member.eq_of_names named
      refine .inr ⟨m', member', ?_⟩
      rw [isHansa, isTenant, active]
      exact isActive
  · intro m member
    obtain ⟨m', member', named⟩ := same member
    obtain ⟨id, known⟩ := sane.ids m' member'
    refine ⟨id, ?_⟩
    obtain ⟨-, -, hex⟩ := Member.eq_of_names named
    rw [Member.tenantIdBytes, ← hex]
    exact known

/-- A counter is assigned. -/
theorem Sane.setNextRecordId (sane : config.Sane) (i : Nat) (next : UInt64) :
    (config.setNextRecordId i next).Sane :=
  sane.congr (config.names_setNextRecordId i next) rfl

/-- A listed agent becomes active. -/
theorem Sane.use (sane : config.Sane) (listed : m ∈ config.members) :
    Sane { config with active := keyOf m.hansa m.tenant } :=
  ⟨sane.distinct, .inr ⟨m, listed, rfl⟩, sane.ids⟩

/-- An agent is added or replaced, and becomes active. -/
theorem Sane.upsertActive (sane : config.Sane) (known : ∃ id, m.tenantIdBytes = .ok id) :
    (config.upsertActive m).Sane := by
  cases found : config.find m.hansa m.tenant with
  | none =>
    have appended : (config.upsertActive m).members = config.members ++ [m] := by
      simp only [Config.upsertActive, found]
    refine ⟨?_, ?_, ?_⟩
    · rw [appended, List.map_append, List.map_singleton, ← List.concat_eq_append]
      refine List.Nodup.concat ?_ sane.distinct
      intro listed
      obtain ⟨m', member, named⟩ := List.mem_map.mp listed
      have absent := of_decide_eq_false (List.findIdx?_eq_none_iff.mp found m' member)
      exact absent (Prod.mk.inj named)
    · rw [appended]
      exact .inr ⟨m, List.mem_append_right _ (List.mem_singleton_self m), rfl⟩
    · rw [appended]
      intro m' member
      rcases List.mem_append.mp member with old | new
      · exact sane.ids m' old
      · rw [List.mem_singleton.mp new]
        exact known
  | some i =>
    obtain ⟨m', there, isHansa, isTenant, -⟩ := member_of_find found
    have replaced : (config.upsertActive m).members = config.members.set i m := by
      simp only [Config.upsertActive, found]
    obtain ⟨inside, -⟩ := List.getElem?_eq_some_iff.mp there
    refine ⟨?_, ?_, ?_⟩
    · have same : (config.members.set i m).map (fun m => (m.hansa, m.tenant)) =
          config.members.map fun m => (m.hansa, m.tenant) := by
        rw [List.map_set, ← isHansa, ← isTenant]
        apply List.ext_getElem?
        intro j
        rw [List.getElem?_set]
        split
        · next isIndex =>
          subst isIndex
          rw [List.getElem?_map, there, List.length_map, if_pos inside]
          rfl
        · rfl
      rw [replaced, same]
      exact sane.distinct
    · rw [replaced]
      exact .inr ⟨m, List.mem_set inside m, rfl⟩
    · rw [replaced]
      intro m'' member
      rcases List.mem_or_eq_of_mem_set member with old | rfl
      · exact sane.ids m'' old
      · exact known

/-- An agent is removed, and another one becomes active if it was. -/
theorem Sane.remove (sane : config.Sane) (hansa tenant : String) :
    (config.remove hansa tenant).Sane := by
  have kept : (config.remove hansa tenant).members.Sublist config.members :=
    List.filter_sublist
  refine ⟨sane.distinct.sublist (kept.map _), ?_, fun m member => sane.ids m (kept.subset member)⟩
  by_cases wasActive : config.active = keyOf hansa tenant
  · have moved : (config.remove hansa tenant).active =
        ((config.remove hansa tenant).members.head?.map fun m => keyOf m.hansa m.tenant).getD "" :=
      if_pos wasActive
    cases filled : (config.remove hansa tenant).members with
    | nil => exact .inl rfl
    | cons m members =>
      refine .inr ⟨m, List.mem_cons_self, ?_⟩
      rw [moved, filled]
      rfl
  · have stays : (config.remove hansa tenant).active = config.active := if_neg wasActive
    rcases sane.active with none_ | ⟨m, member, isActive⟩
    · left
      rw [none_] at kept
      exact List.sublist_nil.mp kept
    · refine .inr ⟨m, List.mem_filter.mpr ⟨member, ?_⟩, isActive.trans stays.symm⟩
      rw [decide_eq_true_eq, isActive]
      exact wasActive

end Config

/-! ## Commands save sane configurations -/

section Commands

variable {setup : Setup} {file : PathBuf → PathBuf} {w : Machine}

/-- The hex of 16 bytes is read back. -/
theorem tenantIdBytes_encodeHex {m : Member} (id : Bytes 16)
    (hex : m.tenantIdHex = encodeHex id.toList) : m.tenantIdBytes = .ok id := by
  have bytes : utf8 (encodeHex id.toList) = id.toList.flatMap fun b => utf8 (hexByte b) := by
    rw [encodeHex, utf8_join, List.flatMap_map]
  have even : (utf8 (encodeHex id.toList)).length % 2 = 0 := by
    rw [bytes, List.length_flatMap]
    simp [utf8_hexByte]
  have plain : trim (encodeHex id.toList) = encodeHex id.toList := trim_eq (HeadCache.plain_hex id)
  have decoded : decodeHex (encodeHex id.toList) = .ok id.toList := by
    rw [decodeHex, plain, if_neg (not_not_intro even), bytes, parseHash_hex]
  have full : id.toList.toArray.size = 16 := by simp
  have whole : (⟨id.toList.toArray, full⟩ : Bytes 16) = id :=
    Vector.toArray_inj.mp (Array.toArray_toList ..)
  rw [Member.tenantIdBytes, hex, decoded]
  simp only [bind, Except.bind, dif_pos full, whole]

/-- The file holds a sane configuration. -/
def HoldsSane (setup : Setup) (w : Machine) : Prop :=
  ∃ config, Config.load setup.toml setup.root w.config = .ok config ∧ config.Sane

/-- A configuration that is read is sane. -/
def ReadsSane (setup : Setup) : (op : CliOp) → Answer op → Prop
  | .readConfig, answer => ∀ content config, answer = .ok content →
      Config.load setup.toml setup.root content = .ok config → config.Sane
  | _, _ => True

/-- A configuration that is written is sane. -/
def WritesSane (setup : Setup) : CliOp → Prop
  | .writeConfig text => ∃ config : Config, config.text setup.toml = .ok text ∧ config.Sane
  | _ => True

/-- A part of a command that writes sane configurations if it reads sane ones. -/
abbrev TrustsSane (setup : Setup) {α : Type} (returns : α → Prop) (p : CliM α) : Prop :=
  p.Trusts (ReadsSane setup) (WritesSane setup) returns

/-- A silent part writes nothing. -/
theorem trusts_silent {α : Type} {p : CliM α} (silent : p.Uses Silent) :
    TrustsSane setup (fun _ => True) p := by
  refine silent.trusts fun op quiet => ?_
  cases op with
  | writeConfig => exact quiet.elim
  | _ => exact trivial

/-- What is loaded is sane. -/
theorem trusts_loadConfig : TrustsSane setup Config.Sane (loadConfig setup) := by
  refine trusts_perform trivial fun answer sane => ?_
  cases answer with
  | error e => exact trusts_fail _
  | ok content => exact trusts_ofExcept fun config loaded => sane content config rfl loaded

/-- A sane configuration may be saved. -/
theorem trusts_saveConfig {config : Config} (sane : config.Sane) :
    TrustsSane setup (fun _ => True) (saveConfig setup config) := by
  refine (trusts_silent (silent_call _)).mapError.bind fun _ _ => ?_
  refine (trusts_ofExcept fun text written => written).bind fun text written => ?_
  refine Trusts.mapError (trusts_perform ⟨config, written, sane⟩ fun answer _ => ?_)
  exact trusts_silent (uses_ofAnswer answer)

/-- A part whose errors are ignored. -/
theorem trusts_ok {α : Type} {returns : α → Prop} {p : CliM α}
    (trusts : TrustsSane setup returns p) :
    TrustsSane setup (fun result => ∀ value, result = some value → returns value) (CliM.ok p) := by
  refine trusts.attempt.bind fun result meets => ?_
  match result with
  | .ok value => exact trusts_ret fun _ same => Option.some.inj same ▸ meets value rfl
  | .error (.err _) => exact trusts_ret fun _ same => nomatch same
  | .error .panic => exact trusts_fail _

/-- A value that is computed. -/
theorem trusts_pure {α : Type} (result : CliResult α) :
    TrustsSane setup (fun value => result = .ok value) (Program.ofExcept result : CliM α) :=
  trusts_ofExcept fun _ same => same

/-- The member that `init` adds has an id. -/
theorem trusts_initMember {config : Config} (sane : config.Sane) (a : InitArgs) (dim : UInt32) :
    TrustsSane setup (fun m => ∃ id, m.tenantIdBytes = .ok id) (initMember a dim config) := by
  unfold initMember
  split
  · refine (trusts_pure _).bind fun m isMember => trusts_ret ?_
    exact sane.ids m (List.mem_of_getElem? (Config.member_eq_ok.mp isMember))
  · refine trusts_perform trivial fun id _ => trusts_ret ?_
    exact ⟨id, tenantIdBytes_encodeHex id rfl⟩

/-- `init` trusts what it reads. -/
theorem trusts_init (a : InitArgs) : TrustsSane setup (fun _ => True) (cmdInit setup a) := by
  refine (trusts_silent (silent_readPassphrase _)).bind fun passphrase _ => ?_
  refine (trusts_silent (silent_call _)).bind fun _ _ => ?_
  have stores : TrustsSane setup (fun _ => True)
      (storeKey setup a.name (HansaKey.fromPassphrase setup.kdf passphrase (utf8 a.name))) := by
    refine trusts_perform trivial fun answer _ => ?_
    cases answer with
    | ok _ => exact trusts_ret trivial
    | error e => exact trusts_fail _
  refine stores.mapError.bind fun _ _ => ?_
  refine (trusts_silent (silent_buildEmbedder _ _)).mapError.bind fun dim _ => ?_
  refine trusts_loadConfig.bind fun config sane => ?_
  refine (trusts_initMember sane a dim).bind fun m known => ?_
  refine (trusts_saveConfig (sane.upsertActive known)).bind fun _ _ => ?_
  refine (trusts_silent (silent_openHandle m)).bind fun _ _ => ?_
  refine (trusts_silent (silent_call _)).mapError.bind fun _ _ => ?_
  exact trusts_silent (silent_call _)

/-- `use` trusts what it reads. -/
theorem trusts_use (a : UseArgs) : TrustsSane setup (fun _ => True) (cmdUse setup a) := by
  refine trusts_loadConfig.bind fun config sane => ?_
  refine (trusts_pure _).bind fun i _ => (trusts_pure _).bind fun m isMember => ?_
  exact trusts_saveConfig (sane.use (List.mem_of_getElem? (Config.member_eq_ok.mp isMember)))

/-- `leave` trusts what it reads. -/
theorem trusts_leave (a : LeaveArgs) : TrustsSane setup (fun _ => True) (cmdLeave setup a) := by
  refine trusts_loadConfig.bind fun config sane => ?_
  refine (trusts_pure _).bind fun i _ => (trusts_pure _).bind fun m _ => ?_
  refine (trusts_silent (silent_openHandle m)).bind fun _ _ => ?_
  refine (trusts_silent (silent_call _)).mapError.bind fun _ _ => ?_
  exact trusts_saveConfig (sane.remove m.hansa m.tenant)

/-- `remember` trusts what it reads. -/
theorem trusts_remember (a : RememberArgs) :
    TrustsSane setup (fun _ => True) (cmdRemember setup a) := by
  refine trusts_loadConfig.bind fun config sane => ?_
  refine (trusts_pure _).bind fun i _ => (trusts_pure _).bind fun m _ => ?_
  refine (trusts_silent (silent_openHandle m)).bind fun dir _ => ?_
  refine (trusts_silent (silent_buildEmbedder _ _)).bind fun _ _ => ?_
  refine (trusts_silent (silent_call _)).bind fun _ _ => ?_
  refine (trusts_pure _).bind fun allocated _ => ?_
  have inserts : TrustsSane setup (fun _ => True)
      (.perform (.insert dir allocated.1) CliM.ofAnswer) :=
    trusts_perform trivial fun answer _ => trusts_silent (uses_ofAnswer answer)
  refine inserts.mapError.bind fun _ _ => ?_
  refine (trusts_silent (silent_call _)).mapError.bind fun _ _ => ?_
  refine (trusts_saveConfig (sane.setNextRecordId i _)).bind fun _ _ => ?_
  exact trusts_silent (silent_call _)

/-- An ingestion starts from a sane configuration. -/
theorem trusts_openForIngest :
    TrustsSane setup (fun opened => opened.1.Sane) (openForIngest setup) := by
  refine trusts_loadConfig.bind fun config sane => ?_
  refine (trusts_pure _).bind fun i _ => (trusts_pure _).bind fun m _ => ?_
  refine (trusts_silent (silent_identity m)).bind fun identity _ => ?_
  refine (trusts_silent (silent_openTenant m _ _)).bind fun _ _ => ?_
  exact (trusts_silent (silent_buildEmbedder _ _)).bind fun _ _ => trusts_ret sane

/-- Ingesting writes no configuration. -/
theorem trusts_ingesting (dir : PathBuf) (start : UInt64) :
    TrustsSane setup (fun _ => True) (.perform (.ingest dir start) CliM.ofAnswer) :=
  trusts_perform trivial fun answer _ => trusts_silent (uses_ofAnswer answer)

/-- `ingest` trusts what it reads. -/
theorem trusts_ingest : TrustsSane setup (fun _ => True) (cmdIngest setup) := by
  refine trusts_openForIngest.bind fun opened sane => ?_
  refine (trusts_ingesting _ _).bind fun next _ => ?_
  refine (trusts_saveConfig (sane.setNextRecordId _ _)).bind fun _ _ => ?_
  refine (trusts_silent (silent_openHandle _)).bind fun _ _ => ?_
  exact trusts_silent (silent_call _)

/-- The report of `watch` trusts what it reads. -/
theorem trusts_saveNextId (hansa tenant : String) (next : UInt64) :
    TrustsSane setup (fun _ => True) (saveNextId setup hansa tenant next) := by
  have nothing : TrustsSane setup (fun _ => True) (pure ()) := trusts_ret trivial
  refine (trusts_ok trusts_loadConfig).bind fun loaded sane => ?_
  cases loaded with
  | none => exact nothing
  | some config =>
    have isSane := sane config rfl
    cases found : config.find hansa tenant with
    | none =>
      simp only [found]
      exact nothing
    | some i =>
      simp only [found]
      exact (trusts_ok (trusts_saveConfig (isSane.setNextRecordId i next))).bind
        fun _ _ => nothing

/-- `watch` trusts what it reads, for any number of reports. -/
theorem trusts_watch (reports : Nat) :
    TrustsSane setup (fun _ => True) (cmdWatch setup reports) := by
  refine trusts_openForIngest.bind fun opened _ => ?_
  obtain ⟨config, i, m, dir⟩ := opened
  show TrustsSane setup _ (watchTree dir (saveNextId setup m.hansa m.tenant) reports m.nextRecordId)
  generalize m.nextRecordId = next
  induction reports generalizing next with
  | zero => exact trusts_ret trivial
  | succ reports ih =>
    refine (trusts_ingesting dir next).bind fun next' _ => ?_
    exact (trusts_saveNextId _ _ _).bind fun _ _ => ih next'

/-- Every command trusts what it reads. -/
theorem trusts_run (command : Command) : TrustsSane setup (fun _ => True) (command.run setup) := by
  cases command with
  | init a => exact trusts_init a
  | use a => exact trusts_use a
  | leave a => exact trusts_leave a
  | remember a => exact trusts_remember a
  | ingest => exact trusts_ingest
  | watch reports => exact trusts_watch reports

/-- A sane configuration that is written, or not written at all, leaves one. -/
theorem HoldsSane.step (lawful : setup.toml.Lawful) {op : CliOp} {answer : Answer op} {w' : Machine}
    (writes : WritesSane setup op) (here : HoldsSane setup w)
    (done : PerformsWith file SavesWhole op w answer w') : HoldsSane setup w' := by
  obtain ⟨performs, whole⟩ := done
  have unchanged : w'.config = w.config → HoldsSane setup w' := by
    intro same
    obtain ⟨config, loaded, sane⟩ := here
    exact ⟨config, same ▸ loaded, sane⟩
  cases op with
  | readLine | randomTenantId | connect | call => exact unchanged (congrArg _ performs)
  | readConfig | readKey => exact unchanged (congrArg _ performs.1)
  | writeKey path text =>
    obtain ⟨after, -, rfl⟩ := performs
    exact unchanged rfl
  | insert dir id =>
    rcases performs with ⟨-, rfl⟩ | ⟨-, rfl | rfl⟩ <;> exact unchanged rfl
  | ingest dir start =>
    obtain ⟨n, -, rfl, -⟩ := performs
    exact unchanged rfl
  | writeConfig text =>
    rcases whole with same | written
    · exact unchanged same
    · obtain ⟨config, encoded, sane⟩ := writes
      exact ⟨config, written ▸ lawful.load_text setup.root encoded, sane⟩

/-- In every interleaving of any number of commands, each stopped anywhere, the configuration can
be loaded, lists every agent once, has an active agent that is listed if it lists any, and lets the
id of each agent be read, if it was so at first, no write of it breaks off, and no write overlaps
another or a load. -/
theorem roster_sane (lawful : setup.toml.Lawful) (begins : HoldsSane setup w)
    {labels : List (ProcessStep Command)} {last : Processes CliOp Answer CliFault Machine}
    (run : Run (Processes.Step (PerformsWith file SavesWhole) (Command.run setup))
      (Processes.idle w) labels last) :
    ∃ config, Config.load setup.toml setup.root last.state.config = .ok config ∧ config.Sane ∧
      (config.members ≠ [] → ∃ i, config.activeIndex = .ok i) := by
  have answers : ∀ u op answer v, HoldsSane setup u → PerformsWith file SavesWhole op u answer v →
      ReadsSane setup op answer := by
    intro u op answer v here done
    cases op with
    | readConfig =>
      rintro content config rfl loaded
      obtain ⟨config', loaded', sane⟩ := here
      obtain ⟨rfl, same | ⟨e, none_⟩⟩ := done.1
      · obtain rfl := Except.ok.inj same
        obtain rfl := Except.ok.inj (loaded.symm.trans loaded')
        exact sane
      · cases none_
    | _ => exact trivial
  obtain ⟨config, loaded, sane⟩ := Processes.holds_of_trusts begins trusts_run answers
    (fun u op answer v writes here done => here.step lawful writes done) run
  exact ⟨config, loaded, sane, sane.activeIndex⟩

/-- While one command makes the sample agent active again, another inserts a record and saves the
counter. The first one then undoes that, and the roster is sane all the same. -/
theorem roster_sane_sample : ∃ labels last config,
    Run (Processes.Step (PerformsWith id SavesWhole) (Command.run sampleSetup))
      (Processes.idle (sampleMachine "p" 0))
      ([.start (.use ⟨"a", none⟩), .start .ingest, .perform 0] ++ labels ++
        [.perform 0, .perform 0]) last ∧
    last.state.inserted sampleDir = [0] ∧ last.state.config = some (utf8 (sampleText 0)) ∧
    Config.load sampleToml sampleSetup.root last.state.config = .ok config ∧ config.Sane := by
  have begins : HoldsSane sampleSetup (sampleMachine "p" 0) := by
    refine ⟨sampleConfig 0, load_sample (.inl rfl), List.nodup_singleton _,
      .inr ⟨_, List.mem_cons_self, ?_⟩, fun m member => ?_⟩
    · decide
    · rw [List.mem_singleton.mp member]
      exact ⟨_, tenantIdBytes_sample 0⟩
  -- The first command loads the configuration.
  have loads : (Command.run sampleSetup (.use ⟨"a", none⟩)).Reaches (PerformsWith id SavesWhole) 1
      (sampleMachine "p" 0) (saveConfig sampleSetup (sampleConfig 0)) (sampleMachine "p" 0) := by
    have answered : PerformsWith id SavesWhole .readConfig (sampleMachine "p" 0)
        (.ok (sampleMachine "p" 0).config) (sampleMachine "p" 0) := ⟨⟨rfl, .inl rfl⟩, trivial⟩
    have loaded : (loadConfig sampleSetup).Reaches (PerformsWith id SavesWhole) 1
        (sampleMachine "p" 0) (.ret (sampleConfig 0)) (sampleMachine "p" 0) :=
      .next answered (reaches_ofExcept (load_sample (.inl rfl)) _)
    have isTarget : useTarget (sampleConfig 0) ⟨"a", none⟩ = .ok 0 := by decide
    have isMember : (sampleConfig 0).member 0 = .ok (sampleAgent 0) :=
      Config.member_eq_ok.mpr rfl
    exact loaded.bind (m := 0) ((reaches_ofExcept isTarget _).bind (m := 0)
      ((reaches_ofExcept isMember _).bind (m := 0) (.here _ _)))
  obtain ⟨n, rest, ingests⟩ := reaches_ingested
  have starts : Run (Processes.Step (PerformsWith id SavesWhole) (Command.run sampleSetup))
      (Processes.idle (sampleMachine "p" 0)) [.start (.use ⟨"a", none⟩), .start .ingest]
      ⟨[Command.run sampleSetup (.use ⟨"a", none⟩), Command.run sampleSetup .ingest],
        sampleMachine "p" 0⟩ :=
    (Run.nil.concat (.start _ _)).concat (.start _ _)
  have run := ((starts.append (Processes.run_process (p := 0) rfl loads)).append
    (Processes.run_process (p := 1) rfl ingests)).append
      (Processes.run_process (p := 0) rfl (reaches_saveConfig (.inl rfl) ingestedMachine))
  obtain ⟨config, loaded, sane, -⟩ := roster_sane sampleToml_lawful begins run
  exact ⟨_, _, config, run, rfl, rfl, loaded, sane⟩

end Commands

end Hansa.Cli
