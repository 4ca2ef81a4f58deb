import Hansa.Verif.CliInstance

/-!
# Whom a command can take its identity

The identity of an agent rests on its entry in the configuration and on the key file of its
hansa's name. A command run for another agent replaces the whole configuration, and `init`
writes the key file of the name it is given before anything else. The identity is kept by every
run of commands, one after the other and each left anywhere, in which no other key is written
into the agent's key file, no write breaks off inside a file, and no agent is removed whose
joined names are the agent's.
-/

namespace Hansa.Cli

open Program

variable {setup : Setup} {file : PathBuf → PathBuf} {hansa tenant hex : String} {key : HansaKey}
  {w : Machine}

/-- What `identity` and `tenant_dir` resolve for an agent of the configuration: the id of its
hansa, and the directory of its vault. -/
def Resolves (setup : Setup) (file : PathBuf → PathBuf) (w : Machine) (hansa tenant : String)
    (id : HansaId) (dir : PathBuf) : Prop :=
  ∃ config i m tenantId, Config.load setup.toml setup.root w.config = .ok config ∧
    config.find hansa tenant = some i ∧ config.members[i]? = some m ∧
    IsIdentity setup file w m (id, tenantId) ∧ dir = tenantDir setup.root m.tenant id

/-- The configuration lists an agent with a tenant id, and a key is stored for its hansa. -/
structure Held (setup : Setup) (file : PathBuf → PathBuf) (hansa tenant hex : String)
    (key : HansaKey) (w : Machine) : Prop where
  /-- The agent is listed. -/
  listed : ∃ config, Config.load setup.toml setup.root w.config = .ok config ∧
    config.idHex hansa tenant = some hex
  /-- The key is stored. -/
  stored : FileKeystore.load hansa (w.keys (file (setup.keystore.pathFor hansa))) = .ok key

/-- What is resolved depends on the listed tenant id and the stored key. -/
theorem resolves_iff {id : HansaId} {dir : PathBuf} :
    Resolves setup file w hansa tenant id dir ↔ ∃ m key tenantId,
      Held setup file hansa tenant m.tenantIdHex key w ∧ Member.tenantIdBytes m = .ok tenantId ∧
        id = setup.hansaId key ∧ dir = tenantDir setup.root tenant id := by
  constructor
  · rintro ⟨config, i, m, tenantId, loaded, found, there, ⟨key, stored, isId, known⟩, isDir⟩
    obtain ⟨m', there', rfl, rfl, isHex⟩ := Config.member_of_find found
    obtain rfl := Option.some.inj (there.symm.trans there')
    exact ⟨m, key, tenantId.bytes, ⟨⟨config, loaded, isHex⟩, stored⟩, known, isId, isDir⟩
  · rintro ⟨m, key, tenantId, ⟨⟨config, loaded, isHex⟩, stored⟩, known, isId, isDir⟩
    obtain ⟨i, found⟩ : ∃ i, config.find hansa tenant = some i := by
      obtain ⟨m', listed, -⟩ := Option.map_eq_some_iff.mp isHex
      rw [List.find?_eq_bind_findIdx?_getElem?] at listed
      obtain ⟨i, found, -⟩ := Option.bind_eq_some_iff.mp listed
      exact ⟨i, found⟩
    obtain ⟨m', there, rfl, rfl, isHex'⟩ := Config.member_of_find found
    have same : m.tenantIdHex = m'.tenantIdHex := Option.some.inj (isHex.symm.trans isHex')
    refine ⟨config, i, m', ⟨tenantId⟩, loaded, found, there, ⟨key, stored, isId, ?_⟩, isDir⟩
    rw [← known, Member.tenantIdBytes, Member.tenantIdBytes, same]

/-- An agent has one identity. -/
theorem Resolves.unique {id id' : HansaId} {dir dir' : PathBuf}
    (first : Resolves setup file w hansa tenant id dir)
    (second : Resolves setup file w hansa tenant id' dir') : id = id' ∧ dir = dir' := by
  obtain ⟨m, key, _, held, -, rfl, rfl⟩ := resolves_iff.mp first
  obtain ⟨m', key', _, held', -, rfl, rfl⟩ := resolves_iff.mp second
  obtain rfl := Except.ok.inj (held.stored.symm.trans held'.stored)
  exact ⟨rfl, rfl⟩

/-! ## Steps that spare an agent -/

/-- An operation writes the configuration whole or not at all, and into the key file of a hansa
nothing but, whole, the key that is there. -/
def Spares (setup : Setup) (file : PathBuf → PathBuf) (hansa : String) :
    CliOp → Machine → Machine → Prop
  | .writeConfig text, w, w' => w'.config = w.config ∨ w'.config = some (utf8 text)
  | .writeKey path text, w, w' => file path = file (setup.keystore.pathFor hansa) →
      w'.keys (file path) = w.keys (file path) ∨
        w'.keys (file path) = some (utf8 text) ∧
          ∃ key, FileKeystore.load hansa (w.keys (file path)) = .ok key ∧
            text = FileKeystore.content key
  | _, _, _ => True

/-- A command does not remove an agent whose joined names are the given ones. -/
def KeepsListed (setup : Setup) (hansa tenant : String) (w : Machine) : Command → Prop
  | .leave a => ∀ config i m, Config.load setup.toml setup.root w.config = .ok config →
      leaveTarget config a = .ok i → config.members[i]? = some m →
        Config.keyOf m.hansa m.tenant ≠ Config.keyOf hansa tenant
  | _ => True

/-- Operations that change neither the configuration nor a key. -/
def Quiet : CliOp → Prop
  | .writeConfig _ | .writeKey _ _ => False
  | _ => True

/-- A quiet operation keeps what is held. -/
theorem held_of_quiet (op : CliOp) (quiet : Quiet op) (w : Machine) (answer : Answer op)
    (w' : Machine) (held : Held setup file hansa tenant hex key w)
    (done : PerformsWith file (Spares setup file hansa) op w answer w') :
    Held setup file hansa tenant hex key w' := by
  cases op with
  | writeConfig | writeKey => exact quiet.elim
  | readLine | randomTenantId | connect | call | readConfig | readKey =>
    obtain rfl := eq_of_silent done trivial
    exact held
  | insert => rcases done.1 with ⟨-, rfl⟩ | ⟨-, rfl | rfl⟩ <;> exact ⟨held.listed, held.stored⟩
  | ingest =>
    obtain ⟨n, -, rfl, -⟩ := done.1
    exact ⟨held.listed, held.stored⟩

/-! ## Parts of commands -/

/-- A part of a command that spares the agent keeps what is held, and what it returns meets an
expectation. -/
abbrev KeepsHeld (setup : Setup) (file : PathBuf → PathBuf) (hansa tenant hex : String)
    (key : HansaKey) {α : Type} (returns : α → Prop) (p : CliM α) : Prop :=
  p.Keeps (PerformsWith file (Spares setup file hansa)) (Held setup file hansa tenant hex key)
    returns

/-- A quiet part keeps what is held. -/
theorem keeps_quiet {α : Type} {p : CliM α} (quiet : p.Uses Quiet) :
    KeepsHeld setup file hansa tenant hex key (fun _ => True) p :=
  keeps_of_uses quiet held_of_quiet

/-- Inserting a record is quiet. -/
theorem quiet_insert (dir : PathBuf) (id : UInt64) :
    (Program.perform (.insert dir id) CliM.ofAnswer : CliM Unit).Uses Quiet :=
  uses_perform trivial uses_ofAnswer

/-- Ingesting is quiet. -/
theorem quiet_ingest (dir : PathBuf) (start : UInt64) :
    (Program.perform (.ingest dir start) CliM.ofAnswer : CliM UInt64).Uses Quiet :=
  uses_perform trivial uses_ofAnswer

/-- A configuration that is loaded lists the agent. -/
theorem Held.lists (held : Held setup file hansa tenant hex key w) {config : Config}
    (loaded : Config.load setup.toml setup.root w.config = .ok config) :
    config.idHex hansa tenant = some hex := by
  obtain ⟨config', listed, isHex⟩ := held.listed
  obtain rfl := Except.ok.inj (loaded.symm.trans listed)
  exact isHex

/-- Loading keeps what is held. -/
theorem keeps_loadConfig : KeepsHeld setup file hansa tenant hex key
    (fun config => config.idHex hansa tenant = some hex) (loadConfig setup) :=
  keeps_of_reads (fun _ => reads_loadConfig) fun _ _ held loaded => held.lists loaded

/-- Saving a configuration that lists the agent keeps what is held. -/
theorem keeps_saveConfig (lawful : setup.toml.Lawful) {config : Config}
    (listed : config.idHex hansa tenant = some hex) :
    KeepsHeld setup file hansa tenant hex key (fun _ => True) (saveConfig setup config) := by
  refine (keeps_silent (silent_call _)).mapError.bind fun _ _ => ?_
  refine (keeps_pure _).bind fun text written => Keeps.mapError (keeps_perform ?_ fun answer => ?_)
  · rintro w answer w' held ⟨⟨after, -, rfl⟩, spares⟩
    refine ⟨?_, held.stored⟩
    rcases spares with same | whole
    · exact same ▸ held.listed
    · exact ⟨config, whole ▸ lawful.load_text setup.root written, listed⟩
  · exact keeps_silent (uses_ofAnswer answer)

/-- Storing a key keeps what is held. -/
theorem keeps_storeKey (slot : String) (key' : HansaKey) :
    KeepsHeld setup file hansa tenant hex key (fun _ => True) (storeKey setup slot key') := by
  refine keeps_perform ?_ fun answer => ?_
  · rintro w answer w' held ⟨⟨after, -, rfl⟩, spares⟩
    refine ⟨held.listed, ?_⟩
    by_cases same : file (setup.keystore.pathFor hansa) = file (setup.keystore.pathFor slot)
    · have stored := held.stored
      rw [same] at stored
      show FileKeystore.load hansa (Function.update w.keys _ after _) = .ok key
      rw [same, Function.update_self]
      rcases spares same.symm with kept | ⟨whole, known, isKnown, isText⟩
      · rwa [(Function.update_self ..).symm.trans kept]
      · obtain rfl := Except.ok.inj (stored.symm.trans isKnown)
        rw [(Function.update_self ..).symm.trans whole, isText, FileKeystore.load_content]
    · show FileKeystore.load hansa (Function.update w.keys _ after _) = .ok key
      rw [Function.update_of_ne same]
      exact held.stored
  · cases answer with
    | ok => exact keeps_ret trivial
    | error e => exact keeps_fail _

/-- The member that is added has the id of the one that is listed under its names. -/
theorem keeps_initMember (a : InitArgs) (dim : UInt32) (config : Config) :
    KeepsHeld setup file hansa tenant hex key (fun m => ∀ i m',
      config.find m.hansa m.tenant = some i → config.members[i]? = some m' →
        m'.tenantIdHex = m.tenantIdHex) (initMember a dim config) := by
  unfold initMember
  split
  · next i found =>
    refine (keeps_pure _).bind fun m isMember => keeps_ret ?_
    have there := Config.member_eq_ok.mp isMember
    obtain ⟨m', there', isHansa, isTenant, -⟩ := Config.member_of_find found
    obtain rfl := Option.some.inj (there.symm.trans there')
    intro j m'' found' there''
    rw [isHansa, isTenant, found] at found'
    obtain rfl := Option.some.inj found'
    rw [Option.some.inj (there''.symm.trans there)]
  · next absent =>
    refine (keeps_silent silent_random).bind fun tenantId _ => keeps_ret ?_
    exact fun i m' found => nomatch absent.symm.trans found

/-! ## Commands -/

/-- `init` keeps what is held. -/
theorem keeps_init (lawful : setup.toml.Lawful) (a : InitArgs) :
    KeepsHeld setup file hansa tenant hex key (fun _ => True) (cmdInit setup a) := by
  refine (keeps_silent (silent_readPassphrase _)).bind fun passphrase _ => ?_
  refine (keeps_silent (silent_call _)).bind fun _ _ => ?_
  refine (keeps_storeKey a.name _).mapError.bind fun _ _ => ?_
  refine (keeps_silent (silent_buildEmbedder _ _)).mapError.bind fun dim _ => ?_
  refine keeps_loadConfig.bind fun config listed => ?_
  refine (keeps_initMember a dim config).bind fun m own => ?_
  refine (keeps_saveConfig lawful (Config.idHex_upsertActive own listed)).bind fun _ _ => ?_
  exact keeps_silent ((silent_openHandle m).bind fun _ =>
    (silent_call _).mapError.bind fun _ => silent_call _)

/-- `use` keeps what is held. -/
theorem keeps_use (lawful : setup.toml.Lawful) (a : UseArgs) :
    KeepsHeld setup file hansa tenant hex key (fun _ => True) (cmdUse setup a) := by
  refine keeps_loadConfig.bind fun config listed => ?_
  refine (keeps_pure _).bind fun i _ => (keeps_pure _).bind fun m _ => ?_
  exact keeps_saveConfig lawful listed

/-- `leave` keeps what is held of agents whose joined names differ. -/
theorem safe_leave (lawful : setup.toml.Lawful) {a : LeaveArgs}
    (held : Held setup file hansa tenant hex key w)
    (differs : KeepsListed setup hansa tenant w (.leave a)) :
    (cmdLeave setup a).Safe (PerformsWith file (Spares setup file hansa))
      (Held setup file hansa tenant hex key) (fun _ _ => True) w := by
  refine reads_loadConfig.andThen held fun config loaded => ?_
  refine Reads.andThen (keeps_pure _) held fun i isTarget => ?_
  refine Reads.andThen (keeps_pure _) held fun m isMember => ?_
  refine Reads.andThen (keeps_silent (silent_openHandle m)) held fun _ _ => ?_
  refine Reads.andThen (keeps_silent (silent_call _).mapError) held fun _ _ => ?_
  refine (keeps_saveConfig lawful ?_).safe held
  rw [Config.idHex_remove
    (differs config i m loaded isTarget (Config.member_eq_ok.mp isMember))]
  exact held.lists loaded

/-- `remember` keeps what is held. -/
theorem keeps_remember (lawful : setup.toml.Lawful) (a : RememberArgs) :
    KeepsHeld setup file hansa tenant hex key (fun _ => True) (cmdRemember setup a) := by
  refine keeps_loadConfig.bind fun config listed => ?_
  refine (keeps_pure _).bind fun i _ => (keeps_pure _).bind fun m _ => ?_
  refine (keeps_silent (silent_openHandle m)).bind fun dir _ => ?_
  refine (keeps_silent (silent_buildEmbedder _ _)).bind fun _ _ => ?_
  refine (keeps_silent (silent_call _)).bind fun _ _ => (keeps_pure _).bind fun allocated _ => ?_
  refine (keeps_quiet (quiet_insert dir _).mapError).bind fun _ _ => ?_
  refine (keeps_silent (silent_call _).mapError).bind fun _ _ => ?_
  refine (keeps_saveConfig lawful ?_).bind fun _ _ => keeps_silent (silent_call _)
  rw [Config.idHex_setNextRecordId, listed]

/-- The configuration that an ingestion starts from lists the agent. -/
theorem keeps_openForIngest : KeepsHeld setup file hansa tenant hex key
    (fun opened => opened.1.idHex hansa tenant = some hex) (openForIngest setup) :=
  keeps_of_reads (fun _ => reads_openForIngest) fun _ _ held opened => held.lists opened.1

/-- `ingest` keeps what is held. -/
theorem keeps_ingest (lawful : setup.toml.Lawful) :
    KeepsHeld setup file hansa tenant hex key (fun _ => True) (cmdIngest setup) := by
  refine keeps_openForIngest.bind fun opened listed => ?_
  refine (keeps_quiet (quiet_ingest _ _)).bind fun next _ => ?_
  refine (keeps_saveConfig lawful ?_).bind fun _ _ => ?_
  · rw [Config.idHex_setNextRecordId, listed]
  · exact keeps_silent ((silent_openHandle _).bind fun _ => silent_call _)

/-- Saving the next free id keeps what is held. -/
theorem keeps_saveNextId (lawful : setup.toml.Lawful) (hansa' tenant' : String) (next : UInt64) :
    KeepsHeld setup file hansa tenant hex key (fun _ => True)
      (saveNextId setup hansa' tenant' next) := by
  refine (keeps_ok keeps_loadConfig).bind fun loaded expected => ?_
  cases loaded with
  | none => exact keeps_ret trivial
  | some config =>
    have listed := expected config rfl
    dsimp only
    split
    · exact keeps_ret trivial
    · next i _ =>
      refine (keeps_ok (keeps_saveConfig lawful ?_)).bind fun _ _ => keeps_ret trivial
      rw [Config.idHex_setNextRecordId, listed]

/-- `watch` keeps what is held. -/
theorem keeps_watch (lawful : setup.toml.Lawful) (reports : Nat) :
    KeepsHeld setup file hansa tenant hex key (fun _ => True) (cmdWatch setup reports) := by
  refine keeps_openForIngest.bind fun (_, _, member, dir) _ => ?_
  show Program.Keeps _ _ _
    (watchTree dir (saveNextId setup member.hansa member.tenant) reports member.nextRecordId)
  generalize member.nextRecordId = next
  induction reports generalizing next with
  | zero => exact keeps_ret trivial
  | succ reports ih =>
    refine (keeps_quiet (quiet_ingest _ _)).bind fun next' _ => ?_
    exact (keeps_saveNextId lawful _ _ next').bind fun _ _ => ih next'

/-- A command keeps what is held, unless it removes an agent with the same joined names. -/
theorem safe_run (lawful : setup.toml.Lawful) {command : Command}
    (held : Held setup file hansa tenant hex key w)
    (listed : KeepsListed setup hansa tenant w command) :
    (command.run setup).Safe (PerformsWith file (Spares setup file hansa))
      (Held setup file hansa tenant hex key) (fun _ _ => True) w := by
  cases command with
  | init a => exact (keeps_init lawful a).safe held
  | use a => exact (keeps_use lawful a).safe held
  | leave a => exact safe_leave lawful held listed
  | remember a => exact (keeps_remember lawful a).safe held
  | ingest => exact (keeps_ingest lawful).safe held
  | watch reports => exact (keeps_watch lawful reports).safe held

/-- Commands run one after the other, each left anywhere, keep the identity of an agent if they
store no other key in its key file, break off no write, and remove no agent with the same
joined names. -/
theorem identity_stable (lawful : setup.toml.Lawful) {id : HansaId} {dir : PathBuf}
    (resolves : Resolves setup file w hansa tenant id dir)
    {labels : List (ProcessStep Command)} {last : Processes CliOp Answer CliFault Machine}
    (run : Run (Processes.AloneStep (PerformsWith file (Spares setup file hansa))
      (Command.run setup) (KeepsListed setup hansa tenant)) (Processes.idle w) labels last) :
    Resolves setup file last.state hansa tenant id dir := by
  obtain ⟨m, key, tenantId, held, known, isId, isDir⟩ := resolves_iff.mp resolves
  have kept := Processes.holds_of_alone held
    (fun _ _ here listed => safe_run lawful here listed) run
  exact resolves_iff.mpr ⟨m, key, tenantId, kept, known, isId, isDir⟩

/-! ## A hansa name that is used again -/

/-- The agent is the one of the hansa whose key is stored. -/
theorem resolves_sample (passphrase : String) :
    Resolves sampleSetup id (sampleMachine passphrase 0) "t" "a" ⟨(sampleKey passphrase).bytes⟩
      (tenantDir sampleSetup.root "a" ⟨(sampleKey passphrase).bytes⟩) :=
  ⟨sampleConfig 0, 0, sampleAgent 0, ⟨Vector.replicate 16 7⟩, load_sample (.inl rfl), by decide,
    rfl, ⟨sampleKey passphrase, load_sampleKey passphrase 0, (hansaId_sample _).symm,
      tenantIdBytes_sample 0⟩, rfl⟩

/-- `init` for agent `b` of the hansa `t`. -/
def initOther (passphrase : String) : Command :=
  .init ⟨"t", "b", some passphrase, "stub", "mxbai-embed-large"⟩

/-- `init` for agent `b` stores the key of its passphrase. -/
theorem reaches_initOther {performs : (op : CliOp) → Machine → Answer op → Machine → Prop}
    {passphrase : String} {w w' : Machine} (calls : performs (.call .createRoot) w (.ok ()) w)
    (stores : performs (.writeKey (sampleSetup.keystore.pathFor "t")
      (FileKeystore.content (sampleKey passphrase))) w (.ok ()) w') :
    ∃ rest, ((initOther passphrase).run sampleSetup).Reaches performs 2 w rest w' :=
  ⟨_, .next calls (.next stores (.here _ _))⟩

/-- What storing a key does to the machine. -/
theorem performs_storeKey (old new : String) :
    Performs id (.writeKey (sampleSetup.keystore.pathFor "t")
      (FileKeystore.content (sampleKey new))) (sampleMachine old 0) (.ok ())
      (sampleMachine new 0) := by
  refine ⟨some (utf8 (FileKeystore.content (sampleKey new))), .inl ⟨rfl, rfl⟩, ?_⟩
  simp only [sampleMachine, id_eq, Function.update_idem]

/-- Another agent of the hansa, with the same passphrase, leaves the identity of the first. -/
theorem identity_stable_sample : ∃ labels last,
    Run (Processes.AloneStep (PerformsWith id (Spares sampleSetup id "t"))
        (Command.run sampleSetup) (KeepsListed sampleSetup "t" "a"))
      (Processes.idle (sampleMachine "p" 0)) (.start (initOther "p") :: labels) last ∧
    Resolves sampleSetup id last.state "t" "a" ⟨(sampleKey "p").bytes⟩
      (tenantDir sampleSetup.root "a" ⟨(sampleKey "p").bytes⟩) := by
  have stores : ∃ rest, ((initOther "p").run sampleSetup).Reaches
      (PerformsWith id (Spares sampleSetup id "t")) 2 (sampleMachine "p" 0) rest
      (sampleMachine "p" 0) :=
    reaches_initOther ⟨rfl, trivial⟩ ⟨performs_storeKey "p" "p", fun _ => .inl rfl⟩
  obtain ⟨rest, reaches⟩ := stores
  have may : KeepsListed sampleSetup "t" "a" (sampleMachine "p" 0) (initOther "p") := trivial
  have run := Processes.run_alone may reaches
  exact ⟨_, _, run, identity_stable sampleToml_lawful (resolves_sample "p") run⟩

/-- Initialising another agent of the hansa with another passphrase gives the first agent another
identity. -/
theorem reused_name_takes_over : Function.Injective sampleSetup.hansaId ∧
    Resolves sampleSetup id (sampleMachine "p" 0) "t" "a" ⟨(sampleKey "p").bytes⟩
      (tenantDir sampleSetup.root "a" ⟨(sampleKey "p").bytes⟩) ∧
    ∃ labels last, Run (Processes.AloneStep (Performs id) (Command.run sampleSetup) fun _ _ => True)
        (Processes.idle (sampleMachine "p" 0)) (.start (initOther "q") :: labels) last ∧
      ¬ Resolves sampleSetup id last.state "t" "a" ⟨(sampleKey "p").bytes⟩
        (tenantDir sampleSetup.root "a" ⟨(sampleKey "p").bytes⟩) := by
  refine ⟨fun key key' same => ?_, resolves_sample "p", ?_⟩
  · rw [hansaId_sample, hansaId_sample] at same
    cases key
    cases key'
    exact congrArg HansaKey.mk (HansaId.mk.inj same)
  · have stores : ∃ rest, ((initOther "q").run sampleSetup).Reaches (Performs id) 2
        (sampleMachine "p" 0) rest (sampleMachine "q" 0) :=
      reaches_initOther rfl (performs_storeKey "p" "q")
    obtain ⟨rest, reaches⟩ := stores
    refine ⟨_, _, Processes.run_alone trivial reaches, fun kept => ?_⟩
    have same := (kept.unique (resolves_sample "q")).1
    exact absurd same (by decide +kernel)

end Hansa.Cli
