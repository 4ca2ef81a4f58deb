import Hansa.Verif.CliInstance

/-!
# Whether record ids are used again

The counter of an agent is read with the whole configuration when a command starts and written
with it after the command has inserted its records. A command that starts before an insertion
is saved, or during which another one inserts or saves, numbers from an old counter and may set
the counter back. In every interleaving in which such a command neither inserts nor saves, and
in which no write of the configuration breaks off, the counter that is saved stays past all ids
in the vault, and no id is given to two records.
-/

namespace Hansa.Cli

open Program

/-! ## Consecutive ids -/

/-- Ids are counted without overflow. -/
theorem toNat_add_ofNat {start : UInt64} {i : Nat} (fits : start.toNat + i < 2 ^ 64) :
    (start + UInt64.ofNat i).toNat = start.toNat + i := by
  rw [UInt64.toNat_add, UInt64.toNat_ofNat', Nat.mod_eq_of_lt (by omega : i < 2 ^ 64),
    Nat.mod_eq_of_lt fits]

/-- An id in a row is between its ends. -/
theorem mem_consecutive {start id : UInt64} {n : Nat} (fits : start.toNat + n < 2 ^ 64) :
    id ∈ consecutive start n ↔ start.toNat ≤ id.toNat ∧ id.toNat < start.toNat + n := by
  rw [consecutive, List.mem_map]
  constructor
  · rintro ⟨i, inside, rfl⟩
    rw [List.mem_range] at inside
    rw [toNat_add_ofNat (by omega)]
    omega
  · rintro ⟨lower, upper⟩
    refine ⟨id.toNat - start.toNat, List.mem_range.mpr (by omega), UInt64.toNat_inj.mp ?_⟩
    rw [toNat_add_ofNat (by omega)]
    omega

/-- Ids in a row are distinct. -/
theorem nodup_consecutive {start : UInt64} {n : Nat} (fits : start.toNat + n < 2 ^ 64) :
    (consecutive start n).Nodup := by
  refine List.Nodup.map_on (fun i first j second same => ?_) List.nodup_range
  rw [List.mem_range] at first second
  have equal := congrArg UInt64.toNat same
  rw [toNat_add_ofNat (by omega), toNat_add_ofNat (by omega)] at equal
  omega

/-! ## The counter and the vault -/

variable {setup : Setup} {file : PathBuf → PathBuf} {w w' : Machine} {m m' : Member}
  {dir dir' : PathBuf} {next : UInt64} {i : Nat} {config : Config}

/-- The counter of the active agent is past all ids in its vault. -/
def Ahead (setup : Setup) (file : PathBuf → PathBuf) (w : Machine) : Prop :=
  ∀ config i m dir, Config.load setup.toml setup.root w.config = .ok config →
    config.activeIndex = .ok i → config.members[i]? = some m → VaultOf setup file w m dir →
      ∀ id ∈ w.inserted dir, id < m.nextRecordId

/-- No id was given to two records of a vault, and a configuration that was saved since the last
insertion is ahead. -/
structure Numbered (setup : Setup) (file : PathBuf → PathBuf) (w : Machine) : Prop where
  /-- The ids of a vault are distinct. -/
  distinct : ∀ dir, (w.inserted dir).Nodup
  /-- The counter is ahead when it was saved. -/
  ahead : w.unsaved = false → Ahead setup file w

/-- The vault of a member depends on its names and the keys. -/
theorem VaultOf.congr (vault : VaultOf setup file w m dir) (names : m.names = m'.names)
    (keys : w.keys = w'.keys) : VaultOf setup file w' m' dir := by
  obtain ⟨identity, ⟨key, stored, isId, known⟩, isDir⟩ := vault
  obtain ⟨isHansa, rest⟩ := Prod.ext_iff.mp names
  obtain ⟨isTenant, isHex⟩ := Prod.ext_iff.mp rest
  have sameHansa : m.hansa = m'.hansa := isHansa
  have sameTenant : m.tenant = m'.tenant := isTenant
  have sameHex : m.tenantIdHex = m'.tenantIdHex := isHex
  refine ⟨identity, ⟨key, ?_, isId, ?_⟩, ?_⟩
  · rw [← sameHansa, ← keys]
    exact stored
  · rw [← known, Member.tenantIdBytes, Member.tenantIdBytes, sameHex]
  · rw [← sameTenant]
    exact isDir

/-- A member has one vault. -/
theorem VaultOf.unique (first : VaultOf setup file w m dir) (second : VaultOf setup file w m dir') :
    dir = dir' := by
  obtain ⟨identity, ⟨key, stored, isId, -⟩, rfl⟩ := first
  obtain ⟨identity', ⟨key', stored', isId', -⟩, rfl⟩ := second
  obtain rfl := Except.ok.inj (stored.symm.trans stored')
  rw [isId, isId']

/-- A vault without records is numbered. -/
theorem numbered_of_empty (empty : ∀ dir, w.inserted dir = []) : Numbered setup file w := by
  refine ⟨fun dir => ?_, fun _ config i m dir _ _ _ _ id there => ?_⟩
  · rw [empty dir]
    exact List.nodup_nil
  · rw [empty dir] at there
    cases there

/-! ## A command that numbers records -/

/-- The configuration is written whole or not at all, in one step. -/
def SavesWhole : CliOp → Machine → Machine → Prop
  | .writeConfig text, w, w' => w'.config = w.config ∨ w'.config = some (utf8 text)
  | _, _, _ => True

/-- The commands that insert records, where the configuration was saved since the last
insertion. -/
def MayRecord (w : Machine) : Command → Prop
  | .remember _ | .ingest | .watch _ => w.unsaved = false
  | .init _ | .use _ | .leave _ => False

/-- The active agent of a configuration has an index and the names of a member. -/
def IsActive (config : Config) (i : Nat) (m : Member) : Prop :=
  config.activeIndex = .ok i ∧ ∃ m', config.members[i]? = some m' ∧ m'.names = m.names

/-- A command holds the next free id of its vault, and its agent is still the active one. -/
structure Recording (setup : Setup) (file : PathBuf → PathBuf) (i : Nat) (m : Member)
    (dir : PathBuf) (next : UInt64) (w : Machine) : Prop extends Numbered setup file w where
  /-- All ids in the vault are before the next one. -/
  past : ∀ id ∈ w.inserted dir, id < next
  /-- The vault is the one of the member. -/
  vault : VaultOf setup file w m dir
  /-- The agent is active. -/
  active : ∃ config, Config.load setup.toml setup.root w.config = .ok config ∧
    IsActive config i m

/-- An agent stays active when its counter is assigned. -/
theorem IsActive.setNextRecordId (active : IsActive config i m) (next : UInt64) :
    IsActive (config.setNextRecordId i next) i m := by
  obtain ⟨isIndex, m', there, names⟩ := active
  exact ⟨Config.activeIndex_setNextRecordId isIndex i next,
    { m' with nextRecordId := next }, Config.getElem?_setNextRecordId there next, names⟩

/-- A command that starts where the configuration was saved holds the next free id. -/
theorem Numbered.recording (numbered : Numbered setup file w) (saved : w.unsaved = false)
    (loaded : Config.load setup.toml setup.root w.config = .ok config)
    (isIndex : config.activeIndex = .ok i) (there : config.members[i]? = some m)
    (vault : VaultOf setup file w m dir) : Recording setup file i m dir m.nextRecordId w where
  toNumbered := numbered
  past := numbered.ahead saved config i m dir loaded isIndex there vault
  vault := vault
  active := ⟨config, loaded, isIndex, m, there, rfl⟩

/-- No record is inserted. -/
theorem insertRecords_zero (w : Machine) (dir : PathBuf) (start : UInt64) :
    w.insertRecords dir start 0 = w := by
  have none_ : consecutive start 0 = [] := rfl
  simp [Machine.insertRecords, none_]

/-- Records that are numbered from the next free id leave a next free id. -/
theorem Recording.insert (recording : Recording setup file i m dir next w) {n : Nat}
    (fits : next.toNat + n < 2 ^ 64) :
    Recording setup file i m dir (next + UInt64.ofNat n) (w.insertRecords dir next n) := by
  refine ⟨⟨fun d => ?_, fun saved => ?_⟩, fun id there => ?_, recording.vault.congr rfl rfl,
    recording.active⟩
  · by_cases here : d = dir
    · subst here
      show (Function.update w.inserted d _ d).Nodup
      rw [Function.update_self]
      refine List.nodup_append'.mpr ⟨recording.distinct d, nodup_consecutive fits, ?_⟩
      intro id old new
      have before := UInt64.lt_iff_toNat_lt.mp (recording.past id old)
      have behind := (mem_consecutive fits).mp new
      omega
    · show (Function.update w.inserted dir _ d).Nodup
      rw [Function.update_of_ne here]
      exact recording.distinct d
  · -- The configuration counts as saved only if nothing was inserted.
    obtain ⟨before, none_⟩ := Bool.or_eq_false_iff.mp saved
    obtain rfl : n = 0 := by simpa using none_
    rw [insertRecords_zero]
    exact recording.ahead before
  · rw [UInt64.lt_iff_toNat_lt, toNat_add_ofNat fits]
    rw [show (w.insertRecords dir next n).inserted dir = _ from Function.update_self ..] at there
    rcases List.mem_append.mp there with old | new
    · have before := UInt64.lt_iff_toNat_lt.mp (recording.past id old)
      omega
    · exact ((mem_consecutive fits).mp new).2

/-- A machine whose configuration lists the next free id. -/
theorem Recording.saved (recording : Recording setup file i m dir next w)
    (keys : w'.keys = w.keys) (inserted : w'.inserted = w.inserted)
    (loaded : Config.load setup.toml setup.root w'.config = .ok (config.setNextRecordId i next))
    (active : IsActive config i m) : Recording setup file i m dir next w' := by
  have vault : VaultOf setup file w' m dir := recording.vault.congr rfl keys.symm
  refine ⟨⟨fun d => ?_, fun _ config' i' m' dir' loaded' isIndex there vault' id member => ?_⟩,
    fun id member => ?_, vault, _, loaded, active.setNextRecordId next⟩
  · rw [inserted]
    exact recording.distinct d
  · obtain rfl := Except.ok.inj (loaded.symm.trans loaded')
    obtain ⟨isActive, named, there₀, names⟩ := active
    -- The active member is the one whose counter was assigned, and its vault is the command's.
    obtain rfl := Except.ok.inj
      ((Config.activeIndex_setNextRecordId isActive i next).symm.trans isIndex)
    obtain rfl := Option.some.inj ((Config.getElem?_setNextRecordId there₀ next).symm.trans there)
    obtain rfl := (vault'.congr names rfl).unique vault
    rw [inserted] at member
    exact recording.past id member
  · rw [inserted] at member
    exact recording.past id member

/-! ## Parts of commands -/

/-- A part of a command keeps the vaults numbered wherever it is left. -/
abbrev StaysNumbered (setup : Setup) (file : PathBuf → PathBuf) (w : Machine) {α : Type}
    (p : CliM α) : Prop :=
  p.Safe (PerformsWith file SavesWhole) (Numbered setup file) (fun _ _ => True) w

/-- What keeps the next free id keeps the vault numbered. -/
theorem Recording.safe {α : Type} {p : CliM α} (recording : Recording setup file i m dir next w)
    (keeps : p.Keeps (PerformsWith file SavesWhole) (Recording setup file i m dir next)
      fun _ => True) :
    StaysNumbered setup file w p :=
  (keeps.safe recording).weaken fun _ recording => recording.toNumbered

/-- Loading keeps the next free id, and the agent is active in what is loaded. -/
theorem keeps_loadActive : (loadConfig setup).Keeps (PerformsWith file SavesWhole)
    (Recording setup file i m dir next) (fun config => IsActive config i m) := by
  refine keeps_of_reads (fun _ => reads_loadConfig) fun w config recording loaded => ?_
  obtain ⟨config', listed, active⟩ := recording.active
  obtain rfl := Except.ok.inj (loaded.symm.trans listed)
  exact active

/-- Saving the next free id keeps it. -/
theorem keeps_saveNext (lawful : setup.toml.Lawful) (active : IsActive config i m) :
    (saveConfig setup (config.setNextRecordId i next)).Keeps (PerformsWith file SavesWhole)
      (Recording setup file i m dir next) (fun _ => True) := by
  refine (keeps_silent (silent_call _)).mapError.bind fun _ _ => ?_
  refine (keeps_pure _).bind fun text written => Keeps.mapError (keeps_perform ?_ fun answer => ?_)
  · rintro w answer w' recording ⟨⟨after, writes, rfl⟩, whole⟩
    have loaded := lawful.load_text setup.root written
    rcases writes with ⟨-, wrote⟩ | ⟨⟨e, rfl⟩, -⟩
    · exact recording.saved rfl rfl (wrote ▸ loaded) active
    · rcases whole with same | wrote
      · obtain rfl : after = w.config := same
        show Recording _ _ _ _ _ _ { w with unsaved := w.unsaved && true }
        rw [Bool.and_true]
        exact recording
      · exact recording.saved rfl rfl (wrote ▸ loaded) active
  · exact keeps_silent (uses_ofAnswer answer)

/-- The report of a watch keeps the next free id. -/
theorem keeps_report (lawful : setup.toml.Lawful) :
    (saveNextId setup m.hansa m.tenant next).Keeps (PerformsWith file SavesWhole)
      (Recording setup file i m dir next) (fun _ => True) := by
  refine (keeps_ok keeps_loadActive).bind fun loaded expected => ?_
  cases loaded with
  | none => exact keeps_ret trivial
  | some config =>
    obtain ⟨isIndex, m', there, names⟩ := expected config rfl
    have found := Config.find_of_activeIndex isIndex there
    rw [show m'.hansa = m.hansa from congrArg Prod.fst names,
      show m'.tenant = m.tenant from congrArg (·.2.1) names] at found
    dsimp only
    rw [found]
    exact (keeps_ok (keeps_saveNext lawful ⟨isIndex, m', there, names⟩)).bind fun _ _ =>
      keeps_ret trivial

/-- Inserting a record keeps the vault numbered, and leaves the next free id. -/
theorem safe_insert (recording : Recording setup file i m dir next w)
    (fits : next.toNat + 1 < 2 ^ 64) (text : String) :
    (CliM.context text (.perform (.insert dir next) CliM.ofAnswer)).Safe
      (PerformsWith file SavesWhole) (Numbered setup file)
      (fun result w' => ∀ value, result = .ok value →
        Recording setup file i m dir (next + 1) w') w := by
  have inserted := recording.insert fits
  refine Safe.mapError (safe_perform recording.toNumbered ?_)
  rintro answer w' ⟨⟨rfl, rfl⟩ | ⟨⟨e, rfl⟩, rfl | rfl⟩, -⟩
  · exact safe_ret inserted.toNumbered fun _ _ => inserted
  · exact safe_fail recording.toNumbered fun _ same => nomatch same
  · exact safe_fail inserted.toNumbered fun _ same => nomatch same

/-- Ingesting keeps the vault numbered, and leaves the next free id. -/
theorem safe_ingest (recording : Recording setup file i m dir next w) :
    (Program.perform (.ingest dir next) CliM.ofAnswer : CliM UInt64).Safe
      (PerformsWith file SavesWhole) (Numbered setup file)
      (fun result w' => ∀ next', result = .ok next' →
        Recording setup file i m dir next' w') w := by
  refine safe_perform recording.toNumbered ?_
  rintro answer w' ⟨⟨n, fits, rfl, rfl | ⟨e, rfl⟩⟩, -⟩
  · refine safe_ret (recording.insert fits).toNumbered fun next' same => ?_
    obtain rfl := Except.ok.inj same
    exact recording.insert fits
  · exact safe_fail (recording.insert fits).toNumbered fun _ same => nomatch same

/-! ## Commands -/

/-- `remember` keeps the vault numbered. -/
theorem safe_remember (lawful : setup.toml.Lawful) (a : RememberArgs)
    (numbered : Numbered setup file w) (saved : w.unsaved = false) :
    StaysNumbered setup file w (cmdRemember setup a) := by
  refine reads_loadConfig.andThen numbered fun config loaded => ?_
  refine Reads.andThen (keeps_pure _) numbered fun i isIndex => ?_
  refine Reads.andThen (keeps_pure _) numbered fun m isMember => ?_
  refine (reads_openHandle m).andThen numbered fun dir vault => ?_
  refine Reads.andThen (keeps_silent (silent_buildEmbedder _ _)) numbered fun _ _ => ?_
  refine Reads.andThen (keeps_silent (silent_call _)) numbered fun _ _ => ?_
  have there := Config.member_eq_ok.mp isMember
  have recording := numbered.recording saved loaded isIndex there vault
  refine Reads.andThen (keeps_pure _) numbered fun (id, m') allocated => ?_
  obtain ⟨rfl, rfl⟩ := Member.allocRecordId_eq_ok allocated
  have range := lawful.range_load loaded (List.mem_of_getElem? there)
  refine (safe_insert recording (by omega) _).andThen fun _ w' recording' => ?_
  refine recording'.safe ((keeps_silent (silent_call _).mapError).bind fun _ _ => ?_)
  exact (keeps_saveNext lawful ⟨isIndex, m, there, rfl⟩).bind fun _ _ =>
    keeps_silent (silent_call _)

/-- What follows the opening of an ingestion starts with the next free id. -/
theorem safe_openForIngest (numbered : Numbered setup file w) (saved : w.unsaved = false)
    {rest : Config × Nat × Member × PathBuf → CliM Unit}
    (safe : ∀ config i m dir, IsActive config i m →
      Recording setup file i m dir m.nextRecordId w →
        StaysNumbered setup file w (rest (config, i, m, dir))) :
    StaysNumbered setup file w (openForIngest setup >>= rest) := by
  refine reads_openForIngest.andThen numbered fun (config, i, m, dir) opened => ?_
  obtain ⟨loaded, isIndex, isMember, vault⟩ := opened
  have there := Config.member_eq_ok.mp isMember
  exact safe config i m dir ⟨isIndex, m, there, rfl⟩
    (numbered.recording saved loaded isIndex there vault)

/-- `ingest` keeps the vault numbered. -/
theorem safe_cmdIngest (lawful : setup.toml.Lawful) (numbered : Numbered setup file w)
    (saved : w.unsaved = false) : StaysNumbered setup file w (cmdIngest setup) := by
  refine safe_openForIngest numbered saved fun config i m dir active recording => ?_
  refine (safe_ingest recording).andThen fun next w' ingested => ?_
  refine ingested.safe ((keeps_saveNext lawful active).bind fun _ _ => ?_)
  exact keeps_silent ((silent_openHandle _).bind fun _ => silent_call _)

/-- Reports between the ingestions of a watch keep the vault numbered. -/
theorem safe_watchTree (lawful : setup.toml.Lawful) (reports : Nat)
    (recording : Recording setup file i m dir next w) :
    StaysNumbered setup file w
      (watchTree dir (saveNextId setup m.hansa m.tenant) reports next) := by
  induction reports generalizing next w with
  | zero => exact safe_ret recording.toNumbered trivial
  | succ reports ih =>
    refine (safe_ingest recording).andThen fun next' w' ingested => ?_
    exact (keeps_report lawful).andThen (fun _ recording => recording.toNumbered) ingested
      fun _ _ reported _ => ih reported

/-- `watch` keeps the vault numbered. -/
theorem safe_watch (lawful : setup.toml.Lawful) (reports : Nat) (numbered : Numbered setup file w)
    (saved : w.unsaved = false) : StaysNumbered setup file w (cmdWatch setup reports) :=
  safe_openForIngest numbered saved fun _ _ _ _ _ recording =>
    safe_watchTree lawful reports recording

/-- A command that inserts records keeps the vault numbered, where it may start. -/
theorem safe_record (lawful : setup.toml.Lawful) {command : Command}
    (numbered : Numbered setup file w) (may : MayRecord w command) :
    StaysNumbered setup file w (command.run setup) := by
  cases command with
  | init | use | leave => exact may.elim
  | remember a => exact safe_remember lawful a numbered may
  | ingest => exact safe_cmdIngest lawful numbered may
  | watch reports => exact safe_watch lawful reports numbered may

/-- Commands in any interleaving give no id to two records of a vault if no write of the
configuration breaks off and only a command that is up to date inserts or saves: it started when
the configuration was saved since the last insertion, and no other command inserted or saved
since. -/
theorem ids_never_reused (lawful : setup.toml.Lawful) (numbered : Numbered setup file w)
    {labels : List (ProcessStep Command)}
    {last : Processes.Tracked CliOp Answer CliFault Machine}
    (run : Run (Processes.CurrentStep (PerformsWith file SavesWhole) (Command.run setup) MayRecord)
      (Processes.Tracked.idle w) labels last) (dir : PathBuf) :
    (last.state.inserted dir).Nodup :=
  (Processes.holds_of_current numbered
    (fun _ _ numbered may => safe_record lawful numbered may) run).distinct dir

/-! ## An ingestion that fails after its first record -/

/-- The vault of the agent. -/
def sampleDir : PathBuf := tenantDir sampleSetup.root "a" ⟨(sampleKey "p").bytes⟩

/-- The sample agent, before an ingestion inserts its next record. -/
def sampleIngest (next : UInt64) : CliM Unit := do
  let after ← .perform (.ingest sampleDir next) CliM.ofAnswer
  saveConfig sampleSetup ((sampleConfig next).setNextRecordId 0 after)
  let _ ← openHandle sampleSetup (sampleAgent next)
  CliM.call (.refreshSaga [])

/-- An ingestion for the agent comes to its vault. -/
theorem reaches_ingest {performs : (op : CliOp) → Machine → Answer op → Machine → Prop}
    {next : UInt64} (known : next = 0 ∨ next = 1)
    (config : w.config = (sampleMachine "p" next).config)
    (keys : w.keys = (sampleMachine "p" next).keys)
    (silent : ∀ op answer, Silent op → Performs id op w answer w → performs op w answer w) :
    (Command.ingest.run sampleSetup).Reaches performs 3 w (sampleIngest next) w := by
  have loads : (loadConfig sampleSetup).Reaches performs 1 w (.ret (sampleConfig next)) w := by
    refine .next (silent .readConfig (.ok w.config) trivial ⟨rfl, .inl rfl⟩) ?_
    exact reaches_ofExcept (by rw [config]; exact load_sample known) w
  have derives : (identity sampleSetup (sampleAgent next)).Reaches performs 1 w
      (.ret (⟨(sampleKey "p").bytes⟩, ⟨Vector.replicate 16 7⟩)) w := by
    have key : (loadKey sampleSetup "t").Reaches performs 1 w (.ret (sampleKey "p")) w := by
      refine .next (silent (.readKey (sampleSetup.keystore.pathFor "t"))
        (.ok (w.keys (sampleSetup.keystore.pathFor "t"))) trivial ⟨rfl, .inl rfl⟩) ?_
      refine reaches_ofExcept ?_ w
      rw [keys, load_sampleKey]
      rfl
    refine key.mapError.bind (m := 0) ?_
    refine (reaches_ofExcept (tenantIdBytes_sample next) w).bind (m := 0) ?_
    rw [← hansaId_sample]
    exact .here _ w
  have opens : (openTenant (sampleAgent next) sampleDir ⟨Vector.replicate 16 7⟩).Reaches performs
      1 w (.ret ()) w :=
    Reaches.mapError (.next (silent (.call _) (.ok ()) trivial rfl) (.here _ w))
  have opened : (openForIngest sampleSetup).Reaches performs 3 w
      (.ret (sampleConfig next, 0, sampleAgent next, sampleDir)) w := by
    have isIndex : (sampleConfig next).activeIndex = .ok 0 := rfl
    refine loads.bind (m := 2) ((reaches_ofExcept isIndex w).bind (m := 2) ?_)
    refine (reaches_ofExcept (Config.member_eq_ok.mpr rfl) w).bind (m := 2) ?_
    exact derives.bind (m := 1) (opens.bind (m := 0) (.here _ w))
  exact opened.bind (m := 0) (.here _ w)

/-- The configuration of the agent is saved. -/
theorem reaches_saveConfig {next : UInt64} (known : next = 0 ∨ next = 1) (w : Machine) :
    (saveConfig sampleSetup (sampleConfig next)).Reaches (PerformsWith id SavesWhole) 2 w (.ret ())
      { w with config := some (utf8 (sampleText next)), unsaved := false } := by
  have called : PerformsWith id SavesWhole (.call .createRoot) w (.ok ()) w := ⟨rfl, trivial⟩
  have created : (CliM.call .createRoot).Reaches (PerformsWith id SavesWhole) 1 w (.ret ()) w :=
    .next called (.here _ _)
  have written : PerformsWith id SavesWhole (.writeConfig (sampleText next)) w (.ok ())
      { w with config := some (utf8 (sampleText next)), unsaved := false } :=
    ⟨⟨_, .inl ⟨rfl, rfl⟩, by simp [Except.toBool]⟩, .inr rfl⟩
  have wrote : (Program.perform (.writeConfig (sampleText next)) CliM.ofAnswer : CliM Unit).Reaches
      (PerformsWith id SavesWhole) 1 w (.ret ()) _ := .next written (.here _ _)
  exact created.mapError.bind (m := 1)
    ((reaches_ofExcept (text_sample known) w).bind (m := 1) wrote.mapError)

/-- Where the configuration is written whole, silent operations are performed as ever. -/
theorem performsWith_of_silent (op : CliOp) (answer : Answer op) (quiet : Silent op)
    (done : Performs id op w answer w) : PerformsWith id SavesWhole op w answer w := by
  refine ⟨done, ?_⟩
  cases op with
  | writeConfig => exact quiet.elim
  | _ => trivial

/-- The machine after an ingestion of one record. -/
def ingestedMachine : Machine :=
  { (sampleMachine "p" 0).insertRecords sampleDir 0 1 with
    config := some (utf8 (sampleText 1))
    unsaved := false }

/-- The first ingestion of one record inserts it and saves the counter. -/
theorem reaches_ingested : ∃ n rest, (Command.ingest.run sampleSetup).Reaches
    (PerformsWith id SavesWhole) n (sampleMachine "p" 0) rest ingestedMachine := by
  have begins := reaches_ingest (w := sampleMachine "p" 0) (.inl rfl) rfl rfl
    performsWith_of_silent
  have inserts : PerformsWith id SavesWhole (.ingest sampleDir 0) (sampleMachine "p" 0)
      (.ok (0 + UInt64.ofNat 1)) ((sampleMachine "p" 0).insertRecords sampleDir 0 1) :=
    ⟨⟨1, by decide, rfl, .inl rfl⟩, trivial⟩
  have inserted : (sampleIngest 0).Reaches (PerformsWith id SavesWhole) (1 + (2 + 0))
      (sampleMachine "p" 0)
      (openHandle sampleSetup (sampleAgent 0) >>= fun _ => CliM.call (.refreshSaga []))
      ingestedMachine := by
    refine Reaches.bind (.next inserts (.here _ _)) ?_
    exact (reaches_saveConfig (.inr rfl) _).bind (.here _ _)
  exact ⟨_, _, begins.append inserted⟩

/-- Two ingestions insert one record each, with the first two ids. -/
theorem ids_never_reused_sample : ∃ labels labels' last,
    Run (Processes.CurrentStep (PerformsWith id SavesWhole) (Command.run sampleSetup) MayRecord)
      (Processes.Tracked.idle (sampleMachine "p" 0))
      (.start .ingest :: labels ++ .start .ingest :: labels') last ∧
    last.state.inserted sampleDir = [0, 1] ∧ ∀ dir, (last.state.inserted dir).Nodup := by
  obtain ⟨n, rest, reaches⟩ := reaches_ingested
  have may : MayRecord (sampleMachine "p" 0) .ingest := rfl
  have first := (Processes.run_current may reaches).concat (.stop _ 0)
  have begins := reaches_ingest (w := ingestedMachine) (.inr rfl) rfl rfl performsWith_of_silent
  have inserts : PerformsWith id SavesWhole (.ingest sampleDir 1) ingestedMachine
      (.ok (1 + UInt64.ofNat 1)) (ingestedMachine.insertRecords sampleDir 1 1) :=
    ⟨⟨1, by decide, rfl, .inl rfl⟩, trivial⟩
  have may' : MayRecord ingestedMachine .ingest := rfl
  have second := Processes.run_current may'
    (begins.append (Reaches.next inserts (.here _ _)))
  have run := first.append second
  refine ⟨_, _, _, run, ?_, ids_never_reused sampleToml_lawful (numbered_of_empty fun _ => rfl) run⟩
  simp [ingestedMachine, Machine.insertRecords, sampleMachine, consecutive]

/-- An ingestion that fails behind its first record leaves the counter, and the next one gives
its id to another record. -/
theorem failed_ingest_reuses : sampleSetup.toml.Lawful ∧ ∃ labels last,
    Run (Processes.Step (Performs id) (Command.run sampleSetup))
      (Processes.idle (sampleMachine "p" 0)) (.start .ingest :: labels) last ∧
    last.state.inserted sampleDir = [0, 0] ∧ ¬ (last.state.inserted sampleDir).Nodup := by
  refine ⟨sampleToml_lawful, ?_⟩
  have fails : ∀ w, Performs id (.ingest sampleDir 0) w (.error "embed")
      (w.insertRecords sampleDir 0 1) := fun w => ⟨1, by decide, rfl, .inr ⟨_, rfl⟩⟩
  have inserts : ∀ w, w.config = (sampleMachine "p" 0).config →
      w.keys = (sampleMachine "p" 0).keys → ∃ n rest, (Command.ingest.run sampleSetup).Reaches
        (Performs id) n w rest (w.insertRecords sampleDir 0 1) := by
    intro w config keys
    have begins := reaches_ingest (.inl rfl) config keys fun _ _ _ done => done
    exact ⟨_, _, begins.append (.next (fails w) (.here _ _))⟩
  obtain ⟨n, rest, first⟩ := inserts (sampleMachine "p" 0) rfl rfl
  obtain ⟨n', rest', second⟩ := inserts ((sampleMachine "p" 0).insertRecords sampleDir 0 1) rfl rfl
  have run : Run (Processes.AloneStep (Performs id) (Command.run sampleSetup) fun _ _ => True)
      _ _ _ := (Processes.run_alone trivial first).append (Processes.run_alone trivial second)
  have both : (((sampleMachine "p" 0).insertRecords sampleDir 0 1).insertRecords sampleDir 0
      1).inserted sampleDir = [0, 0] := by
    simp [Machine.insertRecords, sampleMachine, consecutive]
  refine ⟨_, _, run.mono fun _ _ _ taken => taken.step, both, ?_⟩
  show ¬ List.Nodup (Machine.inserted (Machine.insertRecords _ sampleDir 0 1) sampleDir)
  rw [both]
  decide

end Hansa.Cli
