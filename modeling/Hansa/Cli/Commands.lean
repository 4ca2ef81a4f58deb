import Hansa.Cli.Machine

/-!
# The commands

`init` derives the key of a hansa from a passphrase, stores it under the name of the hansa,
and adds an agent; every other command derives the identity of its agent again from the key
that is stored there. `remember`, `ingest` and `watch` number the records they insert from the
counter of the active agent, in the configuration they loaded, and save the counter afterwards.
-/

namespace Hansa.Cli

/-- What the commands depend on besides their arguments. -/
structure Setup where
  /-- `Config::root`, the directory `.hansa`. -/
  root : PathBuf
  /-- The encoding of the configuration. -/
  toml : ConfigToml
  /-- The key derivation. -/
  kdf : KeyDerivation
  /-- The primitives of the federation. -/
  crypto : Crypto
  /-- The build. -/
  profile : Profile

/-! ## Operations -/

namespace CliM

/-- An operation whose error is one of the operating system or another crate. -/
def ofAnswer {α : Type} : Except String α → CliM α
  | .ok value => .ret value
  | .error e => .fail (.err (.other e))

/-- A call that leaves the files of the command line alone. -/
def call (c : Call) : CliM Unit := .perform (.call c) ofAnswer

/-- A context for the errors of a part of a command. -/
def context {α : Type} (text : String) (p : CliM α) : CliM α := p.mapError (·.inContext text)

/-- `if let Ok(value) = ..`: a panic is not caught. -/
def ok {α : Type} (p : CliM α) : CliM (Option α) := do
  match ← p.attempt with
  | .ok value => pure (some value)
  | .error (.err _) => pure none
  | .error .panic => .fail .panic

end CliM

open CliM

/-- `read_passphrase`. -/
def readPassphrase : Option String → CliM String
  | some passphrase => pure passphrase
  | none => do
    let line ← context "read passphrase" (.perform .readLine ofAnswer)
    if trim line = "" then .ofExcept (bail "passphrase cannot be empty")
    else pure (trim line)

/-- `InitArgs`. -/
structure InitArgs where
  /-- Name of the hansa. -/
  name : String
  /-- Name of the agent. -/
  tenant : String
  /-- Shared passphrase. -/
  passphrase : Option String
  /-- Embedding endpoint. -/
  embedUrl : String
  /-- Embedding model. -/
  embedModel : String

/-- `UseArgs`. -/
structure UseArgs where
  /-- The agent to make active. -/
  tenant : String
  /-- Its hansa, when the name is not unique. -/
  name : Option String

/-- `LeaveArgs`. -/
structure LeaveArgs where
  /-- The agent to remove; the active one by default. -/
  tenant : Option String
  /-- Its hansa, when the name is not unique. -/
  name : Option String

/-- `RememberArgs`; whether the record is shared is not read here. -/
structure RememberArgs where
  /-- The memory text. -/
  text : String
  /-- Tags. -/
  tags : List String

/-- `STUB_DIM`: dimension of the stub embedder. -/
def stubDim : UInt32 := 64

/-- `build_embedder`, by the dimension of the embedder. -/
def buildEmbedder (url model : String) : CliM UInt32 :=
  if url = "stub" then pure stubDim
  else context "connect embedder" (.perform (.connect url model) ofAnswer)

/-- `tenant_dir`. -/
def tenantDir (root : PathBuf) (tenant : String) (id : HansaId) : PathBuf :=
  (root.join id.asHex).join ("tenant-" ++ tenant)

/-! ## The configuration and the keys -/

section Parts

variable (setup : Setup)

/-- The key files. -/
def Setup.keystore : FileKeystore := ⟨setup.root.join "keys"⟩

/-- `Config::load`. -/
def loadConfig : CliM Config :=
  .perform .readConfig fun
    | .ok file => .ofExcept (Config.load setup.toml setup.root file)
    | .error e =>
      .fail (.err (.context ("read " ++ (Config.path setup.root).toStringLossy) (.other e)))

/-- `Config::save`. -/
def saveConfig (config : Config) : CliM Unit := do
  context ("create " ++ setup.root.toStringLossy) (call .createRoot)
  let text ← .ofExcept (config.text setup.toml)
  context "write cli.toml" (.perform (.writeConfig text) ofAnswer)

/-- `FileKeystore::load`. -/
def loadKey (slot : String) : CliM HansaKey :=
  .perform (.readKey (setup.keystore.pathFor slot)) fun
    | .ok file => .ofExcept (ofResult (FileKeystore.load slot file))
    | .error e => .fail (.err (.hansa (.io e)))

/-- The skipper and the id that a key stands for. -/
def Setup.hansaId (key : HansaKey) : HansaId :=
  HansaId.fromSkipper setup.crypto ((Skipper.fromHansaKey setup.kdf key).pub setup.crypto)

/-- `identity`, by the id of the hansa and the id of the tenant. -/
def identity (m : Member) : CliM (HansaId × TenantId) := do
  let key ← context ("load key for hansa '" ++ m.hansa ++ "'") (loadKey setup m.hansa)
  let tenantId ← .ofExcept m.tenantIdBytes
  pure (setup.hansaId key, ⟨tenantId⟩)

/-- `Tenant::open` of an agent's vault. -/
def openTenant (m : Member) (dir : PathBuf) (tenantId : TenantId) : CliM Unit :=
  context ("open vault " ++ dir.toStringLossy) (call (.openVault dir tenantId m.dim))

/-- `open_handle`, by the directory of the vault. -/
def openHandle (m : Member) : CliM PathBuf := do
  let (id, tenantId) ← identity setup m
  let dir := tenantDir setup.root m.tenant id
  openTenant m dir tenantId
  call (.openHansa id tenantId dir)
  pure dir

/-! ## `init`, `use` and `leave` -/

/-- The member that `cmd_init` adds: the one that exists, with its identity and counter, or a
new one. -/
def initMember (a : InitArgs) (dim : UInt32) (config : Config) : CliM Member :=
  match config.find a.name a.tenant with
  | some i => do
    let m ← .ofExcept (config.member i)
    pure { m with embedUrl := a.embedUrl, embedModel := a.embedModel, dim }
  | none => do
    let tenantId ← .perform .randomTenantId .ret
    pure
      { hansa := a.name
        tenant := a.tenant
        tenantIdHex := encodeHex tenantId.toList
        embedUrl := a.embedUrl
        embedModel := a.embedModel
        dim
        nextRecordId := 0 }

/-- `FileKeystore::store`. -/
def storeKey (slot : String) (key : HansaKey) : CliM Unit :=
  .perform (.writeKey (setup.keystore.pathFor slot) (FileKeystore.content key)) fun
    | .ok () => .ret ()
    | .error e => .fail (.err (.hansa (.io e)))

/-- `cmd_init`. -/
def cmdInit (a : InitArgs) : CliM Unit := do
  let passphrase ← readPassphrase a.passphrase
  call .createRoot
  let key := HansaKey.fromPassphrase setup.kdf passphrase (utf8 a.name)
  context "store key" (storeKey setup a.name key)
  let dim ← context "probe embedder" (buildEmbedder a.embedUrl a.embedModel)
  let config ← loadConfig setup
  let member ← initMember a dim config
  saveConfig setup (config.upsertActive member)
  let _ ← openHandle setup member
  context "join hansa" (call .join)
  call (.refreshSaga [])

/-- The agent that `cmd_use` makes active. -/
def useTarget (config : Config) (a : UseArgs) : CliResult Nat :=
  match a.name with
  | some name =>
    match config.find name a.tenant with
    | some i => .ok i
    | none => bail ("no agent '" ++ a.tenant ++ "' in hansa '" ++ name ++ "'")
  | none =>
    match config.findByTenant a.tenant with
    | [] => bail ("no agent named '" ++ a.tenant ++ "'")
    | [i] => .ok i
    | several => do
      let members ← several.mapM config.member
      bail ("'" ++ a.tenant ++ "' exists in several hansas (" ++
        ", ".intercalate (members.map Member.hansa) ++ "); add --name <hansa>")

/-- `cmd_use`. -/
def cmdUse (a : UseArgs) : CliM Unit := do
  let config ← loadConfig setup
  let i ← .ofExcept (useTarget config a)
  let m ← .ofExcept (config.member i)
  saveConfig setup { config with active := Config.keyOf m.hansa m.tenant }

/-- The agent that `cmd_leave` removes. -/
def leaveTarget (config : Config) (a : LeaveArgs) : CliResult Nat :=
  match a.name, a.tenant with
  | some name, some tenant =>
    match config.find name tenant with
    | some i => .ok i
    | none => bail "no such agent"
  | none, some tenant =>
    match config.findByTenant tenant with
    | [i] => .ok i
    | [] => bail ("no agent named '" ++ tenant ++ "'")
    | _ => bail ("'" ++ tenant ++ "' exists in several hansas; add --name <hansa>")
  | _, none => config.activeIndex

/-- `cmd_leave`. -/
def cmdLeave (a : LeaveArgs) : CliM Unit := do
  let config ← loadConfig setup
  let i ← .ofExcept (leaveTarget config a)
  let m ← .ofExcept (config.member i)
  let _ ← openHandle setup m
  context "leave roster" (call .leave)
  saveConfig setup (config.remove m.hansa m.tenant)

/-! ## `remember`, `ingest` and `watch` -/

/-- `cmd_remember`. -/
def cmdRemember (a : RememberArgs) : CliM Unit := do
  let config ← loadConfig setup
  let i ← .ofExcept config.activeIndex
  let member ← .ofExcept (config.member i)
  let dir ← openHandle setup member
  let _ ← buildEmbedder member.embedUrl member.embedModel
  call (.passage a.text)
  let (id, member) ← .ofExcept (member.allocRecordId setup.profile)
  context "insert record" (.perform (.insert dir id) ofAnswer)
  context "flush vault" (call (.flush dir))
  saveConfig setup (config.setNextRecordId i member.nextRecordId)
  call (.refreshSaga a.tags)

/-- The part that `cmd_ingest` and `cmd_watch` share: the configuration, the index of the
active member, the member and the directory of its vault, which is open. -/
def openForIngest : CliM (Config × Nat × Member × PathBuf) := do
  let config ← loadConfig setup
  let i ← .ofExcept config.activeIndex
  let member ← .ofExcept (config.member i)
  let (id, tenantId) ← identity setup member
  let dir := tenantDir setup.root member.tenant id
  openTenant member dir tenantId
  let _ ← buildEmbedder member.embedUrl member.embedModel
  pure (config, i, member, dir)

/-- `cmd_ingest`. -/
def cmdIngest : CliM Unit := do
  let (config, i, member, dir) ← openForIngest setup
  let next ← .perform (.ingest dir member.nextRecordId) ofAnswer
  saveConfig setup (config.setNextRecordId i next)
  let _ ← openHandle setup member
  call (.refreshSaga [])

/-- The closure that `watch_tree` calls with the next free id: errors are ignored. -/
def saveNextId (hansa tenant : String) (next : UInt64) : CliM Unit := do
  match ← (loadConfig setup).ok with
  | none => pure ()
  | some config =>
    match config.find hansa tenant with
    | none => pure ()
    | some i => do
      let _ ← (saveConfig setup (config.setNextRecordId i next)).ok
      pure ()

/-- `watch_tree` for a number of reports: each batch is numbered behind the one before. -/
def watchTree (dir : PathBuf) (report : UInt64 → CliM Unit) : Nat → UInt64 → CliM Unit
  | 0, _ => pure ()
  | reports + 1, next => do
    let next ← .perform (.ingest dir next) ofAnswer
    report next
    watchTree dir report reports next

/-- `cmd_ingest` with its flag `watch`, for a number of reports. -/
def cmdWatch (reports : Nat) : CliM Unit := do
  let (_, _, member, dir) ← openForIngest setup
  watchTree dir (saveNextId setup member.hansa member.tenant) reports member.nextRecordId

end Parts

/-! ## All commands -/

/-- The commands that write the configuration or a key. -/
inductive Command where
  /-- `hansa init`. -/
  | init (a : InitArgs)
  /-- `hansa use`. -/
  | use (a : UseArgs)
  /-- `hansa leave`. -/
  | leave (a : LeaveArgs)
  /-- `hansa remember`. -/
  | remember (a : RememberArgs)
  /-- `hansa ingest`. -/
  | ingest
  /-- `hansa watch`, until a number of reports. -/
  | watch (reports : Nat)

/-- `run`, for these commands. -/
def Command.run (setup : Setup) : Command → CliM Unit
  | .init a => cmdInit setup a
  | .use a => cmdUse setup a
  | .leave a => cmdLeave setup a
  | .remember a => cmdRemember setup a
  | .ingest => cmdIngest setup
  | .watch reports => cmdWatch setup reports

end Hansa.Cli
