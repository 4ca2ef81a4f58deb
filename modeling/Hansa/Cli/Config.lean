import Hansa.Key
import Hansa.Saga

/-!
# The configuration of the command line

`cli.toml` lists the agents of this machine, each a member of one hansa with one vault, and
tells which one is active. An agent is found by the names of its hansa and its tenant; the
active agent and an agent to remove by the two names joined with a slash. The file is TOML,
whose encoding is the parameter `ConfigToml`.
-/

namespace Hansa.Cli

/-- `anyhow::Error`: a message, an error of the library or of other code, and contexts. -/
inductive CliError where
  /-- `anyhow::bail!`, and a context of a missing value. -/
  | message (text : String)
  /-- An error of the crate. -/
  | hansa (error : HansaError)
  /-- An error of the operating system or another crate, by its display text. -/
  | other (text : String)
  /-- `Context::context`. -/
  | context (text : String) (cause : CliError)
  deriving DecidableEq

/-- How a command can fail: a returned error, or a panic. -/
inductive CliFault where
  /-- The command returned `Err`. -/
  | err (error : CliError)
  /-- The command panicked. -/
  | panic
  deriving DecidableEq

/-- Outcome of a call. -/
abbrev CliResult (α : Type) := Except CliFault α

/-- `anyhow::bail!`. -/
def bail {α : Type} (text : String) : CliResult α := .error (.err (.message text))

/-- A context for an error. -/
def CliFault.inContext (text : String) : CliFault → CliFault
  | err error => err (.context text error)
  | panic => panic

/-- The outcome of a call of the crate. -/
def ofResult {α : Type} : Result α → CliResult α
  | .ok value => .ok value
  | .error (.err error) => .error (.err (.hansa error))
  | .error .panic => .error .panic

/-- `decode_hex` of the configuration, which panics on a slice that ends inside a character. -/
def decodeHex (s : String) : CliResult (List UInt8) :=
  let text := utf8 (trim s)
  if text.length % 2 ≠ 0 then bail "hex string has odd length"
  else match parseHash text with
    | .ok (some bytes) => .ok bytes
    | .ok none =>
      .error (.err (.context "invalid hex digit" (.other "invalid digit found in string")))
    | .error _ => .error .panic

/-! ## Members -/

/-- `Member`: one local agent, a member of one hansa backed by one vault. -/
structure Member where
  /-- Name of the hansa: keystore slot and key salt. -/
  hansa : String
  /-- Name of this agent. -/
  tenant : String
  /-- Tenant id, hex-encoded. -/
  tenantIdHex : String
  /-- Embedding endpoint. -/
  embedUrl : String
  /-- Embedding model name. -/
  embedModel : String
  /-- Embedding dimension. -/
  dim : UInt32
  /-- Record id allocator for this agent's vault. -/
  nextRecordId : UInt64
  deriving DecidableEq

namespace Member

/-- `Member::tenant_id_bytes`. -/
def tenantIdBytes (m : Member) : CliResult (Bytes 16) := do
  let raw ← decodeHex m.tenantIdHex
  if full : raw.toArray.size = 16 then .ok ⟨raw.toArray, full⟩
  else bail "tenant_id must be 16 bytes"

/-- `Member::alloc_record_id`: the next record id, and the advanced counter. A development
build panics behind the last id, and a release build starts again. -/
def allocRecordId (profile : Profile) (m : Member) : CliResult (UInt64 × Member) :=
  if profile = .dev ∧ m.nextRecordId.toNat + 1 = 2 ^ 64 then .error .panic
  else .ok (m.nextRecordId, { m with nextRecordId := m.nextRecordId + 1 })

end Member

/-! ## The configuration -/

/-- `Config`: the local agents, and the active one. -/
structure Config where
  /-- `"<hansa>/<tenant>"` of the active agent. -/
  active : String
  /-- All agents of this machine. -/
  members : List Member
  deriving DecidableEq

/-- `toml` at the type `Config`; an error is its display text. -/
structure ConfigToml where
  /-- `toml::to_string_pretty`. -/
  toStringPretty : Config → Except String String
  /-- `toml::from_str`. -/
  fromStr : String → Except String Config

namespace Config

/-- `Config::default`. -/
def default : Config := ⟨"", []⟩

/-- `Config::path`, under the root directory. -/
def path (root : PathBuf) : PathBuf := root.join "cli.toml"

/-- `Config::load`, from the content of the file. -/
def load (toml : ConfigToml) (root : PathBuf) : Option (List UInt8) → CliResult Config
  | none => .ok default
  | some content =>
    match fromUtf8 content with
    | none =>
      .error (.err (.context ("read " ++ (path root).toStringLossy)
        (.other "stream did not contain valid UTF-8")))
    | some text =>
      match toml.fromStr text with
      | .ok config => .ok config
      | .error e => .error (.err (.context ("parse " ++ (path root).toStringLossy) (.other e)))

/-- The text that `Config::save` writes. -/
def text (toml : ConfigToml) (config : Config) : CliResult String :=
  match toml.toStringPretty config with
  | .ok text => .ok text
  | .error e => .error (.err (.context "serialize config" (.other e)))

/-- `Config::key_of`. -/
def keyOf (hansa tenant : String) : String := hansa ++ "/" ++ tenant

/-- `Config::active_index`. -/
def activeIndex (config : Config) : CliResult Nat :=
  if config.members = [] then bail "no agents yet, run `hansa init` first"
  else match config.members.findIdx? (fun m => keyOf m.hansa m.tenant = config.active) with
    | some i => .ok i
    | none => bail "active agent missing; run `hansa use <tenant>` to pick one"

/-- `Config::find`. -/
def find (config : Config) (hansa tenant : String) : Option Nat :=
  config.members.findIdx? fun m => m.hansa = hansa ∧ m.tenant = tenant

/-- `Config::find_by_tenant`. -/
def findByTenant (config : Config) (tenant : String) : List Nat :=
  (config.members.zipIdx.filter fun m => m.1.tenant = tenant).map Prod.snd

/-- `Config::upsert_active`. -/
def upsertActive (config : Config) (m : Member) : Config :=
  { active := keyOf m.hansa m.tenant
    members := match config.find m.hansa m.tenant with
      | some i => config.members.set i m
      | none => config.members ++ [m] }

/-- `Config::remove`; its flag is not read. -/
def remove (config : Config) (hansa tenant : String) : Config :=
  let key := keyOf hansa tenant
  let members := config.members.filter fun m => keyOf m.hansa m.tenant ≠ key
  { active :=
      if config.active = key then (members.head?.map fun m => keyOf m.hansa m.tenant).getD ""
      else config.active
    members }

/-- `config.members[i]`, which panics out of bounds. -/
def member (config : Config) (i : Nat) : CliResult Member :=
  match config.members[i]? with
  | some m => .ok m
  | none => .error .panic

/-- Assignment to `config.members[i].next_record_id`. -/
def setNextRecordId (config : Config) (i : Nat) (next : UInt64) : Config :=
  { config with members := config.members.modify i fun m => { m with nextRecordId := next } }

end Config

end Hansa.Cli
