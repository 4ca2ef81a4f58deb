import Hansa.Cli.Commands
import Hansa.Library.Processes

/-!
# The parts of a command that change nothing

Before it writes anything a command loads the configuration, derives the identity of its agent
and opens the vault. These parts leave the machine as it is, and what they return is what the
files say.
-/

namespace Hansa.Cli

open Program

variable {setup : Setup} {file : PathBuf → PathBuf} {w : Machine}
  {steps : CliOp → Machine → Machine → Prop}

/-- The operations of some steps alone. -/
def PerformsWith (file : PathBuf → PathBuf) (steps : CliOp → Machine → Machine → Prop) (op : CliOp)
    (w : Machine) (answer : Answer op) (w' : Machine) : Prop :=
  Performs file op w answer w' ∧ steps op w w'

/-- Operations that leave the machine as it is. -/
def Silent : CliOp → Prop
  | .writeConfig _ | .writeKey _ _ | .insert _ _ | .ingest _ _ => False
  | _ => True

/-- A silent operation changes nothing. -/
theorem eq_of_silent {op : CliOp} {answer : Answer op} {w' : Machine}
    (done : PerformsWith file steps op w answer w') (silent : Silent op) : w' = w := by
  cases op with
  | writeConfig | writeKey | insert | ingest => exact silent.elim
  | readLine | randomTenantId | connect | call => exact done.1
  | readConfig | readKey => exact done.1.1

/-- A silent part keeps everything. -/
theorem keeps_silent {α : Type} {holds : Machine → Prop} {p : CliM α} (silent : p.Uses Silent) :
    p.Keeps (PerformsWith file steps) holds (fun _ => True) :=
  keeps_of_uses silent fun _ quiet _ _ _ here done => eq_of_silent done quiet ▸ here

/-- A value is computed without operations. -/
theorem keeps_pure {α : Type} {holds : Machine → Prop} (result : CliResult α) :
    (Program.ofExcept result : CliM α).Keeps (PerformsWith file steps) holds
      (fun value => result = .ok value) :=
  keeps_ofExcept fun _ same => same

/-- A part whose errors are ignored keeps what it keeps. -/
theorem keeps_ok {α : Type} {holds : Machine → Prop} {returns : α → Prop} {p : CliM α}
    (keeps : p.Keeps (PerformsWith file steps) holds returns) :
    (CliM.ok p).Keeps (PerformsWith file steps) holds
      (fun result => ∀ value, result = some value → returns value) := by
  refine keeps.attempt.bind fun result expected => ?_
  match result with
  | .ok value => exact keeps_ret fun _ same => Option.some.inj same ▸ expected value rfl
  | .error (.err _) => exact keeps_ret fun _ same => nomatch same
  | .error .panic => exact keeps_fail _

/-- A part of a command leaves the machine as it is, and what it returns meets an
expectation. -/
abbrev Reads (file : PathBuf → PathBuf) (steps : CliOp → Machine → Machine → Prop) (w : Machine)
    {α : Type} (returns : α → Prop) (p : CliM α) : Prop :=
  p.Keeps (PerformsWith file steps) (· = w) returns

/-- A part that changes nothing keeps everything, and returns what holds where it starts. -/
theorem keeps_of_reads {α : Type} {holds : Machine → Prop} {p : CliM α}
    {reading : Machine → α → Prop} {returns : α → Prop}
    (reads : ∀ w, Reads file steps w (reading w) p)
    (implies : ∀ w value, holds w → reading w value → returns value) :
    p.Keeps (PerformsWith file steps) holds returns := by
  intro w here
  have stays := (reads w w rfl).mono fun _ _ _ expected value same =>
    implies w value here (expected value same)
  exact stays.weaken fun _ same => same ▸ here

/-- Behind a part that changes nothing, the rest starts where the part did. -/
theorem Reads.andThen {α β : Type} {returns : α → Prop} {p : CliM α} {f : α → CliM β}
    {holds : Machine → Prop} (reads : Reads file steps w returns p) (here : holds w)
    (rest : ∀ value, returns value →
      (f value).Safe (PerformsWith file steps) holds (fun _ _ => True) w) :
    (p >>= f).Safe (PerformsWith file steps) holds (fun _ _ => True) w :=
  Keeps.andThen reads (fun _ same => same ▸ here) rfl
    fun value _ same expected => same ▸ rest value expected

/-! ## Parts that are silent -/

/-- An answer is turned into a value or an error without operations. -/
theorem uses_ofAnswer {allowed : CliOp → Prop} {α : Type} (answer : Except String α) :
    (CliM.ofAnswer answer).Uses allowed := by
  cases answer with
  | ok value => exact uses_ret value
  | error e => exact uses_fail _

/-- Calls are silent. -/
theorem silent_call (c : Call) : (CliM.call c).Uses Silent := uses_perform trivial uses_ofAnswer

/-- Drawing a tenant id is silent. -/
theorem silent_random : (Program.perform .randomTenantId .ret : CliM (Bytes 16)).Uses Silent :=
  uses_perform trivial uses_ret

/-- Building an embedder is silent. -/
theorem silent_buildEmbedder (url model : String) : (buildEmbedder url model).Uses Silent := by
  unfold buildEmbedder
  split
  · exact uses_ret _
  · exact (uses_perform trivial uses_ofAnswer).mapError

/-- Reading the passphrase is silent. -/
theorem silent_readPassphrase (passphrase : Option String) :
    (readPassphrase passphrase).Uses Silent := by
  cases passphrase with
  | some passphrase => exact uses_ret _
  | none =>
    refine Uses.bind (uses_perform trivial uses_ofAnswer).mapError fun line => ?_
    split
    · exact uses_ofExcept _
    · exact uses_ret _

/-- Loading a key is silent. -/
theorem silent_loadKey (slot : String) : (loadKey setup slot).Uses Silent := by
  refine uses_perform trivial fun answer => ?_
  cases answer with
  | ok file => exact uses_ofExcept _
  | error e => exact uses_fail _

/-- Deriving an identity is silent. -/
theorem silent_identity (m : Member) : (identity setup m).Uses Silent :=
  (silent_loadKey m.hansa).mapError.bind fun _ => (uses_ofExcept _).bind fun _ => uses_ret _

/-- Opening a vault is silent. -/
theorem silent_openTenant (m : Member) (dir : PathBuf) (tenantId : TenantId) :
    (openTenant m dir tenantId).Uses Silent := (silent_call _).mapError

/-- Opening a handle is silent. -/
theorem silent_openHandle (m : Member) : (openHandle setup m).Uses Silent :=
  (silent_identity m).bind fun _ => (silent_openTenant m _ _).bind fun _ =>
    (silent_call _).bind fun _ => uses_ret _

/-! ## What they return -/

/-- The configuration that is loaded is the one in the file. -/
theorem reads_loadConfig : Reads file steps w
    (fun config => Config.load setup.toml setup.root w.config = .ok config) (loadConfig setup) := by
  rintro _ rfl
  refine safe_perform rfl ?_
  rintro answer w' ⟨⟨rfl, rfl | ⟨e, rfl⟩⟩, -⟩
  · exact Safe.ofExcept rfl fun config loaded => loaded
  · exact safe_fail rfl fun _ same => nomatch same

/-- The key that is loaded is the one in the file of its slot. -/
theorem reads_loadKey (slot : String) : Reads file steps w
    (fun key => FileKeystore.load slot (w.keys (file (setup.keystore.pathFor slot))) = .ok key)
    (loadKey setup slot) := by
  rintro _ rfl
  refine safe_perform rfl ?_
  rintro answer w' ⟨⟨rfl, rfl | ⟨e, rfl⟩⟩, -⟩
  · refine Safe.ofExcept rfl fun key loaded => ?_
    unfold ofResult at loaded
    split at loaded
    · next found => exact found.trans (congrArg Except.ok (Except.ok.inj loaded))
    · cases loaded
    · cases loaded
  · exact safe_fail rfl fun _ same => nomatch same

/-- The identity of a member: the id of the stored key's hansa, and the id of its tenant. -/
def IsIdentity (setup : Setup) (file : PathBuf → PathBuf) (w : Machine) (m : Member)
    (identity : HansaId × TenantId) : Prop :=
  ∃ key, FileKeystore.load m.hansa (w.keys (file (setup.keystore.pathFor m.hansa))) = .ok key ∧
    identity.1 = setup.hansaId key ∧ m.tenantIdBytes = .ok identity.2.bytes

/-- The identity that is derived is the one of the member. -/
theorem reads_identity (m : Member) :
    Reads file steps w (IsIdentity setup file w m) (identity setup m) := by
  refine (reads_loadKey m.hansa).mapError.bind fun key loaded => ?_
  refine (keeps_pure _).bind fun tenantId known => keeps_ret ?_
  exact ⟨key, loaded, rfl, known⟩

/-- The directory of a member's vault. -/
def VaultOf (setup : Setup) (file : PathBuf → PathBuf) (w : Machine) (m : Member)
    (dir : PathBuf) : Prop :=
  ∃ identity, IsIdentity setup file w m identity ∧
    dir = tenantDir setup.root m.tenant identity.1

/-- The handle that is opened is one on the member's vault. -/
theorem reads_openHandle (m : Member) :
    Reads file steps w (VaultOf setup file w m) (openHandle setup m) := by
  refine (reads_identity m).bind fun identity known => ?_
  refine (keeps_silent (silent_openTenant m _ _)).bind fun _ _ => ?_
  refine (keeps_silent (silent_call _)).bind fun _ _ => keeps_ret ?_
  exact ⟨identity, known, rfl⟩

/-- An ingestion starts from the configuration in the file, with the active member and its
vault. -/
theorem reads_openForIngest : Reads file steps w
    (fun (config, i, m, dir) => Config.load setup.toml setup.root w.config = .ok config ∧
      config.activeIndex = .ok i ∧ config.member i = .ok m ∧ VaultOf setup file w m dir)
    (openForIngest setup) := by
  refine reads_loadConfig.bind fun config loaded => ?_
  refine (keeps_pure _).bind fun i active => (keeps_pure _).bind fun m isMember => ?_
  refine (reads_identity m).bind fun identity known => ?_
  refine (keeps_silent (silent_openTenant m _ _)).bind fun _ _ => ?_
  refine (keeps_silent (silent_buildEmbedder _ _)).bind fun _ _ => keeps_ret ?_
  exact ⟨loaded, active, isMember, identity, known, rfl⟩

end Hansa.Cli
