import Hansa.Verif.CliConfig
import Hansa.Verif.CliParts
import Hansa.Verif.Instance
import Hansa.Verif.KeyFile

/-!
# A machine with one agent

Agent `a` of the hansa `t`, which was initialised with the passphrase `p`, on a machine whose
key derivation keeps keys and hansa ids apart and whose TOML encoding knows the files at hand.
-/

namespace Hansa.Cli

/-- A key derivation that keeps its input up to its width. -/
def sampleKdf : KeyDerivation := ⟨fun _ bytes => toWidth 32 bytes⟩

/-- Agent `a`, with a counter. -/
def sampleAgent (next : UInt64) : Member where
  hansa := "t"
  tenant := "a"
  tenantIdHex := "07070707070707070707070707070707"
  embedUrl := "stub"
  embedModel := "mxbai-embed-large"
  dim := 64
  nextRecordId := next

/-- A configuration that lists the agent. -/
def sampleConfig (next : UInt64) : Config := ⟨"t/a", [sampleAgent next]⟩

/-- Its text in TOML. -/
def sampleText (next : UInt64) : String :=
  "active = \"t/a\"\n\n[[members]]\nhansa = \"t\"\ntenant = \"a\"\n" ++
    "tenant_id_hex = \"07070707070707070707070707070707\"\nembed_url = \"stub\"\n" ++
    "embed_model = \"mxbai-embed-large\"\ndim = 64\nnext_record_id = " ++
    toString next.toNat ++ "\n"

/-- TOML for the configurations whose counter is zero or one. -/
def sampleToml : ConfigToml where
  toStringPretty config :=
    if config = sampleConfig 0 then .ok (sampleText 0)
    else if config = sampleConfig 1 then .ok (sampleText 1)
    else .error "unsupported"
  fromStr text :=
    if text = sampleText 0 then .ok (sampleConfig 0)
    else if text = sampleText 1 then .ok (sampleConfig 1)
    else .error "unsupported"

/-- The setup of the machine. -/
def sampleSetup : Setup where
  root := ⟨utf8 "/.hansa"⟩
  toml := sampleToml
  kdf := sampleKdf
  crypto := sampleBuild
  profile := .dev

/-- The encoding is lawful. -/
theorem sampleToml_lawful : sampleToml.Lawful := by
  have apart : sampleText 1 ≠ sampleText 0 := by
    intro same
    have digits := (String.append_right_inj _).mp ((String.append_left_inj _).mp same)
    exact absurd digits (by decide)
  constructor
  · intro config text written
    simp only [sampleToml] at written ⊢
    split at written
    · next same =>
      obtain rfl := Except.ok.inj written
      rw [if_pos rfl, same]
    · split at written
      · next same =>
        obtain rfl := Except.ok.inj written
        rw [if_neg apart, if_pos rfl, same]
      · cases written
  · intro text config read m member
    have counter : config = sampleConfig 0 ∨ config = sampleConfig 1 := by
      simp only [sampleToml] at read
      split at read
      · exact .inl (Except.ok.inj read).symm
      · split at read
        · exact .inr (Except.ok.inj read).symm
        · cases read
    rcases counter with rfl | rfl <;>
      (obtain rfl := List.mem_singleton.mp member; decide)

/-- The id of a key is the key. -/
theorem hansaId_sample (key : HansaKey) : sampleSetup.hansaId key = ⟨key.bytes⟩ := by
  show HansaId.fromSkipper sampleBuild ⟨toWidth 32 key.bytes.toList⟩ = _
  rw [fromSkipper_sampleBuild, toWidth_toList]

/-- The key of the hansa `t` with a passphrase. -/
def sampleKey (passphrase : String) : HansaKey :=
  HansaKey.fromPassphrase sampleKdf passphrase (utf8 "t")

/-- The machine, with the key of a passphrase and a counter. -/
def sampleMachine (passphrase : String) (next : UInt64) : Machine where
  config := some (utf8 (sampleText next))
  keys := Function.update (fun _ => none) (sampleSetup.keystore.pathFor "t")
    (some (utf8 (FileKeystore.content (sampleKey passphrase))))
  inserted := fun _ => []
  unsaved := false

/-- The configurations with the counters at hand are encoded. -/
theorem text_sample {next : UInt64} (known : next = 0 ∨ next = 1) :
    (sampleConfig next).text sampleToml = .ok (sampleText next) := by
  rcases known with rfl | rfl
  · simp only [Config.text, sampleToml, if_true]
  · have other : sampleConfig 1 ≠ sampleConfig 0 := by decide
    simp only [Config.text, sampleToml, if_neg other, if_true]

/-- The configuration is loaded. -/
theorem load_sample {next : UInt64} (known : next = 0 ∨ next = 1) :
    Config.load sampleToml sampleSetup.root (some (utf8 (sampleText next))) =
      .ok (sampleConfig next) :=
  sampleToml_lawful.load_text _ (text_sample known)

/-- The key is loaded. -/
theorem load_sampleKey (passphrase : String) (next : UInt64) :
    FileKeystore.load "t" ((sampleMachine passphrase next).keys
      (sampleSetup.keystore.pathFor "t")) = .ok (sampleKey passphrase) := by
  simp only [sampleMachine, Function.update_self, FileKeystore.load_content]

/-- The tenant id is decoded. -/
theorem tenantIdBytes_sample (next : UInt64) :
    (sampleAgent next).tenantIdBytes = .ok (Vector.replicate 16 7) := by
  have decoded : (sampleAgent 0).tenantIdBytes = .ok (Vector.replicate 16 7) := by
    decide +kernel
  exact decoded

end Hansa.Cli
