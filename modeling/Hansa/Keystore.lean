import Mathlib.Logic.Function.Basic
import Hansa.Key
import Hansa.Library.Program

/-!
# Keystores

A keystore loads, stores and removes the key of a slot. `FileKeystore` does so call by call: a
call of the operating system may fail, a write may write a part of its bytes, and the process
may be stopped between two calls. `MemoryKeystore` keeps a map, and `EnvKeystore` only reads the
variables of the environment.
-/

namespace Hansa

/-- The calls of the trait `Keystore`. -/
inductive KeystoreCall where
  /-- Load the key in the named slot. -/
  | load (slot : String)
  /-- Store a key under a slot, overwriting any existing entry. -/
  | store (slot : String) (key : HansaKey)
  /-- Remove the key in a slot, if any. -/
  | remove (slot : String)

/-- The slot that a call is about. -/
def KeystoreCall.slot : KeystoreCall → String
  | load slot | store slot _ | remove slot => slot

/-! ## The environment -/

namespace EnvKeystore

/-- `EnvKeystore::env_name`. -/
def envName (slot : String) : String := "HANSA_KEY_" ++ String.map Char.toUpper slot

/-- `EnvKeystore::load`, from the variables that are set to valid text. -/
def load (var : String → Option String) (slot : String) : Result HansaKey :=
  match var (envName slot) with
  | none => fail (.keyNotFound slot)
  | some value => do
    let bytes ← FileKeystore.decodeHex (trim value)
    HansaKey.fromSlice bytes

/-- The call, which stores and removes nothing. -/
def call (var : String → Option String) : KeystoreCall → Result (Option HansaKey)
  | .load slot => some <$> load var slot
  | .store _ _ => fail (.invariant "EnvKeystore is read-only at runtime")
  | .remove _ => fail (.invariant "EnvKeystore is read-only at runtime")

end EnvKeystore

/-! ## The memory -/

/-- `MemoryKeystore`: the keys by their slots. -/
structure MemoryKeystore where
  /-- The map. -/
  inner : String → Option HansaKey

namespace MemoryKeystore

/-- `MemoryKeystore::new`. -/
def new : MemoryKeystore := ⟨fun _ => none⟩

/-- `MemoryKeystore::load`. -/
def load (m : MemoryKeystore) (slot : String) : Result HansaKey :=
  match m.inner slot with
  | some key => .ok key
  | none => fail (.keyNotFound slot)

/-- `MemoryKeystore::store`. -/
def store (m : MemoryKeystore) (slot : String) (key : HansaKey) : MemoryKeystore :=
  ⟨Function.update m.inner slot (some key)⟩

/-- `MemoryKeystore::remove`. -/
def remove (m : MemoryKeystore) (slot : String) : MemoryKeystore :=
  ⟨Function.update m.inner slot none⟩

/-- A stored key is in its slot. -/
@[simp] theorem inner_store (m : MemoryKeystore) (slot : String) (key : HansaKey) :
    (m.store slot key).inner slot = some key := Function.update_self ..

/-- A removed key is not in its slot. -/
@[simp] theorem inner_remove (m : MemoryKeystore) (slot : String) :
    (m.remove slot).inner slot = none := Function.update_self ..

/-- The keystore after a call. -/
def after (m : MemoryKeystore) : KeystoreCall → MemoryKeystore
  | .load _ => m
  | .store slot key => m.store slot key
  | .remove slot => m.remove slot

end MemoryKeystore

/-! ## The files -/

/-- The content of the files that exist. -/
abbrev KeyFiles := PathBuf → Option (List UInt8)

/-- The calls of the operating system that a file keystore makes. -/
inductive KeyFileOp where
  /-- `create_dir_all` of the directory. -/
  | createRoot
  /-- Open or create a file to write, and empty it. -/
  | openTruncate (path : PathBuf)
  /-- Write behind what was written. -/
  | write (path : PathBuf) (bytes : List UInt8)
  /-- `sync_all`. -/
  | sync (path : PathBuf)
  /-- `remove_file`. -/
  | removeFile (path : PathBuf)
  /-- Read a whole file. -/
  | readFile (path : PathBuf)

/-- The type of a call's answer: a value, or the display text of an error. A file that is not
there is an answer of its own. -/
@[reducible] def KeyFileOp.Answer : KeyFileOp → Type
  | createRoot | openTruncate _ | sync _ => Except String Unit
  | write _ _ => Except String Nat
  | removeFile _ => Except String Bool
  | readFile _ => Except String (Option (List UInt8))

/-- What a call may answer and do. A call that fails does nothing, and a write writes a first part
of its bytes. The files that paths name are given by `file`. -/
def KeyFileOp.Performs (file : PathBuf → PathBuf) :
    (op : KeyFileOp) → KeyFiles → op.Answer → KeyFiles → Prop
  | createRoot, s, _, t => t = s
  | openTruncate path, s, answer, t =>
    (∃ e, answer = .error e) ∧ t = s ∨
      answer = .ok () ∧ t = Function.update s (file path) (some [])
  | write path bytes, s, answer, t =>
    (∃ e, answer = .error e) ∧ t = s ∨
      ∃ n, n ≤ bytes.length ∧ answer = .ok n ∧
        t = Function.update s (file path) (some ((s (file path)).getD [] ++ bytes.take n))
  | sync _, s, _, t => t = s
  | removeFile path, s, answer, t =>
    (∃ e, answer = .error e) ∧ t = s ∨
      answer = .ok (s (file path)).isSome ∧ t = Function.update s (file path) none
  | readFile path, s, answer, t =>
    t = s ∧ ((∃ e, answer = .error e) ∨ answer = .ok (s (file path)))

/-- Code of a file keystore. -/
abbrev KeyFilesM := Program KeyFileOp KeyFileOp.Answer Fault

namespace FileKeystore.Steps

/-- Go on where a call succeeded; its error is an I/O error. -/
def ioResult {α : Type} : Except String α → KeyFilesM α
  | .ok a => .ret a
  | .error e => .fail (.err (.io e))

/-- `write_all`: write until all bytes are written. -/
def writeAll (path : PathBuf) : List UInt8 → KeyFilesM Unit
  | [] => .ret ()
  | b :: bytes => .perform (.write path (b :: bytes)) fun
    | .error e => .fail (.err (.io e))
    | .ok 0 => .fail (.err (.io "failed to write whole buffer"))
    | .ok (n + 1) => writeAll path (bytes.drop n)
termination_by bytes => bytes.length
decreasing_by
  simp only [List.length_drop, List.length_cons]
  omega

/-- `write_with_perms`. -/
def writeWithPerms (path : PathBuf) (bytes : List UInt8) : KeyFilesM Unit := do
  .perform (.openTruncate path) ioResult
  writeAll path bytes
  .perform (.sync path) ioResult

variable (keystore : FileKeystore)

/-- `FileKeystore::load`. -/
def load (slot : String) : KeyFilesM HansaKey :=
  .perform (.readFile (keystore.pathFor slot)) fun
    | .error e => .fail (.err (.io e))
    | .ok content => .ofExcept (FileKeystore.load slot content)

/-- `FileKeystore::store`. -/
def store (slot : String) (key : HansaKey) : KeyFilesM Unit := do
  .perform .createRoot ioResult
  writeWithPerms (keystore.pathFor slot) (utf8 (FileKeystore.content key))

/-- `FileKeystore::remove`. -/
def remove (slot : String) : KeyFilesM Unit :=
  .perform (.removeFile (keystore.pathFor slot)) fun
    | .error e => .fail (.err (.io e))
    | .ok _ => .ret ()

/-- A call, with the key that it loads. -/
def call : KeystoreCall → KeyFilesM (Option HansaKey)
  | .load slot => do
    let key ← load keystore slot
    .ret (some key)
  | .store slot key => do
    store keystore slot key
    .ret none
  | .remove slot => do
    remove keystore slot
    .ret none

end FileKeystore.Steps

end Hansa
