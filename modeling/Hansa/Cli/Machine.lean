import Hansa.Cli.Config
import Hansa.Library.Program
import Mathlib.Logic.Function.Basic

/-!
# The machine the command line runs on

A command reads and writes `cli.toml` and the key files, and calls vaults, the federation, an
embedder and the terminal. Of these calls only their answers are kept, and the ids of the
records that are inserted. Every call may fail; a write that fails may leave a first part of
the text, and an insertion that fails may have inserted. Reading or writing one file is one
operation.
-/

namespace Hansa.Cli

/-- Calls that leave the files of the command line alone. -/
inductive Call where
  /-- `create_dir_all` of the root directory. -/
  | createRoot
  /-- `Tenant::open`. -/
  | openVault (dir : PathBuf) (tenantId : TenantId) (dim : UInt32)
  /-- `Hansa::open`, with the skipper, on the vault of a tenant. -/
  | openHansa (id : HansaId) (tenantId : TenantId) (dir : PathBuf)
  /-- `Hansa::join` without tags. -/
  | join
  /-- `Hansa::leave`. -/
  | leave
  /-- `Hansa::refresh_saga`. -/
  | refreshSaga (tags : List String)
  /-- `Embed::passage`. -/
  | passage (text : String)
  /-- `Tenant::flush`. -/
  | flush (dir : PathBuf)

/-- The operations of a command. -/
inductive CliOp where
  /-- Read a line of standard input. -/
  | readLine
  /-- Draw a tenant id. -/
  | randomTenantId
  /-- Connect to an embedder, which knows its dimension. -/
  | connect (url model : String)
  /-- Read `cli.toml`. -/
  | readConfig
  /-- Replace the content of `cli.toml`. -/
  | writeConfig (text : String)
  /-- Read a key file. -/
  | readKey (path : PathBuf)
  /-- Replace the content of a key file. -/
  | writeKey (path : PathBuf) (text : String)
  /-- Another call. -/
  | call (call : Call)
  /-- Insert a record into a vault. -/
  | insert (dir : PathBuf) (id : UInt64)
  /-- Insert what an ingestion finds, numbered from an id; the answer is the next free id. -/
  | ingest (dir : PathBuf) (start : UInt64)

/-- What an operation answers: a value, or the display text of an error. -/
@[reducible] def Answer : CliOp → Type
  | .readLine => Except String String
  | .randomTenantId => Bytes 16
  | .connect _ _ => Except String UInt32
  | .readConfig => Except String (Option (List UInt8))
  | .writeConfig _ => Except String Unit
  | .readKey _ => Except String (Option (List UInt8))
  | .writeKey _ _ => Except String Unit
  | .call _ => Except String Unit
  | .insert _ _ => Except String Unit
  | .ingest _ _ => Except String UInt64

/-- A command, or a part of one. -/
abbrev CliM := Program CliOp Answer CliFault

/-- The files of the command line, and which records were inserted. -/
structure Machine where
  /-- The bytes of `cli.toml`, if the file exists. -/
  config : Option (List UInt8)
  /-- The bytes of the key files that exist. -/
  keys : PathBuf → Option (List UInt8)
  /-- The ids of the records inserted into each vault so far. No operation reads this. -/
  inserted : PathBuf → List UInt64
  /-- Whether a record was inserted since `cli.toml` was last written. No operation reads
  this. -/
  unsaved : Bool

/-- Consecutive ids from a first one. -/
def consecutive (start : UInt64) (n : Nat) : List UInt64 :=
  (List.range n).map fun i => start + UInt64.ofNat i

namespace Machine

/-- The machine after a number of records were inserted. -/
def insertRecords (w : Machine) (dir : PathBuf) (start : UInt64) (n : Nat) : Machine :=
  { w with
    inserted := Function.update w.inserted dir (w.inserted dir ++ consecutive start n)
    unsaved := w.unsaved || n ≠ 0 }

end Machine

/-- What a write leaves of a file: the whole text, or, when it fails, the file as it was or the
text up to some byte. -/
def Writes (text : String) (before : Option (List UInt8)) (answer : Except String Unit)
    (after : Option (List UInt8)) : Prop :=
  answer = .ok () ∧ after = some (utf8 text) ∨
    (∃ e, answer = .error e) ∧ (after = before ∨ ∃ n, after = some ((utf8 text).take n))

/-- What an operation may answer and do. The files that paths name are given by `file`. A file is
written by `std::fs::write`, which is one operation here: the writes of commands that run at the
same time overlap neither each other nor a read of the file. -/
def Performs (file : PathBuf → PathBuf) :
    (op : CliOp) → Machine → Answer op → Machine → Prop
  | .readLine, w, _, w' => w' = w
  | .randomTenantId, w, _, w' => w' = w
  | .connect _ _, w, _, w' => w' = w
  | .readConfig, w, answer, w' => w' = w ∧ (answer = .ok w.config ∨ ∃ e, answer = .error e)
  | .writeConfig text, w, answer, w' => ∃ after, Writes text w.config answer after ∧
      w' = { w with config := after, unsaved := w.unsaved && !answer.toBool }
  | .readKey path, w, answer, w' =>
      w' = w ∧ (answer = .ok (w.keys (file path)) ∨ ∃ e, answer = .error e)
  | .writeKey path text, w, answer, w' => ∃ after, Writes text (w.keys (file path)) answer after ∧
      w' = { w with keys := Function.update w.keys (file path) after }
  | .call _, w, _, w' => w' = w
  | .insert dir id, w, answer, w' =>
      answer = .ok () ∧ w' = w.insertRecords dir id 1 ∨
        (∃ e, answer = .error e) ∧ (w' = w ∨ w' = w.insertRecords dir id 1)
  | .ingest dir start, w, answer, w' => ∃ n, start.toNat + n < 2 ^ 64 ∧
      w' = w.insertRecords dir start n ∧
        (answer = .ok (start + UInt64.ofNat n) ∨ ∃ e, answer = .error e)

end Hansa.Cli
