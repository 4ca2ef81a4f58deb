import Mathlib.Data.List.DropRight
import Hansa.Library.CriticalSections
import Hansa.Registry

/-!
# The file registry, call by call

`Registry` takes an operation of the registry as one step. Here each call of the operating
system is a step of its own: other processes may come in between, a write may write a part of
its bytes, a read may return a part of the file, and every call may fail. A file keeps its
content when another takes over its name, so a process that opened it goes on reading it.
`with_lock` takes the advisory lock; `read_chain` alone runs without it.
-/

namespace Hansa

/-- The files of a hansa's directory. -/
structure LogFiles where
  /-- The content of every file that was created, by its number. -/
  contents : List (List UInt8)
  /-- The file with the name `members.log`. -/
  log : Option Nat
  /-- The file with the name `members.log.tmp`. -/
  temp : Option Nat

namespace LogFiles

/-- The directory before the first call. -/
def initial : LogFiles := ⟨[], none, none⟩

/-- The content of a file. -/
def content (s : LogFiles) (file : Nat) : List UInt8 := s.contents[file]?.getD []

/-- The bytes of `members.log`, if the file exists. -/
def logBytes (s : LogFiles) : Option (List UInt8) := s.log.map s.content

/-- The directory after a file's content was changed. -/
def put (s : LogFiles) (file : Nat) (bytes : List UInt8) : LogFiles :=
  { s with contents := s.contents.set file bytes }

/-- The directory with one more file, which is empty. -/
def create (s : LogFiles) : LogFiles := { s with contents := s.contents ++ [[]] }

end LogFiles

/-- The calls of the operating system that the registry makes. -/
inductive FileOp where
  /-- `create_dir_all` of the hansa's directory. -/
  | ensureDir
  /-- Open or create the lock file. -/
  | openLock
  /-- `exists` of the log. -/
  | logExists
  /-- Open the log to read. -/
  | openLog
  /-- Read from an offset of a file. -/
  | read (file offset : Nat)
  /-- Open or create the log to append. -/
  | openAppend
  /-- Create the temporary file, or empty it. -/
  | createTemp
  /-- Write at the end of a file. -/
  | write (file : Nat) (bytes : List UInt8)
  /-- `sync_all` of a file. -/
  | sync (file : Nat)
  /-- Give the temporary file the name of the log. -/
  | rename
  /-- Wait forever. -/
  | wait

/-- The type of a call's answer: a value, or the display text of an error. -/
@[reducible] def FileOp.Answer : FileOp → Type
  | ensureDir | openLock | sync _ | rename => Except String Unit
  | logExists => Bool
  | openLog | openAppend | createTemp => Except String Nat
  | read _ _ => Except String (List UInt8)
  | write _ _ => Except String Nat
  | wait => Empty

/-- What a call may answer and do. A call that fails does nothing, a read returns a first part of
what is left of the file, which is empty only at its end, and a write writes a first part of its
bytes. -/
def FileOp.Performs : (op : FileOp) → LogFiles → op.Answer → LogFiles → Prop
  | ensureDir, s, _, t => t = s
  | openLock, s, _, t => t = s
  | logExists, s, answer, t => t = s ∧ answer = s.log.isSome
  | openLog, s, answer, t =>
    t = s ∧ ((∃ e, answer = .error e) ∨ ∃ file, s.log = some file ∧ answer = .ok file)
  | read file offset, s, answer, t =>
    t = s ∧ ((∃ e, answer = .error e) ∨ ∃ chunk, answer = .ok chunk ∧
      chunk <+: (s.content file).drop offset ∧ (chunk = [] → (s.content file).drop offset = []))
  | openAppend, s, answer, t =>
    (∃ e, answer = .error e) ∧ t = s ∨
    (∃ file, s.log = some file ∧ answer = .ok file ∧ t = s) ∨
    s.log = none ∧ answer = .ok s.contents.length ∧
      t = { s.create with log := some s.contents.length }
  | createTemp, s, answer, t =>
    (∃ e, answer = .error e) ∧ t = s ∨
    (∃ file, s.temp = some file ∧ answer = .ok file ∧ t = s.put file []) ∨
    s.temp = none ∧ answer = .ok s.contents.length ∧
      t = { s.create with temp := some s.contents.length }
  | write file bytes, s, answer, t =>
    (∃ e, answer = .error e) ∧ t = s ∨
    ∃ n, n ≤ bytes.length ∧ answer = .ok n ∧ t = s.put file (s.content file ++ bytes.take n)
  | sync _, s, _, t => t = s
  | rename, s, answer, t =>
    (∃ e, answer = .error e) ∧ t = s ∨
    ∃ file, s.temp = some file ∧ answer = .ok () ∧ t = { s with log := some file, temp := none }
  | wait, _, _, _ => False

/-- Code that does not take the lock. -/
abbrev FilesM := Program FileOp FileOp.Answer Fault

/-- Code that may take the lock. -/
abbrev LockedM := LockProgram FileOp FileOp.Answer String Fault

/-- Go on with the value that a call answered; its error is an I/O error. -/
def ioResult {α : Type} : Except String α → FilesM α
  | .ok a => .ret a
  | .error e => .fail (.err (.io e))

namespace FileRegistry.Steps

/-! ## Reading -/

/-- The loop of `read_chain` on an open file, with the bytes of a line that was begun. Lines are
taken from what was read as soon as they are ended; at the end of the file the bytes behind the
last newline are a line, and the file is read once more. It waits when it has read a number of
times. -/
def readRest (json : LinkJson) (path : PathBuf) (file : Nat) :
    Nat → Nat → List UInt8 → Nat → FilesM (List Link)
  | 0, _, _, _ => .perform .wait Empty.elim
  | reads + 1, offset, pending, lineno => .perform (.read file offset) fun
    | .error e => .fail (.err (.io e))
    | .ok [] =>
      if pending = [] then .ret []
      else do
        let links ← .ofExcept (readLines json path lineno [(pending, false)])
        let others ← readRest json path file reads offset [] (lineno + 1)
        .ret (links ++ others)
    | .ok chunk => do
      let lines := splitLines ((pending ++ chunk).rdropWhile (· ≠ 10))
      let links ← .ofExcept (readLines json path lineno lines)
      let others ← readRest json path file reads (offset + chunk.length)
        ((pending ++ chunk).rtakeWhile (· ≠ 10)) (lineno + lines.length)
      .ret (links ++ others)

variable (c : Build) (json : LinkJson) (r : FileRegistry) (hansa : HansaId)

/-- `read_chain`. -/
def readChain (reads : Nat) : FilesM (List Link) :=
  .perform .logExists fun
    | false => .ret []
    | true => do
      let file ← .perform .openLog ioResult
      readRest json (r.logPath hansa) file reads 0 [] 0

/-- `Registry::members`. -/
def members (reads : Nat) : FilesM (List MemberRecord) := do
  let chain ← readChain json r hansa reads
  if chain = [] then .ret []
  else do
    let out ← .ofExcept (replay c chain none)
    .ret out.active

/-! ## Writing -/

/-- `write_all`: write until all bytes are written. -/
def writeAll (file : Nat) : List UInt8 → FilesM Unit
  | [] => .ret ()
  | b :: bytes => .perform (.write file (b :: bytes)) fun
    | .error e => .fail (.err (.io e))
    | .ok 0 => .fail (.err (.io "failed to write whole buffer"))
    | .ok (n + 1) => writeAll file (bytes.drop n)
termination_by bytes => bytes.length
decreasing_by
  simp only [List.length_drop, List.length_cons]
  omega

/-- `append_link`. -/
def appendLink (link : Link) : FilesM Unit := do
  .perform .ensureDir ioResult
  let file ← .perform .openAppend ioResult
  match json.toString link with
  | .error e => .fail (.err (.json e))
  | .ok text => do
    writeAll file (utf8 text ++ [10])
    .perform (.sync file) ioResult

/-- `write_chain_atomic`. -/
def writeChainAtomic (links : List Link) : FilesM Unit := do
  let buffer ← .ofExcept (chainBuffer json links)
  let file ← .perform .createTemp ioResult
  writeAll file buffer
  .perform .rename ioResult

/-- `checkpoint_locked`. -/
def checkpointLocked (skipper : Skipper) (now : Int64) (reads : Nat) : FilesM Unit := do
  let chain ← readChain json r hansa reads
  if chain.length ≤ 1 then .ret ()
  else do
    let out ← .ofExcept (replay c chain none)
    let seq ← .ofExcept (UInt64.succIn c.profile out.headSeq)
    let body := Body.checkpoint out.active out.embeddingDim now
    writeChainAtomic json [Link.signed c skipper seq out.headHash body]

/-- What `found` does under the lock. -/
def foundLocked (skipper : Skipper) (embeddingDim : UInt32) (createdAt : Int64) (reads : Nat) :
    FilesM Unit := do
  let chain ← readChain json r hansa reads
  if chain ≠ [] then .ret ()
  else
    let (g, sig) := Genesis.found c skipper embeddingDim createdAt false
    appendLink json (Link.genesis g sig)

/-- What `append_next` does under the lock. -/
def appendLocked (skipper : Skipper) (body : Body) (now : Int64) (reads : Nat) :
    FilesM Unit := do
  let chain ← readChain json r hansa reads
  let head ← .ofExcept (replay c chain none)
  let seq ← .ofExcept (UInt64.succIn c.profile head.headSeq)
  appendLink json (Link.signed c skipper seq head.headHash body)
  if chain.length + 1 > checkpointAfterLinks then
    checkpointLocked c json r hansa skipper now reads
  else .ret ()

/-! ## Calls -/

/-- `with_lock`. -/
def withLock {α : Type} (f : FilesM α) : LockedM α :=
  (do .perform .ensureDir ioResult; .perform .openLock ioResult : FilesM Unit).unlocked >>= fun _ =>
    f.locked fun e => .err (.io e)

/-- `found`. -/
def found (skipper : Skipper) (embeddingDim : UInt32) (createdAt : Int64) (reads : Nat) :
    LockedM Unit :=
  withLock (foundLocked c json r hansa skipper embeddingDim createdAt reads)

/-- `append_next`. -/
def appendNext (skipper : Skipper) (body : Body) (now : Int64) (reads : Nat) : LockedM Unit :=
  withLock (appendLocked c json r hansa skipper body now reads)

/-- `compact`. -/
def compact (skipper : Skipper) (now : Int64) (reads : Nat) : LockedM Unit :=
  withLock (checkpointLocked c json r hansa skipper now reads)

/-- What `Hansa::admit` does before it appends: the member's dimension must be the pinned one. -/
def checkDim (member : MemberRecord) (reads : Nat) : FilesM Unit := do
  let chain ← readChain json r hansa reads
  let head ← .ofExcept (replay c chain (some hansa))
  if member.embeddingDim ≠ head.embeddingDim then
    .fail (.err (.dimMismatch head.embeddingDim member.embeddingDim))
  else .ret ()

/-- `Hansa::admit` on a handle that holds the skipper. -/
def admitMember (skipper : Skipper) (member : MemberRecord) (now : Int64) (reads : Nat) :
    LockedM Unit :=
  (checkDim c json r hansa member reads).unlocked >>= fun _ =>
    appendNext c json r hansa skipper (.admitMember member none) now reads

end FileRegistry.Steps

end Hansa
