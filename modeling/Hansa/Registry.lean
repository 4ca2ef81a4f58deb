import Hansa.Chain

/-!
# The file registry

A hansa's log is one newline-delimited JSON file in its own directory. An append reads the
whole log, replays it, signs the next link and writes one line; past a threshold the log is
collapsed to a signed checkpoint. Every operation runs under the directory's lock, so it is
one step on the state of the directory. Calls of the operating system are taken to succeed;
JSON encoding is the parameter `LinkJson`, and its failures are the program's.
-/

namespace Hansa

/-- `serde_json` at the type `Link`; an error is its display text. -/
structure LinkJson where
  /-- `serde_json::to_string`. -/
  toString : Link → Except String String
  /-- `serde_json::from_str`. -/
  fromStr : String → Except String Link

/-- The directory of one hansa. -/
structure HansaDir where
  /-- The bytes of `members.log`, if the file exists. -/
  log : Option (List UInt8)
  /-- Every link written so far, in order. No operation reads this. -/
  written : List Link

/-- The directory before the first call. -/
def HansaDir.initial : HansaDir := ⟨none, []⟩

/-- A call that may read and write the directory; a failed call keeps what it wrote before. -/
abbrev FileM := EStateM Fault HansaDir

/-- Use a computation that leaves the directory alone. -/
def FileM.ofResult {α : Type} : Result α → FileM α
  | .ok a => pure a
  | .error fault => throw fault

/-! ## Lines -/

/-- The lines of a file, each with a flag that tells whether a newline ends it. -/
def splitLines : List UInt8 → List (List UInt8 × Bool)
  | [] => []
  | b :: rest =>
    if b = 10 then ([], true) :: splitLines rest
    else match splitLines rest with
      | [] => [([b], false)]
      | (line, ended) :: lines => (b :: line, ended) :: lines

/-- What `BufRead::lines` yields of a line: a carriage return goes with its newline. -/
def lineContent (line : List UInt8 × Bool) : List UInt8 :=
  if line.2 ∧ line.1.getLast? = some 13 then line.1.dropLast else line.1

/-- `char::is_whitespace`: the Unicode property White_Space. -/
def isWhitespace (ch : Char) : Bool :=
  (9 ≤ ch.toNat && ch.toNat ≤ 13) || (0x2000 ≤ ch.toNat && ch.toNat ≤ 0x200A) ||
    ch.toNat ∈ [0x20, 0x85, 0xA0, 0x1680, 0x2028, 0x2029, 0x202F, 0x205F, 0x3000]

/-- `line.trim().is_empty()`. -/
def isBlank (text : String) : Bool := text.toList.all isWhitespace

/-- The loop of `read_chain`, from the line of index `lineno`. -/
def readLines (json : LinkJson) (path : PathBuf) (lineno : Nat) :
    List (List UInt8 × Bool) → Result (List Link)
  | [] => .ok []
  | line :: lines =>
    match fromUtf8 (lineContent line) with
    | none => fail (.io "stream did not contain valid UTF-8")
    | some text =>
      if isBlank text then readLines json path (lineno + 1) lines
      else match json.fromStr text with
        | .error e =>
          fail (.registryMalformed
            (path.toStringLossy ++ ":" ++ toString (lineno + 1) ++ ": " ++ e))
        | .ok link => do
          let links ← readLines json path (lineno + 1) lines
          .ok (link :: links)

/-! ## Operations -/

/-- `CHECKPOINT_AFTER_LINKS`: an append that leaves more links than this compacts the log. -/
def checkpointAfterLinks : Nat := 256

/-- `FileRegistry`: the registry of the local file system. -/
structure FileRegistry where
  /-- Root directory; each hansa gets a subdirectory keyed by its id. -/
  root : PathBuf

namespace FileRegistry

/-- `FileRegistry::log_path`. -/
def logPath (r : FileRegistry) (hansa : HansaId) : PathBuf :=
  (r.root.join hansa.asHex).join "members.log"

variable (c : Build) (json : LinkJson) (r : FileRegistry) (hansa : HansaId)

/-- `read_chain`: the links of the log, oldest first; no links when there is no log. -/
def readChain : FileM (List Link) := do
  match (← get).log with
  | none => pure []
  | some bytes => .ofResult (readLines json (r.logPath hansa) 0 (splitLines bytes))

/-- `append_link`: write one line. The file is created before the link is encoded. -/
def appendLink (link : Link) : FileM Unit := do
  modify fun dir => { dir with log := some (dir.log.getD []) }
  match json.toString link with
  | .error e => throw (.err (.json e))
  | .ok text =>
    modify fun dir =>
      { log := dir.log.map (· ++ utf8 text ++ [10]), written := dir.written ++ [link] }

/-- The buffer `write_chain_atomic` fills: one line for each link. -/
def chainBuffer : List Link → Result (List UInt8)
  | [] => .ok []
  | link :: links =>
    match json.toString link with
    | .error e => fail (.json e)
    | .ok text => do
      let rest ← chainBuffer links
      .ok (utf8 text ++ [10] ++ rest)

/-- `write_chain_atomic`: replace the whole log. -/
def writeChainAtomic (links : List Link) : FileM Unit := do
  let buffer ← .ofResult (chainBuffer json links)
  modify fun dir => { log := some buffer, written := dir.written ++ links }

/-- `checkpoint_locked`: collapse the chain to one signed checkpoint. -/
def checkpointLocked (skipper : Skipper) (now : Int64) : FileM Unit := do
  let chain ← r.readChain json hansa
  if chain.length ≤ 1 then pure ()
  else
    let out ← .ofResult (replay c chain none)
    let seq ← .ofResult (UInt64.succIn c.profile out.headSeq)
    let body := Body.checkpoint out.active out.embeddingDim now
    writeChainAtomic json [Link.signed c skipper seq out.headHash body]

/-- `found`: write a signed genesis, unless the log has links already. -/
def found (skipper : Skipper) (embeddingDim : UInt32) (createdAt : Int64) : FileM Unit := do
  let chain ← r.readChain json hansa
  if chain ≠ [] then pure ()
  else
    let (g, sig) := Genesis.found c skipper embeddingDim createdAt false
    appendLink json (Link.genesis g sig)

/-- `append_next`: sign and append the next link, then keep the log bounded. -/
def appendNext (skipper : Skipper) (body : Body) (now : Int64) : FileM Unit := do
  let chain ← r.readChain json hansa
  let head ← .ofResult (replay c chain none)
  let seq ← .ofResult (UInt64.succIn c.profile head.headSeq)
  appendLink json (Link.signed c skipper seq head.headHash body)
  if chain.length + 1 > checkpointAfterLinks then r.checkpointLocked c json hansa skipper now

/-- `compact`: collapse the chain to one signed checkpoint. -/
def compact (skipper : Skipper) (now : Int64) : FileM Unit :=
  r.checkpointLocked c json hansa skipper now

/-- `Registry::members`: the active members, by replaying the chain. -/
def members : FileM (List MemberRecord) := do
  let chain ← r.readChain json hansa
  if chain = [] then pure []
  else
    let out ← .ofResult (replay c chain none)
    pure out.active

end FileRegistry

end Hansa
