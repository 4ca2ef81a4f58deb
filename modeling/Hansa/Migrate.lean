import Hansa.Key
import Hansa.Registry

/-!
# Migration of an unsigned hansa

The first version of a hansa kept its members in a snapshot and a log of unsigned events.
Migration reads the active members from these files, founds a signed chain and admits each
member to it. The two versions derive their ids from different inputs, so the files that are
read lie in another directory than the chain that is written; decoding them is the parameter
`V1Json`.
-/

namespace Hansa

/-- `HANSA_ID_DOMAIN`. -/
def hansaIdDomain : List UInt8 := utf8 "hansa-id-v1"

/-- `HansaKey::hansa_id`: the id of an unsigned hansa. -/
def HansaKey.hansaId (c : Crypto) (key : HansaKey) : HansaId :=
  ⟨c.blake3 (key.bytes.toList ++ hansaIdDomain)⟩

/-- `V1Event`: an entry of the unsigned log. -/
inductive V1Event where
  /-- A member joined. -/
  | join (member : MemberRecord)
  /-- A tenant left. -/
  | leave (tenantId : TenantId)
  deriving DecidableEq

/-- `serde_json` at the types of the unsigned files; an error is its display text. -/
structure V1Json where
  /-- `serde_json::from_slice::<Vec<MemberRecord>>`. -/
  membersFromSlice : List UInt8 → Except String (List MemberRecord)
  /-- `serde_json::from_str::<V1Event>`. -/
  eventFromStr : String → Except String V1Event

/-- The files of one unsigned hansa. -/
structure V1Dir where
  /-- The bytes of `members.snap`, if the file exists. -/
  snap : Option (List UInt8)
  /-- The bytes of `members.log`, if the file exists. -/
  log : Option (List UInt8)

/-- The active set after the snapshot; a snapshot that is empty counts as none. -/
def readV1Snap (json : V1Json) (snap : Option (List UInt8)) : Result ActiveMap :=
  match snap with
  | none | some [] => .ok .empty
  | some bytes =>
    match json.membersFromSlice bytes with
    | .error e => fail (.json e)
    | .ok members => .ok (KeyedMap.empty.insertAll members)

/-- The active set after one event. -/
def V1Event.applyTo (active : ActiveMap) : V1Event → ActiveMap
  | .join member => active.insert member
  | .leave tenantId => active.erase tenantId

/-- The loop of `read_v1_members` over the lines of the log. -/
def readV1Lines (json : V1Json) (active : ActiveMap) :
    List (List UInt8 × Bool) → Result ActiveMap
  | [] => .ok active
  | line :: lines =>
    match fromUtf8 (lineContent line) with
    | none => fail (.io "stream did not contain valid UTF-8")
    | some text =>
      if isBlank text then readV1Lines json active lines
      else match json.eventFromStr text with
        | .error e => fail (.json e)
        | .ok event => readV1Lines json (event.applyTo active) lines

/-- `read_v1_members`: replay the snapshot and the log into the active set. -/
def readV1Members (json : V1Json) (dir : V1Dir) : Result (List MemberRecord) := do
  let active ← readV1Snap json dir.snap
  match dir.log with
  | none => .ok active.sorted
  | some bytes => do
    let active ← readV1Lines json active (splitLines bytes)
    .ok active.sorted

section Migrate

variable (c : Build) (json : LinkJson) (v1 : V1Json) (r : FileRegistry) (skipper : Skipper)

/-- The loop of `migrate_v1`: admit one member after another, each at the time of its append. -/
def readmitAll (clock : TenantId → Int64) : List MemberRecord → FileM Unit
  | [] => pure ()
  | member :: members => do
    r.appendNext c json (.fromSkipper c (skipper.pub c)) skipper (.admitMember member none)
      (clock member.tenantId)
    readmitAll clock members

/-- `migrate_v1`: found a signed chain and admit every active member of the unsigned hansa,
whose files lie under `v1Root`. -/
def migrateV1 (v1Root : HansaId → V1Dir) (key : HansaKey) (embeddingDim : UInt32) (now : Int64)
    (clock : TenantId → Int64) : FileM HansaId := do
  let members ← .ofResult (readV1Members v1 (v1Root (key.hansaId c)))
  let v2Id := HansaId.fromSkipper c (skipper.pub c)
  r.found c json v2Id skipper embeddingDim now
  readmitAll c json r skipper clock members
  pure v2Id

end Migrate

end Hansa
