import Hansa.Genesis
import Hansa.Library.KeyedMap

/-!
# The signed, hash-chained members log

Each entry of the log is a link carrying its sequence number, the hash of the previous link,
a body, the key that signed it and the signature. Replay folds a chain into the active member
set, after four checks per link: the sequence number, the previous hash, the signer, and the
signature. The first link is the root: a genesis, or the signed checkpoint that replaced it.
-/

namespace Hansa

/-- `Body`: what a link states. -/
inductive Body where
  /-- Root of trust; only valid at seq 0. -/
  | genesis (genesis : Genesis)
  /-- The skipper admits a member. -/
  | admitMember (member : MemberRecord) (memberPub : Option (Bytes 32))
  /-- The skipper revokes a member by tenant id. -/
  | revoke (tenantId : TenantId) (time : Int64) (reason : Option String)
  /-- The active set at a point in the chain. -/
  | checkpoint (members : List MemberRecord) (embeddingDim : UInt32) (time : Int64)
  deriving DecidableEq

namespace Body

/-- `Body::write_canonical`. -/
def writeCanonical (body : Body) (w : Writer) : Writer :=
  match body with
  | .genesis g => (w.u8 0).fixed g.canonical
  | .admitMember member memberPub =>
    let w := (w.u8 1).prefixed member.canonical
    match memberPub with
    | none => w.u8 0
    | some key => (w.u8 1).fixed key.toList
  | .revoke tenantId time reason =>
    let w := ((w.u8 2).fixed tenantId.bytes.toList).i64 time
    match reason with
    | none => w.u8 0
    | some text => (w.u8 1).str text
  | .checkpoint members embeddingDim time =>
    let w := (((w.u8 3).u32 embeddingDim).i64 time).u32 (UInt32.ofNat members.length)
    members.foldl (fun w m => w.prefixed m.canonical) w

/-- A genesis or a checkpoint: a body that may only open a chain. -/
def IsRoot : Body → Prop
  | .genesis _ | .checkpoint .. => True
  | .admitMember .. | .revoke .. => False

instance (body : Body) : Decidable body.IsRoot := by
  unfold IsRoot
  split <;> infer_instance

/-- Every path the body mentions is valid UTF-8. -/
def IsUtf8 : Body → Prop
  | .admitMember member _ => member.IsUtf8
  | .checkpoint members .. => ∀ m ∈ members, m.IsUtf8
  | .genesis _ | .revoke .. => True

instance (body : Body) : Decidable body.IsUtf8 := by
  unfold IsUtf8
  split <;> infer_instance

end Body

/-- `Link` without its signature: what the canonical bytes cover. -/
structure Statement where
  /-- Position in the chain; 0 is the genesis. -/
  seq : UInt64
  /-- Hash of the previous link; zeros at seq 0. -/
  prev : Bytes 32
  /-- What this link states. -/
  body : Body
  /-- Public key that signed this link. -/
  signedBy : SkipperPub
  deriving DecidableEq

/-- `Link::canonical`: everything but the signature itself. -/
def Statement.canonical (s : Statement) : List UInt8 :=
  let w := (Writer.new.u64 s.seq).fixed s.prev.toList
  (s.body.writeCanonical w).fixed s.signedBy.asBytes.toList |>.finish

/-- `Link::hash`: what the next link must carry as its `prev`. -/
def Statement.hash (c : Crypto) (s : Statement) : Bytes 32 := c.blake3 s.canonical

/-- `Link`: one entry of the chain. -/
structure Link extends Statement where
  /-- Signature over the link's canonical bytes. -/
  sig : Sig
  deriving DecidableEq

namespace Link

/-- `Link::genesis`: the seq-0 link, under the genesis signature. -/
def genesis (g : Genesis) (sig : Sig) : Link :=
  { seq := 0
    prev := Vector.replicate 32 0
    body := .genesis g
    signedBy := g.skipperPub
    sig }

/-- `Link::signed`: build and sign a link with the skipper. -/
def signed (c : Crypto) (skipper : Skipper) (seq : UInt64) (prev : Bytes 32) (body : Body) :
    Link :=
  let statement : Statement := { seq, prev, body, signedBy := skipper.pub c }
  { toStatement := statement, sig := skipper.sign c domainLink statement.canonical }

end Link

/-- The active set during replay: `HashMap<TenantId, MemberRecord>`, keyed by the record's id. -/
abbrev ActiveMap := KeyedMap MemberRecord.tenantId

/-- `ReplayOutcome`: result of a successful replay. -/
structure ReplayOutcome where
  /-- The skipper key that roots this chain. -/
  skipper : SkipperPub
  /-- Embedding dimension pinned for the hansa. -/
  embeddingDim : UInt32
  /-- Active members, sorted by tenant id. -/
  active : List MemberRecord
  /-- Sequence number of the last link. -/
  headSeq : UInt64
  /-- Hash of the last link. -/
  headHash : Bytes 32
  deriving DecidableEq

/-- What replay carries from link to link. -/
structure ReplayState where
  /-- The active set. -/
  active : ActiveMap
  /-- Sequence number of the last accepted link. -/
  prevSeq : UInt64
  /-- Hash of the last accepted link. -/
  prevHash : Bytes 32

/-- The root match of `replay`: skipper, dimension, active set and sequence number. -/
def replayRoot (c : Crypto) (first : Link) (expected : Option HansaId) :
    Result (SkipperPub × UInt32 × ActiveMap × UInt64) :=
  match first.body with
  | .genesis g =>
    if first.seq ≠ 0 ∨ first.prev ≠ Vector.replicate 32 0 ∨ first.signedBy ≠ g.skipperPub then
      fail (.chainBroken 0)
    else
      match expected with
      | some id => do
        g.verifyFor c id first.sig
        .ok (g.skipperPub, g.embeddingDim, .empty, 0)
      | none => do
        g.verify c first.sig
        .ok (g.skipperPub, g.embeddingDim, .empty, 0)
  | .checkpoint members embeddingDim _ =>
    if expected.any (fun id => HansaId.fromSkipper c first.signedBy ≠ id) then fail .idMismatch
    else
      match first.signedBy.verify c domainLink first.canonical first.sig with
      | .error _ => fail (.chainBroken first.seq)
      | .ok () =>
        .ok (first.signedBy, embeddingDim, KeyedMap.empty.insertAll members, first.seq)
  | _ => fail (.chainBroken 0)

/-- The active set after a link's body; a root body is refused here. -/
def replayBody (link : Link) (active : ActiveMap) : Result ActiveMap :=
  match link.body with
  | .genesis _ | .checkpoint .. => fail (.chainBroken link.seq)
  | .admitMember member _ => .ok (active.insert member)
  | .revoke tenantId .. => .ok (active.erase tenantId)

/-- A build of the crate: its profile, and the primitives that it links. -/
structure Build extends Crypto where
  /-- The profile. -/
  profile : Profile

instance : Coe Build Crypto := ⟨Build.toCrypto⟩

/-- One iteration of the loop of `replay`. -/
def replayLink (c : Build) (skipperPub : SkipperPub) (s : ReplayState) (link : Link) :
    Result ReplayState := do
  let next ← UInt64.succIn c.profile s.prevSeq
  if link.seq ≠ next ∨ link.prev ≠ s.prevHash then
    fail (.chainBroken link.seq)
  else if link.signedBy ≠ skipperPub then fail .unauthorized
  else
    match link.signedBy.verify c domainLink link.canonical link.sig with
    | .error _ => fail (.chainBroken link.seq)
    | .ok () => do
      let active ← replayBody link s.active
      .ok { active, prevSeq := link.seq, prevHash := link.hash c }

/-- The loop of `replay`. -/
def replayLinks (c : Build) (skipperPub : SkipperPub) (s : ReplayState) :
    List Link → Result ReplayState
  | [] => .ok s
  | link :: links => do
    let s ← replayLink c skipperPub s link
    replayLinks c skipperPub s links

/-- `replay`: verify a chain and fold it into its active member set. -/
def replay (c : Build) (links : List Link) (expected : Option HansaId) :
    Result ReplayOutcome :=
  match links with
  | [] => fail (.chainBroken 0)
  | first :: rest => do
    let (skipperPub, embeddingDim, active, prevSeq) ← replayRoot c first expected
    let s ← replayLinks c skipperPub { active, prevSeq, prevHash := first.hash c } rest
    .ok
      { skipper := skipperPub
        embeddingDim
        active := s.active.sorted
        headSeq := s.prevSeq
        headHash := s.prevHash }

end Hansa
