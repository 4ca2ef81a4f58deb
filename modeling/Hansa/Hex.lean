import Hansa.Hybrid
import Hansa.Key

/-!
# Hex decoders

Hashes, tenant ids, keys, signatures and hansa ids travel as lowercase hex. Five decoders read
them back, and they share one loop: the length is tested in bytes, each pair of bytes is
sliced off the string, and the slice is parsed by the integer parser of the standard library.
A slice that ends inside a character panics. The decoders of `serde` return the texts of their
errors; the one that reads a remote listing drops them.
-/

namespace Hansa

/-- How a decoder of hex text can fail: by an error with a text, or by a panic. -/
inductive HexFault where
  /-- The decoder returned an error, such as `serde::de::Error::custom`. -/
  | custom (text : String)
  /-- The decoder panicked. -/
  | panic
  deriving DecidableEq, Repr

/-- What a decoder of hex text gives. -/
abbrev HexResult (α : Type) := Except HexFault α

/-- The display text of `IntErrorKind::InvalidDigit`. -/
def invalidDigit : String := "invalid digit found in string"

/-- The loop of the decoders over the pairs of bytes. A slice that ends inside a character, or
behind the end of the string, panics. -/
def decodeHexPairs : (n : Nat) → List UInt8 → HexResult (Bytes n)
  | 0, _ => .ok #v[]
  | n + 1, a :: b :: rest =>
    if rest.head?.any isContinuation then .error .panic
    else match fromStrRadix16 a b with
      | none => .error (.custom invalidDigit)
      | some x => do
        let xs ← decodeHexPairs n rest
        .ok ((#v[x] ++ xs).cast (Nat.add_comm 1 n))
  | _ + 1, _ => .error .panic

/-- A decoder with the error text for a wrong length in bytes. -/
def decodeHexText (n : Nat) (wrongLength : Nat → String) (s : String) : HexResult (Bytes n) :=
  if (utf8 s).length ≠ n * 2 then .error (.custom (wrongLength (utf8 s).length))
  else decodeHexPairs n (utf8 s)

/-- `hash_hex::deserialize`, on the string. -/
def HashHex.deserialize (s : String) : HexResult (Bytes 32) :=
  decodeHexText 32 (fun _ => "expected 64-char hex hash") s

/-- `tenant_id_hex::deserialize`, on the string. -/
def TenantIdHex.deserialize (s : String) : HexResult TenantId :=
  (decodeHexText 16 (fun length => "expected 32-char hex tenant id, got " ++ toString length)
    s).map TenantId.mk

/-- `unhex`: the bytes of a key or of a signature. -/
def unhex (n : Nat) (s : String) : HexResult (Bytes n) :=
  decodeHexText n
    (fun length => "expected " ++ toString (n * 2) ++ " hex chars, got " ++ toString length) s

/-- `HansaId::deserialize`, on the string. -/
def HansaId.deserialize (s : String) : HexResult HansaId :=
  (decodeHexText 32 (fun length => "expected 64-char hex hansa id, got " ++ toString length)
    s).map HansaId.mk

/-- `Result::ok`: a returned error is `None`. -/
def HexResult.discard {α : Type} : HexResult α → Result (Option α)
  | .ok x => .ok (some x)
  | .error (.custom _) => .ok none
  | .error .panic => .error .panic

/-- `parse_tenant_hex`. -/
def parseTenantHex (hex : String) : Result (Option TenantId) :=
  if (utf8 hex).length ≠ 32 then .ok none
  else (HexResult.discard (decodeHexPairs 16 (utf8 hex))).map (Option.map TenantId.mk)

/-! ## The remote listing -/

/-- An entry of a remote listing of sagas. -/
structure SagaEntry where
  /-- The tenant id, in hex as the remote sent it. -/
  tenantIdHex : String
  /-- The time of the saga's last modification at the remote. -/
  lastModified : Int64

/-- A `SystemTime`, as nanoseconds since the epoch. -/
abbrev SystemTime := Int

/-- `duration_since` the epoch in whole seconds; a time before the epoch has none. -/
def SystemTime.secsSinceEpoch (time : SystemTime) : Option UInt64 :=
  if time < 0 then none else some (UInt64.ofNat (time.toNat / 10 ^ 9))

/-- `should_fetch`, by the metadata of the file, where it has any, and by the time of modification
that these have, where the system tells one. -/
def shouldFetch (metadata : Option (Option SystemTime)) (remoteMtime : Int64) : Bool :=
  match metadata with
  | some modified =>
    let localMtime := ((modified.bind SystemTime.secsSinceEpoch).map UInt64.toInt64).getD 0
    localMtime < remoteMtime
  | none => true

/-- What pulling sagas asks of the client of a peer and of the disk. -/
structure SagaSource (Disk : Type) where
  /-- `SagaClient::list`. -/
  list : RemotePeer → Except String (List SagaEntry)
  /-- `std::fs::metadata` of the file of this name in the directory of sagas, and `modified`. -/
  metadata : Disk → String → Option (Option SystemTime)
  /-- `fetch_to_path`, with the disk it leaves. -/
  fetchToPath : Disk → RemotePeer → TenantId → String → Except String Unit × Disk

variable {Disk : Type}

/-- The inner loop of `pull_sagas_into`, over the entries of one listing. -/
def pullEntries (source : SagaSource Disk) (peer : RemotePeer) (downloaded : Nat) (disk : Disk) :
    List SagaEntry → Result (Nat × Disk)
  | [] => .ok (downloaded, disk)
  | entry :: entries =>
    let dest := entry.tenantIdHex ++ ".saga"
    if shouldFetch (source.metadata disk dest) entry.lastModified = false then
      pullEntries source peer downloaded disk entries
    else match parseTenantHex entry.tenantIdHex with
      | .error fault => .error fault
      | .ok none => pullEntries source peer downloaded disk entries
      | .ok (some tenantId) =>
        match source.fetchToPath disk peer tenantId dest with
        | (.ok (), disk) => pullEntries source peer (downloaded + 1) disk entries
        | (.error _, disk) => pullEntries source peer downloaded disk entries

/-- The outer loop of `pull_sagas_into`: a remote whose listing fails is skipped. -/
def pullRemotes (source : SagaSource Disk) (downloaded : Nat) (disk : Disk) :
    List RemotePeer → Result (Nat × Disk)
  | [] => .ok (downloaded, disk)
  | peer :: peers =>
    match source.list peer with
    | .error _ => pullRemotes source downloaded disk peers
    | .ok entries => do
      let (downloaded, disk) ← pullEntries source peer downloaded disk entries
      pullRemotes source downloaded disk peers

/-- `HybridRegistry::pull_sagas_into`, behind the creation of the directory: the number of
sagas downloaded, and the disk. -/
def HybridRegistry.pullSagasInto (source : SagaSource Disk) (h : HybridRegistry) (disk : Disk) :
    Result (Nat × Disk) := pullRemotes source 0 disk h.remotes

end Hansa
