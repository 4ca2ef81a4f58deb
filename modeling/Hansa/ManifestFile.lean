import Hansa.Manifest

/-!
# The file of one peer's manifest

A bump reads the peer's file, adds to one counter and writes the whole manifest back. JSON
encoding is the parameter `ManifestJson`. A manifest is written to the file of the id it
carries, so a file that carries another id is left alone, and the bump goes to that other file.
-/

namespace Hansa

/-- `serde_json` at the type `PeerManifest`. Every manifest can be encoded. -/
structure ManifestJson where
  /-- `serde_json::to_vec`. -/
  toVec : PeerManifest → List UInt8
  /-- `serde_json::from_slice`, with its error left out. -/
  fromSlice : List UInt8 → Option PeerManifest

/-- The calls that change a peer's manifest, `bump_total` and `bump_useful`. -/
inductive Bump where
  /-- `bump_total`. -/
  | total (delta : UInt64)
  /-- `bump_useful`, at the time of the call in Unix seconds. -/
  | useful (delta now : UInt64)

/-- What a call changes in the manifest it read. -/
def Bump.apply (m : PeerManifest) : Bump → PeerManifest
  | total delta => { m with totalHits := UInt64.saturatingAdd m.totalHits delta }
  | useful delta now =>
    { m with usefulHits := UInt64.saturatingAdd m.usefulHits delta, lastUsefulAt := now }

/-- `ManifestStore::read`, on the content of the peer's file. -/
def readManifest (json : ManifestJson) (peer : TenantId) (file : Option (List UInt8)) :
    PeerManifest :=
  (file.bind json.fromSlice).getD (PeerManifest.empty peer)

/-- The content a bump computes for the peer's file; an error is the id of the other file that
it writes. -/
def bumpFile (json : ManifestJson) (peer : TenantId) (bump : Bump) (file : Option (List UInt8)) :
    Except TenantId (List UInt8) :=
  let m := bump.apply (readManifest json peer file)
  if m.peerId = peer then .ok (json.toVec m) else .error m.peerId

end Hansa
