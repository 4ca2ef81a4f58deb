import Hansa.Registry
import Hansa.Sort

/-!
# The hybrid registry

A hansa that spans machines keeps one local registry and asks remote peers for their members
over HTTP. Writes go to the local registry alone. A read of the members starts from the local
ones, which replay vouches for, and adds every record of a remote answer whose tenant is not
listed yet; an answer that fails or does not decode is logged and skipped. The HTTP client
belongs to another crate and the JSON decoder of member records to `serde_json`.
-/

namespace Hansa

/-- `serde_json::from_slice::<Vec<MemberRecord>>`; an error is its display text. -/
abbrev RosterJson := List UInt8 → Except String (List MemberRecord)

/-- `SagaClient::fetch_members_raw`, of a client for one peer: the answer for a hansa, given in
hex. -/
abbrev SagaClient := String → Except String (List UInt8)

/-- `RemotePeer`: a peer's server and the client that asks it. -/
structure RemotePeer where
  /-- Base URL of the peer's server. -/
  baseUrl : String
  /-- The client. -/
  client : SagaClient

/-- `fetch_with_client`: an empty answer lists nobody. -/
def fetchWithClient (parse : RosterJson) (client : SagaClient) (hansa : HansaId) :
    Except String (List MemberRecord) :=
  match client hansa.asHex with
  | .error e => .error ("fetch: " ++ e)
  | .ok bytes =>
    if bytes = [] then .ok []
    else match parse bytes with
      | .error e => .error ("decode: " ++ e)
      | .ok members => .ok members

/-- The inner loop of `members`: a record is added unless its tenant is listed. -/
def mergeMembers (all : List MemberRecord) : List MemberRecord → List MemberRecord
  | [] => all
  | m :: members =>
    if all.any fun x => x.tenantId = m.tenantId then mergeMembers all members
    else mergeMembers (all ++ [m]) members

/-- The outer loop of `members`: a remote that fails is skipped. -/
def mergeRemotes (parse : RosterJson) (hansa : HansaId) (all : List MemberRecord) :
    List RemotePeer → List MemberRecord
  | [] => all
  | peer :: peers =>
    match fetchWithClient parse peer.client hansa with
    | .ok members => mergeRemotes parse hansa (mergeMembers all members) peers
    | .error _ => mergeRemotes parse hansa all peers

/-- `HybridRegistry`: a local registry and the remote peers, each under its own URL. -/
structure HybridRegistry where
  /-- The local registry. -/
  localRegistry : FileRegistry
  /-- The remote peers, in the order in which they were added. -/
  remotes : List RemotePeer
  /-- No URL is added twice. -/
  distinct : (remotes.map RemotePeer.baseUrl).Nodup

namespace HybridRegistry

/-- `HybridRegistry::new`. -/
def new (localRegistry : FileRegistry) : HybridRegistry := ⟨localRegistry, [], List.nodup_nil⟩

/-- `HybridRegistry::add_remote`, with `SagaClient::new` as a parameter. -/
def addRemote (connect : String → SagaClient) (h : HybridRegistry) (url : String) :
    HybridRegistry :=
  if known : url ∈ h.remotes.map RemotePeer.baseUrl then h
  else
    { localRegistry := h.localRegistry
      remotes := h.remotes ++ [⟨url, connect url⟩]
      distinct := by
        rw [List.map_append, List.map_singleton, ← List.concat_eq_append]
        exact h.distinct.concat known }

/-- `HybridRegistry::remove_remote`. -/
def removeRemote (h : HybridRegistry) (url : String) : HybridRegistry where
  localRegistry := h.localRegistry
  remotes := h.remotes.filter fun peer => peer.baseUrl ≠ url
  distinct := h.distinct.sublist (List.filter_sublist.map _)

/-- `HybridRegistry::fetch_remote_members`. -/
def fetchRemoteMembers (h : HybridRegistry) (parse : RosterJson) (url : String)
    (hansa : HansaId) : Result (List MemberRecord) :=
  match h.remotes.find? fun peer => peer.baseUrl = url with
  | none => fail (.invariant ("unknown remote: " ++ url))
  | some peer =>
    match fetchWithClient parse peer.client hansa with
    | .ok members => .ok members
    | .error e => fail (.invariant ("invariant: " ++ e))

/-- `HybridRegistry::members`: the local members and those the remotes add, in the order of
their ids. -/
def members (c : Build) (json : LinkJson) (parse : RosterJson) (sort : StdSort)
    (h : HybridRegistry) (hansa : HansaId) : FileM (List MemberRecord) := do
  let all ← h.localRegistry.members c json hansa
  .ofResult (sort.sortBy (fun a b => compare a.tenantId b.tenantId)
    (mergeRemotes parse hansa all h.remotes))

end HybridRegistry

end Hansa
