import Hansa.Verif.HandleRun
import Hansa.Verif.Instance

/-!
# A handle on a small log

A log of one checkpoint that lists members, signed by a skipper told apart by a number, and a
handle on the hansa of the first skipper: an instance for the results about handles, and with
the log of another skipper an instance of a replaced log.
-/

namespace Hansa

section Listing

variable (n : UInt8) {members : List MemberRecord}

/-- A checkpoint in which a skipper lists members. -/
def listingLink (members : List MemberRecord) : Link :=
  Link.signed sampleBuild (sampleSkipper n) 0 (Vector.replicate 32 0) (.checkpoint members 3 0)

/-- A checkpoint in which a skipper lists one member. -/
def rosterLink : Link := listingLink n [sampleMember 7]

/-- The log that holds a checkpoint of members. -/
noncomputable def listingLog (members : List MemberRecord) : List UInt8 :=
  utf8 (linkText (listingLink n members)) ++ [10]

/-- The log that holds a checkpoint of one member. -/
noncomputable def rosterLog : List UInt8 := listingLog n [sampleMember 7]

/-- The log reads as its checkpoint, wherever it is. -/
theorem readLog_listingLog (paths : ∀ m ∈ members, m.IsUtf8) (path : PathBuf) :
    readLog sampleJson path (some (listingLog n members)) = .ok [listingLink n members] := by
  have encoded : sampleJson.toString (listingLink n members) =
      .ok (linkText (listingLink n members)) := sampleJson_toString.mpr ⟨paths, rfl⟩
  exact readLog_single sampleJson_lawful path encoded

/-- The log of one member reads as its checkpoint. -/
theorem readLog_rosterLog (path : PathBuf) :
    readLog sampleJson path (some (rosterLog n)) = .ok [rosterLink n] :=
  readLog_listingLog n (by decide) path

/-- The checkpoint replays, and its members are active. -/
theorem replay_listingLink
    (increasing : members.Pairwise (fun a b => a.tenantId < b.tenantId))
    {expected : Option HansaId}
    (pinned : Pinned sampleBuild expected (listingLink n members).signedBy) :
    replay sampleBuild [listingLink n members] expected = .ok
      { skipper := (listingLink n members).signedBy, embeddingDim := 3, active := members,
        headSeq := (listingLink n members).seq,
        headHash := (listingLink n members).hash sampleBuild } := by
  have shape : (listingLink n members).body = .checkpoint members 3 0 := rfl
  have signed : (listingLink n members).Signed sampleBuild :=
    sampleBuild_correct (sampleSkipper n) _
  exact replay_checkpoint shape signed pinned (Roster.keyed_ofRecords members)
    (Roster.lists_ofRecords increasing)

/-- The checkpoint of one member replays. -/
theorem replay_rosterLink {expected : Option HansaId}
    (pinned : Pinned sampleBuild expected (rosterLink n).signedBy) :
    replay sampleBuild [rosterLink n] expected = .ok
      { skipper := (rosterLink n).signedBy, embeddingDim := 3, active := [sampleMember 7],
        headSeq := (rosterLink n).seq, headHash := (rosterLink n).hash sampleBuild } :=
  replay_listingLink n (List.pairwise_singleton _ _) pinned

/-- Any handle on a directory that holds the log reads the members. -/
theorem run_members_listingLog (paths : ∀ m ∈ members, m.IsUtf8)
    (increasing : members.Pairwise (fun a b => a.tenantId < b.tenantId)) (h : Handle Float32)
    {disk : Disk Float32} (holds : disk.dir.log = some (listingLog n members)) :
    (h.members sampleBuild sampleJson).run disk = .ok members disk := by
  have read := readLog_listingLog n paths (h.registry.logPath h.id)
  rw [← holds] at read
  have accepted := replay_listingLink n increasing (pinned_none _ _)
  exact Handle.run_members_ok.mpr ⟨rfl, [listingLink n members], read, .inr ⟨_, accepted, rfl⟩⟩

/-- Any handle on a directory that holds the log of one member reads it. -/
theorem run_members_rosterLog (h : Handle Float32) {disk : Disk Float32}
    (holds : disk.dir.log = some (rosterLog n)) :
    (h.members sampleBuild sampleJson).run disk = .ok [sampleMember 7] disk :=
  run_members_listingLog n (by decide) (List.pairwise_singleton _ _) h holds

end Listing

/-- A handle on the hansa of the first skipper, with a local tenant that holds nothing. -/
def sampleHandle : Handle Float32 where
  id := sampleId 1
  skipper := none
  registry := ⟨⟨[]⟩⟩
  localTenant := ⟨3, 0, [], fun _ _ _ => .ok []⟩
  localTenantId := sampleTenant 1
  localTenantLocation := .http "" none
  peerOpener := none
  defaultBudget := .default
  asyncPeerOpener := none

/-- The files of a member whose registry holds the given log. -/
def sampleDisk (log : Option (List UInt8)) : Disk Float32 where
  dir := ⟨log, []⟩
  sagas := fun _ => none
  manifests := fun _ => none
  head := none

end Hansa
