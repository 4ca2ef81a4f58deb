import Hansa.Library.Transition
import Hansa.Verif.Crossing
import Hansa.Verif.ManifestRace

/-!
# Accounts of hits

One process queries and marks returned hits useful, in any order. While no hit is marked twice,
each peer's manifest is an account: its total is the number of hits that were merged from the
peer, its useful hits are those that were marked, and there are never more of these.
-/

namespace Hansa

variable {F : Type}

/-- The number of hits that are attributed to a peer. -/
def hitsOf (peer : TenantId) (hits : List (MembraneHit F)) : Nat :=
  hits.countP fun h => h.origin = .remote peer

/-- Hits of some lists are those of each. -/
theorem hitsOf_append (peer : TenantId) (hits more : List (MembraneHit F)) :
    hitsOf peer (hits ++ more) = hitsOf peer hits + hitsOf peer more := List.countP_append

/-- An arrangement has the same hits. -/
theorem hitsOf_perm (peer : TenantId) {hits hits' : List (MembraneHit F)}
    (moved : hits.Perm hits') : hitsOf peer hits = hitsOf peer hits' := moved.countP_eq _

/-- A part has no more hits. -/
theorem hitsOf_sublist (peer : TenantId) {part whole : List (MembraneHit F)}
    (inside : part.Sublist whole) : hitsOf peer part ≤ hitsOf peer whole := inside.countP_le

/-- Local hits are attributed to no peer. -/
theorem hitsOf_remote (peer : TenantId) (hits : List (MembraneHit F)) :
    hitsOf peer (hits.filter fun h => h.origin ≠ .local) = hitsOf peer hits := by
  rw [hitsOf, hitsOf, List.countP_filter]
  apply List.countP_congr
  intro h _
  cases h.origin <;> simp

/-! ## Bumps for each peer -/

/-- The counts of a peer. -/
theorem hitCounts_of_mem {hits : List (MembraneHit F)} {counted : TenantId × UInt64}
    (member : counted ∈ hitCounts hits) :
    counted.2 = UInt64.ofNat (hitsOf counted.1 hits) := by
  obtain ⟨peer, -, same⟩ := List.mem_map.mp member
  rw [← same]
  clear member same
  refine congrArg UInt64.ofNat (?_ : _ = hitsOf peer hits)
  induction hits with
  | nil => rfl
  | cons h hits ih =>
    rw [hitsOf, List.countP_cons, ← hitsOf, ← ih]
    cases origin : h.origin with
    | «local» => simp [origin]
    | remote tenantId =>
      rw [List.filterMap_cons_some (b := tenantId) (by rw [origin]), List.count_cons]
      simp

/-- Each peer is counted once. -/
theorem nodup_hitCounts (hits : List (MembraneHit F)) :
    ((hitCounts hits).map Prod.fst).Nodup := by
  rw [hitCounts, List.map_map]
  exact (List.map_id _).symm ▸ List.nodup_dedup _

/-- A bump of one peer's manifest in the store. -/
def Bump.onStore (store : ManifestStore) (peer : TenantId) : Bump → ManifestStore
  | total delta => store.bumpTotal peer delta
  | useful delta now => store.bumpUseful peer delta now

/-- A bump changes the manifest of its peer alone. -/
theorem Bump.onStore_read {store : ManifestStore} (coherent : store.Coherent) (peer : TenantId)
    (bump : Bump) :
    (bump.onStore store peer).Coherent ∧
      (bump.onStore store peer).read peer = bump.apply (store.read peer) ∧
      ∀ tenant, tenant ≠ peer → bump.onStore store peer tenant = store tenant := by
  cases bump with
  | total delta =>
    exact ⟨coherent.write _, (read_bump_store store (coherent.read peer) delta 0).1,
      fun _ => coherent.write_other rfl⟩
  | useful delta now =>
    exact ⟨coherent.write _, (read_bump_store store (coherent.read peer) delta now).2,
      fun _ => coherent.write_other rfl⟩

/-- What is added to the counters of a manifest. -/
structure Adds (m : PeerManifest) (total useful : UInt64) (m' : PeerManifest) : Prop where
  /-- Added to the total. -/
  total : m'.totalHits = UInt64.saturatingAdd m.totalHits total
  /-- Added to the useful hits. -/
  useful : m'.usefulHits = UInt64.saturatingAdd m.usefulHits useful

/-- Nothing more is counted. -/
theorem saturatingAdd_zero (x : UInt64) : UInt64.saturatingAdd x 0 = x := by
  have same := saturatingAdd_saturate x.toNat 0
  rw [saturate_toNat] at same
  exact same.trans (saturate_toNat x)

/-- A bump adds to the counters. -/
theorem Bump.adds (bump : Bump) (m : PeerManifest) :
    Adds m bump.totalDelta bump.usefulDelta (bump.apply m) := by
  cases bump with
  | total delta => exact ⟨rfl, (saturatingAdd_zero _).symm⟩
  | useful delta now => exact ⟨(saturatingAdd_zero _).symm, rfl⟩

/-- A bump for each counted peer. -/
def bumpEach (kind : TenantId × UInt64 → Bump) (store : ManifestStore)
    (counts : List (TenantId × UInt64)) : ManifestStore :=
  counts.foldl (fun store counted => (kind counted).onStore store counted.1) store

variable {kind : TenantId × UInt64 → Bump} {counts : List (TenantId × UInt64)}
  {store : ManifestStore}

/-- Bumps leave the manifests of other peers. -/
theorem bumpEach_frame (coherent : store.Coherent) {tenant : TenantId}
    (absent : tenant ∉ counts.map Prod.fst) : bumpEach kind store counts tenant = store tenant :=
  foldl_bump_frame (fun store counted => (kind counted).onStore store counted.1)
    (fun _ counted coherent => ⟨(Bump.onStore_read coherent counted.1 _).1,
      (Bump.onStore_read coherent counted.1 _).2.2⟩) coherent absent

/-- When each peer is counted once, its manifest is bumped once. -/
theorem bumpEach_read (kind : TenantId × UInt64 → Bump) (coherent : store.Coherent)
    (apart : (counts.map Prod.fst).Nodup) :
    (bumpEach kind store counts).Coherent ∧ ∀ counted ∈ counts,
      (bumpEach kind store counts).read counted.1 =
        (kind counted).apply (store.read counted.1) := by
  induction counts generalizing store with
  | nil => exact ⟨coherent, fun _ absent => nomatch absent⟩
  | cons first counts ih =>
    obtain ⟨kept, bumped, others⟩ := Bump.onStore_read coherent first.1 (kind first)
    rw [List.map_cons, List.nodup_cons] at apart
    obtain ⟨coherent', later⟩ := ih kept apart.2
    refine ⟨coherent', List.forall_mem_cons.mpr ⟨?_, fun counted member => ?_⟩⟩
    · have frame : bumpEach kind store (first :: counts) first.1 =
          (kind first).onStore store first.1 first.1 := bumpEach_frame kept apart.1
      rw [ManifestStore.read, frame]
      exact bumped
    · have other : counted.1 ≠ first.1 := fun same =>
        apart.1 (same ▸ List.mem_map_of_mem member)
      have kept' : ((kind first).onStore store first.1).read counted.1 =
          store.read counted.1 := by
        rw [ManifestStore.read, others _ other]
        rfl
      rw [← kept']
      exact later counted member

/-- Peers that are not counted have no hits. -/
theorem hitsOf_eq_zero {hits : List (MembraneHit F)} {peer : TenantId}
    (absent : peer ∉ (hitCounts hits).map Prod.fst) : hitsOf peer hits = 0 := by
  apply List.countP_eq_zero.mpr
  intro h member
  rw [decide_eq_true_eq]
  exact fun origin => absent (mem_hitCounts.mpr ⟨h, member, origin⟩)

/-- Bumps by the counts of hits add each peer's hits to its counters. -/
theorem bumpEach_adds (kind : TenantId × UInt64 → Bump) (coherent : store.Coherent)
    (nothing : ∀ peer, (kind (peer, 0)).totalDelta = 0 ∧ (kind (peer, 0)).usefulDelta = 0)
    (hits : List (MembraneHit F)) (peer : TenantId) :
    Adds (store.read peer) (kind (peer, UInt64.ofNat (hitsOf peer hits))).totalDelta
      (kind (peer, UInt64.ofNat (hitsOf peer hits))).usefulDelta
      ((bumpEach kind store (hitCounts hits)).read peer) := by
  by_cases known : peer ∈ (hitCounts hits).map Prod.fst
  · obtain ⟨counted, member, same⟩ := List.mem_map.mp known
    have isCount : (peer, UInt64.ofNat (hitsOf peer hits)) = counted := by
      rw [← same, ← hitCounts_of_mem member]
    have read := (bumpEach_read kind coherent (nodup_hitCounts hits)).2 counted member
    rw [isCount, ← same, read]
    exact Bump.adds _ _
  · have kept : (bumpEach kind store (hitCounts hits)).read peer = store.read peer := by
      rw [ManifestStore.read, bumpEach_frame coherent known]
      rfl
    have zero : UInt64.ofNat (hitsOf peer hits) = 0 := congrArg _ (hitsOf_eq_zero known)
    rw [kept, zero, (nothing peer).1, (nothing peer).2]
    exact ⟨(saturatingAdd_zero _).symm, (saturatingAdd_zero _).symm⟩

/-- Counting merged hits adds each peer's hits to its total. -/
theorem bumpTotals_adds {manifests : ManifestStore} (coherent : manifests.Coherent)
    (hits : List (MembraneHit F)) :
    (bumpTotals manifests hits).Coherent ∧ ∀ peer, Adds (manifests.read peer)
      (UInt64.ofNat (hitsOf peer hits)) 0 ((bumpTotals manifests hits).read peer) :=
  ⟨(bumpEach_read (fun counted => .total counted.2) coherent (nodup_hitCounts hits)).1,
    bumpEach_adds (fun counted => .total counted.2) coherent (fun _ => ⟨rfl, rfl⟩) hits⟩

/-- Marking hits adds each peer's hits to its useful ones. -/
theorem markUseful_adds {manifests : ManifestStore} (coherent : manifests.Coherent)
    (hits : List (MembraneHit F)) (clock : TenantId → UInt64) :
    (markUseful manifests hits clock).Coherent ∧ ∀ peer, Adds (manifests.read peer) 0
      (UInt64.ofNat (hitsOf peer hits)) ((markUseful manifests hits clock).read peer) :=
  ⟨(bumpEach_read (fun counted => .useful counted.2 (clock counted.1)) coherent
      (nodup_hitCounts hits)).1,
    bumpEach_adds (fun counted => .useful counted.2 (clock counted.1)) coherent
      (fun _ => ⟨rfl, rfl⟩) hits⟩

/-! ## Accounts -/

/-- One use of the manifests, with the hits that it is about. -/
inductive HitUse (F : Type) where
  /-- A query merged these remote hits. -/
  | queried (merged : List (MembraneHit F))
  /-- Returned hits were marked useful. -/
  | marked (hits : List (MembraneHit F))

/-- The hits of a peer that queries merged. -/
def mergedFrom (peer : TenantId) (uses : List (HitUse F)) : Nat :=
  (uses.map fun use => match use with
    | .queried merged => hitsOf peer merged
    | .marked _ => 0).sum

/-- The hits of a peer that were marked useful. -/
def markedFrom (peer : TenantId) (uses : List (HitUse F)) : Nat :=
  (uses.map fun use => match use with
    | .queried _ => 0
    | .marked hits => hitsOf peer hits).sum

/-- The manifests, and the returned hits that were not marked yet. -/
structure HitLedger (F : Type) where
  /-- The manifests. -/
  manifests : ManifestStore
  /-- The hits that may still be marked. -/
  unmarked : List (MembraneHit F)

/-- How the process uses the manifests: it queries, on either path, or marks hits that were
returned and not marked yet. A list has fewer than 2^64 hits. -/
inductive HitLedger.Step (D : Type) [FloatLike F] [FloatLike D] [Widen F D] :
    HitLedger F → HitUse F → HitLedger F → Prop where
  /-- A query. -/
  | queried {s : HitLedger F} (q : MembraneQuery F) (env : QueryEnv F) (path : Path)
      {merged : Merged F} (before : env.manifests = s.manifests)
      (ran : q.merge D env path.collect = .ok merged)
      (fits : merged.remote.length < 2 ^ 64) :
      Step D s (.queried merged.remote)
        ⟨merged.manifests, s.unmarked ++ truncateToBudget merged.hits q.budget.maxTotalRecords⟩
  /-- Hits are marked. -/
  | marked {s : HitLedger F} {hits rest : List (MembraneHit F)} (clock : TenantId → UInt64)
      (returned : s.unmarked.Perm (hits ++ rest)) (fits : hits.length < 2 ^ 64) :
      Step D s (.marked hits) ⟨markUseful s.manifests hits clock, rest⟩

/-- The manifests are accounts of the uses. -/
structure Accounts (s : HitLedger F) (uses : List (HitUse F)) : Prop where
  /-- Every manifest is in the file of its own peer. -/
  coherent : s.manifests.Coherent
  /-- Totals count the hits that were merged. -/
  total : ∀ peer, (s.manifests.read peer).totalHits = saturate (mergedFrom peer uses)
  /-- Useful hits count those that were marked. -/
  useful : ∀ peer, (s.manifests.read peer).usefulHits = saturate (markedFrom peer uses)
  /-- What was marked or may still be marked was merged. -/
  covered : ∀ peer, markedFrom peer uses + hitsOf peer s.unmarked ≤ mergedFrom peer uses

/-- Hits of a list that fits are counted exactly. -/
theorem toNat_hitsOf (peer : TenantId) {hits : List (MembraneHit F)}
    (fits : hits.length < 2 ^ 64) : (UInt64.ofNat (hitsOf peer hits)).toNat = hitsOf peer hits :=
  UInt64.toNat_ofNat_of_lt' (Nat.lt_of_le_of_lt List.countP_le_length fits)

variable {D : Type} [FloatLike F] [FloatLike D] [Widen F D]

/-- One more use keeps the accounts. -/
theorem Accounts.step {s t : HitLedger F} {uses : List (HitUse F)} {use : HitUse F}
    (accounts : Accounts s uses) (next : HitLedger.Step D s use t) :
    Accounts t (uses ++ [use]) := by
  cases next with
  | queried q env path before ran fits =>
    rename_i merged
    obtain ⟨_, remote, _, answers, _, counted, _⟩ := merge_ok ran
    have same : ∀ peer, hitsOf peer remote = hitsOf peer merged.remote := fun peer =>
      hitsOf_perm peer (answers.trans (remote_perm ran).symm)
    have coherent : env.manifests.Coherent := before ▸ accounts.coherent
    obtain ⟨kept, adds⟩ := bumpTotals_adds coherent remote
    rw [← counted] at kept adds
    have merges : ∀ peer, mergedFrom peer (uses ++ [.queried merged.remote]) =
        mergedFrom peer uses + hitsOf peer merged.remote := by
      intro peer
      simp [mergedFrom]
    have marks : ∀ peer, markedFrom peer (uses ++ [.queried merged.remote]) =
        markedFrom peer uses := by
      intro peer
      simp [markedFrom]
    refine ⟨kept, fun peer => ?_, fun peer => ?_, fun peer => ?_⟩
    · rw [(adds peer).total, before, accounts.total, saturatingAdd_saturate, merges, same,
        toNat_hitsOf peer fits]
    · rw [(adds peer).useful, before, accounts.useful, saturatingAdd_zero, marks]
    · have returned : hitsOf peer (truncateToBudget merged.hits q.budget.maxTotalRecords) ≤
          hitsOf peer merged.remote := by
        rw [Merged.remote, hitsOf_remote]
        exact hitsOf_sublist peer (List.take_sublist _ _)
      have covered := accounts.covered peer
      rw [merges, marks, hitsOf_append]
      omega
  | marked clock returned fits =>
    rename_i hits rest
    obtain ⟨kept, adds⟩ := markUseful_adds accounts.coherent hits clock
    have merges : ∀ peer, mergedFrom peer (uses ++ [.marked hits]) = mergedFrom peer uses := by
      intro peer
      simp [mergedFrom]
    have marks : ∀ peer, markedFrom peer (uses ++ [.marked hits]) =
        markedFrom peer uses + hitsOf peer hits := by
      intro peer
      simp [markedFrom]
    refine ⟨kept, fun peer => ?_, fun peer => ?_, fun peer => ?_⟩
    · rw [(adds peer).total, accounts.total, saturatingAdd_zero, merges]
    · rw [(adds peer).useful, accounts.useful, saturatingAdd_saturate, marks,
        toNat_hitsOf peer fits]
    · have split := hitsOf_perm peer returned
      have covered := accounts.covered peer
      rw [hitsOf_append] at split
      rw [merges, marks]
      show markedFrom peer uses + hitsOf peer hits + hitsOf peer rest ≤ mergedFrom peer uses
      omega

/-- In every run from no manifests on, each peer's total is the number of hits that queries merged
from it, its useful hits are those of them that were marked, both cut at 2^64 - 1, and no peer
has more useful hits than hits. -/
theorem hits_accounted {uses : List (HitUse F)} {s : HitLedger F}
    (run : Run (HitLedger.Step D) ⟨fun _ => none, []⟩ uses s) (peer : TenantId) :
    (s.manifests.read peer).totalHits = saturate (mergedFrom peer uses) ∧
      (s.manifests.read peer).usefulHits = saturate (markedFrom peer uses) ∧
      (s.manifests.read peer).usefulHits ≤ (s.manifests.read peer).totalHits := by
  have start : Accounts (⟨fun _ => none, []⟩ : HitLedger F) [] :=
    ⟨fun _ _ held => (Option.some_ne_none _ held.symm).elim, fun _ => rfl, fun _ => rfl,
      fun _ => Nat.le_refl 0⟩
  have accounts := run.labelled Accounts start fun _ _ _ _ accounts next => accounts.step next
  have covered := accounts.covered peer
  refine ⟨accounts.total peer, accounts.useful peer, ?_⟩
  rw [accounts.total, accounts.useful, UInt64.le_iff_toNat_le, toNat_saturate, toNat_saturate]
  omega

/-- A query returns the hit of one peer, and the hit is marked. -/
theorem hits_accounted_sample :
    ∃ (merged returned : List (MembraneHit Float32)) (s : HitLedger Float32),
      Run (HitLedger.Step Float) ⟨fun _ => none, []⟩ [.queried merged, .marked returned] s ∧
        (s.manifests.read (sampleTenant 7)).usefulHits ≤
          (s.manifests.read (sampleTenant 7)).totalHits := by
  obtain ⟨merged, ran⟩ := merges_askingQuery sharingOpener .sync
  have answers := (remote_perm ran).length_eq
  rw [asked_askingQuery, List.flatMap_singleton, answer_sharing, List.length_singleton] at answers
  have queried := HitLedger.Step.queried (s := ⟨fun _ => none, []⟩) (askingQuery sharingOpener)
    sampleEnv .sync rfl ran (by omega)
  have short := List.length_take_le (askingQuery sharingOpener).budget.maxTotalRecords.toNat
    merged.hits
  have small : (askingQuery sharingOpener).budget.maxTotalRecords.toNat = 1 := rfl
  let returned := truncateToBudget merged.hits
    (askingQuery sharingOpener).budget.maxTotalRecords
  have all : ([] ++ returned).Perm (returned ++ []) := by rw [List.append_nil]; rfl
  have fits : returned.length < 2 ^ 64 := by
    show (List.take _ _).length < 2 ^ 64
    omega
  have marked := HitLedger.Step.marked (D := Float) (s := ⟨merged.manifests, [] ++ returned⟩)
    (fun _ => 0) all fits
  have run := (Run.nil.concat queried).concat marked
  exact ⟨_, _, _, run, (hits_accounted run (sampleTenant 7)).2.2⟩

end Hansa
