import Hansa.Saga

/-!
# Proportional allocation of a remote budget

The remote budget is split over the scored peers in proportion to their scores, with a floor
for each peer and a cap on the number of peers. A first pass gives each peer its share or the
floor; the sum is then brought to the total, down from the last peers or up from the first.
-/

namespace Hansa

/-- `DEFAULT_MAX_PEERS`: cap on how many peers one query fans out to. -/
def defaultMaxPeers : Nat := 8

/-- `PeerAllocation`: one peer's share of the remote budget. -/
structure PeerAllocation where
  /-- The peer to query. -/
  member : MemberRecord
  /-- How many records this peer may return. -/
  budget : UInt32
  deriving DecidableEq

/-- A sum on `u32`, which panics in a development build when it overflows. -/
def UInt32.addIn (profile : Profile) (x y : UInt32) : Result UInt32 :=
  if profile = .dev ∧ 2 ^ 32 ≤ x.toNat + y.toNat then .error .panic else .ok (x + y)

/-- A difference on `u32`, which panics in a development build when it underflows. -/
def UInt32.subIn (profile : Profile) (x y : UInt32) : Result UInt32 :=
  if profile = .dev ∧ x.toNat < y.toNat then .error .panic else .ok (x - y)

/-- `alloc.iter().sum()` on `u32`, from a partial sum. -/
def sumU32 (profile : Profile) (acc : UInt32) : List UInt32 → Result UInt32
  | [] => .ok acc
  | x :: xs => do
    let acc ← UInt32.addIn profile acc x
    sumU32 profile acc xs

section FirstPass

variable {F D : Type} [FloatLike F] [FloatLike D] [Widen F D]

/-- The shifted scores: the lowest is at a small positive number. -/
def shiftScores (scores : List F) : List F :=
  let minScore := scores.foldl FloatLike.min FloatLike.infinity
  scores.map fun s => (s - minScore) + 1e-3

/-- The first pass: floor of the proportional share, and the floor for each peer. -/
def firstPass (scores : List F) (total minPerPeer : UInt32) : List UInt32 :=
  let shifted := (shiftScores scores).map (widen : F → D)
  let sum := FloatLike.sum shifted
  shifted.map fun s =>
    let share := FloatLike.floorToU32 (s / sum * FloatLike.ofNat total.toNat)
    max share minPerPeer

end FirstPass

/-- Take one from the last slot above the floor, if there is one. -/
def decrementLast (minPerPeer : UInt32) (alloc : List UInt32) : Option (List UInt32) :=
  match alloc with
  | [] => none
  | x :: xs =>
    match decrementLast minPerPeer xs with
    | some xs => some (x :: xs)
    | none => if minPerPeer < x then some ((x - 1) :: xs) else none

/-- Nothing is taken only when no slot is above the floor. -/
theorem decrementLast_eq_none {minPerPeer : UInt32} {alloc : List UInt32}
    (none_ : decrementLast minPerPeer alloc = none) : ∀ x ∈ alloc, x ≤ minPerPeer := by
  induction alloc with
  | nil => exact fun _ absent => nomatch absent
  | cons x xs ih =>
    unfold decrementLast at none_
    split at none_
    · cases none_
    · next last =>
      split at none_
      · cases none_
      · next least => exact List.forall_mem_cons.mpr ⟨UInt32.not_lt.mp least, ih last⟩

/-- One is taken from a slot above the floor that has none above the floor behind it. -/
theorem decrementLast_eq_some {minPerPeer : UInt32} {alloc rest : List UInt32}
    (found : decrementLast minPerPeer alloc = some rest) :
    ∃ front x back, alloc = front ++ x :: back ∧ rest = front ++ (x - 1) :: back ∧
      minPerPeer < x ∧ ∀ y ∈ back, y ≤ minPerPeer := by
  induction alloc generalizing rest with
  | nil => cases found
  | cons x xs ih =>
    unfold decrementLast at found
    split at found
    · next xs' later =>
      obtain rfl := Option.some.inj found
      obtain ⟨front, y, back, rfl, rfl, above, least⟩ := ih later
      exact ⟨x :: front, y, back, rfl, rfl, above, least⟩
    · next last =>
      split at found
      · next above =>
        obtain rfl := Option.some.inj found
        exact ⟨[], x, xs, rfl, rfl, above, decrementLast_eq_none last⟩
      · cases found

/-- Taking one keeps the number of slots. -/
theorem decrementLast_length {minPerPeer : UInt32} {alloc rest : List UInt32}
    (found : decrementLast minPerPeer alloc = some rest) : rest.length = alloc.length := by
  obtain ⟨front, x, back, rfl, rfl, -, -⟩ := decrementLast_eq_some found
  simp only [List.length_append, List.length_cons]

/-- The loop that brings an overspent allocation down to the total. -/
def trimDown (profile : Profile) (total minPerPeer : UInt32) (alloc : List UInt32)
    (spent : UInt32) : Result (List UInt32 × UInt32) :=
  if running : total < spent ∧ alloc ≠ [] then
    match found : decrementLast minPerPeer alloc with
    | some rest => trimDown profile total minPerPeer rest (spent - 1)
    | none => do
      let spent ← UInt32.subIn profile spent (alloc.getLast running.2)
      trimDown profile total minPerPeer alloc.dropLast spent
  else .ok (alloc, spent)
termination_by (alloc.length, spent.toNat)
decreasing_by
  · have below := UInt32.lt_iff_toNat_lt.mp running.1
    rw [decrementLast_length found, UInt32.toNat_sub_of_le _ _ (UInt32.le_iff_toNat_le.mpr (by
      simp only [UInt32.toNat_one]; omega))]
    exact Prod.Lex.right _ (by simp only [UInt32.toNat_one]; omega)
  · refine Prod.Lex.left _ _ ?_
    have filled := List.length_pos_iff.mpr running.2
    rw [List.length_dropLast]
    omega

/-- The loop that hands out what is left, one by one from the first peer on. -/
def topUp (profile : Profile) (alloc : List UInt32) (idx : Nat) : Nat → Result (List UInt32)
  | 0 => .ok alloc
  | left + 1 =>
    match alloc[idx % alloc.length]? with
    | none => .ok alloc
    | some slot => do
      let slot ← UInt32.addIn profile slot 1
      topUp profile (alloc.set (idx % alloc.length) slot) (idx + 1) left

variable {F : Type} [FloatLike F]

/-- `proportional_allocation`. -/
def proportionalAllocation (D : Type) [FloatLike D] [Widen F D] (profile : Profile)
    (scored : List (MemberRecord × F)) (total minPerPeer : UInt32) (maxPeers : Nat) :
    Result (List PeerAllocation) :=
  if scored = [] ∨ total = 0 ∨ maxPeers = 0 then .ok []
  else do
    let trimmed := scored.take maxPeers
    let alloc := firstPass (D := D) (trimmed.map Prod.snd) total minPerPeer
    let spent ← sumU32 profile 0 alloc
    let (alloc, spent) ← trimDown profile total minPerPeer alloc spent
    let alloc ← topUp profile alloc 0 (total.toNat - spent.toNat)
    .ok (List.zipWith (fun peer budget => ⟨peer.1, budget⟩) trimmed alloc)

end Hansa
