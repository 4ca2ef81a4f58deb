import Mathlib.Algebra.Order.Ring.Nat

/-!
# Errors of the crate

`HansaError` lists the errors the crate returns. A call can also panic: an arithmetic
overflow, an index out of bounds and a failed assertion unwind past every `?` and every
`match` on a returned error. `Fault` keeps the two apart, so that a definition which handles
a returned error cannot handle a panic by accident.
-/

namespace Hansa

/-- `HansaError`; errors of other crates are carried by their display text. -/
inductive HansaError where
  /-- I/O failure on a hansa-managed file. -/
  | io (message : String)
  /-- Hull format error of a saga file. -/
  | hull (message : String)
  /-- Rigging error on opening a vault. -/
  | openVault (message : String)
  /-- Rigging error on a query. -/
  | query (message : String)
  /-- JSON encoding or decoding error. -/
  | json (message : String)
  /-- The keystore has no key in this slot. -/
  | keyNotFound (slot : String)
  /-- A key of the wrong length. -/
  | invalidKeyLength (length : Nat)
  /-- A member whose dimension is not the pinned one. -/
  | dimMismatch (existing joining : UInt32)
  /-- Malformed registry data. -/
  | registryMalformed (message : String)
  /-- Violated invariant. -/
  | invariant (message : String)
  /-- A signature failed to verify. -/
  | badSignature
  /-- A weak public key was rejected. -/
  | weakKey
  /-- Malformed key or signature bytes. -/
  | malformedCrypto (message : String)
  /-- Chain integrity broken at a sequence number. -/
  | chainBroken (seq : UInt64)
  /-- The replayed head regressed below the cached head. -/
  | chainRegressed
  /-- The skipper key does not match the pinned id. -/
  | idMismatch
  /-- A link signed by a key not authorised for this hansa. -/
  | unauthorized
  deriving DecidableEq, Repr

/-- How a call can fail to return a value: a returned error, or a panic. -/
inductive Fault where
  /-- The call returned `Err`. -/
  | err (error : HansaError)
  /-- The call panicked. -/
  | panic
  deriving DecidableEq, Repr

/-- Outcome of a call. -/
abbrev Result (α : Type) := Except Fault α

/-- Return an error. -/
def fail {α : Type} (error : HansaError) : Result α := .error (.err error)

/-- A call goes on with the value that another returned. -/
theorem ok_bind {α β : Type} (x : α) (f : α → Result β) : ((.ok x : Result α) >>= f) = f x := rfl

/-! ## Sums on 64 bits -/

/-- Whether a build checks its debug assertions and its integer overflows. -/
inductive Profile where
  /-- The development profile checks both. -/
  | dev
  /-- The release profile checks neither. -/
  | release
  deriving DecidableEq

/-- A sum on `u64` or `usize`, which panics in a development build when it overflows. -/
def UInt64.addIn (profile : Profile) (x y : UInt64) : Result UInt64 :=
  if profile = .dev ∧ 2 ^ 64 ≤ x.toNat + y.toNat then .error .panic else .ok (x + y)

/-- A sum that fits. -/
theorem UInt64.addIn_eq {profile : Profile} {x y : UInt64} (fits : x.toNat + y.toNat < 2 ^ 64) :
    UInt64.addIn profile x y = .ok (x + y) := by
  apply if_neg
  rintro ⟨_, overflows⟩
  omega

/-- A sum is the sum, where one is returned. -/
theorem UInt64.addIn_ok {profile : Profile} {x y z : UInt64}
    (added : UInt64.addIn profile x y = .ok z) : z = x + y := by
  unfold UInt64.addIn at added
  split at added
  · cases added
  · exact (Except.ok.inj added).symm

/-- `x + 1` on a `u64`. -/
def UInt64.succIn (profile : Profile) (x : UInt64) : Result UInt64 := UInt64.addIn profile x 1

/-- The number has a successor in the build: a release build wraps after the last one. -/
def UInt64.HasSucc (profile : Profile) (x : UInt64) : Prop :=
  profile = .dev → x.toNat + 1 < 2 ^ 64

instance (profile : Profile) : DecidablePred (UInt64.HasSucc profile) := fun x =>
  inferInstanceAs (Decidable (profile = .dev → x.toNat + 1 < 2 ^ 64))

/-- A number below the last one has a successor in every build. -/
theorem UInt64.hasSucc_of_lt {profile : Profile} {x : UInt64} (room : x.toNat + 1 < 2 ^ 64) :
    UInt64.HasSucc profile x := fun _ => room

/-- In a release build every number has a successor. -/
theorem UInt64.hasSucc_release {profile : Profile} (wraps : profile = .release) (x : UInt64) :
    UInt64.HasSucc profile x := fun dev => nomatch wraps.symm.trans dev

/-- A number that has a successor. -/
theorem UInt64.succIn_eq {profile : Profile} {x : UInt64} (room : UInt64.HasSucc profile x) :
    UInt64.succIn profile x = .ok (x + 1) := by
  apply if_neg
  rintro ⟨dev, full⟩
  have below := room dev
  rw [UInt64.toNat_one] at full
  omega

/-- A number without a successor. -/
theorem UInt64.succIn_panic {profile : Profile} {x : UInt64} (full : ¬ UInt64.HasSucc profile x) :
    UInt64.succIn profile x = .error .panic := by
  obtain ⟨dev, above⟩ := Classical.not_imp.mp full
  refine if_pos ⟨dev, ?_⟩
  rw [UInt64.toNat_one]
  omega

/-- What the successor is, where there is one. -/
theorem UInt64.succIn_eq_ok {profile : Profile} {x y : UInt64} :
    UInt64.succIn profile x = .ok y ↔ UInt64.HasSucc profile x ∧ y = x + 1 := by
  constructor
  · intro next
    refine ⟨?_, UInt64.addIn_ok next⟩
    by_contra full
    rw [UInt64.succIn_panic full] at next
    cases next
  · rintro ⟨room, rfl⟩
    exact UInt64.succIn_eq room

/-- The successor of a number below the last one is one more. -/
theorem UInt64.toNat_succ {x : UInt64} (room : x.toNat + 1 < 2 ^ 64) :
    (x + 1).toNat = x.toNat + 1 := by
  rw [UInt64.toNat_add, UInt64.toNat_one]
  exact Nat.mod_eq_of_lt room

/-- A number that is two below the end has a second successor in every build. -/
theorem UInt64.hasSucc_succ {profile : Profile} {x : UInt64} (room : x.toNat + 2 < 2 ^ 64) :
    UInt64.HasSucc profile (x + 1) := by
  apply UInt64.hasSucc_of_lt
  rw [UInt64.toNat_succ (by omega)]
  exact room

/-- A successor is one more, in a development build or below the last number. -/
theorem UInt64.toNat_succIn {profile : Profile} {x y : UInt64}
    (next : UInt64.succIn profile x = .ok y) (counts : profile = .dev ∨ x.toNat + 1 < 2 ^ 64) :
    y.toNat = x.toNat + 1 := by
  obtain ⟨room, rfl⟩ := UInt64.succIn_eq_ok.mp next
  rcases counts with dev | below
  · exact UInt64.toNat_succ (room dev)
  · exact UInt64.toNat_succ below

/-- A successor is one more at most. -/
theorem UInt64.toNat_succIn_le {profile : Profile} {x y : UInt64}
    (next : UInt64.succIn profile x = .ok y) : y.toNat ≤ x.toNat + 1 := by
  obtain ⟨-, rfl⟩ := UInt64.succIn_eq_ok.mp next
  rw [UInt64.toNat_add, UInt64.toNat_one]
  exact Nat.mod_le _ _

end Hansa
