import Hansa.Library.FloatOrder

/-!
# Floats

Embeddings and scores are `f32` and shares of a budget are `f64`: Lean's `Float32` and
`Float`, with the arithmetic of IEEE 754. `FloatLike` names the operations the program uses,
so that a definition can be read over another arithmetic as well.
-/

namespace Hansa

/-- The operations the program uses on one floating-point format. -/
class FloatLike (F : Type) extends Add F, Sub F, Mul F, Div F, Neg F, OfScientific F where
  /-- `partial_cmp`: no answer when an argument is NaN. -/
  partialCmp : F → F → Option Ordering
  /-- `is_finite`. -/
  isFinite : F → Bool
  /-- `INFINITY`. -/
  infinity : F
  /-- `sqrt`. -/
  sqrt : F → F
  /-- `exp`. -/
  exp : F → F
  /-- `abs`. -/
  abs : F → F
  /-- A cast from an unsigned integer, to the nearest number. -/
  ofNat : Nat → F
  /-- `floor`, then a cast to `u32`, which saturates and takes NaN to zero. -/
  floorToU32 : F → UInt32

/-- A cast from a narrower to a wider format, which is exact. -/
class Widen (F D : Type) where
  /-- `x as f64`. -/
  widen : F → D

export Widen (widen)

namespace FloatLike

variable {F : Type} [FloatLike F]

/-- The operator `<`. -/
def lt (a b : F) : Bool := partialCmp a b == some .lt

/-- The operator `<=`. -/
def le (a b : F) : Bool := (partialCmp a b).any (·.isLE)

/-- The operator `==`. -/
def eq (a b : F) : Bool := partialCmp a b == some .eq

/-- `is_nan`. -/
def isNaN (a : F) : Bool := (partialCmp a a).isNone

/-- `min`, which ignores a NaN argument. -/
def min (a b : F) : F := if isNaN a then b else if lt b a then b else a

/-- `Iterator::sum`: from the left, starting at negative zero. -/
def sum (xs : List F) : F := xs.foldl (· + ·) (-0.0)

end FloatLike

/-- `f32`. Truncation is the floor of a number that is not negative, and the cast takes
negative numbers to zero. -/
instance : FloatLike Float32 where
  partialCmp := Float32.partialCmp
  isFinite := Float32.isFinite
  infinity := 1.0 / 0.0
  sqrt := Float32.sqrt
  exp := Float32.exp
  abs := Float32.abs
  ofNat n := .ofModel (.ofNat n)
  floorToU32 := Float32.toUInt32

/-- `f64`. -/
instance : FloatLike Float where
  partialCmp a b := Float.Model.compare a.toModel b.toModel
  isFinite := Float.isFinite
  infinity := 1.0 / 0.0
  sqrt := Float.sqrt
  exp := Float.exp
  abs := Float.abs
  ofNat n := .ofModel (.ofNat n)
  floorToU32 := Float.toUInt32

open Float.Model in
/-- Every `f32` is an `f64`. -/
instance : Widen Float32 Float where
  widen x := .ofModel <| .pack <| match x.toModel.unpack with
    | .finite sign mantissa exponent _ => UnpackedFloat.round .binary64 sign mantissa exponent
    | special => special

end Hansa
