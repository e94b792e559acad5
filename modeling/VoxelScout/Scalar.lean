/-! # Scalars

The number type that positions, angles and distances are made of. Every
geometric definition of the library is written once over `Scalar` (or `Trig`,
where roots and angles take part) and runs at `Float`; the same definition can
be read over any other type with these operations.
-/

namespace VoxelScout

/-- The arithmetic and order that voxel geometry needs. Comparisons decide, and
`==` is the type's own equality, so that a value which is no number may differ
from itself. -/
class Scalar (α : Type) extends Add α, Sub α, Mul α, Div α, Neg α, OfScientific α, LT α, LE α,
    BEq α where
  /-- Deciding `<`. -/
  decLt : ∀ a b : α, Decidable (a < b)
  /-- Deciding `≤`. -/
  decLe : ∀ a b : α, Decidable (a ≤ b)
  /-- The nearest value to an integer. -/
  ofInt : Int → α
  /-- The greatest integral value not above the argument. -/
  floor : α → α
  /-- The integer part, with the fraction dropped. -/
  truncate : α → Int
  /-- A natural number that is not below the value; where a type has values above all
  naturals, a number that no loop will count to. -/
  ceilNat : α → Nat
  abs : α → α
  /-- The larger of two values; not a number when one of them is none, unless
  the other one is already the largest there is. -/
  larger : α → α → α
  /-- The smaller of two values, with the dual convention. -/
  smaller : α → α → α
  /-- Whether the value is the point above all numbers. -/
  isTop : α → Bool
  /-- The cell reached from a cell by a step, in the cell arithmetic that goes
  with the type. -/
  advance : Int → Int → Int

instance Scalar.instDecidableLT {α : Type} [Scalar α] (a b : α) : Decidable (a < b) :=
  Scalar.decLt a b

instance Scalar.instDecidableLE {α : Type} [Scalar α] (a b : α) : Decidable (a ≤ b) :=
  Scalar.decLe a b

instance (priority := low) Scalar.instOfNat {α : Type} [Scalar α] (n : Nat) : OfNat α n :=
  ⟨Scalar.ofInt n⟩

namespace Scalar

variable {α : Type} [Scalar α]

def isNumber (a : α) : Bool :=
  a == a

/-- The value is a number, and not the point above all numbers. -/
def belowTop (a : α) : Bool :=
  isNumber a && !isTop a

/-- The value moved into the interval from `lo` to `hi`; what compares with
neither bound passes unchanged. -/
def clamp (a lo hi : α) : α :=
  if a < lo then lo
  else if hi < a then hi
  else a

end Scalar

class Trig (α : Type) extends Scalar α where
  sqrt : α → α
  /-- The sine of an angle in radians. -/
  sin : α → α
  /-- The cosine of an angle in radians. -/
  cos : α → α
  /-- The angle in radians whose cosine is the argument. -/
  acos : α → α
  /-- `atan2 y x` is the angle from the first axis to the point `(x, y)`. -/
  atan2 : α → α → α
  pi : α

namespace Trig

open Scalar

variable {α : Type} [Trig α]

/-- The length of the hypotenuse, computed from the ratio of the shorter leg to
the longer one so that squaring cannot overflow. -/
def hypot (x y : α) : α :=
  let p := abs x
  let q := abs y
  if isTop p then p
  else if isTop q then q
  else if !isNumber p then p
  else if !isNumber q then q
  else
    let long := if p < q then q else p
    let short := if p < q then p else q
    if long == 0 then 0
    else
      let ratio := short / long
      long * sqrt (1 + ratio * ratio)

def radians (deg : α) : α :=
  deg * pi / 180

def degrees (rad : α) : α :=
  rad * 180 / pi

end Trig

end VoxelScout
