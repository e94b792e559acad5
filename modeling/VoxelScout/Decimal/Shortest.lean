import VoxelScout.Decimal.Exact

/-! # The shortest decimal of a floating point number

Of the decimals that lie so near to a floating point number that they are read
back as it, the ones with the fewest digits are preferred, and of those the
nearest one. Everything is decided in exact arithmetic on natural numbers.
-/

namespace VoxelScout.Decimal

structure Scientific where
  coefficient : Nat
  exponent : Int
  deriving DecidableEq, Repr

namespace Scientific

def trim : Nat → Scientific → Scientific
  | 0, s => s
  | fuel + 1, s =>
    if s.coefficient != 0 && s.coefficient % 10 == 0 then
      trim fuel ⟨s.coefficient / 10, s.exponent + 1⟩
    else s

end Scientific

/-- The decimals that are read back as a given positive number: those between
`low` and `high`, over the common denominator `den`, with the ends themselves
when `closed`. The number itself is `value / den`. -/
structure Neighbourhood where
  low : Nat
  value : Nat
  high : Nat
  den : Nat
  closed : Bool
  deriving Repr

namespace Neighbourhood

/-- Half the distance to the next number on either side; below a power of two the
numbers lie twice as close. Ends round to the even mantissa. -/
def ofExact (e : Exact) : Neighbourhood :=
  let (num, den) := e.quotient
  let gap := match e.exponent with
    | .ofNat k => Nat.pow 2 k
    | .negSucc _ => 1
  let narrow := e.mantissa == Nat.pow 2 52 && e.exponent > -1074
  { low := 4 * num - (if narrow then gap else 2 * gap)
    value := 4 * num
    high := 4 * num + 2 * gap
    den := 4 * den
    closed := e.mantissa % 2 == 0 }

def contains (n : Neighbourhood) (s : Scientific) : Bool :=
  let (num, den) := scaleTen s.coefficient 1 s.exponent
  let x := num * n.den
  let lo := n.low * den
  let hi := n.high * den
  if n.closed then lo ≤ x && x ≤ hi else lo < x && x < hi

/-- The best decimal whose last digit stands at `10 ^ exponent`: the nearer of the
two grid points around the number, if it belongs to the neighbourhood, or else
the other one. -/
def onGrid (n : Neighbourhood) (exponent : Int) : Option Scientific :=
  let (num, den) := scaleTen n.value n.den (-exponent)
  let nearest := roundDiv num den
  let floor := num / den
  let other := if nearest == floor then floor + 1 else floor
  if n.contains ⟨nearest, exponent⟩ then some ⟨nearest, exponent⟩
  else if n.contains ⟨other, exponent⟩ then some ⟨other, exponent⟩
  else none

def search (n : Neighbourhood) (leading : Int) : Nat → Nat → Option Scientific
  | 0, _ => none
  | fuel + 1, digits =>
    match n.onGrid (leading + 1 - digits) with
    | some s => some s
    | none => n.search leading fuel (digits + 1)

end Neighbourhood

/-- The shortest decimal of the magnitude of a finite number, without trailing
zeros. Seventeen digits always suffice. -/
def shortest (e : Exact) : Scientific :=
  if e.mantissa == 0 then ⟨0, 0⟩
  else
    let n := Neighbourhood.ofExact e
    let leading := leadingExponent n.value n.den
    match n.search leading 17 1 with
    | some s => s.trim 20
    | none => ⟨0, 0⟩

end VoxelScout.Decimal
