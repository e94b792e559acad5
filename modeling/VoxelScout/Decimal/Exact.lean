/-! # Exact values of binary floating point

A finite 64-bit floating point number is an integer times a power of two. This
module takes such a number apart and rounds quotients of natural numbers to
nearest, which is all that writing numbers in decimal needs.
-/

namespace VoxelScout.Decimal

/-- The value `± mantissa · 2 ^ exponent`. -/
structure Exact where
  negative : Bool
  mantissa : Nat
  exponent : Int
  deriving DecidableEq, Repr

namespace Exact

/-- The parts of a finite number; nothing for an infinity or what is no number. -/
def ofFloat? (x : Float) : Option Exact :=
  let bits := x.toBits.toNat
  let negative := bits / Nat.pow 2 63 == 1
  let field : Nat := bits / Nat.pow 2 52 % Nat.pow 2 11
  let fraction := bits % Nat.pow 2 52
  if field == 2047 then none
  else if field == 0 then some ⟨negative, fraction, -1074⟩
  else some ⟨negative, fraction + Nat.pow 2 52, (field : Int) - 1075⟩

def quotient (e : Exact) : Nat × Nat :=
  match e.exponent with
  | .ofNat k => (e.mantissa * Nat.pow 2 k, 1)
  | .negSucc k => (e.mantissa, Nat.pow 2 (k + 1))

end Exact

/-- The natural number nearest to `num / den`; of two equally near ones, the even
one. -/
def roundDiv (num den : Nat) : Nat :=
  let q := num / den
  let r := num % den
  if 2 * r < den then q
  else if den < 2 * r then q + 1
  else if q % 2 == 0 then q
  else q + 1

def scaleTen (num den : Nat) : Int → Nat × Nat
  | .ofNat k => (num * Nat.pow 10 k, den)
  | .negSucc k => (num, den * Nat.pow 10 (k + 1))

def digitCount (n : Nat) : Nat :=
  (Nat.toDigits 10 n).length

/-- The exponent of the leading decimal digit of `num / den`: the `e` with
`10 ^ e ≤ num / den < 10 ^ (e + 1)`. The digit counts of the two numbers leave
two candidates. -/
def leadingExponent (num den : Nat) : Int :=
  let guess : Int := (digitCount num : Int) - (digitCount den : Int)
  let (n, d) := scaleTen num den (-guess)
  if d ≤ n then guess else guess - 1

end VoxelScout.Decimal
