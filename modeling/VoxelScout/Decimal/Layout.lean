import VoxelScout.Decimal.Shortest

/-! # Written forms of numbers

How the digits of a number are laid out as text. `number` is the form of numbers
in messages and documents, and `plain` the form of table cells.
-/

namespace VoxelScout.Decimal

def digitString (n : Nat) : String :=
  String.ofList (Nat.toDigits 10 n)

def zeros (n : Nat) : String :=
  String.ofList (List.replicate n '0')

def positional (s : Scientific) : String :=
  let digits := Nat.toDigits 10 s.coefficient
  match s.exponent with
  | .ofNat k => String.ofList digits ++ zeros k
  | .negSucc k =>
    let places := k + 1
    if places < digits.length then
      String.ofList (digits.take (digits.length - places)) ++ "."
        ++ String.ofList (digits.drop (digits.length - places))
    else "0." ++ zeros (places - digits.length) ++ String.ofList digits

/-- A decimal written with one digit before the point and a signed exponent of at
least `width` digits. -/
def withExponent (width : Nat) (s : Scientific) : String :=
  let digits := Nat.toDigits 10 s.coefficient
  let e := s.exponent + digits.length - 1
  let mantissa :=
    if digits.length ≤ 1 then String.ofList digits
    else String.ofList (digits.take 1) ++ "." ++ String.ofList (digits.drop 1)
  let size := digitString e.natAbs
  let sign := if e < 0 then "-" else "+"
  mantissa ++ "e" ++ sign ++ zeros (width - size.length) ++ size

def signed (negative : Bool) (text : String) : String :=
  if negative then "-" ++ text else text

def special (x : Float) : String :=
  if x.isNaN then "NaN" else if x < 0 then "-Inf" else "+Inf"

def plain (x : Float) : String :=
  match Exact.ofFloat? x with
  | none => special x
  | some e => signed e.negative (positional (shortest e))

/-- The shortest form: positional from a millionth up to below 10^21, and with an
exponent outside that range. -/
def number (x : Float) : String :=
  match Exact.ofFloat? x with
  | none => special x
  | some e =>
    let s := shortest e
    let leading := s.exponent + digitCount s.coefficient - 1
    if s.coefficient == 0 || (-6 ≤ leading && leading < 21) then
      signed e.negative (positional s)
    else signed e.negative (withExponent 1 s)

end VoxelScout.Decimal
