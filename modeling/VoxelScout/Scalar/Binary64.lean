import VoxelScout.Scalar

/-! # Binary64 scalars

The instance at which the library runs. The circular functions are evaluated by
reducing the argument to an octant (or, for the inverse functions, to a third of
an octant) and applying a polynomial there, each operation rounded on its own, so
that their values do not depend on a mathematics library of the machine.
-/

namespace VoxelScout.Binary64

def inf : Float :=
  Float.ofBits 0x7FF0000000000000

def nan : Float :=
  Float.ofBits 0x7FF8000000000001

def negative (x : Float) : Bool :=
  x.toBits >>> 63 == 1

def pi : Float :=
  3.141592653589793

def halfPi : Float :=
  1.5707963267948966

def quarterPi : Float :=
  0.7853981633974483

def withSign (x y : Float) : Float :=
  if negative x == negative y then x else -x

/-- The larger of two values. Infinity wins over everything, then what is no
number; positive zero is above negative zero. -/
def larger (x y : Float) : Float :=
  if x == inf || y == inf then inf
  else if x.isNaN || y.isNaN then nan
  else if x == 0 && y == 0 then (if negative x then y else x)
  else if x > y then x
  else y

/-- The smaller of two values. Negative infinity wins over everything, then what
is no number; negative zero is below positive zero. -/
def smaller (x y : Float) : Float :=
  if x == -inf || y == -inf then -inf
  else if x.isNaN || y.isNaN then nan
  else if x == 0 && y == 0 then (if negative x then x else y)
  else if x < y then x
  else y

/-- The least 64-bit integer, which stands for every value outside their range. -/
def leastInt : Int :=
  -9223372036854775808

/-- The integer part of a value in the range of 64-bit integers, and the least of
them for any other value. -/
def truncate (x : Float) : Int :=
  if -9223372036854775808.0 ≤ x && x < 9223372036854775808.0 then x.toInt64.toInt else leastInt

/-- The least natural number that is not below the value, at most 2^62; zero for what
is no number. -/
def ceilNat (x : Float) : Nat :=
  if x ≥ 4611686018427387904.0 then 4611686018427387904
  else if x > 0 then x.ceil.toUInt64.toNat
  else 0

/-- The integer part as a 64-bit word: values from 2^63 on are moved down by 2^63
first and get the high bit back. -/
def truncateWord (x : Float) : UInt64 :=
  if x < 9223372036854775808.0 then (Int64.ofInt (truncate x)).toUInt64
  else (Int64.ofInt (truncate (x - 9223372036854775808.0))).toUInt64 ||| 0x8000000000000000

/-! ## Sine and cosine -/

/-- The number of eighths of a turn in a radian, in units of 2^-1216. -/
def octantsPerRadian : Nat :=
  0x145f306dc9c882a53f84eafa3ea69bb81b6c52b3278872083fca2c757bd778ac36e48dc74849ba5c00c925dd413a32439fc3bd63962534e7dd1046bea5d768909d338e04d68befc827323ac7306a673e93908bf177bf250763ff12fffbc0b301fde5e2316b414da3eda6cfd9e4f96136e9e8c7ecd3cbfd45aea4f758fd7cbe2f67a0e73ef14a525d4d7f6bf623f1aba10ac06608df8f6d757

/-- A large angle in eighths of a turn, up to whole turns: 128 binary digits, three of them before
the point. Of the eighths of a turn in a radian those 192 digits are taken whose product with the
mantissa does not fill whole turns. -/
def octantDigits (x : Float) : Nat :=
  let bits := x.toBits.toNat
  let mantissa := bits % Nat.pow 2 52 + Nat.pow 2 52
  let exponent := bits / Nat.pow 2 52 % Nat.pow 2 11
  let digits := octantsPerRadian / Nat.pow 2 (2102 - exponent) % Nat.pow 2 192
  digits * mantissa / Nat.pow 2 64 % Nat.pow 2 128

/-- The part after the point of an angle in eighths of a turn, cut to 53 digits. The digits that
follow the first 61 are taken from the 128 as they stand. -/
def octantFraction (digits : Nat) : Float :=
  let first := digits / Nat.pow 2 61 % Nat.pow 2 64
  let zeros := 63 - first.log2
  let leading := first * Nat.pow 2 (zeros + 1) % Nat.pow 2 64
    ||| digits % Nat.pow 2 64 / Nat.pow 2 (63 - zeros)
  Float.ofNat (leading / Nat.pow 2 12 + Nat.pow 2 52) / Float.ofNat (Nat.pow 2 (zeros + 53))

def largeOctant (x : Float) : Nat × Float :=
  let digits := octantDigits x
  let j := digits / Nat.pow 2 125
  let z := octantFraction digits
  if j % 2 == 1 then ((j + 1) % 8, (z - 1) * quarterPi) else (j, z * quarterPi)

def reductionLimit : Float :=
  536870912.0

/-- The number of eighths of a turn in a non-negative angle, rounded up to an even number. -/
def evenEighths (x : Float) : Nat :=
  let j := (x * 1.2732395447351628).toUInt64.toNat
  if j % 2 == 1 then j + 1 else j

/-- The octant of a non-negative angle, rounded up to an even number, modulo
eight, and the remainder of the angle at that octant. Unless the angle is large, the
multiple of an eighth of a turn is subtracted in three parts. -/
def octant (x : Float) : Nat × Float :=
  if x ≥ reductionLimit then largeOctant x
  else
    let j := evenEighths x
    let y := Float.ofNat j
    let z := ((x - y * 7.85398125648498535156e-1) - y * 3.77489470793079817668e-8)
      - y * 2.69515142907905952645e-15
    (j % 8, z)

/-- The sine of an angle within an eighth of a turn of zero. -/
def sineNear (z : Float) : Float :=
  let zz := z * z
  z + z * zz * ((((((1.58962301576546568060e-10 * zz) + -2.50507477628578072866e-8) * zz
    + 2.75573136213857245213e-6) * zz + -1.98412698295895385996e-4) * zz
    + 8.33333333332211858878e-3) * zz + -1.66666666666666307295e-1)

def cosineNear (z : Float) : Float :=
  let zz := z * z
  1.0 - 0.5 * zz + zz * zz * ((((((-1.13585365213876817300e-11 * zz) + 2.08757008419747316778e-9)
    * zz + -2.75573141792967388112e-7) * zz + 2.48015872888517045348e-5) * zz
    + -1.38888888888730564116e-3) * zz + 4.16666666666665929218e-2)

def sin (x : Float) : Float :=
  if x == 0 || x.isNaN then x
  else if x.isInf then nan
  else
    let (j, z) := octant x.abs
    let flip := decide (x < 0) != decide (j > 3)
    let j := if j > 3 then j - 4 else j
    let y := if j == 1 || j == 2 then cosineNear z else sineNear z
    if flip then -y else y

def cos (x : Float) : Float :=
  if x.isNaN || x.isInf then nan
  else
    let (j, z) := octant x.abs
    let k := if j > 3 then j - 4 else j
    let flip := decide (j > 3) != decide (k > 1)
    let y := if k == 1 || k == 2 then sineNear z else cosineNear z
    if flip then -y else y

/-! ## Inverse functions -/

/-- The arctangent on the interval from 0 to 0.66. -/
def arctanNear (x : Float) : Float :=
  let z := x * x
  let z := z * ((((-8.750608600031904122785e-01 * z + -1.615753718733365076637e+01) * z
      + -7.500855792314704667340e+01) * z + -1.228866684490136173410e+02) * z
      + -6.485021904942025371773e+01)
    / (((((z + 2.485846490142306297962e+01) * z + 1.650270098316988542046e+02) * z
      + 4.328810604912902668951e+02) * z + 4.853903996359136964868e+02) * z
      + 1.945506571482613964425e+02)
  x * z + x

def arctanPositive (x : Float) : Float :=
  if x ≤ 0.66 then arctanNear x
  else if x > 2.41421356237309504880 then
    halfPi - arctanNear (1.0 / x) + 6.123233995736765886130e-17
  else quarterPi + arctanNear ((x - 1.0) / (x + 1.0)) + 0.5 * 6.123233995736765886130e-17

def arctan (x : Float) : Float :=
  if x == 0 then x
  else if x > 0 then arctanPositive x
  else -(arctanPositive (-x))

def arcsin (x : Float) : Float :=
  if x == 0 then x
  else
    let y := if x < 0 then -x else x
    if y > 1.0 then nan
    else
      let leg := Float.sqrt (1.0 - y * y)
      let angle := if y > 0.7 then halfPi - arctanPositive (leg / y) else arctanPositive (y / leg)
      if x < 0 then -angle else angle

def arccos (x : Float) : Float :=
  halfPi - arcsin x

/-- The angle of the point `(x, y)`, signed zeros and infinities included: the
result has the sign of `y`. -/
def arctan2 (y x : Float) : Float :=
  if y.isNaN || x.isNaN then nan
  else if y == 0 then
    if x ≥ 0 && !negative x then withSign 0 y else withSign pi y
  else if x == 0 then withSign halfPi y
  else if x.isInf then
    if x > 0 then (if y.isInf then withSign quarterPi y else withSign 0 y)
    else (if y.isInf then withSign 2.356194490192345 y else withSign pi y)
  else if y.isInf then withSign halfPi y
  else
    let q := arctan (y / x)
    if x < 0 then (if q ≤ 0 then q + pi else q - pi) else q

end VoxelScout.Binary64

namespace VoxelScout

instance : Scalar Float where
  decLt a b := inferInstanceAs (Decidable (a < b))
  decLe a b := inferInstanceAs (Decidable (a ≤ b))
  ofInt i := Float.ofInt i
  floor := Float.floor
  truncate := Binary64.truncate
  ceilNat := Binary64.ceilNat
  abs := Float.abs
  larger := Binary64.larger
  smaller := Binary64.smaller
  isTop x := x == Binary64.inf
  advance cell step := Int.bmod (cell + step) (Nat.pow 2 64)

instance : Trig Float where
  sqrt := Float.sqrt
  sin := Binary64.sin
  cos := Binary64.cos
  acos := Binary64.arccos
  atan2 := Binary64.arctan2
  pi := Binary64.pi

end VoxelScout
