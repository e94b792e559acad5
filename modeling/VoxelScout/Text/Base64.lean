/-! # Bytes in groups of four characters

Three bytes are written as four characters of an alphabet of 64. The last group may stand
for two bytes or one, and is then filled up with signs of equality. Ends of lines between
the characters say nothing.
-/

namespace VoxelScout.Text

def sixBits? (c : Char) : Option Nat :=
  if 'A' ≤ c && c ≤ 'Z' then some (c.toNat - 'A'.toNat)
  else if 'a' ≤ c && c ≤ 'z' then some (c.toNat - 'a'.toNat + 26)
  else if '0' ≤ c && c ≤ '9' then some (c.toNat - '0'.toNat + 52)
  else if c == '+' then some 62
  else if c == '/' then some 63
  else none

/-- The first bytes of a group, whose characters are places in the alphabet. -/
def groupBytes (count a b c d : Nat) : List UInt8 :=
  let bits := ((a * 64 + b) * 64 + c) * 64 + d
  [bits / 65536, bits / 256 % 256, bits % 256].take count |>.map UInt8.ofNat

def bytesOfGroups? : List Char → Option (List UInt8)
  | [] => some []
  | [a, b, '=', '='] => return groupBytes 1 (← sixBits? a) (← sixBits? b) 0 0
  | [a, b, c, '='] => return groupBytes 2 (← sixBits? a) (← sixBits? b) (← sixBits? c) 0
  | a :: b :: c :: d :: rest => do
    let first := groupBytes 3 (← sixBits? a) (← sixBits? b) (← sixBits? c) (← sixBits? d)
    return first ++ (← bytesOfGroups? rest)
  | _ => none

def bytesOfBase64? (text : String) : Option (List UInt8) :=
  bytesOfGroups? (text.toList.filter fun c => c != '\n' && c != '\r')

end VoxelScout.Text
