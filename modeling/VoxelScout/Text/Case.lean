/-! # Letter case

Comparing names without regard to case. Names are spelled in ASCII letters; two
characters outside ASCII fold onto such letters and are taken into account.
-/

namespace VoxelScout.Text

def lowerAscii (c : Char) : Char :=
  if 'A' ≤ c && c ≤ 'Z' then Char.ofNat (c.toNat + 32) else c

/-- The representative of a character under case folding onto ASCII: the long s
folds onto `s` and the Kelvin sign onto `k`. -/
def foldChar (c : Char) : Char :=
  if c.toNat == 0x17F then 's'
  else if c.toNat == 0x212A then 'k'
  else lowerAscii c

/-- The lower-case form of a character where that is an ASCII letter: beside the ASCII
capitals these are the dotted capital I and the Kelvin sign. Others are unchanged. -/
def lowerChar (c : Char) : Char :=
  if c.toNat == 0x130 then 'i'
  else if c.toNat == 0x212A then 'k'
  else lowerAscii c

def lower (s : String) : String :=
  String.ofList (s.toList.map lowerChar)

def sameFold (s t : String) : Bool :=
  s.toList.map foldChar == t.toList.map foldChar

end VoxelScout.Text
