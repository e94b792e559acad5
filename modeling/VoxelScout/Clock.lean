import VoxelScout.Decimal.Layout

/-! # Instants and durations

Instants are whole nanoseconds relative to the first of January 1970 (UTC), without
bound. Durations are nanoseconds as well, but the difference of two instants stops
at the ends of the 64-bit range. The instant `unset` stands for "no time given"; it
is the start of the year one and written as such.
-/

namespace VoxelScout

/-- A point in time, in nanoseconds since the start of 1970. -/
structure Instant where
  nanos : Int
  deriving DecidableEq, Repr, Inhabited

abbrev Duration := Int

namespace Duration

def longest : Duration :=
  9223372036854775807

def shortest : Duration :=
  -9223372036854775808

def saturate (d : Int) : Duration :=
  if d < shortest then shortest
  else if longest < d then longest
  else d

/-- A product of 64-bit words, wrapped into their range. -/
def wrap (d : Int) : Duration :=
  Int.bmod d (Nat.pow 2 64)

def milliseconds (n : Int) : Duration :=
  n * 1000000

def seconds (n : Int) : Duration :=
  n * 1000000000

end Duration

namespace Instant

/-- The instant that stands for no time at all. -/
def unset : Instant :=
  ⟨-62135596800000000000⟩

def isUnset (t : Instant) : Bool :=
  t == unset

def add (t : Instant) (d : Duration) : Instant :=
  ⟨t.nanos + d⟩

/-- The duration from `s` to `t`, cut to the range of durations. -/
def since (t s : Instant) : Duration :=
  Duration.saturate (t.nanos - s.nanos)

def before (t s : Instant) : Bool :=
  t.nanos < s.nanos

/-- Whole milliseconds since the start of 1970, rounded down, in a word of 64 bits. -/
def toMilliseconds (t : Instant) : Int :=
  Duration.wrap (Int.fdiv t.nanos 1000000)

def orElse (t fallback : Instant) : Instant :=
  if t.isUnset then fallback else t

/-- Year, month and day of a day number counted from the start of 1970, by eras of
400 years that begin in March. -/
def civil (day : Int) : Int × Nat × Nat :=
  let z := day + 719468
  let era := Int.fdiv z 146097
  let dayOfEra := (z - era * 146097).toNat
  let yearOfEra := (dayOfEra - dayOfEra / 1460 + dayOfEra / 36524 - dayOfEra / 146096) / 365
  let dayOfYear := dayOfEra - (365 * yearOfEra + yearOfEra / 4 - yearOfEra / 100)
  let shifted := (5 * dayOfYear + 2) / 153
  let dayOfMonth := dayOfYear - (153 * shifted + 2) / 5 + 1
  let month := if shifted < 10 then shifted + 3 else shifted - 9
  let year := (yearOfEra : Int) + era * 400 + (if month ≤ 2 then 1 else 0)
  (year, month, dayOfMonth)

def padded (width n : Nat) : String :=
  let digits := Decimal.digitString n
  Decimal.zeros (width - digits.length) ++ digits

/-- The fraction of a second as written: nothing when it is zero, and no zeros at its
end otherwise. -/
def fraction (nanos : Nat) : String :=
  if nanos == 0 then ""
  else
    let digits := (padded 9 nanos).toList
    "." ++ String.ofList (digits.reverse.dropWhile (· == '0')).reverse

def render (t : Instant) : String :=
  let second := Int.fdiv t.nanos 1000000000
  let nanos := (t.nanos - second * 1000000000).toNat
  let day := Int.fdiv second 86400
  let clock := (second - day * 86400).toNat
  let (year, month, dayOfMonth) := civil day
  Decimal.signed (year < 0) (padded 4 year.natAbs) ++ "-" ++ padded 2 month ++ "-"
    ++ padded 2 dayOfMonth ++ "T" ++ padded 2 (clock / 3600) ++ ":"
    ++ padded 2 (clock / 60 % 60) ++ ":" ++ padded 2 (clock % 60) ++ fraction nanos ++ "Z"

end Instant

end VoxelScout
