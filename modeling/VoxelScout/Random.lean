import VoxelScout.Scalar

/-! # A permuted congruential generator

A source of random words with a state of 128 bits. Each draw advances the state by one
step of a linear congruence and mixes the new state into a word.
-/

namespace VoxelScout

structure Random where
  state : BitVec 128
  deriving DecidableEq, Repr

namespace Random

def multiplier : BitVec 128 :=
  BitVec.ofNat 128 (2549297995355413924 * Nat.pow 2 64 + 4865540595714422341)

def increment : BitVec 128 :=
  BitVec.ofNat 128 (6364136223846793005 * Nat.pow 2 64 + 1442695040888963407)

def ofSeed (seed : UInt64) : Random :=
  ⟨BitVec.ofNat 128 (seed.toNat * Nat.pow 2 64 + (seed ^^^ 0x9E3779B97F4A7C15).toNat)⟩

def step (r : Random) : Random :=
  ⟨r.state * multiplier + increment⟩

def mix (r : Random) : UInt64 :=
  let n := r.state.toNat
  let hi : UInt64 := UInt64.ofNat (n / Nat.pow 2 64)
  let lo : UInt64 := UInt64.ofNat (n % Nat.pow 2 64)
  let hi := (hi ^^^ (hi >>> 32)) * 0xDA942042E4DD58B5
  (hi ^^^ (hi >>> 48)) * (lo ||| 1)

def next (r : Random) : UInt64 × Random :=
  (r.step.mix, r.step)

/-- A number between zero and one (exclusive) from the low 53 bits of a word. -/
def fraction {α : Type} [Scalar α] (word : UInt64) : α :=
  Scalar.ofInt (word.toNat % Nat.pow 2 53 : Nat) / Scalar.ofInt (Nat.pow 2 53)

def uniform {α : Type} [Scalar α] (r : Random) (lo hi : α) : α × Random :=
  let (word, r) := r.next
  (fraction word * (hi - lo) + lo, r)

end Random

end VoxelScout
