import VoxelScout.Sight.Belief

/-! # Reports

What a bot tells after each tick.
-/

namespace VoxelScout

/-- The number of the tick, its time, the bot's pose, and what the bot believes after it. -/
structure Report (α : Type) where
  tick : Nat
  time : Instant
  self : Pose α
  players : List (Belief α)

end VoxelScout
