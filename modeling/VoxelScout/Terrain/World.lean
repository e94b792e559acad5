import VoxelScout.Geometry.Vec

/-! # Terrain as others see it

What the observers of the terrain may ask: which block a ray meets first, and which
block is at a point.
-/

namespace VoxelScout

structure Block (α : Type) where
  name : String
  position : Vec α
  solid : Bool
  deriving Repr

/-- The questions that terrain answers. -/
structure World (α : Type) where
  /-- The first block that stops the ray from `origin` along `direction` within
  `reach`. -/
  raycast : Vec α → Vec α → α → Option (Block α)
  blockAt : Vec α → Block α

namespace World

def empty {α : Type} : World α where
  raycast _ _ _ := none
  blockAt p := ⟨"air", p, false⟩

end World

end VoxelScout
