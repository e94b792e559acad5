import VoxelScout.Clock
import VoxelScout.Geometry.Vec
import VoxelScout.PlayerId

/-! # Sounds

A raw sound as the game reports it, and the event the bot remembers of it.
-/

namespace VoxelScout.Hearing

def categories : List String :=
  ["master", "music", "record", "weather", "block", "neutral", "player", "hostile", "ambient",
    "voice"]

def categoryName (index : Int) : String :=
  if index < 0 then "unknown" else (categories[index.toNat]?).getD "unknown"

structure RawSound (α : Type) where
  id : Int
  category : Int
  name : String
  origin : Vec α
  deriving Repr

namespace RawSound

def blank {α : Type} [Scalar α] : RawSound α :=
  ⟨0, 0, "", Vec.zero⟩

end RawSound

/-- A sound that was heard: where it seemed to come from, and when. -/
structure Event (α : Type) where
  id : PlayerId
  soundId : Int
  categoryIndex : Int
  category : String
  name : String
  position : Vec α
  time : Instant
  deriving Repr

namespace Event

def age {α : Type} (e : Event α) (now : Instant) : Duration :=
  now.since e.time

end Event

end VoxelScout.Hearing
