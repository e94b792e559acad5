import VoxelScout.Geometry.Cap
import VoxelScout.Hearing.Event

/-! # Remembering sounds

The bot hears where a sound comes from only roughly, and forgets it after a while.
-/

namespace VoxelScout.Hearing

variable {α : Type}

/-- How long sounds are kept, how rough their direction is (in degrees), and how often
old ones are dropped. -/
structure Config (α : Type) where
  maxAge : Duration
  blurAngle : α
  pruneInterval : Duration
  deriving Repr

namespace Config

def standard [Scalar α] : Config α :=
  ⟨Duration.seconds 5, 10, Duration.seconds 1⟩

/-- Zero fields take their standard values; so does an interval that is not positive. -/
def withDefaults [Scalar α] (c : Config α) : Config α :=
  let s : Config α := standard
  { maxAge := if c.maxAge == 0 then s.maxAge else c.maxAge
    blurAngle := if c.blurAngle == 0 then s.blurAngle else c.blurAngle
    pruneInterval := if c.pruneInterval ≤ 0 then s.pruneInterval else c.pruneInterval }

end Config

/-- The sounds that are remembered, oldest first, and the source of the blur. -/
structure Tracker (α : Type) where
  config : Config α
  random : Random
  events : List (Event α)

namespace Tracker

def new [Scalar α] (config : Config α) (seed : UInt64) : Tracker α :=
  ⟨config.withDefaults, Random.ofSeed seed, []⟩

def hear [Trig α] (t : Tracker α) (id : PlayerId) (raw : RawSound α) (listener : Vec α)
    (now : Instant) : Event α × Tracker α :=
  let (position, random) := Cap.blur raw.origin listener t.config.blurAngle t.random
  let event : Event α :=
    { id
      soundId := raw.id
      categoryIndex := raw.category
      category := categoryName raw.category
      name := raw.name
      position
      time := now }
  (event, { t with random, events := t.events ++ [event] })

def keeps (t : Tracker α) (now : Instant) (e : Event α) : Bool :=
  e.age now < t.config.maxAge

def prune (t : Tracker α) (now : Instant) : Tracker α :=
  { t with events := t.events.filter (t.keeps now) }

def pruned (t : Tracker α) (now : Instant) : Nat :=
  t.events.length - (t.prune now).events.length

def inCategory (t : Tracker α) (category : String) : List (Event α) :=
  t.events.filter fun e => e.category == category

end Tracker

end VoxelScout.Hearing
