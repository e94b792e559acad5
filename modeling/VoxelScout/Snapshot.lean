import VoxelScout.Clock
import VoxelScout.Geometry.Box
import VoxelScout.PlayerId
import VoxelScout.Terrain.World

/-! # What a tick shows

A snapshot is everything that can be observed at one tick of the simulation: the bot's
own pose, the roster of the other players, and the terrain.
-/

namespace VoxelScout

structure Item where
  name : String := ""
  displayName : String := ""
  count : Int := 0
  deriving DecidableEq, Repr, Inhabited

namespace Item

/-- The name of a held item; an empty hand has the empty name. -/
def nameOf : Option Item → String
  | none => ""
  | some item => item.name

end Item

structure Stature (α : Type) where
  height : α
  width : α

namespace Stature

def standard {α : Type} [Scalar α] : Stature α :=
  ⟨1.8, 0.6⟩

end Stature

inductive Effect where
  | blindness
  | slowFalling
  deriving DecidableEq, Repr

def Effect.code : Effect → Int
  | .blindness => 15
  | .slowFalling => 28

structure Pose (α : Type) where
  id : PlayerId
  name : String
  position : Vec α
  velocity : Vec α
  heading : Heading α
  /-- The height of the eyes above the feet; zero means the usual height. -/
  height : α
  onGround : Bool
  inVehicle : Bool
  effects : List Int
  heldItem : Option Item
  usingItem : Bool
  deriving Repr

namespace Pose

variable {α : Type}

def initial [Scalar α] : Pose α where
  id := PlayerId.nil
  name := ""
  position := Vec.zero
  velocity := Vec.zero
  heading := ⟨0, 0⟩
  height := 0
  onGround := false
  inVehicle := false
  effects := []
  heldItem := none
  usingItem := false

instance [Scalar α] : Inhabited (Pose α) :=
  ⟨initial⟩

def eye [Scalar α] (p : Pose α) : Vec α :=
  p.position.raise (if p.height == 0 then Stature.standard.height else p.height)

def view [Trig α] (p : Pose α) : Vec α :=
  p.heading.direction

def hasEffect (p : Pose α) (code : Int) : Bool :=
  p.effects.contains code

def heldName (p : Pose α) : String :=
  Item.nameOf p.heldItem

end Pose

structure Player (α : Type) where
  id : PlayerId
  name : String
  position : Vec α
  velocity : Vec α
  /-- Zero means the usual width. -/
  width : α
  /-- Zero means the usual height. -/
  height : α
  heldItem : Option Item
  head : Option Item
  torso : Option Item
  legs : Option Item
  feet : Option Item
  /-- Status bits: 1 on fire, 2 crouching, 8 sprinting. -/
  status : UInt8
  /-- Absent when it is hidden. -/
  health : Option α
  deriving Repr

namespace Player

variable {α : Type}

def blank [Scalar α] : Player α where
  id := PlayerId.nil
  name := ""
  position := Vec.zero
  velocity := Vec.zero
  width := 0
  height := 0
  heldItem := none
  head := none
  torso := none
  legs := none
  feet := none
  status := 0
  health := none

instance [Scalar α] : Inhabited (Player α) :=
  ⟨blank⟩

def boxHeight [Scalar α] (p : Player α) : α :=
  if p.height == 0 then Stature.standard.height else p.height

def boxWidth [Scalar α] (p : Player α) : α :=
  if p.width == 0 then Stature.standard.width else p.width

def center [Scalar α] (p : Player α) : Vec α :=
  p.position.raise (p.boxHeight / 2)

def box [Scalar α] (p : Player α) : Box α :=
  Box.standing p.position p.boxWidth p.boxHeight

def crouching (p : Player α) : Bool :=
  p.status &&& 2 != 0

def sprinting (p : Player α) : Bool :=
  p.status &&& 8 != 0

def onFire (p : Player α) : Bool :=
  p.status &&& 1 != 0

end Player

structure Snapshot (α : Type) where
  time : Instant
  self : Pose α
  players : List (Player α)
  world : World α

namespace Snapshot

/-- The first roster entry of a player. -/
def player? {α : Type} (s : Snapshot α) (id : PlayerId) : Option (Player α) :=
  s.players.find? fun p => p.id == id

end Snapshot

end VoxelScout
