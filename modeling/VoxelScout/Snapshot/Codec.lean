import VoxelScout.Scalar.Binary64
import VoxelScout.Snapshot
import VoxelScout.Terrain.Grid

/-! # Snapshots as documents

The written form of poses, roster entries, items and news about cells, and its reader.
Fields that say nothing are left out where the form allows it.
-/

namespace VoxelScout

namespace Json

/-- A member that is left out when its value is absent. -/
def optionalMember {α : Type} (key : String) (f : α → Json) : Option α → List (String × Json)
  | none => []
  | some a => [(key, f a)]

def memberIf (keep : Bool) (key : String) (value : Json) : List (String × Json) :=
  if keep then [(key, value)] else []

end Json

open Json

namespace Vec

def toJson (v : Vec Float) : Json :=
  .object [("x", .float v.x), ("y", .float v.y), ("z", .float v.z)]

def decode : Decoder (Vec Float) :=
  record fun ms v => do
    let x ← field ms "x" asFloat v.x
    let y ← field ms "y" asFloat v.y
    let z ← field ms "z" asFloat v.z
    pure ⟨x, y, z⟩

end Vec

namespace Item

def toJson (i : Item) : Json :=
  .object ([("name", .string i.name)]
    ++ memberIf (i.displayName != "") "display_name" (.string i.displayName)
    ++ memberIf (i.count != 0) "count" (.int i.count))

def decode : Decoder Item :=
  record fun ms i => do
    let name ← field ms "name" asString i.name
    let displayName ← field ms "display_name" asString i.displayName
    let count ← field ms "count" asInt i.count
    pure { name, displayName, count }

def decodeOptional : Decoder (Option Item) :=
  optional decode {}

end Item

namespace Pose

def toJson (p : Pose Float) : Json :=
  .object ([("id", p.id.toJson), ("name", .string p.name), ("position", p.position.toJson),
      ("velocity", p.velocity.toJson), ("yaw", .float p.heading.yaw),
      ("pitch", .float p.heading.pitch), ("height", .float p.height),
      ("on_ground", .bool p.onGround), ("in_vehicle", .bool p.inVehicle)]
    ++ memberIf (!p.effects.isEmpty) "effects" (.array (p.effects.map .int))
    ++ optionalMember "held_item" Item.toJson p.heldItem
    ++ [("using_item", .bool p.usingItem)])

/-- A pose on its way, with the effects that an earlier, longer list of them left behind. -/
structure Draft where
  pose : Pose Float
  spareEffects : List Int

def decodeDraft : Decoder Draft :=
  record fun ms d => do
    let p := d.pose
    let id ← field ms "id" PlayerId.decode p.id
    let name ← field ms "name" asString p.name
    let position ← field ms "position" Vec.decode p.position
    let velocity ← field ms "velocity" Vec.decode p.velocity
    let yaw ← field ms "yaw" asFloat p.heading.yaw
    let pitch ← field ms "pitch" asFloat p.heading.pitch
    let height ← field ms "height" asFloat p.height
    let onGround ← field ms "on_ground" asBool p.onGround
    let inVehicle ← field ms "in_vehicle" asBool p.inVehicle
    let effects ← field ms "effects" (slots asInt 0) ⟨some p.effects, d.spareEffects⟩
    let heldItem ← field ms "held_item" Item.decodeOptional p.heldItem
    let usingItem ← field ms "using_item" asBool p.usingItem
    let pose :=
      { id, name, position, velocity, heading := ⟨yaw, pitch⟩, height, onGround, inVehicle,
        effects := effects.items.getD [], heldItem, usingItem }
    pure ⟨pose, effects.spare⟩

def decode : Decoder (Pose Float) :=
  fun p v => (decodeDraft ⟨p, []⟩ v).map (·.pose)

end Pose

namespace Player

def toJson (p : Player Float) : Json :=
  .object ([("id", p.id.toJson), ("name", .string p.name), ("position", p.position.toJson),
      ("velocity", p.velocity.toJson)]
    ++ memberIf (p.width != 0) "width" (.float p.width)
    ++ memberIf (p.height != 0) "height" (.float p.height)
    ++ optionalMember "held_item" Item.toJson p.heldItem
    ++ optionalMember "head" Item.toJson p.head
    ++ optionalMember "torso" Item.toJson p.torso
    ++ optionalMember "legs" Item.toJson p.legs
    ++ optionalMember "feet" Item.toJson p.feet
    ++ [("status", .nat p.status.toNat)]
    ++ optionalMember "health" .float p.health)

def decode : Decoder (Player Float) :=
  record fun ms p => do
    let id ← field ms "id" PlayerId.decode p.id
    let name ← field ms "name" asString p.name
    let position ← field ms "position" Vec.decode p.position
    let velocity ← field ms "velocity" Vec.decode p.velocity
    let width ← field ms "width" asFloat p.width
    let height ← field ms "height" asFloat p.height
    let heldItem ← field ms "held_item" Item.decodeOptional p.heldItem
    let head ← field ms "head" Item.decodeOptional p.head
    let torso ← field ms "torso" Item.decodeOptional p.torso
    let legs ← field ms "legs" Item.decodeOptional p.legs
    let feet ← field ms "feet" Item.decodeOptional p.feet
    let status ← field ms "status" asByte p.status
    let health ← field ms "health" (optional asFloat 0) p.health
    pure { id, name, position, velocity, width, height, heldItem, head, torso, legs, feet, status,
           health }

end Player

namespace BlockUpdate

def toJson (u : BlockUpdate) : Json :=
  .object ([("x", .int u.voxel.x), ("y", .int u.voxel.y), ("z", .int u.voxel.z),
      ("name", .string u.name)]
    ++ optionalMember "solid" .bool u.solid)

def blank : BlockUpdate :=
  { voxel := ⟨0, 0, 0⟩, name := "" }

def decode : Decoder BlockUpdate :=
  record fun ms u => do
    let x ← field ms "x" asInt u.voxel.x
    let y ← field ms "y" asInt u.voxel.y
    let z ← field ms "z" asInt u.voxel.z
    let name ← field ms "name" asString u.name
    let solid ← field ms "solid" (optional asBool false) u.solid
    pure { voxel := ⟨x, y, z⟩, name, solid }

end BlockUpdate

end VoxelScout
