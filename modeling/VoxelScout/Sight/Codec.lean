import VoxelScout.Sight.Tracker
import VoxelScout.Snapshot.Codec

/-! # Beliefs as documents -/

namespace VoxelScout

namespace Armor

def toJson (a : Armor) : Json :=
  .object [("head", .orNull Item.toJson a.head), ("torso", .orNull Item.toJson a.torso),
    ("legs", .orNull Item.toJson a.legs), ("feet", .orNull Item.toJson a.feet)]

end Armor

namespace Belief

def toJson (b : Belief Float) : Json :=
  .object [("id", b.id.toJson), ("name", .string b.name),
    ("position", .orNull Vec.toJson b.position), ("velocity", .orNull Vec.toJson b.velocity),
    ("held_item", .orNull Item.toJson b.heldItem), ("armor", b.armor.toJson),
    ("crouching", .string b.crouching.name), ("sprinting", .string b.sprinting.name),
    ("on_fire", .string b.onFire.name), ("health", .string b.health.name),
    ("visibility", .string b.visibility.name), ("in_line_of_sight", .bool b.inLineOfSight),
    ("last_seen_at", .string b.lastSeen.render)]

end Belief

end VoxelScout
