import VoxelScout.Hearing.Event
import VoxelScout.Snapshot.Codec

/-! # Sounds as documents -/

namespace VoxelScout.Hearing

open Json

namespace RawSound

def toJson (s : RawSound Float) : Json :=
  .object ([("id", .int s.id), ("category", .int s.category)]
    ++ memberIf (s.name != "") "name" (.string s.name)
    ++ [("origin", s.origin.toJson)])

def decode : Decoder (RawSound Float) :=
  record fun ms s => do
    let id ← field ms "id" asInt s.id
    let category ← field ms "category" asInt s.category
    let name ← field ms "name" asString s.name
    let origin ← field ms "origin" Vec.decode s.origin
    pure ⟨id, category, name, origin⟩

end RawSound

namespace Event

def toJson (e : Event Float) : Json :=
  .object ([("id", e.id.toJson), ("sound_id", .int e.soundId),
      ("category_index", .int e.categoryIndex), ("category", .string e.category)]
    ++ memberIf (e.name != "") "name" (.string e.name)
    ++ [("position", e.position.toJson), ("timestamp", .string e.time.render)])

end Event

end VoxelScout.Hearing
