import VoxelScout.Geometry.Vec

/-! # Boxes

Boxes with sides along the axes, the distance of a point from one, and where a ray
enters one.
-/

namespace VoxelScout

structure Box (α : Type) where
  min : Vec α
  max : Vec α
  deriving DecidableEq, Repr

namespace Box

open Scalar

variable {α : Type}

section Algebra

variable [Scalar α]

/-- The box of somebody who stands on a point, with the point in the middle of the
floor. -/
def standing (feet : Vec α) (width height : α) : Box α :=
  let half := width / 2
  ⟨⟨feet.x - half, feet.y, feet.z - half⟩, ⟨feet.x + half, feet.y + height, feet.z + half⟩⟩

/-- The part of a ray that is still inside every slab looked at, from `entry` to
`exit`. -/
structure Span (α : Type) where
  entry : α
  exit : α
  deriving DecidableEq, Repr

/-- Directions below this size along an axis count as parallel to its slab. -/
def parallel : α :=
  1e-9

/-- The part of a span inside the slab from `lo` to `hi` along one axis, where the ray
starts at `o` and moves by `d`. -/
def Span.clip (span : Span α) (o d lo hi : α) : Option (Span α) :=
  if abs d < parallel then
    if o < lo then none
    else if hi < o then none
    else some span
  else
    let a := (lo - o) / d
    let b := (hi - o) / d
    let near := if b < a then b else a
    let far := if b < a then a else b
    let entry := if span.entry < near then near else span.entry
    let exit := if far < span.exit then far else span.exit
    if exit < entry then none else some ⟨entry, exit⟩

/-- The distance along the ray at which it enters the box, when it does so within
`reach`. -/
def entry? (box : Box α) (origin direction : Vec α) (reach : α) : Option α := do
  let span : Span α := ⟨0, reach⟩
  let span ← span.clip origin.x direction.x box.min.x box.max.x
  let span ← span.clip origin.y direction.y box.min.y box.max.y
  let span ← span.clip origin.z direction.z box.min.z box.max.z
  pure span.entry

def outside (p lo hi : α) : α :=
  larger 0 (larger (lo - p) (p - hi))

end Algebra

variable [Trig α]

def distance (box : Box α) (p : Vec α) : α :=
  let dx := outside p.x box.min.x box.max.x
  let dy := outside p.y box.min.y box.max.y
  let dz := outside p.z box.min.z box.max.z
  Trig.sqrt (dx * dx + dy * dy + dz * dz)

end Box

end VoxelScout
