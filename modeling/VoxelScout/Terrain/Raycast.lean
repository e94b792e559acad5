import VoxelScout.Terrain.Grid

/-! # Rays through the grid

A ray visits the cells it crosses one after the other. For each axis it moves along,
the walk knows where the ray crosses the next boundary of that axis; the nearest
boundary of the three decides the next cell.
-/

namespace VoxelScout.Terrain

open Scalar

variable {α : Type} [Scalar α]

/-- The boundaries of one axis: the step to the next cell, the ray parameter of the next
boundary, and the distance from one boundary to another. -/
structure AxisWalk (α : Type) where
  step : Int
  next : α
  delta : α
  deriving Repr

namespace AxisWalk

/-- The boundaries ahead of a ray that starts at `o` and moves by `d` along the axis. A
ray that does not move along it has none. -/
def start? (o d : α) : Option (AxisWalk α) :=
  if 0 < d then some ⟨1, (floor o + 1 - o) / d, 1 / d⟩
  else if d < 0 then some ⟨-1, (o - floor o) / -d, -1 / d⟩
  else none

def pass (a : AxisWalk α) : AxisWalk α :=
  { a with next := a.next + a.delta }

/-- The next boundary of the first axis comes strictly before that of the second one. -/
def before : Option (AxisWalk α) → Option (AxisWalk α) → Bool
  | some a, some b => a.next < b.next
  | some a, none => belowTop a.next
  | none, _ => false

end AxisWalk

structure Walk (α : Type) where
  cell : Voxel
  x : Option (AxisWalk α)
  y : Option (AxisWalk α)
  z : Option (AxisWalk α)
  deriving Repr

namespace Walk

def start (origin direction : Vec α) : Walk α where
  cell := Voxel.containing origin
  x := AxisWalk.start? origin.x direction.x
  y := AxisWalk.start? origin.y direction.y
  z := AxisWalk.start? origin.z direction.z

/-- The walk across the nearest boundary, and the ray parameter there. Of boundaries at
the same parameter, that of the last axis is crossed first. -/
def cross (w : Walk α) : Option (α × Walk α) :=
  if AxisWalk.before w.x w.y && AxisWalk.before w.x w.z then
    w.x.map fun a =>
      (a.next, { w with cell := { w.cell with x := advance α w.cell.x a.step }, x := some a.pass })
  else if AxisWalk.before w.y w.z then
    w.y.map fun a =>
      (a.next, { w with cell := { w.cell with y := advance α w.cell.y a.step }, y := some a.pass })
  else
    w.z.map fun a =>
      (a.next, { w with cell := { w.cell with z := advance α w.cell.z a.step }, z := some a.pass })

/-- The first cell of the walk where `solid` finds something, as long as the parameter
`t` stays within `reach`. -/
def firstSolid (solid : Voxel → Option String) (reach : α) :
    Nat → α → Walk α → Option (Voxel × String)
  | 0, _, _ => none
  | fuel + 1, t, w =>
    if t ≤ reach then
      match solid w.cell with
      | some name => some (w.cell, name)
      | none =>
        match w.cross with
        | none => none
        | some (t', w') => if isTop t' then none else firstSolid solid reach fuel t' w'
    else none

/-- More boundaries than a ray can cross within `reach`. -/
def budget (direction : Vec α) (reach : α) : Nat :=
  let along := fun d : α => 2 * ceilNat (reach * abs d) + 4
  along direction.x + along direction.y + along direction.z

end Walk

end VoxelScout.Terrain

namespace VoxelScout.Grid

open Terrain

variable {α : Type} [Scalar α]

/-- The first solid block along the ray from `origin`, up to `reach` times
`direction`. -/
def raycast (g : Grid) (origin direction : Vec α) (reach : α) : Option (Block α) :=
  if g.size == 0 || reach ≤ 0 then none
  else
    (Walk.firstSolid g.solidAt reach (Walk.budget direction reach) 0
      (Walk.start origin direction)).map fun (v, name) => ⟨name, v.corner, true⟩

def world (g : Grid) : World α where
  raycast := g.raycast
  blockAt := g.blockAt

end VoxelScout.Grid
