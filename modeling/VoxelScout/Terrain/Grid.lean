import Std.Data.HashMap
import VoxelScout.Terrain.Occlusion
import VoxelScout.Terrain.World

/-! # The voxel grid

Terrain is a sparse grid of cells of size one. A cell that was never set reads as air;
setting a cell to air or to nothing clears it.
-/

namespace VoxelScout

structure Voxel where
  x : Int
  y : Int
  z : Int
  deriving DecidableEq, Hashable, Repr

namespace Voxel

variable {α : Type} [Scalar α]

def containing (p : Vec α) : Voxel :=
  let cell := fun c : α => Scalar.truncate (Scalar.floor c)
  ⟨cell p.x, cell p.y, cell p.z⟩

def corner (v : Voxel) : Vec α :=
  ⟨Scalar.ofInt v.x, Scalar.ofInt v.y, Scalar.ofInt v.z⟩

end Voxel

/-- News about one cell. When `solid` is present it overrides what the name implies. -/
structure BlockUpdate where
  voxel : Voxel
  name : String
  solid : Option Bool := none
  deriving DecidableEq, Repr

structure Cell where
  name : String
  solid : Bool
  deriving DecidableEq, Repr

structure Grid where
  cells : Std.HashMap Voxel Cell

namespace Grid

def empty : Grid :=
  ⟨{}⟩

instance : Inhabited Grid :=
  ⟨empty⟩

/-- What an update puts into its cell: nothing when it names air or nothing at all. -/
def cellOf (u : BlockUpdate) : Option Cell :=
  if u.name == "" || u.name == "air" then none
  else some ⟨u.name, u.solid.getD (Terrain.occludes u.name)⟩

def set (g : Grid) (u : BlockUpdate) : Grid :=
  match cellOf u with
  | none => ⟨g.cells.erase u.voxel⟩
  | some cell => ⟨g.cells.insert u.voxel cell⟩

def apply (g : Grid) (updates : List BlockUpdate) : Grid :=
  updates.foldl set g

def size (g : Grid) : Nat :=
  g.cells.size

def get? (g : Grid) (v : Voxel) : Option Cell :=
  g.cells[v]?

/-- The name of the block of a cell, if it is solid. -/
def solidAt (g : Grid) (v : Voxel) : Option String :=
  match g.get? v with
  | some cell => if cell.solid then some cell.name else none
  | none => none

variable {α : Type} [Scalar α]

def blockAt (g : Grid) (p : Vec α) : Block α :=
  let v := Voxel.containing p
  match g.get? v with
  | some cell => ⟨cell.name, v.corner, cell.solid⟩
  | none => ⟨"air", v.corner, false⟩

end Grid

end VoxelScout
