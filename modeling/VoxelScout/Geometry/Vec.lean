import VoxelScout.Scalar

/-! # Vectors

Points and directions in space. The first axis points east, the second one up and the
third one south.
-/

namespace VoxelScout

structure Vec (α : Type) where
  x : α
  y : α
  z : α
  deriving DecidableEq, Repr

namespace Vec

open Scalar

variable {α : Type}

section Algebra

variable [Scalar α]

def zero : Vec α :=
  ⟨0, 0, 0⟩

instance : Inhabited (Vec α) :=
  ⟨zero⟩

def add (p q : Vec α) : Vec α :=
  ⟨p.x + q.x, p.y + q.y, p.z + q.z⟩

def sub (p q : Vec α) : Vec α :=
  ⟨p.x - q.x, p.y - q.y, p.z - q.z⟩

def scale (f : α) (p : Vec α) : Vec α :=
  ⟨f * p.x, f * p.y, f * p.z⟩

def dot (p q : Vec α) : α :=
  p.x * q.x + p.y * q.y + p.z * q.z

def cross (p q : Vec α) : Vec α :=
  ⟨p.y * q.z - p.z * q.y, p.z * q.x - p.x * q.z, p.x * q.y - p.y * q.x⟩

def raise (p : Vec α) (height : α) : Vec α :=
  add p ⟨0, height, 0⟩

end Algebra

variable [Trig α]

def norm (p : Vec α) : α :=
  Trig.hypot p.x (Trig.hypot p.y p.z)

def distance (p q : Vec α) : α :=
  norm (sub p q)

def unit (p : Vec α) : Vec α :=
  scale (1 / norm p) p

/-- The vector of length one in the same direction, and zero for a vector without a
length. -/
def normalize (p : Vec α) : Vec α :=
  if norm p == 0 then zero else unit p

/-- The angle between two directions in radians, and zero when one of them has no
length. -/
def angle (p q : Vec α) : α :=
  let lengths := norm p * norm q
  if lengths == 0 then 0 else Trig.acos (clamp (dot p q / lengths) (-1) 1)

end Vec

/-- Where somebody looks: `yaw` is measured from north over west, `pitch` from the
horizon downwards, both in radians. -/
structure Heading (α : Type) where
  yaw : α
  pitch : α
  deriving DecidableEq, Repr

namespace Heading

variable {α : Type} [Trig α]

def direction (h : Heading α) : Vec α :=
  ⟨-Trig.sin h.yaw * Trig.cos h.pitch, -Trig.sin h.pitch, -Trig.cos h.yaw * Trig.cos h.pitch⟩

def toward (d : Vec α) : Heading α :=
  if d.norm == 0 then ⟨0, 0⟩
  else ⟨Trig.atan2 (-d.x) (-d.z), Trig.atan2 (-d.y) (Trig.hypot d.x d.z)⟩

end Heading

end VoxelScout
