/-! # Control axes

The controls that the bot can hold down.
-/

namespace VoxelScout

inductive Axis where
  | forward
  | back
  | left
  | right
  | jump
  | sneak
  | sprint
  deriving DecidableEq, Repr

namespace Axis

def all : List Axis :=
  [.forward, .back, .left, .right, .jump, .sneak, .sprint]

def index : Axis → Fin 7
  | .forward => 0
  | .back => 1
  | .left => 2
  | .right => 3
  | .jump => 4
  | .sneak => 5
  | .sprint => 6

def name : Axis → String
  | .forward => "forward"
  | .back => "back"
  | .left => "left"
  | .right => "right"
  | .jump => "jump"
  | .sneak => "sneak"
  | .sprint => "sprint"

def ofName? (name : String) : Option Axis :=
  all.find? fun a => a.name == name

def ofIndex? (i : Int) : Option Axis :=
  if i < 0 then none else all[i.toNat]?

end Axis

end VoxelScout
