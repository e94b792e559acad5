import VoxelScout.Controls.Axis
import VoxelScout.Geometry.Vec
import VoxelScout.PlayerId

/-! # Hosts

The game carries out what the bot decides. A host has a state of its own, which every
command may change, and answers each command with whether it took it.
-/

namespace VoxelScout

inductive Command (α : Type) where
  | control (axis : Axis) (pressed : Bool)
  | attack (target : PlayerId)
  | look (heading : Heading α)
  | chat (line : String)
  deriving DecidableEq, Repr

structure Host (σ α : Type) where
  /-- Whether the host takes a command, and its state afterwards. -/
  carry : σ → Command α → Bool × σ

namespace Host

variable {σ α : Type}

def sendAll (host : Host σ α) (s : σ) (commands : List (Command α)) : σ :=
  commands.foldl (fun s c => (host.carry s c).2) s

/-- The state after commands that are given up to the first one that is refused. -/
def sendUntilRefused (host : Host σ α) : σ → List (Command α) → σ
  | s, [] => s
  | s, c :: rest =>
    match host.carry s c with
    | (true, s) => host.sendUntilRefused s rest
    | (false, s) => s

def accepts (host : Host σ α) (s : σ) (c : Command α) : Bool :=
  (host.carry s c).1

end Host

end VoxelScout
