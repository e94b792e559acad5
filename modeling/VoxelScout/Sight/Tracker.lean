import Std.Data.HashMap
import VoxelScout.Sight.Belief

/-! # Keeping track of players

The tracker holds one belief for each player of the roster, and beside the beliefs the
order in which the players were first seen. A snapshot renews the beliefs about the
players it lists and drops the others.
-/

namespace VoxelScout.Sight

variable {α : Type}

/-- How far and how wide the bot sees. Nothing is validated: a negative distance or
angle puts everybody out of view, and from 360 degrees on the angle is not looked at. -/
structure Config (α : Type) where
  viewDistance : α
  fieldOfView : α
  deriving Repr

namespace Config

def standard [Scalar α] : Config α :=
  ⟨128, 180⟩

def withDefaults [Scalar α] (c : Config α) : Config α where
  viewDistance := if c.viewDistance == 0 then standard.viewDistance else c.viewDistance
  fieldOfView := if c.fieldOfView == 0 then standard.fieldOfView else c.fieldOfView

end Config

/-- How well the bot sees a player, by distance, angle and terrain in this order. -/
def classify [Trig α] (config : Config α) (self : Pose α) (p : Player α) (world : World α) :
    Visibility :=
  let eye := self.eye
  let toPlayer := p.center.sub eye
  let distance := toPlayer.norm
  if config.viewDistance < distance then .outOfView
  else if config.fieldOfView < 360
      && Trig.radians config.fieldOfView / 2 < self.view.angle toPlayer then .outOfView
  else if (world.raycast eye toPlayer.normalize distance).isSome then .obstructed
  else .direct

/-- A roster entry that is not tracked: nobody, or the bot itself by identifier or
name. -/
def ignored (self : Pose α) (p : Player α) : Bool :=
  p.id == PlayerId.nil || p.id == self.id || (self.name != "" && p.name == self.name)

/-- The beliefs of the bot by player, the players in the order in which they were first
seen, and where the bot stands. -/
structure Tracker (α : Type) where
  config : Config α
  players : Std.HashMap PlayerId (Belief α)
  order : Array PlayerId
  position : Vec α

namespace Tracker

def new [Scalar α] (config : Config α) : Tracker α :=
  ⟨config.withDefaults, {}, #[], Vec.zero⟩

def player? (t : Tracker α) (id : PlayerId) : Option (Belief α) :=
  t.players[id]?

def beliefs (t : Tracker α) : List (Belief α) :=
  t.order.toList.filterMap t.player?

def size (t : Tracker α) : Nat :=
  t.order.size

/-- Goes through the order from place `read` on. Players to keep move up to place `write`,
the beliefs about the others are dropped, and in the end what lies behind the last player
kept is cut off. -/
def sweepFrom (keep : PlayerId → Bool) (read write : Nat) (t : Tracker α) : Tracker α :=
  if h : read < t.order.size then
    let id := t.order[read]
    if keep id then
      sweepFrom keep (read + 1) (write + 1) { t with order := t.order.setIfInBounds write id }
    else sweepFrom keep (read + 1) write { t with players := t.players.erase id }
  else { t with order := t.order.take write }
termination_by t.order.size - read
decreasing_by
  · simp only [Array.size_setIfInBounds]; omega
  · omega

section Observation

variable [Trig α]

/-- The tracker after one roster entry. A player who is not tracked yet comes last. -/
def observe (snapshot : Snapshot α) (now : Instant) (t : Tracker α) (p : Player α) :
    Tracker α :=
  let visibility := classify t.config snapshot.self p snapshot.world
  let previous := t.players[p.id]?
  { t with
    players := t.players.insert p.id (Belief.observe p visibility previous now)
    order := if previous.isSome then t.order else t.order.push p.id }

def present (snapshot : Snapshot α) : List (Player α) :=
  snapshot.players.filter fun p => !ignored snapshot.self p

/-- The tracker after a snapshot; `clock` is the time of a snapshot that does not say. -/
def update (t : Tracker α) (snapshot : Snapshot α) (clock : Instant) : Tracker α :=
  let now := snapshot.time.orElse clock
  let roster := present snapshot
  let renewed := roster.foldl (observe snapshot now) t
  { renewed.sweepFrom (fun id => roster.any fun p => p.id == id) 0 0 with
    position := snapshot.self.position }

/-- The closer of the best candidate so far and a belief, measured from a point. A
candidate has to be located at a distance below infinity, and of equally close ones the
first stays. -/
def closer (origin : Vec α) (best : Option (α × Belief α)) (b : Belief α) :
    Option (α × Belief α) :=
  match b.position with
  | none => best
  | some position =>
    let d := origin.distance position
    match best with
    | none => if Scalar.belowTop d then some (d, b) else none
    | some (least, _) => if d < least then some (d, b) else best

/-- The located player closest to the bot's feet. -/
def nearest? (t : Tracker α) : Option (Belief α) :=
  (t.beliefs.foldl (closer t.position) none).map (·.2)

end Observation

end Tracker

end VoxelScout.Sight
