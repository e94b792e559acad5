import VoxelScout.Combat.Charge
import VoxelScout.Snapshot

/-! # Fighting

The tracker knows when the attack was last reset, what the last snapshot showed, and so
which swing would hit. Only a swing that would hit is sent, and only a swing that was
sent resets the charge.
-/

namespace VoxelScout.Combat

open Scalar Terrain

variable {α : Type}

structure Config (α : Type) where
  maxReach : α
  critCharge : α
  deriving Repr

namespace Config

def standard [Scalar α] : Config α :=
  ⟨3, 0.848⟩

def withDefaults [Scalar α] (c : Config α) : Config α where
  maxReach := if c.maxReach == 0 then standard.maxReach else c.maxReach
  critCharge := if c.critCharge == 0 then standard.critCharge else c.critCharge

end Config

structure Tracker (α : Type) where
  config : Config α
  /-- When the charge last started from nothing. -/
  lastReset : Instant
  held : String
  /-- Whether a snapshot has shown the held item yet. -/
  primed : Bool
  self : Pose α
  players : List (Player α)
  world : World α
  /-- The name of the block the bot stands in. -/
  standingIn : String

namespace Tracker

/-- A new bot starts charged: as if the last reset were five seconds ago. -/
def new [Scalar α] (config : Config α) (now : Instant) : Tracker α where
  config := config.withDefaults
  lastReset := now.add (-(Duration.seconds 5))
  held := ""
  primed := false
  self := Pose.initial
  players := []
  world := World.empty
  standingIn := "air"

def reset (t : Tracker α) (now : Instant) : Tracker α :=
  { t with lastReset := now }

/-- Takes over a snapshot. A change of the held item resets the charge, but the first
snapshot only tells what is held. -/
def update (t : Tracker α) (snapshot : Snapshot α) (now : Instant) : Tracker α :=
  let name := snapshot.self.heldName
  let changed := t.primed && name != t.held
  { t with
    lastReset := if changed then now else t.lastReset
    held := name
    primed := true
    self := snapshot.self
    players := snapshot.players
    world := snapshot.world
    standingIn := (snapshot.world.blockAt snapshot.self.position).name }

def look (t : Tracker α) (heading : Heading α) : Tracker α :=
  { t with self := { t.self with heading } }

def elapsed (t : Tracker α) (now : Instant) : Duration :=
  now.since t.lastReset

section Charge

variable [Scalar α]

def fullCharge (t : Tracker α) : Duration :=
  cooldown α t.held

def charged (t : Tracker α) (now : Instant) : Bool :=
  t.fullCharge ≤ t.elapsed now

def damage (t : Tracker α) (now : Instant) : α :=
  damageShare (t.elapsed now) (attackSpeed t.held)

def ratio (t : Tracker α) (now : Instant) : α :=
  chargeRatio (t.elapsed now) t.held

/-- Blocks that keep whoever is in them from falling freely. -/
def braking (name : String) : Bool :=
  ["water", "ladder", "cobweb", "scaffolding", "honey_block"].contains name
    || nameContains name "vine"

/-- A swing now would be a critical hit: the bot falls freely and is charged enough. -/
def critical (t : Tracker α) (now : Instant) : Bool :=
  let s := t.self
  if 0 ≤ s.velocity.y then false
  else if s.onGround || s.inVehicle then false
  else if s.hasEffect Effect.blindness.code || s.hasEffect Effect.slowFalling.code then false
  else if braking t.standingIn then false
  else t.config.critCharge ≤ t.ratio now

end Charge

section Aim

variable [Trig α]

/-- The nearer of the best target so far and a roster entry, along the view from the
eye. A target has to be hit at a distance below infinity, and of equally near ones the
first stays. -/
def nearer (config : Config α) (self : Pose α) (best : Option (α × PlayerId)) (p : Player α) :
    Option (α × PlayerId) :=
  if p.id == self.id then best
  else match p.box.entry? self.eye self.view config.maxReach with
    | none => best
    | some d =>
      match best with
      | none => if belowTop d then some (d, p.id) else none
      | some (least, _) => if d < least then some (d, p.id) else best

/-- The player under the crosshair: the one whose box the view enters first within reach,
unless a block stops the view before. -/
def underCrosshair (t : Tracker α) : Option PlayerId :=
  match t.players.foldl (nearer t.config t.self) none with
  | none => none
  | some (d, id) => if (t.world.raycast t.self.eye t.self.view d).isSome then none else some id

def canAttack (t : Tracker α) (target : PlayerId) : Bool :=
  if t.self.usingItem then false
  else match t.players.find? fun p => p.id == target with
    | none => false
    | some victim =>
      if t.config.maxReach < victim.box.distance t.self.eye then false
      else t.underCrosshair == some target

end Aim

/-- What became of a swing: whether it was sent, whom the one who carries attacks out was
asked to hit, and the state afterwards. -/
structure Swing (α : Type) where
  sent : Bool
  asked : List PlayerId
  tracker : Tracker α

/-- Swings at a player. `accept` says of each player whether the one who carries attacks
out accepts an attack, and is absent when there is nobody. It is asked only for a swing
that would hit. -/
def attack [Trig α] (t : Tracker α) (accept : Option (PlayerId → Bool)) (target : PlayerId)
    (now : Instant) : Swing α :=
  match accept with
  | none => ⟨false, [], t⟩
  | some accept =>
    if t.canAttack target then
      if accept target then ⟨true, [target], t.reset now⟩ else ⟨false, [target], t⟩
    else ⟨false, [], t⟩

end Tracker

end VoxelScout.Combat
