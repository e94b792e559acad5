import VoxelScout.Snapshot

/-! # Beliefs about other players

What the bot holds to be true of another player. Loadout, status and health are known
only while the player is in plain sight; a position may be older than that.
-/

namespace VoxelScout

/-- A truth value that may be unknown. -/
inductive Tri where
  | unknown
  | no
  | yes
  deriving DecidableEq, Repr, Inhabited

namespace Tri

def ofBool : Bool → Tri
  | true => .yes
  | false => .no

/-- The value of a code; codes without a meaning are unknown. -/
def ofCode (code : Int) : Tri :=
  if code == 1 then .no else if code == 2 then .yes else .unknown

def name : Tri → String
  | .yes => "true"
  | .no => "false"
  | .unknown => "unknown"

end Tri

inductive Health where
  | unknown
  | healthy
  | injured
  | badlyWounded
  deriving DecidableEq, Repr, Inhabited

namespace Health

def ofCode (code : Int) : Health :=
  if code == 1 then .healthy
  else if code == 2 then .injured
  else if code == 3 then .badlyWounded
  else .unknown

def name : Health → String
  | .healthy => "Healthy"
  | .injured => "Injured"
  | .badlyWounded => "BadlyWounded"
  | .unknown => "Unknown"

def full {α : Type} [Scalar α] : α :=
  20

/-- Above three quarters of full health is healthy, above one quarter injured; hidden
health is unknown. -/
def ofPoints {α : Type} [Scalar α] : Option α → Health
  | none => .unknown
  | some points =>
    let share := points / full
    if 0.75 < share then .healthy
    else if 0.25 < share then .injured
    else .badlyWounded

end Health

inductive Visibility where
  /-- Too far away, or outside the view cone. -/
  | outOfView
  /-- In range and inside the cone, but behind terrain. -/
  | obstructed
  | direct
  deriving DecidableEq, Repr, Inhabited

namespace Visibility

def ofCode (code : Int) : Visibility :=
  if code == 1 then .obstructed else if code == 2 then .direct else .outOfView

def name : Visibility → String
  | .direct => "DirectSight"
  | .obstructed => "ObstructedInFov"
  | .outOfView => "OutOfFov"

end Visibility

structure Armor where
  head : Option Item := none
  torso : Option Item := none
  legs : Option Item := none
  feet : Option Item := none
  deriving DecidableEq, Repr, Inhabited

structure Belief (α : Type) where
  id : PlayerId
  name : String
  /-- Where the player was last located, if ever. -/
  position : Option (Vec α) := none
  velocity : Option (Vec α) := none
  heldItem : Option Item := none
  armor : Armor := {}
  crouching : Tri := .unknown
  sprinting : Tri := .unknown
  onFire : Tri := .unknown
  health : Health := .unknown
  visibility : Visibility
  inLineOfSight : Bool := false
  /-- When the player was last in plain sight. -/
  lastSeen : Instant := Instant.unset
  deriving Repr

namespace Belief

variable {α : Type} [Scalar α]

def blank : Belief α :=
  { id := PlayerId.nil, name := "", visibility := .outOfView }

instance : Inhabited (Belief α) :=
  ⟨blank⟩

/-- The belief after an observation. In plain sight everything is taken over; the name
tag of a player who stands behind cover still shows where the player is; otherwise the
last position remains, at rest. -/
def observe (p : Player α) (visibility : Visibility) (previous : Option (Belief α))
    (now : Instant) : Belief α :=
  let lastSeen := (previous.map (·.lastSeen)).getD Instant.unset
  if visibility == .direct then
    { id := p.id
      name := p.name
      visibility
      position := some p.position
      velocity := some p.velocity
      heldItem := p.heldItem
      armor := { head := p.head, torso := p.torso, legs := p.legs, feet := p.feet }
      crouching := Tri.ofBool p.crouching
      sprinting := Tri.ofBool p.sprinting
      onFire := Tri.ofBool p.onFire
      health := Health.ofPoints p.health
      inLineOfSight := true
      lastSeen := now }
  else if visibility == .obstructed && !p.crouching then
    { id := p.id
      name := p.name
      visibility
      position := some p.position
      velocity := some p.velocity
      lastSeen }
  else
    let position := previous.bind (·.position)
    { id := p.id
      name := p.name
      visibility
      position
      velocity := position.map fun _ => Vec.zero
      lastSeen }

end Belief

end VoxelScout
