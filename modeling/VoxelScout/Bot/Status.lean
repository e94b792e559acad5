import VoxelScout.Bot
import VoxelScout.Hearing.Codec
import VoxelScout.Sight.Codec

/-! # The state of a bot as a document -/

namespace VoxelScout.Bot

structure CombatStatus (α : Type) where
  heldItem : String
  charged : Bool
  damage : α
  ratio : α
  cooldown : Duration
  critical : Bool

structure Status (α : Type) where
  ticks : Nat
  lastTick : Instant
  self : Pose α
  trackedPlayers : Nat
  sounds : Nat
  combat : CombatStatus α
  controls : List Axis

variable {α : Type}

def combatStatus [Trig α] (b : Bot α) (now : Instant) : CombatStatus α where
  heldItem := b.combat.held
  charged := b.combat.charged now
  damage := b.combat.damage now
  ratio := b.combat.ratio now
  cooldown := b.combat.fullCharge
  critical := b.combat.critical now

def status [Trig α] (b : Bot α) (now : Instant) : Status α where
  ticks := b.ticks
  lastTick := b.lastTick
  self := b.self
  trackedPlayers := b.sight.size
  sounds := b.hearing.events.length
  combat := b.combatStatus now
  controls := b.controls.held

def CombatStatus.toJson (c : CombatStatus Float) : Json :=
  .object [("held_item", .string c.heldItem), ("charged", .bool c.charged),
    ("damage_multiplier", .float c.damage), ("charge_ratio", .float c.ratio),
    ("cooldown_ns", .int c.cooldown), ("in_crit_window", .bool c.critical)]

def Status.toJson (s : Status Float) : Json :=
  .object [("ticks", .nat s.ticks), ("last_tick", .string s.lastTick.render),
    ("self", s.self.toJson), ("tracked_players", .nat s.trackedPlayers),
    ("sounds", .nat s.sounds), ("combat", s.combat.toJson),
    ("controls", .array (s.controls.map fun a => .string a.name))]

def frame (b : Bot Float) (now : Instant) : Json :=
  .object [("status", (b.status now).toJson),
    ("players", .array (b.sight.beliefs.map Belief.toJson)),
    ("sounds", .array (b.hearing.events.map Hearing.Event.toJson))]

end VoxelScout.Bot
