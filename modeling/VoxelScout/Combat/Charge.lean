import VoxelScout.Clock
import VoxelScout.Scalar
import VoxelScout.Terrain.Occlusion

/-! # Charging an attack

After a swing an attack has to charge again. How fast it does depends on the held item,
which is told by parts of its name.
-/

namespace VoxelScout.Combat

open Scalar Terrain

variable {α : Type} [Scalar α]

/-- Attacks per second with an empty hand, and with items that are no weapons. -/
def handSpeed : α :=
  4

def axeSpeed? (name : String) : Option α :=
  if nameContains name "wooden" || nameContains name "stone" then some 0.8
  else if nameContains name "iron" then some 0.9
  else if nameContains name "diamond" || nameContains name "netherite"
      || nameContains name "golden" then some 1
  else none

def hoeSpeed? (name : String) : Option α :=
  if nameContains name "wooden" || nameContains name "golden" then some 1
  else if nameContains name "stone" then some 2
  else if nameContains name "iron" then some 3
  else if nameContains name "diamond" || nameContains name "netherite" then some 4
  else none

def attackSpeed (name : String) : α :=
  if name == "" then handSpeed
  else if nameContains name "sword" then 1.6
  else if nameContains name "trident" then 1.1
  else if nameContains name "shovel" then 1
  else if nameContains name "pickaxe" then 1.2
  else
    let axe := if nameContains name "axe" then axeSpeed? name else none
    let hoe := if nameContains name "hoe" then hoeSpeed? name else none
    (axe.or hoe).getD handSpeed

def cooldown (α : Type) [Scalar α] (name : String) : Duration :=
  truncate ((1000000000 : α) / attackSpeed name)

/-- The share of the full damage after a time: with `ticks` to a full charge and `x`
ticks passed it is `0.2 + ((x + 0.5) / ticks)² · 0.8`, kept between 0.2 and 1. A second
has twenty ticks. -/
def damageShare (elapsed : Duration) (speed : α) : α :=
  let ticks := 20 / speed
  let x := ofInt elapsed / 1000000 / 50
  let r := (x + 0.5) / ticks
  clamp (0.2 + r * r * 0.8) 0.2 1

def chargeRatio (elapsed : Duration) (name : String) : α :=
  ofInt elapsed / ofInt (cooldown α name)

end VoxelScout.Combat
