/-! # Which blocks stop a sight line

Occlusion follows the shape of a block, which its name stands for: plants, fluids,
torches, rails and other thin things never stop a ray. Families with many variants are
recognised by a part of the name.
-/

namespace VoxelScout.Terrain

/-- Names of blocks that a sight line passes. -/
def passable : List String :=
  ["air", "cave_air", "void_air", "light", "structure_void",
    "water", "lava", "bubble_column",
    "grass", "short_grass", "tall_grass", "fern", "large_fern",
    "dead_bush", "seagrass", "tall_seagrass", "kelp", "kelp_plant",
    "dandelion", "poppy", "blue_orchid", "allium", "azure_bluet",
    "oxeye_daisy", "cornflower", "lily_of_the_valley", "wither_rose",
    "torchflower", "sunflower", "lilac", "rose_bush", "peony",
    "pink_petals", "brown_mushroom", "red_mushroom",
    "crimson_fungus", "warped_fungus", "crimson_roots", "warped_roots",
    "nether_sprouts", "hanging_roots", "glow_lichen", "sculk_vein",
    "wheat", "carrots", "potatoes", "beetroots", "sugar_cane",
    "nether_wart", "sweet_berry_bush", "melon_stem", "pumpkin_stem",
    "attached_melon_stem", "attached_pumpkin_stem", "lily_pad",
    "torch", "wall_torch", "soul_torch", "soul_wall_torch",
    "redstone_torch", "redstone_wall_torch", "redstone_wire",
    "tripwire", "tripwire_hook", "lever",
    "rail", "powered_rail", "detector_rail", "activator_rail",
    "fire", "soul_fire", "cobweb", "snow", "ladder"]

/-- Endings of the names of passable families. -/
def passableEndings : List String :=
  ["_tulip", "_sapling", "_sign", "_banner", "_button", "_pressure_plate",
    "_carpet", "_coral", "_coral_fan", "_coral_wall_fan"]

def occursIn (part : List Char) : List Char → Bool
  | [] => part.isEmpty
  | c :: rest => part.isPrefixOf (c :: rest) || occursIn part rest

def nameContains (name part : String) : Bool :=
  occursIn part.toList name.toList

def nameEndsWith (name ending : String) : Bool :=
  ending.toList.isSuffixOf name.toList

/-- A block of this name stops a sight line when nothing else is known about it. -/
def occludes (name : String) : Bool :=
  !(name == "" || passable.contains name || nameContains name "vine"
    || passableEndings.any (nameEndsWith name))

end VoxelScout.Terrain
