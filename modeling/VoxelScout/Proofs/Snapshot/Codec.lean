import VoxelScout.Proofs.Decimal.ReadBack
import VoxelScout.Proofs.Json.Documents
import VoxelScout.Proofs.PlayerId

/-! # Records read back

Every record is an object of fields whose names differ in more than case, some of them left
out when they say nothing. What is left out is what a fresh record has anyway, so a record is
read back over a fresh one.
-/

namespace VoxelScout

open Json

/-! ## Numbers -/

theorem asFloat_float {x : Float} (h : x.isFinite = true) (base : Float) :
    asFloat base (.float x) = some x :=
  Decimal.literalFloat?_number h

theorem shallow_float {x : Float} (h : x.isFinite = true) (n : Nat) : Shallow n (.float x) :=
  shallow_number n (isNumber_iff.mpr (Decimal.numeral_number h))

/-- Zero without its sign. -/
def unsignZero (x : Float) : Float :=
  if x != 0 then x else 0

theorem elim_unless_zero_float {x : Float} (h : x.isFinite = true) (base : Float)
    (hbase : base = 0) :
    (if x != 0 then some (Json.float x) else none).elim (some base) (asFloat base) =
      some (unsignZero x) := by
  unfold unsignZero
  split
  · exact asFloat_float h base
  · exact congrArg some hbase

/-! ## Fields that are left out -/

theorem elim_unless_empty (text : String) :
    (if text != "" then some (Json.string text) else none).elim (some "") (asString "") =
      some text := by
  split
  · rfl
  · next h => rw [show text = "" by simpa using h]; rfl

theorem elim_unless_zero {i : Int} (h : Decimal.fitsInt64 i = true) :
    (if i != 0 then some (Json.int i) else none).elim (some 0) (asInt 0) = some i := by
  split
  · exact asInt_int h 0
  · next h => rw [show i = 0 by simpa using h]; rfl

theorem elim_optional {α : Type} {read : Decoder α} {fresh : α} {f : α → Json} {o : Option α}
    (hnull : ∀ a, f a ≠ .null) (h : ∀ a ∈ o, read fresh (f a) = some a) :
    (o.map f).elim (some none) (optional read fresh none) = some o := by
  cases o with
  | none => rfl
  | some a =>
      have hread : optional read fresh none (f a) = (read fresh (f a)).map some := by
        cases hf : f a with
        | null => exact absurd hf (hnull a)
        | _ => rfl
      rw [Option.map_some, Option.elim_some, hread, h a rfl, Option.map_some]

/-! ## Fields that can be written -/

def ShallowField (n : Nat) (value : Option Json) : Prop :=
  ∀ v ∈ value, Shallow n v

theorem shallowField_some {n : Nat} {v : Json} (h : Shallow n v) : ShallowField n (some v) := by
  rintro _ ⟨⟩
  exact h

theorem shallowField_if {n : Nat} {v : Json} (h : Shallow n v) (keep : Bool) :
    ShallowField n (if keep then some v else none) := by
  cases keep with
  | false => rintro _ ⟨⟩
  | true => exact shallowField_some h

theorem shallowField_map {α : Type} {n : Nat} {f : α → Json} {o : Option α}
    (h : ∀ a ∈ o, Shallow n (f a)) : ShallowField n (o.map f) := by
  intro v hv
  obtain ⟨a, ha, rfl⟩ := Option.map_eq_some_iff.mp hv
  exact h a ha

theorem Json.Sheet.shallow_toJson {n : Nat} {s : Sheet} (h : ∀ f ∈ s.fields, ShallowField n f.2) :
    Shallow (n + 1) s.toJson := by
  apply shallow_object
  intro m hm
  obtain ⟨f, hf, hmember⟩ := List.mem_filterMap.mp hm
  obtain ⟨v, hv, rfl⟩ := Option.map_eq_some_iff.mp hmember
  exact h f hf v hv

/-! ## Records -/

namespace Vec

def sheet (v : Vec Float) : Sheet where
  fields := [("x", some (.float v.x)), ("y", some (.float v.y)), ("z", some (.float v.z))]

theorem toJson_eq (v : Vec Float) : v.toJson = v.sheet.toJson :=
  rfl

def floats (v : Vec Float) : List Float :=
  [v.x, v.y, v.z]

theorem shallow_toJson {v : Vec Float} (h : ∀ x ∈ v.floats, x.isFinite = true) (n : Nat) :
    Shallow (n + 1) v.toJson := by
  simp only [floats, List.forall_mem_cons] at h
  obtain ⟨hx, hy, hz, -⟩ := h
  rw [toJson_eq]
  apply Sheet.shallow_toJson
  simp [sheet, shallowField_some, shallow_float hx, shallow_float hy, shallow_float hz]

theorem decode_toJson {v : Vec Float} (h : ∀ x ∈ v.floats, x.isFinite = true) (base : Vec Float) :
    decode base v.toJson = some v := by
  simp only [floats, List.forall_mem_cons] at h
  obtain ⟨hx, hy, hz, -⟩ := h
  have hfield {α : Type} := @Sheet.field_at α v.sheet
  rw [toJson_eq]
  simp only [decode, Sheet.toJson, record, hfield 0 rfl, hfield 1 rfl, hfield 2 rfl,
    Option.elim_some, asFloat_float hx, asFloat_float hy, asFloat_float hz]
  rfl

end Vec

namespace Item

def sheet (i : Item) : Sheet where
  fields := [("name", some (.string i.name)),
    ("display_name", if i.displayName != "" then some (.string i.displayName) else none),
    ("count", if i.count != 0 then some (.int i.count) else none)]

theorem toJson_eq (i : Item) : i.toJson = i.sheet.toJson := by
  simp only [toJson, Sheet.toJson, sheet, present_some, present_if, present_nil, List.cons_append,
    List.nil_append, List.append_nil]

theorem shallow_toJson (i : Item) (n : Nat) : Shallow (n + 1) i.toJson := by
  rw [toJson_eq]
  apply Sheet.shallow_toJson
  simp [sheet, shallowField_some, shallowField_if, shallow_string, shallow_int, -bne_iff_ne]

theorem decode_toJson {i : Item} (h : Decimal.fitsInt64 i.count = true) :
    decode {} i.toJson = some i := by
  have hfield {α : Type} := @Sheet.field_at α i.sheet
  rw [toJson_eq]
  simp only [decode, Sheet.toJson, record, hfield 0 rfl, hfield 1 rfl, hfield 2 rfl,
    Option.elim_some, elim_unless_empty, elim_unless_zero h]
  rfl

def counts (o : Option Item) : List Int :=
  (o.map Item.count).toList

theorem elim_decodeOptional {o : Option Item} (h : ∀ i ∈ counts o, Decimal.fitsInt64 i = true) :
    (o.map toJson).elim (some none) (decodeOptional none) = some o := by
  refine elim_optional (fun i => by simp [toJson]) ?_
  rintro i hi
  exact decode_toJson (h i.count (by simp [counts, Option.mem_def.mp hi]))

theorem shallowField_toJson (o : Option Item) (n : Nat) : ShallowField (n + 1) (o.map toJson) :=
  shallowField_map fun i _ => i.shallow_toJson n

end Item

namespace Pose

def sheet (p : Pose Float) : Sheet where
  fields := [("id", some p.id.toJson), ("name", some (.string p.name)),
    ("position", some p.position.toJson), ("velocity", some p.velocity.toJson),
    ("yaw", some (.float p.heading.yaw)), ("pitch", some (.float p.heading.pitch)),
    ("height", some (.float p.height)), ("on_ground", some (.bool p.onGround)),
    ("in_vehicle", some (.bool p.inVehicle)),
    ("effects", if !p.effects.isEmpty then some (.array (p.effects.map .int)) else none),
    ("held_item", p.heldItem.map Item.toJson), ("using_item", some (.bool p.usingItem))]

theorem toJson_eq (p : Pose Float) : p.toJson = p.sheet.toJson := by
  simp only [toJson, Sheet.toJson, sheet, present_some, present_if, present_optional, present_nil,
    List.cons_append, List.nil_append, List.append_assoc]

def floats (p : Pose Float) : List Float :=
  p.position.floats ++ p.velocity.floats ++ [p.heading.yaw, p.heading.pitch, p.height]

def ints (p : Pose Float) : List Int :=
  p.effects ++ Item.counts p.heldItem

theorem shallow_toJson {p : Pose Float} (h : ∀ x ∈ p.floats, x.isFinite = true) (n : Nat) :
    Shallow (n + 2) p.toJson := by
  simp only [floats, List.forall_mem_append, List.forall_mem_cons] at h
  obtain ⟨⟨hposition, hvelocity⟩, hyaw, hpitch, hheight, -⟩ := h
  have heffects : Shallow (n + 1) (.array (p.effects.map .int)) :=
    shallow_array (by simp [shallow_int])
  rw [toJson_eq]
  apply Sheet.shallow_toJson
  simp only [sheet, List.forall_mem_cons, PlayerId.toJson, shallowField_some, shallowField_if,
    shallow_string, shallow_bool, Vec.shallow_toJson hposition, Vec.shallow_toJson hvelocity,
    shallow_float hyaw, shallow_float hpitch, shallow_float hheight, heffects,
    Item.shallowField_toJson, List.not_mem_nil, false_implies, implies_true, and_self]

theorem elim_effects {effects : List Int} (h : ∀ i ∈ effects, Decimal.fitsInt64 i = true) :
    (if !effects.isEmpty then some (Json.array (effects.map .int)) else none).elim
      (some ⟨some [], []⟩) (slots asInt 0 ⟨some [], []⟩) = some ⟨some effects, []⟩ := by
  have hslots : slots asInt 0 ⟨some [], []⟩ (.array (effects.map .int)) =
      some ⟨some (effects.map fun i => i), []⟩ :=
    slots_array (fun i hi => asInt_int (h i hi) 0) rfl rfl
  rw [List.map_id'] at hslots
  split
  · exact hslots
  · next hempty => rw [show effects = [] by simpa using hempty]; rfl

theorem decodeDraft_toJson {p : Pose Float} (hfloats : ∀ x ∈ p.floats, x.isFinite = true)
    (hints : ∀ i ∈ p.ints, Decimal.fitsInt64 i = true) :
    decodeDraft ⟨initial, []⟩ p.toJson = some ⟨p, []⟩ := by
  simp only [floats, List.forall_mem_append, List.forall_mem_cons] at hfloats
  obtain ⟨⟨hposition, hvelocity⟩, hyaw, hpitch, hheight, -⟩ := hfloats
  simp only [ints, List.forall_mem_append] at hints
  obtain ⟨heffects, hitem⟩ := hints
  have hfield {α : Type} := @Sheet.field_at α p.sheet
  rw [toJson_eq]
  simp only [decodeDraft, Sheet.toJson, record, hfield 0 rfl, hfield 1 rfl, hfield 2 rfl,
    hfield 3 rfl, hfield 4 rfl, hfield 5 rfl, hfield 6 rfl, hfield 7 rfl, hfield 8 rfl,
    hfield 9 rfl, hfield 10 rfl, hfield 11 rfl, Option.elim_some, PlayerId.decode_toJson,
    Vec.decode_toJson hposition, Vec.decode_toJson hvelocity, asFloat_float hyaw,
    asFloat_float hpitch, asFloat_float hheight]
  -- over a fresh pose, what is left out is empty
  have heffects := elim_effects heffects
  have hitem := Item.elim_decodeOptional hitem
  simp only [initial, heffects, hitem]
  rfl

end Pose

namespace Player

def sheet (p : Player Float) : Sheet where
  fields := [("id", some p.id.toJson), ("name", some (.string p.name)),
    ("position", some p.position.toJson), ("velocity", some p.velocity.toJson),
    ("width", if p.width != 0 then some (.float p.width) else none),
    ("height", if p.height != 0 then some (.float p.height) else none),
    ("held_item", p.heldItem.map Item.toJson), ("head", p.head.map Item.toJson),
    ("torso", p.torso.map Item.toJson), ("legs", p.legs.map Item.toJson),
    ("feet", p.feet.map Item.toJson), ("status", some (.nat p.status.toNat)),
    ("health", p.health.map .float)]

theorem toJson_eq (p : Player Float) : p.toJson = p.sheet.toJson := by
  simp only [toJson, Sheet.toJson, sheet, present_some, present_if, present_optional, present_nil,
    List.cons_append, List.nil_append, List.append_assoc, List.append_nil]

def floats (p : Player Float) : List Float :=
  p.position.floats ++ p.velocity.floats ++ [p.width, p.height] ++ p.health.toList

def ints (p : Player Float) : List Int :=
  Item.counts p.heldItem ++ Item.counts p.head ++ Item.counts p.torso ++ Item.counts p.legs
    ++ Item.counts p.feet

/-- The roster entry as it comes back: a width or height of negative zero is left out like
any other zero. -/
def asRead (p : Player Float) : Player Float :=
  { p with width := unsignZero p.width, height := unsignZero p.height }

theorem shallow_toJson {p : Player Float} (h : ∀ x ∈ p.floats, x.isFinite = true) (n : Nat) :
    Shallow (n + 2) p.toJson := by
  simp only [floats, List.forall_mem_append, List.forall_mem_cons] at h
  obtain ⟨⟨⟨hposition, hvelocity⟩, hwidth, hheight, -⟩, hhealth⟩ := h
  have hhealth : ShallowField (n + 1) (p.health.map .float) :=
    shallowField_map fun x hx => shallow_float (hhealth x (by simpa using hx)) (n + 1)
  have hstatus : Shallow (n + 1) (.nat p.status.toNat) :=
    shallow_number (n + 1) (isNumber_digitString _)
  rw [toJson_eq]
  apply Sheet.shallow_toJson
  simp only [sheet, List.forall_mem_cons, PlayerId.toJson, shallowField_some, shallowField_if,
    shallow_string, Vec.shallow_toJson hposition, Vec.shallow_toJson hvelocity,
    shallow_float hwidth, shallow_float hheight, Item.shallowField_toJson, hstatus, hhealth,
    List.not_mem_nil, false_implies, implies_true, and_self]

theorem decode_toJson {p : Player Float} (hfloats : ∀ x ∈ p.floats, x.isFinite = true)
    (hints : ∀ i ∈ p.ints, Decimal.fitsInt64 i = true) :
    decode blank p.toJson = some p.asRead := by
  simp only [floats, List.forall_mem_append, List.forall_mem_cons] at hfloats
  obtain ⟨⟨⟨hposition, hvelocity⟩, hwidth, hheight, -⟩, hhealth⟩ := hfloats
  simp only [ints, List.forall_mem_append] at hints
  obtain ⟨⟨⟨⟨hheld, hhead⟩, htorso⟩, hlegs⟩, hfeet⟩ := hints
  have hfield {α : Type} := @Sheet.field_at α p.sheet
  have hhealth : (p.health.map Json.float).elim (some none) (optional asFloat 0 none) =
      some p.health :=
    elim_optional (fun x => by simp [Json.float]) fun x hx =>
      asFloat_float (hhealth x (by simpa using hx)) 0
  rw [toJson_eq]
  simp only [decode, Sheet.toJson, record, hfield 0 rfl, hfield 1 rfl, hfield 2 rfl, hfield 3 rfl,
    hfield 4 rfl, hfield 5 rfl, hfield 6 rfl, hfield 7 rfl, hfield 8 rfl, hfield 9 rfl,
    hfield 10 rfl, hfield 11 rfl, hfield 12 rfl, Option.elim_some, PlayerId.decode_toJson,
    Vec.decode_toJson hposition, Vec.decode_toJson hvelocity,
    elim_unless_zero_float hwidth (blank : Player Float).width rfl,
    elim_unless_zero_float hheight (blank : Player Float).height rfl, asByte_nat]
  simp only [blank, Item.elim_decodeOptional hheld, Item.elim_decodeOptional hhead,
    Item.elim_decodeOptional htorso, Item.elim_decodeOptional hlegs,
    Item.elim_decodeOptional hfeet, hhealth]
  rfl

end Player

namespace BlockUpdate

def sheet (u : BlockUpdate) : Sheet where
  fields := [("x", some (.int u.voxel.x)), ("y", some (.int u.voxel.y)),
    ("z", some (.int u.voxel.z)), ("name", some (.string u.name)), ("solid", u.solid.map .bool)]

theorem toJson_eq (u : BlockUpdate) : u.toJson = u.sheet.toJson := by
  simp only [toJson, Sheet.toJson, sheet, present_some, present_optional, present_nil,
    List.cons_append, List.nil_append, List.append_nil]

def ints (u : BlockUpdate) : List Int :=
  [u.voxel.x, u.voxel.y, u.voxel.z]

theorem shallow_toJson (u : BlockUpdate) (n : Nat) : Shallow (n + 1) u.toJson := by
  have hsolid : ShallowField n (u.solid.map .bool) := shallowField_map fun b _ => shallow_bool n b
  rw [toJson_eq]
  apply Sheet.shallow_toJson
  simp only [sheet, List.forall_mem_cons, shallowField_some, shallow_int, shallow_string, hsolid,
    List.not_mem_nil, false_implies, implies_true, and_self]

theorem decode_toJson {u : BlockUpdate} (h : ∀ i ∈ u.ints, Decimal.fitsInt64 i = true) :
    decode blank u.toJson = some u := by
  simp only [ints, List.forall_mem_cons] at h
  obtain ⟨hx, hy, hz, -⟩ := h
  have hsolid : (u.solid.map Json.bool).elim (some none) (optional asBool false none) =
      some u.solid :=
    elim_optional (fun b => by simp) fun _ _ => rfl
  have hfield {α : Type} := @Sheet.field_at α u.sheet
  rw [toJson_eq]
  simp only [decode, Sheet.toJson, record, hfield 0 rfl, hfield 1 rfl, hfield 2 rfl, hfield 3 rfl,
    hfield 4 rfl, Option.elim_some, asInt_int hx, asInt_int hy, asInt_int hz, blank, hsolid]
  rfl

end BlockUpdate

end VoxelScout
