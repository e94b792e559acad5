import VoxelScout.Wire.Payload

/-! # Values that no record takes

A reader goes over what is already there, but whether it takes a value is decided by the
value alone. One item that is refused therefore refuses the list it stands in, and a list
that is refused refuses the whole record, whatever the other members say and in whichever
order they come.
-/

namespace VoxelScout.Json

/-! ## Readers that decide by the value -/

/-- Whether the reader takes a value does not depend on what it reads over. -/
def Uniform {α : Type} (read : Decoder α) : Prop :=
  ∀ (base base' : α) (value : Json), (read base value).isSome = (read base' value).isSome

/-- A chain of readings ends well or badly independently of the values on the way. -/
theorem isSome_bind_congr {α β : Type} {o o' : Option α} {f g : α → Option β}
    (ho : o.isSome = o'.isSome) (hfg : ∀ a a', (f a).isSome = (g a').isSome) :
    (o >>= f).isSome = (o' >>= g).isSome := by
  cases o with
  | none =>
      cases o' with
      | none => rfl
      | some a' => cases ho
  | some a =>
      cases o' with
      | none => cases ho
      | some a' => exact hfg a a'

theorem Uniform.eq_none {α : Type} {read : Decoder α} (h : Uniform read) {base : α}
    {value : Json} (hnone : read base value = none) (base' : α) : read base' value = none := by
  have hsome := h base base' value
  rw [hnone] at hsome
  exact Option.isNone_iff_eq_none.mp (Option.isSome_eq_false_iff.mp hsome.symm)

theorem uniform_asInt : Uniform asInt := by
  intro base base' value
  cases value <;> rfl

theorem uniform_asString : Uniform asString := by
  intro base base' value
  cases value <;> rfl

theorem uniform_asBool : Uniform asBool := by
  intro base base' value
  cases value <;> rfl

theorem Uniform.optional {α : Type} {read : Decoder α} (h : Uniform read) (fresh : α) :
    Uniform (Json.optional read fresh) := by
  intro base base' value
  have hread := h (base.getD fresh) (base'.getD fresh) value
  cases value <;> simp_all [Json.optional]

/-- Members of a name are read in a row, and the first one that is refused ends it. -/
theorem Uniform.field {α : Type} {read : Decoder α} (h : Uniform read)
    (members : List (String × Json)) (name : String) (base base' : α) :
    (Json.field members name read base).isSome =
      (Json.field members name read base').isSome := by
  unfold Json.field
  induction members.filter (fun m => Text.sameFold m.1 name) generalizing base base' with
  | nil => rfl
  | cons m rest ih =>
      rw [List.foldlM_cons, List.foldlM_cons]
      exact isSome_bind_congr (h base base' m.2) ih

/-! ## Lists with a bad item -/

theorem readSlots_eq_none {α : Type} {read : Decoder α} {bad : Json}
    (hbad : ∀ base, read base bad = none) (fresh : α) {values : List Json} (hmem : bad ∈ values)
    (earlier : List α) : readSlots read fresh earlier values = none := by
  induction values generalizing earlier with
  | nil => cases hmem
  | cons v rest ih =>
      cases hmem with
      | head =>
          simp only [readSlots, hbad]
          rfl
      | tail _ htail =>
          simp only [readSlots, ih htail]
          cases read (earlier.headD fresh) v <;> rfl

theorem slots_eq_none {α : Type} {read : Decoder α} {bad : Json}
    (hbad : ∀ base, read base bad = none) (fresh : α) {values : List Json} (hmem : bad ∈ values)
    (base : Slots α) : slots read fresh base (.array values) = none := by
  cases values with
  | nil => cases hmem
  | cons v rest =>
      simp only [slots, readSlots_eq_none hbad fresh hmem]
      rfl

/-- A member that no base takes refuses its field, wherever it stands among the members. -/
theorem field_eq_none {α : Type} {read : Decoder α} {name key : String} {bad : Json}
    {members : List (String × Json)} (hmem : (key, bad) ∈ members)
    (hkey : Text.sameFold key name = true) (hbad : ∀ base, read base bad = none) (base : α) :
    field members name read base = none := by
  have hfound : (key, bad) ∈ members.filter fun m => Text.sameFold m.1 name :=
    List.mem_filter.mpr ⟨hmem, hkey⟩
  unfold field
  generalize members.filter (fun m => Text.sameFold m.1 name) = found at hfound
  induction found generalizing base with
  | nil => cases hfound
  | cons m rest ih =>
      rw [List.foldlM_cons]
      cases hfound with
      | head =>
          rw [hbad]
          rfl
      | tail _ htail =>
          cases read base m.2 with
          | none => rfl
          | some a => exact ih a htail

theorem listField_eq_none {α : Type} {read : Decoder α} {name key : String} {bad : Json}
    {values : List Json} {members : List (String × Json)} (hmem : (key, .array values) ∈ members)
    (hkey : Text.sameFold key name = true) (hbad : ∀ base, read base bad = none)
    (hitem : bad ∈ values) (fresh : α) (base : Option (List α)) :
    listField members name read fresh base = none := by
  have hslots : ∀ base, slots read fresh base (.array values) = none :=
    slots_eq_none hbad fresh hitem
  rw [listField, field_eq_none hmem hkey hslots]
  rfl

end VoxelScout.Json

namespace VoxelScout

open Json

/-! ## News about cells -/

theorem BlockUpdate.uniform_decode : Uniform BlockUpdate.decode := by
  intro u u' value
  cases value with
  | object members =>
      have hx := uniform_asInt.field members "x" u.voxel.x u'.voxel.x
      have hy := uniform_asInt.field members "y" u.voxel.y u'.voxel.y
      have hz := uniform_asInt.field members "z" u.voxel.z u'.voxel.z
      have hname := uniform_asString.field members "name" u.name u'.name
      have hsolid := (uniform_asBool.optional false).field members "solid" u.solid u'.solid
      -- no field is read over the result of another one
      exact isSome_bind_congr hx fun _ _ => isSome_bind_congr hy fun _ _ =>
        isSome_bind_congr hz fun _ _ => isSome_bind_congr hname fun _ _ =>
          isSome_bind_congr hsolid fun _ _ => rfl
  | _ => rfl

/-- One item that is no news about a cell refuses the whole batch, whatever the batch says
about dropping what was known. -/
theorem Wire.Blocks.decode_eq_none {members : List (String × Json)} {key : String}
    {values : List Json} {bad : Json} (hmem : (key, .array values) ∈ members)
    (hkey : Text.sameFold key "updates" = true) (hitem : bad ∈ values)
    (hbad : BlockUpdate.decode BlockUpdate.blank bad = none) (base : Wire.Blocks) :
    Wire.Blocks.decode base (.object members) = none := by
  have hany : ∀ u, BlockUpdate.decode u bad = none := BlockUpdate.uniform_decode.eq_none hbad
  simp only [Wire.Blocks.decode, record,
    listField_eq_none hmem hkey hany hitem BlockUpdate.blank base.updates]
  cases field members "reset" asBool base.reset <;> rfl

end VoxelScout
