import VoxelScout.Proofs.Scalar.Exact
import VoxelScout.Proofs.Terrain.Obstruction

/-! # The first cube on the way

Without rounding, the walk of a ray is in the right cell all the time: where it stands, the ray
meets the cube of the cell, and it leaves the cube where the ray does. So a walk ends, it ends
at a cube that the ray meets, and no solid cube that the ray enters before is missed.
-/

namespace VoxelScout

open Scalar Terrain

/-! ## Rays and cubes -/

def Vec.along (origin direction : Vec ℚ) (t : ℚ) : Vec ℚ :=
  origin.add (direction.scale t)

/-- The point lies in the cube of the cell, whose faces belong to it. -/
structure Voxel.Touches (v : Voxel) (p : Vec ℚ) : Prop where
  x : p.x ∈ Set.Icc (v.x : ℚ) (v.x + 1)
  y : p.y ∈ Set.Icc (v.y : ℚ) (v.y + 1)
  z : p.z ∈ Set.Icc (v.z : ℚ) (v.z + 1)

/-- The point lies in the cube of the cell and on none of its faces. -/
structure Voxel.Encloses (v : Voxel) (p : Vec ℚ) : Prop where
  x : p.x ∈ Set.Ioo (v.x : ℚ) (v.x + 1)
  y : p.y ∈ Set.Ioo (v.y : ℚ) (v.y + 1)
  z : p.z ∈ Set.Ioo (v.z : ℚ) (v.z + 1)

theorem Voxel.touches_containing (p : Vec ℚ) : (Voxel.containing p).Touches p := by
  have hfloor (a : ℚ) :
      a ∈ Set.Icc ((truncate (floor a) : ℤ) : ℚ) ((truncate (floor a) : ℤ) + 1) := by
    rw [truncate_floor]
    exact ⟨Int.floor_le a, (Int.lt_floor_add_one a).le⟩
  exact ⟨hfloor p.x, hfloor p.y, hfloor p.z⟩

theorem Voxel.Encloses.eq_of_touches {u v : Voxel} {p : Vec ℚ} (hu : u.Encloses p)
    (hv : v.Touches p) : u = v := by
  have hsame {a b : ℤ} {c : ℚ} (ha : c ∈ Set.Ioo (a : ℚ) (a + 1))
      (hb : c ∈ Set.Icc (b : ℚ) (b + 1)) : a = b := by
    have hle : (a : ℚ) < b + 1 := ha.1.trans_le hb.2
    have hge : (b : ℚ) < a + 1 := hb.1.trans_lt ha.2
    norm_cast at hle hge
    omega
  obtain ⟨ux, uy, uz⟩ := u
  obtain ⟨vx, vy, vz⟩ := v
  obtain rfl := hsame hu.x hv.x
  obtain rfl := hsame hu.y hv.y
  obtain rfl := hsame hu.z hv.z
  rfl

/-! ## One axis -/

namespace Terrain

namespace AxisWalk

def at? (o d : ℚ) (c : ℤ) : Option (AxisWalk ℚ) :=
  if 0 < d then some ⟨1, (c + 1 - o) / d, 1 / d⟩
  else if d < 0 then some ⟨-1, (o - c) / -d, -1 / d⟩
  else none

/-- The parameter of the next boundary; infinity where there is none. -/
def boundary (a : Option (AxisWalk ℚ)) : WithTop ℚ :=
  match a with
  | some a => a.next
  | none => ⊤

/-- How many boundaries a walk may still cross within `reach`. -/
def ahead (o d reach : ℚ) (c : ℤ) : ℕ :=
  if 0 < d then (⌊o + reach * d⌋ + 1 - c).toNat
  else if d < 0 then (c + 2 - ⌈o + reach * d⌉).toNat
  else 0

variable {o d t t' reach : ℚ} {c : ℤ} {a : AxisWalk ℚ}

theorem before_iff {a b : Option (AxisWalk ℚ)} :
    before a b = true ↔ boundary a < boundary b := by
  cases a with
  | none => simp [before, boundary]
  | some a =>
      cases b with
      | none => simp [before, boundary, belowTop, isNumber, isTop]
      | some b => simp [before, boundary]

theorem at?_of_pos (hd : 0 < d) : at? o d c = some ⟨1, (c + 1 - o) / d, 1 / d⟩ := by
  rw [at?, if_pos hd]

theorem at?_of_neg (hd : d < 0) : at? o d c = some ⟨-1, (o - c) / -d, -1 / d⟩ := by
  rw [at?, if_neg hd.not_gt, if_pos hd]

theorem at?_zero : at? o 0 c = none := by
  simp [at?]

theorem start?_eq (o d : ℚ) : start? o d = at? o d ⌊o⌋ := by
  simp [start?, at?, floor]

theorem at?_pass (h : at? o d c = some a) : at? o d (c + a.step) = some a.pass := by
  rcases lt_trichotomy d 0 with hd | rfl | hd
  · rw [at?_of_neg hd, Option.some.injEq] at h
    obtain rfl := h
    rw [at?_of_neg hd, pass]
    congr 2
    field_simp
    push_cast
    ring
  · rw [at?_zero] at h
    cases h
  · rw [at?_of_pos hd, Option.some.injEq] at h
    obtain rfl := h
    rw [at?_of_pos hd, pass]
    congr 2
    field_simp
    push_cast
    ring

/-- A ray stays in the slab of a cell up to the next boundary. -/
theorem le_boundary (hslab : o + t * d ∈ Set.Icc (c : ℚ) (c + 1)) :
    t ≤ boundary (at? o d c) := by
  obtain ⟨hlow, hhigh⟩ := hslab
  rcases lt_trichotomy d 0 with hd | rfl | hd
  · rw [at?_of_neg hd, boundary, WithTop.coe_le_coe, le_div_iff₀ (neg_pos.mpr hd)]
    linarith
  · rw [at?_zero]
    exact le_top
  · rw [at?_of_pos hd, boundary, WithTop.coe_le_coe, le_div_iff₀ hd]
    linarith

theorem slab_of_le_boundary (hslab : o + t * d ∈ Set.Icc (c : ℚ) (c + 1)) (hlater : t ≤ t')
    (hexit : t' ≤ boundary (at? o d c)) : o + t' * d ∈ Set.Icc (c : ℚ) (c + 1) := by
  obtain ⟨hlow, hhigh⟩ := hslab
  rcases lt_trichotomy d 0 with hd | rfl | hd
  · rw [at?_of_neg hd, boundary, WithTop.coe_le_coe, le_div_iff₀ (neg_pos.mpr hd)] at hexit
    have hmove : t' * d ≤ t * d := mul_le_mul_of_nonpos_right hlater hd.le
    constructor <;> linarith
  · constructor <;> linarith
  · rw [at?_of_pos hd, boundary, WithTop.coe_le_coe, le_div_iff₀ hd] at hexit
    have hmove : t * d ≤ t' * d := mul_le_mul_of_nonneg_right hlater hd.le
    constructor <;> linarith

theorem slab_next (h : at? o d c = some a) :
    o + a.next * d ∈ Set.Icc ((c + a.step : ℤ) : ℚ) ((c + a.step : ℤ) + 1) := by
  rcases lt_trichotomy d 0 with hd | rfl | hd
  · rw [at?_of_neg hd, Option.some.injEq] at h
    obtain rfl := h
    have hmove : (o - c) / -d * d = c - o := by
      rw [div_neg, neg_mul, div_mul_cancel₀ _ hd.ne]
      ring
    push_cast
    constructor <;> linarith
  · rw [at?_zero] at h
    cases h
  · rw [at?_of_pos hd, Option.some.injEq] at h
    obtain rfl := h
    have hmove : (c + 1 - o) / d * d = c + 1 - o := div_mul_cancel₀ _ hd.ne'
    push_cast
    constructor <;> linarith

/-- A boundary that is crossed is no longer ahead. -/
theorem ahead_next (h : at? o d c = some a) (hslab : o + t * d ∈ Set.Icc (c : ℚ) (c + 1))
    (ht : t ≤ reach) : ahead o d reach (c + a.step) < ahead o d reach c := by
  obtain ⟨hlow, hhigh⟩ := hslab
  rcases lt_trichotomy d 0 with hd | rfl | hd
  · rw [at?_of_neg hd, Option.some.injEq] at h
    obtain rfl := h
    have hlast : ⌈o + reach * d⌉ ≤ c + 1 := by
      rw [Int.ceil_le]
      push_cast
      linarith [mul_le_mul_of_nonpos_right ht hd.le]
    simp only [ahead, if_neg hd.not_gt, if_pos hd]
    omega
  · rw [at?_zero] at h
    cases h
  · rw [at?_of_pos hd, Option.some.injEq] at h
    obtain rfl := h
    have hlast : c ≤ ⌊o + reach * d⌋ := by
      rw [Int.le_floor]
      linarith [mul_le_mul_of_nonneg_right ht hd.le]
    simp only [ahead, if_pos hd]
    omega

theorem ahead_le (o d reach : ℚ) :
    ahead o d reach ⌊o⌋ ≤ ⌈reach * |d|⌉₊ + 2 := by
  have hlow := Int.floor_le o
  have hhigh := Int.lt_floor_add_one o
  have hceil := Nat.le_ceil (reach * |d|)
  unfold ahead
  split
  · next hd =>
    have hlast := Int.floor_le (o + reach * d)
    rw [abs_of_pos hd] at hceil ⊢
    have hspan : (⌊o + reach * d⌋ : ℚ) < ⌊o⌋ + 1 + ⌈reach * d⌉₊ := by linarith
    norm_cast at hspan
    omega
  · split
    · next hd =>
      have hlast := Int.le_ceil (o + reach * d)
      rw [abs_of_neg hd] at hceil ⊢
      have hspan : (⌊o⌋ : ℚ) ≤ ⌈o + reach * d⌉ + ⌈reach * -d⌉₊ := by linarith
      norm_cast at hspan
      omega
    · exact Nat.zero_le _

end AxisWalk

/-! ## Three axes -/

namespace Walk

open AxisWalk

def within (origin direction : Vec ℚ) (cell : Voxel) : Walk ℚ where
  cell := cell
  x := at? origin.x direction.x cell.x
  y := at? origin.y direction.y cell.y
  z := at? origin.z direction.z cell.z

def crossings (origin direction : Vec ℚ) (reach : ℚ) (cell : Voxel) : ℕ :=
  ahead origin.x direction.x reach cell.x + ahead origin.y direction.y reach cell.y +
    ahead origin.z direction.z reach cell.z

def exit (origin direction : Vec ℚ) (cell : Voxel) : WithTop ℚ :=
  min (boundary (at? origin.x direction.x cell.x))
    (min (boundary (at? origin.y direction.y cell.y))
      (boundary (at? origin.z direction.z cell.z)))

inductive Crosses (origin direction : Vec ℚ) (cell : Voxel) : ℚ → Voxel → Prop where
  | x {a : AxisWalk ℚ} (ha : at? origin.x direction.x cell.x = some a)
      (hexit : exit origin direction cell = a.next) :
      Crosses origin direction cell a.next { cell with x := cell.x + a.step }
  | y {a : AxisWalk ℚ} (ha : at? origin.y direction.y cell.y = some a)
      (hexit : exit origin direction cell = a.next) :
      Crosses origin direction cell a.next { cell with y := cell.y + a.step }
  | z {a : AxisWalk ℚ} (ha : at? origin.z direction.z cell.z = some a)
      (hexit : exit origin direction cell = a.next) :
      Crosses origin direction cell a.next { cell with z := cell.z + a.step }

variable {origin direction : Vec ℚ} {cell cell' : Voxel} {t t' reach : ℚ}

theorem start_eq (origin direction : Vec ℚ) :
    start origin direction = within origin direction (Voxel.containing origin) := by
  simp only [start, within, start?_eq, Voxel.containing, truncate_floor]

theorem exit_eq (origin direction : Vec ℚ) (cell : Voxel) :
    let x := boundary (at? origin.x direction.x cell.x)
    let y := boundary (at? origin.y direction.y cell.y)
    let z := boundary (at? origin.z direction.z cell.z)
    exit origin direction cell = if x < y ∧ x < z then x else if y < z then y else z := by
  intro x y z
  change min x (min y z) = _
  split
  · next h => exact min_eq_left (le_min h.1.le h.2.le)
  · next hx =>
    split
    · next hy =>
      have hle : y ≤ x := not_lt.mp fun hlt => hx ⟨hlt, hlt.trans hy⟩
      rw [min_eq_left hy.le, min_eq_right hle]
    · next hz =>
      have hle : z ≤ x := not_lt.mp fun hlt => hx ⟨hlt.trans_le (not_lt.mp hz), hlt⟩
      rw [min_eq_right (not_lt.mp hz), min_eq_right hle]

/-- Where the walk of a ray goes from a cell: across the nearest boundary, unless there is
none. -/
theorem cross_within (origin direction : Vec ℚ) (cell : Voxel) :
    ((within origin direction cell).cross = none ∧ exit origin direction cell = ⊤) ∨
    ∃ t' cell', (within origin direction cell).cross = some (t', within origin direction cell') ∧
      Crosses origin direction cell t' cell' := by
  have hexit := exit_eq origin direction cell
  unfold cross
  simp only [within, Bool.and_eq_true, before_iff] at hexit ⊢
  split at hexit
  · next h =>
    rw [if_pos h]
    cases ha : at? origin.x direction.x cell.x with
    | none => exact .inl ⟨rfl, hexit.trans (congrArg boundary ha)⟩
    | some a =>
        refine .inr ⟨a.next, _, ?_, .x ha (hexit.trans (congrArg boundary ha))⟩
        rw [at?_pass ha]
        rfl
  · next hx =>
    rw [if_neg hx]
    split at hexit
    · next hy =>
      rw [if_pos hy]
      cases ha : at? origin.y direction.y cell.y with
      | none => exact .inl ⟨rfl, hexit.trans (congrArg boundary ha)⟩
      | some a =>
          refine .inr ⟨a.next, _, ?_, .y ha (hexit.trans (congrArg boundary ha))⟩
          rw [at?_pass ha]
          rfl
    · next hz =>
      rw [if_neg hz]
      cases ha : at? origin.z direction.z cell.z with
      | none => exact .inl ⟨rfl, hexit.trans (congrArg boundary ha)⟩
      | some a =>
          refine .inr ⟨a.next, _, ?_, .z ha (hexit.trans (congrArg boundary ha))⟩
          rw [at?_pass ha]
          rfl

theorem le_exit (hcell : cell.Touches (origin.along direction t)) :
    t ≤ exit origin direction cell :=
  le_min (le_boundary hcell.x) (le_min (le_boundary hcell.y) (le_boundary hcell.z))

theorem touches_of_le_exit (hcell : cell.Touches (origin.along direction t)) (hlater : t ≤ t')
    (hexit : t' ≤ exit origin direction cell) : cell.Touches (origin.along direction t') := by
  obtain ⟨hx, hyz⟩ := le_min_iff.mp hexit
  obtain ⟨hy, hz⟩ := le_min_iff.mp hyz
  exact ⟨slab_of_le_boundary hcell.x hlater hx, slab_of_le_boundary hcell.y hlater hy,
    slab_of_le_boundary hcell.z hlater hz⟩

theorem Crosses.exit_eq (h : Crosses origin direction cell t' cell') :
    exit origin direction cell = t' := by
  cases h with
  | x _ hexit => exact hexit
  | y _ hexit => exact hexit
  | z _ hexit => exact hexit

theorem Crosses.later (h : Crosses origin direction cell t' cell')
    (hcell : cell.Touches (origin.along direction t)) : t ≤ t' := by
  simpa [h.exit_eq] using le_exit hcell

theorem Crosses.touches (h : Crosses origin direction cell t' cell')
    (hcell : cell.Touches (origin.along direction t)) :
    cell'.Touches (origin.along direction t') := by
  have hold := touches_of_le_exit hcell (h.later hcell) h.exit_eq.ge
  cases h with
  | x ha => exact ⟨slab_next ha, hold.y, hold.z⟩
  | y ha => exact ⟨hold.x, slab_next ha, hold.z⟩
  | z ha => exact ⟨hold.x, hold.y, slab_next ha⟩

theorem Crosses.crossings_lt (h : Crosses origin direction cell t' cell')
    (hcell : cell.Touches (origin.along direction t)) (ht : t ≤ reach) :
    crossings origin direction reach cell' < crossings origin direction reach cell := by
  unfold crossings
  cases h with
  | x ha => simpa using ahead_next ha hcell.x ht
  | y ha => simpa using ahead_next ha hcell.y ht
  | z ha => simpa using ahead_next ha hcell.z ht

theorem crossings_lt_budget (origin direction : Vec ℚ) (reach : ℚ) :
    crossings origin direction reach (Voxel.containing origin) < budget direction reach := by
  have hx := ahead_le origin.x direction.x reach
  have hy := ahead_le origin.y direction.y reach
  have hz := ahead_le origin.z direction.z reach
  simp only [crossings, budget, Voxel.containing, truncate_floor, ceilNat, Scalar.abs]
  omega

/-! ## The loop -/

section Loop

variable {α : Type} [Scalar α]

/-- What a walk ends with when it goes on for as long as it takes: it ends beyond `reach`, in a
solid cell, or in one that the ray never leaves. -/
inductive Ends (solid : Voxel → Option String) (reach : α) :
    α → Walk α → Option (Voxel × String) → Prop where
  | beyond {t : α} {w : Walk α} (ht : ¬t ≤ reach) : Ends solid reach t w none
  | solid {t : α} {w : Walk α} {name : String} (ht : t ≤ reach)
      (hcell : solid w.cell = some name) : Ends solid reach t w (some (w.cell, name))
  | unbounded {t : α} {w : Walk α} (ht : t ≤ reach) (hcell : solid w.cell = none)
      (hcross : w.cross = none) : Ends solid reach t w none
  | top {t t' : α} {w w' : Walk α} (ht : t ≤ reach) (hcell : solid w.cell = none)
      (hcross : w.cross = some (t', w')) (htop : isTop t' = true) : Ends solid reach t w none
  | cross {t t' : α} {w w' : Walk α} {found : Option (Voxel × String)} (ht : t ≤ reach)
      (hcell : solid w.cell = none) (hcross : w.cross = some (t', w')) (htop : isTop t' = false)
      (h : Ends solid reach t' w' found) : Ends solid reach t w found

end Loop

variable {solid : Voxel → Option String}

/-- A walk ends once no boundaries are ahead, and so does the walk that may cross as many. -/
theorem ends_firstSolid {fuel : ℕ} (hcell : cell.Touches (origin.along direction t))
    (hfuel : crossings origin direction reach cell < fuel) :
    Ends solid reach t (within origin direction cell)
      (firstSolid solid reach fuel t (within origin direction cell)) := by
  induction fuel generalizing t cell with
  | zero => cases hfuel
  | succ fuel ih =>
      unfold firstSolid
      by_cases ht : t ≤ reach
      · rw [if_pos ht]
        cases hsolid : solid (within origin direction cell).cell with
        | some name => exact .solid ht hsolid
        | none =>
            rcases cross_within origin direction cell with ⟨hcross, -⟩ | ⟨t', cell', hcross, hnext⟩
            · rw [hcross]
              exact .unbounded ht hsolid hcross
            · rw [hcross]
              refine .cross ht hsolid hcross rfl (ih (hnext.touches hcell) ?_)
              have hless := hnext.crossings_lt hcell ht
              omega
      · rw [if_neg ht]
        exact .beyond ht

/-- What a walk finds is solid, and the ray meets its cube within reach. -/
theorem Ends.touches {w : Walk ℚ} {found : Option (Voxel × String)}
    (h : Ends solid reach t w found) (hw : w = within origin direction cell)
    (hcell : cell.Touches (origin.along direction t)) {v : Voxel} {name : String}
    (hfound : found = some (v, name)) :
    solid v = some name ∧ ∃ t' ≤ reach, t ≤ t' ∧ v.Touches (origin.along direction t') := by
  induction h generalizing cell with
  | beyond => cases hfound
  | @solid t w name ht hsolid =>
      subst hw
      cases hfound
      exact ⟨hsolid, t, ht, le_rfl, hcell⟩
  | unbounded => cases hfound
  | top => cases hfound
  | @cross t t' w w' found ht _ hcross _ _ ih =>
      subst hw
      rcases cross_within origin direction cell with ⟨hnone, -⟩ | ⟨s, cell', hsome, hnext⟩
      · cases hnone.symm.trans hcross
      · cases hsome.symm.trans hcross
        obtain ⟨hv, t'', hreach, hlater, htouches⟩ := ih rfl (hnext.touches hcell) hfound
        exact ⟨hv, t'', hreach, (hnext.later hcell).trans hlater, htouches⟩

/-- While a ray has not left the cube of a cell, it is inside no other. -/
theorem eq_of_le_exit {v : Voxel} {s : ℚ} (hcell : cell.Touches (origin.along direction t))
    (hlater : t ≤ s) (hexit : s ≤ exit origin direction cell)
    (hinside : v.Encloses (origin.along direction s)) : v = cell :=
  hinside.eq_of_touches (touches_of_le_exit hcell hlater hexit)

/-- A walk misses no solid cube: when the ray is inside one at `s`, the walk finds a cell whose
cube the ray meets no later. -/
theorem Ends.exists_le {w : Walk ℚ} {found : Option (Voxel × String)}
    (h : Ends solid reach t w found) (hw : w = within origin direction cell)
    (hcell : cell.Touches (origin.along direction t)) {v : Voxel} {s : ℚ}
    (hsolid : (solid v).isSome = true) (hinside : v.Encloses (origin.along direction s))
    (hlater : t ≤ s) (hs : s ≤ reach) :
    ∃ u name, found = some (u, name) ∧
      ∃ t' ≤ s, t ≤ t' ∧ u.Touches (origin.along direction t') := by
  induction h generalizing cell with
  | beyond ht => exact absurd (hlater.trans hs) ht
  | @solid t w name ht hname =>
      subst hw
      exact ⟨cell, name, rfl, t, hlater, le_rfl, hcell⟩
  | unbounded ht hopen hcross =>
      subst hw
      rcases cross_within origin direction cell with ⟨-, hexit⟩ | ⟨_, _, hsome, -⟩
      · obtain rfl := eq_of_le_exit hcell hlater (hexit ▸ le_top) hinside
        cases hopen ▸ hsolid
      · cases hcross.symm.trans hsome
  | top _ _ _ htop => cases htop
  | @cross t t' w w' found ht hopen hcross _ _ ih =>
      subst hw
      rcases cross_within origin direction cell with ⟨hnone, -⟩ | ⟨_, cell', hsome, hnext⟩
      · cases hnone.symm.trans hcross
      · cases hsome.symm.trans hcross
        rcases le_or_gt t' s with hpast | hbefore
        · obtain ⟨u, name, hfound, t'', hle, hge, htouches⟩ := ih rfl (hnext.touches hcell) hpast
          exact ⟨u, name, hfound, t'', hle, (hnext.later hcell).trans hge, htouches⟩
        · -- the ray is still in the cube of the cell, which is not solid
          have hexit : s ≤ exit origin direction cell := by
            rw [hnext.exit_eq]
            exact WithTop.coe_le_coe.mpr hbefore.le
          obtain rfl := eq_of_le_exit hcell hlater hexit hinside
          cases hopen ▸ hsolid

end Walk

end Terrain

/-! ## Rays through the grid -/

namespace Grid

open Walk

theorem solidAt_eq_some_iff {g : Grid} {v : Voxel} {name : String} :
    g.solidAt v = some name ↔ g.get? v = some ⟨name, true⟩ := by
  unfold solidAt
  cases hcell : g.get? v with
  | none => simp
  | some cell =>
      obtain ⟨name', solid⟩ := cell
      cases solid <;> simp

theorem touches_start (origin direction : Vec ℚ) :
    (Voxel.containing origin).Touches (origin.along direction 0) := by
  have horigin : origin.along direction 0 = origin := by
    simp [Vec.along, Vec.add, Vec.scale]
  rw [horigin]
  exact Voxel.touches_containing origin

/-- Without rounding, a ray is exact. The walk ends. A block it finds is that of a solid cell
whose cube the ray meets within reach. And when the ray is inside the cube of a solid cell
within reach, it finds a block whose cube it meets no later. -/
theorem raycast_exact (g : Grid) (origin direction : Vec ℚ) {reach : ℚ} (hreach : 0 < reach) :
    (∃ found, Ends g.solidAt reach 0 (start origin direction) found ∧
      g.raycast origin direction reach = found.map fun (v, name) => ⟨name, v.corner, true⟩) ∧
    (∀ block, g.raycast origin direction reach = some block →
      ∃ v, g.get? v = some ⟨block.name, true⟩ ∧ block = ⟨block.name, v.corner, true⟩ ∧
        ∃ t, 0 ≤ t ∧ t ≤ reach ∧ v.Touches (origin.along direction t)) ∧
    ∀ v t, (∃ name, g.get? v = some ⟨name, true⟩) → 0 ≤ t → t ≤ reach →
      v.Encloses (origin.along direction t) →
      ∃ (u : Voxel) (name : String), g.raycast origin direction reach = some ⟨name, u.corner, true⟩ ∧
        ∃ t', 0 ≤ t' ∧ t' ≤ t ∧ u.Touches (origin.along direction t') := by
  have hstart := touches_start origin direction
  obtain ⟨found, hends, hray⟩ : ∃ found, Ends g.solidAt reach 0 (start origin direction) found ∧
      g.raycast origin direction reach = found.map fun (v, name) => ⟨name, v.corner, true⟩ := by
    refine ⟨_, ?_, by rw [raycast_eq, firstBlock, if_neg]; exact hreach.not_ge⟩
    rw [start_eq]
    exact ends_firstSolid hstart (crossings_lt_budget origin direction reach)
  refine ⟨⟨found, hends, hray⟩, ?_, ?_⟩
  · intro block hblock
    rw [hray] at hblock
    obtain ⟨⟨v, name⟩, hfound, rfl⟩ := Option.map_eq_some_iff.mp hblock
    obtain ⟨hv, t, hle, hge, htouches⟩ := hends.touches (start_eq ..) hstart hfound
    exact ⟨v, solidAt_eq_some_iff.mp hv, rfl, t, hge, hle, htouches⟩
  · rintro v t ⟨name, hv⟩ hge hle hinside
    have hsolid : (g.solidAt v).isSome = true := by
      rw [solidAt_eq_some_iff.mpr hv]
      rfl
    obtain ⟨u, name', rfl, t', hle', hge', htouches⟩ :=
      hends.exists_le (start_eq ..) hstart hsolid hinside hge hle
    exact ⟨u, name', hray, t', hge', hle', htouches⟩

/-- Whoever stands on a face of a stone and looks into it sees it. -/
theorem raycast_exact_face :
    let stone := Grid.empty.set ⟨⟨2, 0, 0⟩, "stone", none⟩
    (0 : ℚ) < 1 ∧
      stone.raycast ⟨3, 1 / 2, 1 / 2⟩ ⟨-1, 0, 0⟩ (1 : ℚ) = some ⟨"stone", ⟨2, 0, 0⟩, true⟩ := by
  intro stone
  have hcell (v : Voxel) : stone.get? v = if ⟨2, 0, 0⟩ = v then some ⟨"stone", true⟩ else none := by
    rw [get?_set, get?_empty]
    rfl
  have hinside : Voxel.Encloses ⟨2, 0, 0⟩ (Vec.along ⟨3, 1 / 2, 1 / 2⟩ ⟨-1, 0, 0⟩ (1 / 2)) := by
    refine ⟨?_, ?_, ?_⟩ <;> norm_num [Vec.along, Vec.add, Vec.scale]
  obtain ⟨-, hblock, hfirst⟩ :=
    stone.raycast_exact ⟨3, 1 / 2, 1 / 2⟩ ⟨-1, 0, 0⟩ (by norm_num : (0 : ℚ) < 1)
  obtain ⟨u, name, hray, -⟩ := hfirst ⟨2, 0, 0⟩ (1 / 2) ⟨"stone", by rw [hcell]; rfl⟩
    (by norm_num) (by norm_num) hinside
  obtain ⟨v, hv, hname, -⟩ := hblock _ hray
  rw [hcell] at hv
  split at hv
  · next hsame =>
    cases hsame
    cases hv
    refine ⟨by norm_num, hray.trans ?_⟩
    rw [hname]
    rfl
  · cases hv

end Grid

end VoxelScout
