import Mathlib
import VoxelScout.Geometry.Box
import VoxelScout.Proofs.Terrain.ExactRay

/-! # Where a ray meets a box

A box is what three slabs have in common, and a ray is in a slab between two of its points. So
without rounding, clipping the ray by one slab after the other leaves exactly the part of it
that lies in the box, and the first point of that part is where the ray enters. The direction
must not be so close to a slab's faces, and yet off them, that it counts as parallel.
-/

namespace VoxelScout

open Scalar
open Box (Span parallel)

/-! ## One slab -/

namespace Slab

section

variable {K : Type} [Field K] [LinearOrder K]

/-- The parameters at which a coordinate that starts at `o` and moves by `d` is between `lo` and
`hi`. -/
def within (o d lo hi : K) : Set K :=
  {t | o + t * d ∈ Set.Icc lo hi}

variable {o d lo hi : K}

theorem within_zero : within o 0 lo hi = {_t | o ∈ Set.Icc lo hi} := by
  simp [within]

variable [IsStrictOrderedRing K]

theorem within_of_pos (hd : 0 < d) :
    within o d lo hi = Set.Icc ((lo - o) / d) ((hi - o) / d) := by
  ext t
  simp only [within, Set.mem_ofPred_eq, Set.mem_Icc, div_le_iff₀ hd, le_div_iff₀ hd,
    sub_le_iff_le_add', le_sub_iff_add_le']

theorem within_of_neg (hd : d < 0) :
    within o d lo hi = Set.Icc ((hi - o) / d) ((lo - o) / d) := by
  ext t
  simp only [within, Set.mem_ofPred_eq, Set.mem_Icc, div_le_iff_of_neg hd, le_div_iff_of_neg hd,
    sub_le_iff_le_add', le_sub_iff_add_le']
  exact and_comm

/-- A moving coordinate enters a slab at the nearer face and leaves it at the farther one. -/
theorem within_eq_Icc (hd : d ≠ 0) (hbounds : lo ≤ hi) :
    within o d lo hi = Set.Icc (min ((lo - o) / d) ((hi - o) / d))
      (max ((lo - o) / d) ((hi - o) / d)) := by
  rcases hd.lt_or_gt with hneg | hpos
  · have horder : (hi - o) / d ≤ (lo - o) / d :=
      div_le_div_of_nonpos_of_le hneg.le (sub_le_sub_right hbounds o)
    rw [within_of_neg hneg, min_eq_right horder, max_eq_left horder]
  · have horder : (lo - o) / d ≤ (hi - o) / d :=
      div_le_div_of_nonneg_right (sub_le_sub_right hbounds o) hpos.le
    rw [within_of_pos hpos, min_eq_left horder, max_eq_right horder]

end

section

variable {K : Type} [LinearOrder K] {s : Set K}

/-- What clipping leaves of a ray: nothing, or the span from the first to the last of the
parameters in question. -/
inductive Leaves (s : Set K) : Option (Span K) → Prop where
  | nothing (h : s = ∅) : Leaves s none
  | part {span : Span K} (h : s = Set.Icc span.entry span.exit)
      (horder : span.entry ≤ span.exit) : Leaves s (some span)

theorem Leaves.isSome_iff {left : Option (Span K)} (h : Leaves s left) :
    left.isSome = true ↔ s.Nonempty := by
  cases h with
  | nothing h => simp [h]
  | part h horder => simpa [h] using horder

theorem Leaves.isLeast {span : Span K} (h : Leaves s (some span)) :
    IsLeast s span.entry := by
  cases h with
  | part h horder =>
      rw [h]
      exact isLeast_Icc horder

end

section

variable {K : Type} [Field K] [LinearOrder K] [IsStrictOrderedRing K] [FloorRing K]

attribute [local instance] Scalar.exact

variable {o d lo hi : K} {span : Span K}

theorem clip_of_parallel (hd : |d| < parallel) :
    span.clip o d lo hi = if o ∈ Set.Icc lo hi then some span else none := by
  have hparallel : Scalar.abs d < parallel := hd
  unfold Span.clip
  rw [if_pos hparallel]
  by_cases hlow : o < lo
  · simp [hlow]
  · by_cases hhigh : hi < o
    · simp [hlow, hhigh]
    · simp [hlow, hhigh, not_lt.mp hlow, not_lt.mp hhigh]

theorem clip_of_not_parallel (hd : ¬|d| < parallel) :
    span.clip o d lo hi =
      let entry := max span.entry (min ((lo - o) / d) ((hi - o) / d))
      let exit := min span.exit (max ((lo - o) / d) ((hi - o) / d))
      if exit < entry then none else some ⟨entry, exit⟩ := by
  have hcrossing : ¬Scalar.abs d < parallel := hd
  unfold Span.clip
  rw [if_neg hcrossing, min_comm ((lo - o) / d), max_comm ((lo - o) / d), min_comm span.exit]
  simp only [max_def_lt, min_def_lt]

theorem parallel_pos : (0 : K) < parallel := by
  change (0 : K) < 1e-9
  norm_num

/-- Clipping leaves what is in the slab, unless the direction is nearly parallel to it. -/
theorem Leaves.clip {s : Set K} {left : Option (Span K)} (h : Leaves s left)
    (hd : d = 0 ∨ parallel ≤ |d|) (hbounds : lo ≤ hi) :
    Leaves (s ∩ within o d lo hi) (left.bind fun span => span.clip o d lo hi) := by
  cases h with
  | nothing h => exact .nothing (by rw [h, Set.empty_inter])
  | @part span h horder =>
      rw [Option.bind_some]
      rcases hd with rfl | hd
      · rw [clip_of_parallel (by rw [abs_zero]; exact parallel_pos), within_zero]
        split
        · next ho => exact .part (by simp [ho, h]) horder
        · next ho => exact .nothing (by simp [ho])
      · have hne : d ≠ 0 := abs_pos.mp (parallel_pos.trans_le hd)
        have hboth : s ∩ within o d lo hi =
            Set.Icc (max span.entry (min ((lo - o) / d) ((hi - o) / d)))
              (min span.exit (max ((lo - o) / d) ((hi - o) / d))) := by
          rw [h, within_eq_Icc hne hbounds, Set.Icc_inter_Icc]
        rw [clip_of_not_parallel hd.not_gt]
        dsimp only
        split
        · next hmissed => exact .nothing (by rw [hboth, Set.Icc_eq_empty hmissed.not_ge])
        · next hmet => exact .part hboth (not_lt.mp hmet)

end

end Slab

/-! ## The box -/

theorem Vec.along_zero (origin direction : Vec ℚ) : origin.along direction 0 = origin := by
  simp [along, add, scale]

namespace Box

structure Upright (box : Box ℚ) : Prop where
  x : box.min.x ≤ box.max.x
  y : box.min.y ≤ box.max.y
  z : box.min.z ≤ box.max.z

structure Holds (box : Box ℚ) (p : Vec ℚ) : Prop where
  x : p.x ∈ Set.Icc box.min.x box.max.x
  y : p.y ∈ Set.Icc box.min.y box.max.y
  z : p.z ∈ Set.Icc box.min.z box.max.z

/-- Along each axis the direction either stands still or moves so fast that it does not count as
parallel. -/
structure Resolves (direction : Vec ℚ) : Prop where
  x : direction.x = 0 ∨ parallel ≤ |direction.x|
  y : direction.y = 0 ∨ parallel ≤ |direction.y|
  z : direction.z = 0 ∨ parallel ≤ |direction.z|

def stretch (box : Box ℚ) (origin direction : Vec ℚ) (reach : ℚ) : Set ℚ :=
  {t | t ∈ Set.Icc 0 reach ∧ box.Holds (origin.along direction t)}

variable {box : Box ℚ} {origin direction : Vec ℚ} {reach : ℚ}

theorem stretch_eq : box.stretch origin direction reach =
    Set.Icc 0 reach ∩ Slab.within origin.x direction.x box.min.x box.max.x ∩
      Slab.within origin.y direction.y box.min.y box.max.y ∩
      Slab.within origin.z direction.z box.min.z box.max.z := by
  ext t
  constructor
  · rintro ⟨ht, hx, hy, hz⟩
    exact ⟨⟨⟨ht, hx⟩, hy⟩, hz⟩
  · rintro ⟨⟨⟨ht, hx⟩, hy⟩, hz⟩
    exact ⟨ht, hx, hy, hz⟩

theorem leaves_stretch (origin : Vec ℚ) (hbox : box.Upright)
    (hdirection : Resolves direction) (hreach : 0 ≤ reach) :
    ∃ left, Slab.Leaves (box.stretch origin direction reach) left ∧
      box.entry? origin direction reach = left.map Span.entry := by
  have hstart : Slab.Leaves (Set.Icc 0 reach) (some ⟨0, reach⟩) := .part rfl hreach
  have hclipped := ((hstart.clip (o := origin.x) hdirection.x hbox.x).clip (o := origin.y)
    hdirection.y hbox.y).clip (o := origin.z) hdirection.z hbox.z
  rw [← stretch_eq] at hclipped
  refine ⟨_, hclipped, ?_⟩
  simp only [ entry?, Option.bind_eq_bind, Option.pure_def, Option.bind_some,
    Option.map_eq_bind, Option.bind_assoc]
  rfl

/-- Without rounding, the test of a ray against a box is exact: the ray meets the box within
reach if and only if an entry is found, and the entry is the least parameter at which it does.
A ray that starts in the box enters it at once. -/
theorem entry?_exact (origin : Vec ℚ) (hbox : box.Upright) (hdirection : Resolves direction)
    (hreach : 0 ≤ reach) :
    ((box.entry? origin direction reach).isSome = true ↔
      ∃ t ∈ Set.Icc 0 reach, box.Holds (origin.along direction t)) ∧
    (∀ d, box.entry? origin direction reach = some d →
      IsLeast {t | t ∈ Set.Icc 0 reach ∧ box.Holds (origin.along direction t)} d) ∧
    (box.Holds origin → box.entry? origin direction reach = some 0) := by
  obtain ⟨left, hleaves, hentry⟩ := leaves_stretch origin hbox hdirection hreach
  have hsome : left.isSome = true ↔
      ∃ t ∈ Set.Icc 0 reach, box.Holds (origin.along direction t) := hleaves.isSome_iff
  have hleast (d : ℚ) (h : box.entry? origin direction reach = some d) :
      IsLeast (box.stretch origin direction reach) d := by
    rw [hentry, Option.map_eq_some_iff] at h
    obtain ⟨span, rfl, rfl⟩ := h
    exact hleaves.isLeast
  refine ⟨by rw [hentry, Option.isSome_map, hsome], hleast, fun hinside => ?_⟩
  have hstart : 0 ∈ box.stretch origin direction reach :=
    ⟨⟨le_rfl, hreach⟩, by rwa [Vec.along_zero]⟩
  obtain ⟨d, hd⟩ : ∃ d, box.entry? origin direction reach = some d := by
    rw [← Option.isSome_iff_exists, hentry, Option.isSome_map, hsome]
    exact ⟨0, hstart⟩
  -- the least parameter is not negative, and zero is one
  rw [hd, ((hleast d hd).2 hstart).antisymm (hleast d hd).1.1.1]

/-- A ray that comes down diagonally grazes an edge of the box at the very end of its reach. -/
theorem entry?_exact_edge :
    let box : Box ℚ := ⟨⟨0, 0, 0⟩, ⟨1, 1, 1⟩⟩
    let direction : Vec ℚ := ⟨-1, 1, 0⟩
    box.Upright ∧ Resolves direction ∧ (0 : ℚ) ≤ 1 ∧
      box.entry? ⟨2, 0, 1 / 2⟩ direction 1 = some 1 := by
  intro box direction
  have hbox : box.Upright := ⟨zero_le_one, zero_le_one, zero_le_one⟩
  have hdirection : Resolves direction := by
    have hfast : (parallel : ℚ) ≤ 1 := by
      change (1e-9 : ℚ) ≤ 1
      norm_num
    exact ⟨.inr (by simpa [direction] using hfast), .inr (by simpa [direction] using hfast),
      .inl rfl⟩
  have hreach : (0 : ℚ) ≤ 1 := zero_le_one
  obtain ⟨hsome, hleast, -⟩ := entry?_exact ⟨2, 0, 1 / 2⟩ hbox hdirection hreach
  have hedge : box.Holds (Vec.along ⟨2, 0, 1 / 2⟩ direction 1) := by
    constructor <;> norm_num [box, direction, Vec.along, Vec.add, Vec.scale]
  obtain ⟨d, hd⟩ := Option.isSome_iff_exists.mp (hsome.mpr ⟨1, ⟨hreach, le_rfl⟩, hedge⟩)
  -- before the end the ray is still east of the box
  have heast : 2 + d * -1 ≤ 1 := (hleast d hd).1.2.x.2
  have hend : d ≤ 1 := (hleast d hd).1.1.2
  have hone : d = 1 := by linarith
  exact ⟨hbox, hdirection, hreach, hone ▸ hd⟩

end Box

end VoxelScout
