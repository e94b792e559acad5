import Mathlib
import VoxelScout.Proofs.Combat.Swing
import VoxelScout.Proofs.Geometry.Exact
import VoxelScout.Proofs.Geometry.Slabs

/-! # Reach and crosshair

A swing asks twice how far a player is: the view has to enter the player's box within reach, and
the box has to be within reach of the eye. Without rounding the second question is never answered
against the first one. Where the ray enters, each coordinate has come from the eye into its slab,
or was there from the start, also one that hardly moves; so the box is no further from the eye.
-/

namespace VoxelScout

open Scalar
open Box (Span parallel outside)

/-! ## One slab -/

namespace Slab

section

variable {K : Type} [Field K] [LinearOrder K] [IsStrictOrderedRing K] [FloorRing K]

attribute [local instance] Scalar.exact

/-- The parameters at which clipping takes a ray to be in a slab: all of them or none where the
ray counts as parallel, and else those within reach at which it is there. -/
def passes (o d lo hi reach : K) : Set K :=
  if |d| < parallel then {_t | o ∈ Set.Icc lo hi} else within o d lo hi ∩ Set.Iic reach

/-- A span that lies in `s` with its entry, and with all it spans, and does not leave the
reach. Where everything counted as parallel it may span nothing. -/
structure Stays (s : Set K) (reach : K) (span : Span K) : Prop where
  entry : span.entry ∈ s
  between : Set.Icc span.entry span.exit ⊆ s
  exit : span.exit ≤ reach

variable {o d lo hi reach t : K} {s : Set K} {span span' : Span K}

theorem clip_zero (h : o ∈ Set.Icc lo hi) : span.clip o 0 lo hi = some span := by
  rw [clip_of_parallel (by rw [abs_zero]; exact parallel_pos), if_pos h]

/-- Clipping stays where the span was, and in the slab. -/
theorem Stays.clip (h : Stays s reach span) (hbounds : lo ≤ hi)
    (hclip : span.clip o d lo hi = some span') :
    Stays (s ∩ passes o d lo hi reach) reach span' := by
  by_cases hd : |d| < parallel
  · rw [clip_of_parallel hd] at hclip
    rw [passes, if_pos hd]
    split at hclip
    · next ho =>
        cases hclip
        exact ⟨⟨h.entry, ho⟩, fun t ht => ⟨h.between ht, ho⟩, h.exit⟩
    · cases hclip
  · have hne : d ≠ 0 := by
      rintro rfl
      exact hd (by rw [abs_zero]; exact parallel_pos)
    rw [clip_of_not_parallel hd] at hclip
    rw [passes, if_neg hd]
    simp only [Option.ite_none_left_eq_some, Option.some.injEq, not_lt] at hclip
    obtain ⟨horder, rfl⟩ := hclip
    have hspan : Set.Icc (max span.entry (min ((lo - o) / d) ((hi - o) / d)))
        (min span.exit (max ((lo - o) / d) ((hi - o) / d))) ⊆
          s ∩ (within o d lo hi ∩ Set.Iic reach) := by
      rw [within_eq_Icc hne hbounds, ← Set.Icc_inter_Icc]
      exact fun t ht => ⟨h.between ht.1, ht.2, ht.1.2.trans h.exit⟩
    exact ⟨hspan ⟨le_rfl, horder⟩, hspan, (min_le_left _ _).trans h.exit⟩

/-- A coordinate that has come into a slab was no further outside than it has moved since. -/
theorem outside_le (h : t ∈ passes o d lo hi reach) (ht : 0 ≤ t) :
    outside o lo hi ≤ t * |d| := by
  have hmoved : 0 ≤ t * |d| := mul_nonneg ht (abs_nonneg d)
  have hzero : (0 : K) = (instOfNat 0 : OfNat K 0).ofNat := Int.cast_zero.symm
  suffices hfaces : lo - o ≤ t * |d| ∧ o - hi ≤ t * |d| from
    max_le (hzero ▸ hmoved) (max_le hfaces.1 hfaces.2)
  by_cases hd : |d| < parallel
  · rw [passes, if_pos hd] at h
    exact ⟨(sub_nonpos.mpr h.1).trans hmoved, (sub_nonpos.mpr h.2).trans hmoved⟩
  · rw [passes, if_neg hd] at h
    obtain ⟨⟨hlow, hhigh⟩, -⟩ := h
    have hmove : |t * d| = t * |d| := by rw [abs_mul, abs_of_nonneg ht]
    rw [← hmove]
    exact ⟨by linarith [le_abs_self (t * d)], by linarith [neg_abs_le (t * d)]⟩

end

end Slab

/-! ## The box -/

namespace Box

structure Oriented (box : Box ℝ) : Prop where
  x : box.min.x ≤ box.max.x
  y : box.min.y ≤ box.max.y
  z : box.min.z ≤ box.max.z

variable {box : Box ℝ} {eye direction : Vec ℝ} {reach t : ℝ}

/-- What clipping by the three slabs makes sure of at the entry. -/
structure Entered (box : Box ℝ) (eye direction : Vec ℝ) (reach t : ℝ) : Prop where
  nonneg : 0 ≤ t
  within_reach : 0 ≤ reach → t ≤ reach
  x : t ∈ Slab.passes eye.x direction.x box.min.x box.max.x reach
  y : t ∈ Slab.passes eye.y direction.y box.min.y box.max.y reach
  z : t ∈ Slab.passes eye.z direction.z box.min.z box.max.z reach

theorem entered_of_entry? (hbox : box.Oriented)
    (h : box.entry? eye direction reach = some t) : Entered box eye direction reach t := by
  simp only [ entry?, Option.bind_eq_bind, Option.bind_eq_some_iff, Option.pure_def,
    Option.some.injEq] at h
  obtain ⟨_, hx, _, hy, span, hz, rfl⟩ := h
  have hstart : Slab.Stays {t | 0 ≤ t ∧ (0 ≤ reach → t ≤ reach)} reach ⟨0, reach⟩ :=
    ⟨⟨le_rfl, id⟩, fun t ht => ⟨ht.1, fun _ => ht.2⟩, le_rfl⟩
  rw [zero_real] at hx
  obtain ⟨⟨⟨⟨⟨hnonneg, hreach⟩, hx⟩, hy⟩, hz⟩, -, -⟩ :=
    ((hstart.clip hbox.x hx).clip hbox.y hy).clip hbox.z hz
  exact ⟨hnonneg, hreach, hx, hy, hz⟩

/-- The box is no further from the eye than the entry is along a direction of length one at
most. -/
theorem Entered.distance_le (h : Entered box eye direction reach t) (hshort : direction.norm ≤ 1) :
    box.distance eye ≤ t := by
  have hsquare {o d lo hi : ℝ} (ht : t ∈ Slab.passes o d lo hi reach) :
      outside o lo hi * outside o lo hi ≤ t ^ 2 * d ^ 2 := by
    have hnonneg : 0 ≤ outside o lo hi := zero_real ▸ le_max_left _ _
    calc outside o lo hi * outside o lo hi
        ≤ t * |d| * (t * |d|) := mul_self_le_mul_self hnonneg (Slab.outside_le ht h.nonneg)
      _ = t ^ 2 * d ^ 2 := by rw [← sq_abs d]; ring
  have hnorm : direction.x ^ 2 + direction.y ^ 2 + direction.z ^ 2 ≤ 1 := by
    rw [← Vec.norm_sq]
    exact pow_le_one₀ direction.norm_nonneg hshort
  refine Real.sqrt_le_iff.mpr ⟨h.nonneg, ?_⟩
  calc _ ≤ t ^ 2 * direction.x ^ 2 + t ^ 2 * direction.y ^ 2 + t ^ 2 * direction.z ^ 2 :=
        add_le_add (add_le_add (hsquare h.x) (hsquare h.y)) (hsquare h.z)
    _ = t ^ 2 * (direction.x ^ 2 + direction.y ^ 2 + direction.z ^ 2) := by ring
    _ ≤ t ^ 2 := mul_le_of_le_one_right (sq_nonneg t) hnorm

/-- Along a direction of length one a ray that enters the box does so within reach, even if that
is negative: some coordinate moves. -/
theorem Entered.le_reach (h : Entered box eye direction reach t) (hunit : direction.norm = 1) :
    t ≤ reach := by
  have hmoves {o d lo hi : ℝ} (ht : t ∈ Slab.passes o d lo hi reach) :
      t ≤ reach ∨ d ^ 2 < 1 / 3 := by
    by_cases hd : |d| < parallel
    · have hsmall : |d| < 1 / 2 := hd.trans (by change (1e-9 : ℝ) < 1 / 2; norm_num)
      refine .inr ?_
      rw [← sq_abs d]
      nlinarith [abs_nonneg d]
    · rw [Slab.passes, if_neg hd] at ht
      exact .inl ht.2
  rcases hmoves h.x with hx | hx
  · exact hx
  rcases hmoves h.y with hy | hy
  · exact hy
  rcases hmoves h.z with hz | hz
  · exact hz
  have hnorm := Vec.norm_sq direction
  rw [hunit] at hnorm
  linarith

end Box

/-! ## The crosshair -/

namespace Combat

open Tracker

theorem find?_of_nodup {players : List (Player ℝ)} (h : (players.map Player.id).Nodup)
    {p : Player ℝ} (hp : p ∈ players) : (players.find? fun q => q.id == p.id) = some p := by
  cases hfind : players.find? fun q => q.id == p.id with
  | none => exact absurd (List.find?_eq_none.mp hfind p hp) (by simp)
  | some q =>
      have hid : q.id = p.id := by simpa using List.find?_some hfind
      rw [List.inj_on_of_nodup_map h (List.mem_of_find?_eq_some hfind) hp hid]

theorem standard_nonneg :
    0 ≤ (Stature.standard : Stature ℝ).width ∧ 0 ≤ (Stature.standard : Stature ℝ).height := by
  change (0 : ℝ) ≤ 0.6 ∧ (0 : ℝ) ≤ 1.8
  norm_num

/-- A player whose size is not negative has a box with its corners in order. -/
theorem oriented_box {p : Player ℝ} (hwidth : 0 ≤ p.width) (hheight : 0 ≤ p.height) :
    p.box.Oriented := by
  obtain ⟨hstandardWidth, hstandardHeight⟩ := standard_nonneg
  have hboxWidth : 0 ≤ p.boxWidth := by
    unfold Player.boxWidth
    split
    · exact hstandardWidth
    · exact hwidth
  have hboxHeight : 0 ≤ p.boxHeight := by
    unfold Player.boxHeight
    split
    · exact hstandardHeight
    · exact hheight
  have hhalf : 0 ≤ p.boxWidth / (instOfNat 2 : OfNat ℝ 2).ofNat := by
    rw [ofNat_real]
    positivity
  have hwide (a : ℝ) : a - p.boxWidth / (instOfNat 2 : OfNat ℝ 2).ofNat ≤
      a + p.boxWidth / (instOfNat 2 : OfNat ℝ 2).ofNat := by
    linarith
  exact ⟨hwide _, le_add_of_nonneg_right hboxHeight, hwide _⟩

/-- Where a ray along a direction of length one at most enters a box, it has come at least as far as
the box is away. So the player under the crosshair is within reach, and a swing hits exactly if the
hand is free. -/
theorem underCrosshair_within_reach :
    (∀ (box : Box ℝ) (eye direction : Vec ℝ) (reach t : ℝ), box.Oriented → direction.norm ≤ 1 →
      box.entry? eye direction reach = some t →
      0 ≤ t ∧ (0 ≤ reach → t ≤ reach) ∧ box.distance eye ≤ t) ∧
    ∀ tracker : Tracker ℝ, (tracker.players.map Player.id).Nodup →
      (∀ p ∈ tracker.players, 0 ≤ p.width ∧ 0 ≤ p.height) →
      ∀ target, tracker.underCrosshair = some target →
        (∃ victim, (tracker.players.find? fun p => p.id == target) = some victim ∧
          ¬tracker.config.maxReach < victim.box.distance tracker.self.eye) ∧
        (tracker.canAttack target = true ↔ tracker.self.usingItem = false) := by
  constructor
  · intro box eye direction reach t hbox hshort h
    have hentered := Box.entered_of_entry? hbox h
    exact ⟨hentered.nonneg, hentered.within_reach, hentered.distance_le hshort⟩
  · intro tracker hids hsizes target hunder
    have hreach : ∃ victim, (tracker.players.find? fun p => p.id == target) = some victim ∧
        ¬tracker.config.maxReach < victim.box.distance tracker.self.eye := by
      obtain ⟨d, hnearest, -⟩ := underCrosshair_eq_some_iff.mp hunder
      obtain ⟨p, hfirst, rfl⟩ := foldl_nearer_eq_some_iff.mp hnearest
      obtain ⟨before, after, hplayers, ⟨-, hentry, -⟩, -⟩ := hfirst
      have hp : p ∈ tracker.players := by simp [hplayers]
      have hunit : tracker.self.view.norm = 1 := tracker.self.heading.norm_direction
      have hentered := Box.entered_of_entry? (oriented_box (hsizes p hp).1 (hsizes p hp).2) hentry
      exact ⟨p, find?_of_nodup hids hp,
        ((hentered.distance_le hunit.le).trans (hentered.le_reach hunit)).not_gt⟩
    refine ⟨hreach, ?_⟩
    rw [canAttack_eq_true_iff]
    exact ⟨fun h => h.1, fun hfree => ⟨hfree, hreach, hunder⟩⟩

/-- A ray that sinks a little and sideways hardly moves at all enters a box after twice the way
that it is long; and a bot that looks straight ahead sees a player two blocks in front of it. -/
theorem underCrosshair_within_reach_ahead :
    let box : Box ℝ := ⟨⟨-1, 0, -3⟩, ⟨1, 2, -2⟩⟩
    let direction : Vec ℝ := ⟨1e-10, 0, -1 / 2⟩
    let bob : Player ℝ := { Player.blank with id := ⟨1⟩, position := ⟨0, 0, -2⟩ }
    let tracker : Tracker ℝ := { Tracker.new ⟨3, 1⟩ Instant.unset with players := [bob] }
    (box.Oriented ∧ direction.norm ≤ 1 ∧ box.entry? ⟨0, 1, 0⟩ direction 5 = some 4 ∧
      box.distance ⟨0, 1, 0⟩ ≤ 4) ∧
    (tracker.players.map Player.id).Nodup ∧ (∀ p ∈ tracker.players, 0 ≤ p.width ∧ 0 ≤ p.height) ∧
    tracker.underCrosshair = some bob.id ∧ tracker.canAttack bob.id = true := by
  intro box direction bob tracker
  obtain ⟨hbox, htracker⟩ := underCrosshair_within_reach
  have horiented : box.Oriented := by
    constructor <;> norm_num [box]
  have hshort : direction.norm ≤ 1 := by
    rw [Vec.norm_real]
    exact Real.sqrt_le_one.mpr (by norm_num [direction])
  have hentry : box.entry? ⟨0, 1, 0⟩ direction 5 = some 4 := by
    have hx : Span.clip ⟨0, 5⟩ 0 direction.x box.min.x box.max.x = some ⟨0, 5⟩ := by
      rw [Slab.clip_of_parallel (by change |(1e-10 : ℝ)| < 1e-9; norm_num [abs_of_pos])]
      norm_num [box]
    have hy : Span.clip ⟨0, 5⟩ 1 direction.y box.min.y box.max.y = some ⟨0, 5⟩ :=
      Slab.clip_zero (by norm_num [box])
    have hz : Span.clip ⟨0, 5⟩ 0 direction.z box.min.z box.max.z = some ⟨4, 5⟩ := by
      rw [Slab.clip_of_not_parallel (by change ¬|(-1 / 2 : ℝ)| < 1e-9; norm_num [abs_of_pos])]
      norm_num [box, direction]
    simp [ Box.entry?, hx, hy, hz]
  have hids : (tracker.players.map Player.id).Nodup := List.nodup_singleton _
  have hsizes : ∀ p ∈ tracker.players, 0 ≤ p.width ∧ 0 ≤ p.height := by
    simp [tracker, bob, Player.blank]
  have hunder : tracker.underCrosshair = some bob.id := by
    have heye : tracker.self.eye = ⟨0, 1.8, 0⟩ := by
      simp [tracker, Tracker.new, Pose.initial, Pose.eye, Vec.raise, Vec.add, Vec.zero,
        Stature.standard]
    have hview : tracker.self.view = ⟨0, 0, -1⟩ := by
      simp [tracker, Tracker.new, Pose.initial, Pose.view, Heading.direction]
    have hbob : bob.box = ⟨⟨-0.3, 0, -2.3⟩, ⟨0.3, 1.8, -1.7⟩⟩ := by
      simp [bob, Player.blank, Player.box, Box.standing, Player.boxWidth, Player.boxHeight,
        Stature.standard]
      norm_num
    have hreach : tracker.config.maxReach = 3 := by
      simp [tracker, Tracker.new, Config.withDefaults]
    have hmeets : tracker.Meets bob 1.7 := by
      refine ⟨by decide, ?_, by simp [belowTop, isNumber, isTop]⟩
      rw [heye, hview, hbob, hreach]
      have hx : Span.clip (⟨0, 3⟩ : Span ℝ) 0 0 (-0.3) 0.3 = some ⟨0, 3⟩ :=
        Slab.clip_zero (by norm_num)
      have hy : Span.clip (⟨0, 3⟩ : Span ℝ) 1.8 0 0 1.8 = some ⟨0, 3⟩ :=
        Slab.clip_zero (by norm_num)
      have hz : Span.clip (⟨0, 3⟩ : Span ℝ) 0 (-1) (-2.3) (-1.7) = some ⟨1.7, 2.3⟩ := by
        rw [Slab.clip_of_not_parallel (by change ¬|(-1 : ℝ)| < 1e-9; norm_num)]
        norm_num
      simp [ Box.entry?, hx, hy, hz]
    exact underCrosshair_eq_some_iff.mpr ⟨1.7, foldl_nearer_eq_some_iff.mpr
      ⟨bob, ⟨[], [], rfl, hmeets, by simp, by simp⟩, rfl⟩, by decide⟩
  exact ⟨⟨horiented, hshort, hentry, (hbox _ _ _ _ _ horiented hshort hentry).2.2⟩, hids, hsizes,
    hunder, (htracker tracker hids hsizes _ hunder).2.mpr rfl⟩

end Combat

end VoxelScout
