import Mathlib
import VoxelScout.Geometry.Cap
import VoxelScout.Proofs.Geometry.Exact

/-! # Blurring keeps to the cap

Without rounding, a blurred point is as far from the origin as its source, and the cosine of the
angle between the two is the one that was drawn. It is put together along three directions that
form a basis, whatever the direction of the source.
-/

namespace VoxelScout

open Scalar

/-! ## Products of vectors -/

namespace Vec

variable {p q u v s : Vec ℝ} {a b c : ℝ}

theorem dot_cross_left (p q : Vec ℝ) : p.dot (p.cross q) = 0 := by
  simp only [dot, cross]
  ring

theorem dot_cross_right (p q : Vec ℝ) : q.dot (p.cross q) = 0 := by
  simp only [dot, cross]
  ring

theorem dot_comm (p q : Vec ℝ) : p.dot q = q.dot p := by
  simp only [dot]
  ring

theorem scale_dot (f : ℝ) (p q : Vec ℝ) : (p.scale f).dot q = f * p.dot q := by
  simp only [dot, scale]
  ring

theorem norm_cross_sq (p q : Vec ℝ) :
    (p.cross q).norm ^ 2 = p.norm ^ 2 * q.norm ^ 2 - p.dot q ^ 2 := by
  simp only [norm_sq, dot, cross]
  ring

/-- Three directions of length one, each at a right angle to the others. -/
structure Frame (u v s : Vec ℝ) : Prop where
  norm_first : u.norm = 1
  norm_second : v.norm = 1
  norm_third : s.norm = 1
  first_second : u.dot v = 0
  first_third : u.dot s = 0
  second_third : v.dot s = 0

theorem frame_cross (hs : s.norm = 1) (hu : u.norm = 1) (hright : u.dot s = 0) :
    Frame u (s.cross u) s where
  norm_first := hu
  norm_second := by
    have hsq : (s.cross u).norm ^ 2 = 1 := by
      rw [norm_cross_sq, hs, hu, dot_comm, hright]
      norm_num
    exact (pow_eq_one_iff_of_nonneg (norm_nonneg _) two_ne_zero).mp hsq
  norm_third := hs
  first_second := dot_cross_right s u
  first_third := hright
  second_third := by rw [dot_comm, dot_cross_left]

def combine {α : Type} [Scalar α] (u v s : Vec α) (a b c : α) : Vec α :=
  ((u.scale a).add (v.scale b)).add (s.scale c)

theorem Frame.norm_combine_sq (h : Frame u v s) (a b c : ℝ) :
    (combine u v s a b c).norm ^ 2 = a ^ 2 + b ^ 2 + c ^ 2 := by
  have hu := u.norm_sq
  have hv := v.norm_sq
  have hs := s.norm_sq
  have huv := h.first_second
  have hus := h.first_third
  have hvs := h.second_third
  rw [h.norm_first] at hu
  rw [h.norm_second] at hv
  rw [h.norm_third] at hs
  simp only [dot] at huv hus hvs
  simp only [norm_sq, combine, add, scale]
  linear_combination -a ^ 2 * hu - b ^ 2 * hv - c ^ 2 * hs + 2 * a * b * huv + 2 * a * c * hus +
    2 * b * c * hvs

theorem Frame.combine_dot (h : Frame u v s) (a b c : ℝ) : (combine u v s a b c).dot s = c := by
  have hs := s.norm_sq
  have hus := h.first_third
  have hvs := h.second_third
  rw [h.norm_third] at hs
  simp only [dot] at hus hvs
  simp only [dot, combine, add, scale]
  linear_combination a * hus + b * hvs - c * hs

end Vec

/-! ## The basis -/

namespace Cap

variable {source origin s : Vec ℝ} {phi cosTheta maxDegrees : ℝ}

/-- The axis that a direction is not close to. -/
def helper {α : Type} [Trig α] (s : Vec α) : Vec α :=
  if alignment < Scalar.abs s.x then ⟨0, 1, 0⟩ else ⟨1, 0, 0⟩

theorem basis_eq (s : Vec ℝ) :
    basis s = (((helper s).cross s).unit, s.cross ((helper s).cross s).unit) :=
  rfl

theorem alignment_mem : (alignment : ℝ) ∈ Set.Ico 0 1 := by
  change (0 : ℝ) ≤ 0.9999 ∧ (0.9999 : ℝ) < 1
  norm_num

/-- On either side of the switch the axis and the direction span a plane. -/
theorem helper_cross_ne_zero (hs : s.norm = 1) : (helper s).cross s ≠ Vec.zero := by
  intro hzero
  have hlength := s.norm_sq
  rw [hs] at hlength
  by_cases haligned : alignment < |s.x|
  · have hhelper : helper s = ⟨0, 1, 0⟩ := by
      simp [helper, Scalar.abs, haligned]
    have hx : s.x = 0 := by
      simpa [hhelper, Vec.cross, Vec.zero] using congrArg Vec.z hzero
    rw [hx, abs_zero] at haligned
    exact haligned.not_ge alignment_mem.1
  · have hhelper : helper s = ⟨1, 0, 0⟩ := by
      simp [helper, Scalar.abs, haligned]
    have hy : s.y = 0 := by
      simpa [hhelper, Vec.cross, Vec.zero] using congrArg Vec.z hzero
    have hz : s.z = 0 := by
      simpa [hhelper, Vec.cross, Vec.zero] using congrArg Vec.y hzero
    have hx : |s.x| = 1 := by
      rw [← sq_eq_sq₀ (abs_nonneg _) zero_le_one, sq_abs, hlength, hy, hz]
      ring
    exact haligned (hx ▸ alignment_mem.2)

theorem frame_basis (hs : s.norm = 1) : Vec.Frame (basis s).1 (basis s).2 s := by
  have hunit := Vec.norm_unit (helper_cross_ne_zero hs)
  rw [basis_eq]
  refine Vec.frame_cross hs hunit ?_
  rw [Vec.unit, Vec.scale_dot, Vec.dot_comm, Vec.dot_cross_right, mul_zero]

/-! ## The point -/

/-- Where a source is heard, for the two draws: the turn about the true direction, and the cosine
of the angle off it. -/
def heardAt {α : Type} [Trig α] (source origin : Vec α) (phi cosTheta : α) : Vec α :=
  point origin (source.sub origin).unit (source.distance origin) phi cosTheta

/-- A blurred point is put together from its parts along the basis. -/
theorem exists_heardAt_sub (source origin : Vec ℝ) (phi : ℝ) (hcos : cosTheta ∈ Set.Icc (-1) 1) :
    ∃ sinTheta, sinTheta ^ 2 + cosTheta ^ 2 = 1 ∧
      (heardAt source origin phi cosTheta).sub origin =
        Vec.combine (basis (source.sub origin).unit).1 (basis (source.sub origin).unit).2
          (source.sub origin).unit (source.distance origin * sinTheta * Real.cos phi)
          (source.distance origin * sinTheta * Real.sin phi)
          (source.distance origin * cosTheta) := by
  refine ⟨√(max 0 (1 - cosTheta * cosTheta)), ?_, ?_⟩
  · have hnonneg : 0 ≤ 1 - cosTheta * cosTheta := by nlinarith [hcos.1, hcos.2]
    rw [max_eq_right hnonneg, Real.sq_sqrt hnonneg]
    ring
  · have hsin : √(max 0 (1 - cosTheta * cosTheta)) =
        Trig.sqrt (larger (instOfNat 0 : OfNat ℝ 0).ofNat
          ((instOfNat 1 : OfNat ℝ 1).ofNat - cosTheta * cosTheta)) := by
      rw [zero_real, one_real]
      rfl
    rw [hsin]
    exact Vec.add_sub_cancel_left origin _

theorem distance_pos (hapart : source ≠ origin) : 0 < source.distance origin :=
  Vec.norm_pos (mt Vec.sub_eq_zero_iff.mp hapart)

/-- The point is as far from the origin as the source, and its angle off has the cosine that was
drawn. -/
theorem heardAt_on_cap (hapart : source ≠ origin) (phi : ℝ) (hcos : cosTheta ∈ Set.Icc (-1) 1) :
    (heardAt source origin phi cosTheta).distance origin = source.distance origin ∧
      ((heardAt source origin phi cosTheta).sub origin).dot (source.sub origin) =
        source.distance origin ^ 2 * cosTheta := by
  have hne : source.sub origin ≠ Vec.zero := mt Vec.sub_eq_zero_iff.mp hapart
  have hpos : 0 < source.distance origin := distance_pos hapart
  have hframe := frame_basis (Vec.norm_unit hne)
  obtain ⟨sinTheta, hcircle, hparts⟩ := exists_heardAt_sub source origin phi hcos
  constructor
  · have hsq : (heardAt source origin phi cosTheta).distance origin ^ 2 =
        source.distance origin ^ 2 := by
      rw [Vec.distance, hparts, hframe.norm_combine_sq]
      linear_combination source.distance origin ^ 2 * sinTheta ^ 2 * Real.sin_sq_add_cos_sq phi +
        source.distance origin ^ 2 * hcircle
    exact (sq_eq_sq₀ (Vec.norm_nonneg _) hpos.le).mp hsq
  · have hunit : (source.sub origin).scale (1 / source.distance origin) =
        (source.sub origin).unit := by
      rw [Vec.unit, one_real]
      rfl
    have hdot : 1 / source.distance origin *
        ((heardAt source origin phi cosTheta).sub origin).dot (source.sub origin) =
          source.distance origin * cosTheta := by
      rw [Vec.dot_comm, ← Vec.scale_dot, hunit, Vec.dot_comm, hparts]
      exact hframe.combine_dot _ _ _
    field_simp at hdot
    linear_combination hdot

/-- The angle off the source is the one that was drawn. -/
theorem angle_heardAt (hapart : source ≠ origin) (phi : ℝ) (hcos : cosTheta ∈ Set.Icc (-1) 1) :
    ((heardAt source origin phi cosTheta).sub origin).angle (source.sub origin) =
      Real.arccos cosTheta := by
  have hpos := distance_pos hapart
  obtain ⟨hdistance, hdot⟩ := heardAt_on_cap hapart phi hcos
  have hheard : (heardAt source origin phi cosTheta).sub origin ≠ Vec.zero := by
    intro hzero
    exact hpos.ne (hdistance ▸ (Vec.norm_eq_zero_iff.mpr hzero).symm)
  rw [Vec.angle_real hheard (mt Vec.sub_eq_zero_iff.mp hapart), hdot]
  congr 1
  change source.distance origin ^ 2 * cosTheta /
    ((heardAt source origin phi cosTheta).distance origin * source.distance origin) = cosTheta
  rw [hdistance]
  field_simp

/-! ## The draws -/

theorem radians_mem (hmax : maxDegrees ∈ Set.Icc 0 180) :
    Trig.radians maxDegrees ∈ Set.Icc 0 Real.pi := by
  have hangle : Trig.radians maxDegrees = maxDegrees / 180 * Real.pi := by
    rw [Trig.radians, ofNat_real, Trig.pi_real]
    ring
  rw [hangle]
  constructor
  · have := hmax.1
    positivity
  · exact mul_le_of_le_one_left Real.pi_pos.le ((div_le_one (by norm_num)).mpr hmax.2)

theorem fraction_mem (word : UInt64) : (Random.fraction word : ℝ) ∈ Set.Ico 0 1 := by
  have hless : word.toNat % Nat.pow 2 53 < Nat.pow 2 53 := Nat.mod_lt _ (Nat.two_pow_pos 53)
  have hpos : (0 : ℝ) < (Nat.pow 2 53 : ℕ) := by exact_mod_cast Nat.two_pow_pos 53
  have hfraction : (Random.fraction word : ℝ) =
      (word.toNat % Nat.pow 2 53 : ℕ) / (Nat.pow 2 53 : ℕ) := by
    unfold Random.fraction
    exact congrArg₂ _ (Int.cast_natCast _) (Int.cast_natCast _)
  rw [hfraction]
  exact ⟨by positivity, (div_lt_one hpos).mpr (Nat.cast_lt.mpr hless)⟩

theorem uniform_mem {lo hi : ℝ} (h : lo ≤ hi) (random : Random) :
    (random.uniform lo hi).1 ∈ Set.Icc lo hi ∧ (lo < hi → (random.uniform lo hi).1 < hi) := by
  obtain ⟨hlow, hhigh⟩ := fraction_mem random.step.mix
  have hdraw : (random.uniform lo hi).1 = Random.fraction random.step.mix * (hi - lo) + lo := rfl
  rw [hdraw]
  refine ⟨⟨?_, ?_⟩, fun hlt => ?_⟩
  · nlinarith
  · nlinarith
  · nlinarith

theorem fullTurn_real : (fullTurn : ℝ) = 2 * Real.pi := by
  rw [fullTurn, ofNat_real, Trig.pi_real]

/-- A source elsewhere takes two draws. -/
theorem blur_eq_heardAt {α : Type} [Trig α] {source origin : Vec α}
    (hapart : (source.distance origin == 0) = false) (maxDegrees : α) (random : Random) :
    (blur source origin maxDegrees random).1 =
      heardAt source origin (random.uniform 0 fullTurn).1
        (random.step.uniform (Trig.cos (Trig.radians maxDegrees)) 1).1 := by
  have hblur : blur source origin maxDegrees random = _ := if_neg (Bool.eq_false_iff.mp hapart)
  rw [hblur]
  rfl

/-- What chance draws for a source elsewhere. -/
theorem exists_blur_eq (hapart : source ≠ origin) (maxDegrees : ℝ) (random : Random) :
    ∃ phi ∈ Set.Ico 0 (2 * Real.pi),
      ∃ cosTheta ∈ Set.Icc (Real.cos (Trig.radians maxDegrees)) 1,
        (blur source origin maxDegrees random).1 = heardAt source origin phi cosTheta := by
  have hne : (source.distance origin == (instOfNat 0 : OfNat ℝ 0).ofNat) = false := by
    simpa using (distance_pos hapart).ne'
  obtain ⟨⟨hphi, -⟩, hturn⟩ := uniform_mem Real.two_pi_pos.le random
  obtain ⟨hcos, -⟩ := uniform_mem (Real.cos_le_one (Trig.radians maxDegrees)) random.step
  refine ⟨_, ⟨hphi, hturn Real.two_pi_pos⟩, _, hcos, ?_⟩
  rw [blur_eq_heardAt hne, fullTurn_real, zero_real, one_real, Trig.cos_real]

theorem heardAt_one (hapart : source ≠ origin) (phi : ℝ) :
    heardAt source origin phi 1 = source := by
  have hone : (1 : ℝ) ∈ Set.Icc (-1) 1 := ⟨by norm_num, le_rfl⟩
  obtain ⟨sinTheta, hcircle, hparts⟩ := exists_heardAt_sub source origin phi hone
  obtain rfl : sinTheta = 0 := by
    rw [← sq_eq_zero_iff]
    linarith
  have hsame : (heardAt source origin phi 1).sub origin = source.sub origin := by
    rw [hparts]
    calc Vec.combine _ _ (source.sub origin).unit _ _ _
        = (source.sub origin).unit.scale (source.sub origin).norm := by
          simp [Vec.combine, Vec.add, Vec.scale, Vec.distance]
      _ = source.sub origin := Vec.scale_norm_unit (mt Vec.sub_eq_zero_iff.mp hapart)
  rw [← Vec.add_sub_cancel origin (heardAt source origin phi 1), hsame, Vec.add_sub_cancel]

/-- With no angle allowed the only cosine to draw is one. -/
theorem blur_zero (source origin : Vec ℝ) (random : Random) :
    (blur source origin 0 random).1 = source := by
  by_cases hapart : source = origin
  · have hsame : (source.distance origin == (instOfNat 0 : OfNat ℝ 0).ofNat) = true := by
      rw [zero_real, beq_iff_eq]
      exact Vec.norm_eq_zero_iff.mpr (Vec.sub_eq_zero_iff.mpr hapart)
    have hblur : blur source origin 0 random = (origin, random) := if_pos hsame
    rw [hblur, hapart]
  · obtain ⟨phi, -, cosTheta, hcos, hblur⟩ := exists_blur_eq hapart 0 random
    have hnone : Trig.radians (0 : ℝ) = 0 := by simp [Trig.radians]
    rw [hnone, Real.cos_zero] at hcos
    rw [hblur, hcos.2.antisymm hcos.1, heardAt_one hapart]

/-- A blurred point is as far from the origin as its source, and off it by the angle drawn, which is
no more than the greatest. The basis it is put together along is orthonormal for every direction,
and no vector without a length is normalized. -/
theorem blur_on_cap (source origin : Vec ℝ) (maxDegrees : ℝ) (hapart : source ≠ origin)
    (hmax : maxDegrees ∈ Set.Icc 0 180) :
    let r := source.distance origin
    let maxAngle := Trig.radians maxDegrees
    (∀ phi ∈ Set.Ico 0 (2 * Real.pi), ∀ cosTheta ∈ Set.Icc (Real.cos maxAngle) 1,
      let p := heardAt source origin phi cosTheta
      p.distance origin = r ∧
      (p.sub origin).dot (source.sub origin) = r ^ 2 * cosTheta ∧
      r ^ 2 * Real.cos maxAngle ≤ (p.sub origin).dot (source.sub origin) ∧
      (p.sub origin).angle (source.sub origin) ≤ maxAngle) ∧
    (∀ random, ∃ phi ∈ Set.Ico 0 (2 * Real.pi), ∃ cosTheta ∈ Set.Icc (Real.cos maxAngle) 1,
      (blur source origin maxDegrees random).1 = heardAt source origin phi cosTheta) ∧
    (source.sub origin).unit.norm = 1 ∧
    (∀ s : Vec ℝ, s.norm = 1 → (helper s).cross s ≠ Vec.zero ∧
      basis s = (((helper s).cross s).unit, s.cross ((helper s).cross s).unit) ∧
      Vec.Frame (basis s).1 (basis s).2 s) ∧
    ∀ random, (blur source origin 0 random).1 = source := by
  intro r maxAngle
  obtain ⟨hlow, hhigh⟩ := radians_mem hmax
  refine ⟨fun phi _ cosTheta hcos => ?_, exists_blur_eq hapart maxDegrees,
    Vec.norm_unit (mt Vec.sub_eq_zero_iff.mp hapart),
    fun s hs => ⟨helper_cross_ne_zero hs, basis_eq s, frame_basis hs⟩, blur_zero source origin⟩
  have hcosine : cosTheta ∈ Set.Icc (-1) 1 :=
    ⟨(Real.neg_one_le_cos maxAngle).trans hcos.1, hcos.2⟩
  obtain ⟨hdistance, hdot⟩ := heardAt_on_cap hapart phi hcosine
  refine ⟨hdistance, hdot, ?_, ?_⟩
  · rw [hdot]
    exact mul_le_mul_of_nonneg_left hcos.1 (sq_nonneg r)
  · rw [angle_heardAt hapart phi hcosine]
    calc Real.arccos cosTheta ≤ Real.arccos (Real.cos maxAngle) := Real.arccos_le_arccos hcos.1
      _ = maxAngle := Real.arccos_cos hlow hhigh

/-- A source straight along the first axis, which is heard up to a right angle off. -/
theorem blur_on_cap_east :
    let source : Vec ℝ := ⟨5, 0, 0⟩
    let origin : Vec ℝ := ⟨0, 0, 0⟩
    let p := heardAt source origin 0 (1 / 2)
    source ≠ origin ∧ (90 : ℝ) ∈ Set.Icc 0 180 ∧ p.distance origin = 5 ∧
      (p.sub origin).dot (source.sub origin) = 25 / 2 ∧
      (p.sub origin).angle (source.sub origin) ≤ Trig.radians 90 := by
  intro source origin p
  have hapart : source ≠ origin := by simp [source, origin]
  have hmax : (90 : ℝ) ∈ Set.Icc 0 180 := by norm_num
  have hlength : source.distance origin = 5 := by
    rw [Vec.distance, Vec.norm_real, Real.sqrt_eq_iff_mul_self_eq] <;>
      norm_num [source, origin, Vec.sub]
  have hright : Real.cos (Trig.radians 90) = 0 := by
    rw [Trig.radians, ofNat_real, Trig.pi_real, ← Real.cos_pi_div_two]
    congr 1
    push_cast
    ring
  obtain ⟨hpoint, -⟩ := blur_on_cap source origin 90 hapart hmax
  obtain ⟨hdistance, hdot, -, hangle⟩ := hpoint 0 ⟨le_rfl, Real.two_pi_pos⟩ (1 / 2)
    (by rw [hright]; norm_num)
  exact ⟨hapart, hmax, hdistance.trans hlength, by rw [hdot, hlength]; norm_num, hangle⟩

end Cap

end VoxelScout
