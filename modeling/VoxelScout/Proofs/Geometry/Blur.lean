import Mathlib
import VoxelScout.Geometry.Cap
import VoxelScout.Proofs.Geometry.Length
import VoxelScout.Proofs.Scalar.Circular

/-! # Where a blurred point lies

A point of moderate coordinates is blurred to a finite point, wherever chance has it, if it is the
origin or not extremely close to it. Closer by, the reciprocal of the distance overflows, and no
coordinate of the result is finite.
-/

namespace VoxelScout

open Scalar Binary64

variable {x y : Float} {k l m : ℤ} {p q : Vec Float}

/-! ## Sums and products of vectors -/

theorem add_within (hp : p.Within k) (hq : q.Within k) (hk : k < m) (hm : Fits m) :
    (p.add q).Within m :=
  ⟨hp.x.add hq.x hk hk hm, hp.y.add hq.y hk hk hm, hp.z.add hq.z hk hk hm⟩

theorem sub_within (hp : p.Within k) (hq : q.Within k) (hk : k < m) (hm : Fits m) :
    (p.sub q).Within m :=
  ⟨hp.x.sub hq.x hk hk hm, hp.y.sub hq.y hk hk hm, hp.z.sub hq.z hk hk hm⟩

theorem cross_within (hp : p.Within k) (hq : q.Within l) (hkl : Fits (k + l)) (hm : k + l < m)
    (hfits : Fits m) : (p.cross q).Within m := by
  have hmul {a b : Float} (ha : Binary64.Within a k) (hb : Binary64.Within b l) :
      Binary64.Within (a * b) (k + l) := ha.mul hb le_rfl hkl
  exact ⟨(hmul hp.y hq.z).sub (hmul hp.z hq.y) hm hm hfits,
    (hmul hp.z hq.x).sub (hmul hp.x hq.z) hm hm hfits,
    (hmul hp.x hq.y).sub (hmul hp.y hq.x) hm hm hfits⟩

/-! ## A basis -/

/-- A difference of a product by one and a product by zero keeps its size. -/
theorem axis_coordinate (hx : Within x 3) (hy : Within y 3) (hm : -1074 ≤ m)
    (hlong : 2 ^ m ≤ |value x|) :
    2 ^ m ≤ |value (1 * x - 0 * y)| ∧ 2 ^ m ≤ |value (0 * y - 1 * x)| := by
  obtain ⟨hone, honeSize⟩ := within_one.1.nearly_mul hx (m := 3) (by decide) (by decide)
  obtain ⟨hzero, hzeroSize⟩ := within_zero.1.nearly_mul hy (m := 3) (by decide) (by decide)
  have hzeroValue : value (0 * y) = 0 := by
    have hclose := Rounds.close hzero
    change |value (0 * y) - value 0 * value y| ≤ |value 0 * value y| at hclose
    rw [within_zero.2, zero_mul, sub_zero, abs_zero] at hclose
    exact abs_nonpos_iff.mp hclose
  have honeLow : 2 ^ m ≤ |value (1 * x)| :=
    hone.two_zpow_le_abs_value hm (by rwa [within_one.2, one_mul])
  have honeWithin := hone.within (by decide) honeSize
  have hzeroWithin := hzero.within (by decide) hzeroSize
  constructor
  · obtain ⟨h, -⟩ := honeWithin.nearly_sub hzeroWithin (m := 4) (by decide) (by decide) (by decide)
    exact h.two_zpow_le_abs_value hm (by rwa [hzeroValue, sub_zero])
  · obtain ⟨h, -⟩ := hzeroWithin.nearly_sub honeWithin (m := 4) (by decide) (by decide) (by decide)
    exact h.two_zpow_le_abs_value hm (by rwa [hzeroValue, zero_sub, abs_neg])

theorem value_alignment : (Cap.alignment : Float).isFinite = true ∧
    2 ^ (-1 : ℤ) ≤ value Cap.alignment ∧ value Cap.alignment ≤ 1 - 1 / 2 ^ 20 := by
  decide +kernel

theorem within_axes : (⟨1, 0, 0⟩ : Vec Float).Within 0 ∧ (⟨0, 1, 0⟩ : Vec Float).Within 0 :=
  ⟨⟨within_one.1, within_zero.1, within_zero.1⟩, ⟨within_zero.1, within_one.1, within_zero.1⟩⟩

/-- A direction and an axis that it is not close to span a plane. -/
theorem exists_axis (hs : p.Within 3)
    (hapart : |value p.x| ≤ 1 - 1 / 2 ^ 20 →
      2 ^ (-33 : ℤ) ≤ |value p.y| ∨ 2 ^ (-33 : ℤ) ≤ |value p.z|) :
    ∃ helper : Vec Float, (helper.cross p).Within 4 ∧
      2 ^ (-1024 : ℤ) < value (helper.cross p).norm ∧
      Cap.basis p = ((helper.cross p).unit, p.cross (helper.cross p).unit) := by
  obtain ⟨halignment, hlow, hhigh⟩ := value_alignment
  obtain ⟨habs, habsValue⟩ := value_abs hs.x.isFinite
  obtain ⟨haxis, haxis'⟩ := within_axes
  have hlarge {q : Vec Float} (hq : q.Within 4) (h : 2 ^ (-33 : ℤ) ≤ |value q.x| ∨
      2 ^ (-33 : ℤ) ≤ |value q.y| ∨ 2 ^ (-33 : ℤ) ≤ |value q.z|) :
      2 ^ (-1024 : ℤ) < value q.norm :=
    lt_of_lt_of_le (zpow_lt_zpow_right₀ (by norm_num) (by decide))
      (two_zpow_le_norm hq (by decide) (by decide) (m := -33) (by decide) h)
  by_cases haligned : (Cap.alignment : Float) < abs p.x
  · have hbasis : Cap.basis p = (((⟨0, 1, 0⟩ : Vec Float).cross p).unit,
        p.cross ((⟨0, 1, 0⟩ : Vec Float).cross p).unit) := by
      unfold Cap.basis
      rw [if_pos haligned]
      rfl
    have hcross := cross_within haxis' hs (m := 4) (by decide) (by decide) (by decide)
    have hlong : 2 ^ (-33 : ℤ) ≤ |value p.x| := by
      have hless := (lt_iff_value_lt halignment habs).mp haligned
      rw [habsValue] at hless
      exact (two_zpow_le (by decide)).trans (hlow.trans hless.le)
    refine ⟨⟨0, 1, 0⟩, hcross, hlarge hcross (.inr (.inr ?_)), hbasis⟩
    exact (axis_coordinate hs.x hs.y (by decide) hlong).2
  · have hbasis : Cap.basis p = (((⟨1, 0, 0⟩ : Vec Float).cross p).unit,
        p.cross ((⟨1, 0, 0⟩ : Vec Float).cross p).unit) := by
      unfold Cap.basis
      rw [if_neg haligned]
      rfl
    have hcross := cross_within haxis hs (m := 4) (by decide) (by decide) (by decide)
    have hshort : |value p.x| ≤ 1 - 1 / 2 ^ 20 := by
      have hless := mt (lt_iff_value_lt halignment habs).mpr haligned
      rw [habsValue, not_lt] at hless
      exact hless.trans hhigh
    refine ⟨⟨1, 0, 0⟩, hcross, hlarge hcross (.inr ?_), hbasis⟩
    rcases hapart hshort with hy | hz
    · exact .inr (axis_coordinate hs.y hs.x (by decide) hy).1
    · exact .inl (axis_coordinate hs.z hs.x (by decide) hz).2

theorem basis_within (hs : p.Within 3)
    (hapart : |value p.x| ≤ 1 - 1 / 2 ^ 20 →
      2 ^ (-33 : ℤ) ≤ |value p.y| ∨ 2 ^ (-33 : ℤ) ≤ |value p.z|) :
    (Cap.basis p).1.Within 3 ∧ (Cap.basis p).2.Within 7 := by
  obtain ⟨helper, hcross, hlarge, hbasis⟩ := exists_axis hs hapart
  have hunit := unit_within hcross (by decide) (by decide) hlarge
  rw [hbasis]
  exact ⟨hunit, cross_within hs hunit (by decide) (by decide) (by decide)⟩

/-! ## Chance -/

theorem fraction_within (word : UInt64) : Within (Random.fraction word : Float) 0 := by
  have hless : word.toNat % Nat.pow 2 53 < 2 ^ 53 := Nat.mod_lt _ (Nat.two_pow_pos 53)
  obtain ⟨hnum, hnumValue⟩ := value_ofNat hless
  obtain ⟨hden, hdenValue⟩ := value_ofNat_two_pow (n := 53) (by decide)
  have hwithin : Within (Float.ofNat (word.toNat % Nat.pow 2 53)) 53 := by
    refine ⟨hnum, ?_⟩
    rw [hnumValue, abs_of_nonneg (by positivity)]
    exact_mod_cast hless.le
  have hlow : 2 ^ (53 : ℤ) ≤ |value (Float.ofNat (2 ^ 53))| := by
    rw [hdenValue]
    norm_num
  exact hwithin.div hden hlow (by decide) (by decide)

theorem uniform_within (random : Random) (hx : Within x k) (hy : Within y k) (hk : Fits (k + 1))
    (hk' : Fits (k + 2)) : Within (random.uniform x y).1 (k + 2) :=
  ((fraction_within _).mul (hy.sub hx (m := k + 1) (by omega) (by omega) hk)
    (m := k + 1) (by omega) hk).add hx (by omega) (by omega) hk'

theorem larger_zero (hx : Within x k) :
    Within (Binary64.larger 0 x) k ∧ 0 ≤ value (Binary64.larger 0 x) := by
  have hzero : Within 0 k := ⟨within_zero.1.isFinite, by rw [within_zero.2, abs_zero]; positivity⟩
  unfold Binary64.larger
  simp only [beq_inf_of_isFinite hx.isFinite, beq_inf_of_isFinite hzero.isFinite,
    isNaN_of_isFinite hx.isFinite, isNaN_of_isFinite hzero.isFinite, Bool.or_self,
    Bool.false_eq_true, if_false]
  split
  · next hboth =>
    have hvalue : value x = 0 := by
      have hbeq := (Bool.and_eq_true_iff.mp hboth).2
      rwa [beq_iff_value_eq hx.isFinite hzero.isFinite, within_zero.2] at hbeq
    split
    · exact ⟨hx, hvalue.ge⟩
    · exact ⟨hzero, within_zero.2.ge⟩
  · split
    · exact ⟨hzero, within_zero.2.ge⟩
    · next hless =>
      refine ⟨hx, ?_⟩
      rwa [gt_iff_lt, lt_iff_value_lt hx.isFinite hzero.isFinite, within_zero.2, not_lt] at hless

/-! ## Points on a cap -/

theorem sinTheta_within (hx : Within x 5) :
    Within (Binary64.larger 0 (1 - x * x)).sqrt 6 := by
  have hsquare : Within (x * x) 10 := hx.mul hx (by decide) (by decide)
  have hless : Within (1 - x * x) 11 :=
    within_one.1.sub hsquare (by decide) (by decide) (by decide)
  obtain ⟨hlarger, hpos⟩ := larger_zero hless
  exact hlarger.sqrt hpos (by decide) (by decide)

variable {origin s : Vec Float} {r phi cosTheta : Float}

theorem point_within (horigin : origin.Within k) (hs : s.Within 3)
    (hapart : |value s.x| ≤ 1 - 1 / 2 ^ 20 →
      2 ^ (-33 : ℤ) ≤ |value s.y| ∨ 2 ^ (-33 : ℤ) ≤ |value s.z|)
    (hr : Within r k) (hphi : phi.isFinite = true) (hcos : Within cosTheta 5) (hlow : 0 ≤ k)
    (hhigh : k ≤ 1000) : (Cap.point origin s r phi cosTheta).Within (k + 19) := by
  have hfits {n : ℤ} (h : 0 ≤ n ∧ n ≤ 19) : Fits (k + n) := ⟨by omega, by omega⟩
  obtain ⟨hu, hv⟩ := basis_within hs hapart
  have hradius := hr.mul (sinTheta_within hcos) (m := k + 6) le_rfl (hfits (by decide))
  have hacross := hradius.mul (cos_within hphi) (m := k + 9) (by omega) (hfits (by decide))
  have hup := hradius.mul (sin_within hphi) (m := k + 9) (by omega) (hfits (by decide))
  have hplane := add_within (scale_within hacross hu (m := k + 16) (by omega) (hfits (by decide)))
    (scale_within hup hv (m := k + 16) (by omega) (hfits (by decide))) (m := k + 17) (by omega)
    (hfits (by decide))
  have halong := scale_within (hr.mul hcos (m := k + 5) le_rfl (hfits (by decide))) hs (m := k + 17)
    (by omega) (hfits (by decide))
  have hpoint := add_within hplane halong (m := k + 18) (by omega) (hfits (by decide))
  exact add_within (horigin.mono (by omega)) hpoint (m := k + 19) (by omega) (hfits (by decide))

theorem isFinite_of_point (h : (Cap.point origin s r phi cosTheta).x.isFinite = true ∨
      (Cap.point origin s r phi cosTheta).y.isFinite = true ∨
      (Cap.point origin s r phi cosTheta).z.isFinite = true) :
    s.x.isFinite = true ∨ s.y.isFinite = true ∨ s.z.isFinite = true := by
  have hlast {a b c d : Float} (h : (a + (b + c * d)).isFinite = true) : d.isFinite = true :=
    (isFinite_of_mul (isFinite_of_add (isFinite_of_add h).2).2).2
  exact h.imp hlast (Or.imp hlast hlast)

/-! ## Blurring -/

def Vec.isFinite (p : Vec Float) : Bool :=
  p.x.isFinite && p.y.isFinite && p.z.isFinite

def coordinateLimit : Float :=
  1e300

structure Vec.Moderate (p : Vec Float) : Prop where
  x : p.x.abs ≤ coordinateLimit
  y : p.y.abs ≤ coordinateLimit
  z : p.z.abs ≤ coordinateLimit

instance (p : Vec Float) : Decidable p.Moderate :=
  decidable_of_iff
    (p.x.abs ≤ coordinateLimit ∧ p.y.abs ≤ coordinateLimit ∧ p.z.abs ≤ coordinateLimit)
    ⟨fun h => ⟨h.1, h.2.1, h.2.2⟩, fun h => ⟨h.x, h.y, h.z⟩⟩

/-- The least distance but zero whose reciprocal overflows no more lies above this. -/
def overflowDistance : Float :=
  5.562684646268003e-309

/-- Two points are the same, or so far apart that the reciprocal of the distance is finite. -/
def Vec.Resolved (p q : Vec Float) : Prop :=
  (p.distance q == 0) = true ∨ overflowDistance < p.distance q

instance (p q : Vec Float) : Decidable (p.Resolved q) :=
  inferInstanceAs (Decidable (_ ∨ _))

theorem isFinite_of_abs_le (hy : y.isFinite = true) (h : x.abs ≤ y) : x.isFinite = true := by
  obtain ⟨hnan, -, hrank⟩ := le_iff.mp h
  rw [rank, rank, rankOf_of_isFinite hy] at hrank
  change x.abs.toModel.unpack.isNaN = false at hnan
  change x.toModel.unpack.isFinite = true
  have habs : x.abs = .ofModel (.pack x.toModel.unpack.abs) := rfl
  rw [habs] at hnan hrank
  cases hparts : x.toModel.unpack with
  | notANumber =>
      rw [hparts] at hnan
      cases hnan
  | infinity s =>
      have htop : (Float.ofModel (.pack (.infinity .positive))).toModel.unpack =
          .infinity .positive := rfl
      rw [hparts, show (Float.Model.UnpackedFloat.infinity s).abs = .infinity .positive from rfl,
        htop] at hrank
      exact absurd hrank (not_le.mpr (WithBot.coe_lt_coe.mpr (WithTop.coe_lt_top _)))
  | _ => rfl

theorem within_of_abs_le (h : x.abs ≤ coordinateLimit) : Within x 997 := by
  obtain ⟨hlimit, hvalue⟩ : coordinateLimit.isFinite = true ∧ value coordinateLimit ≤ 2 ^ 997 := by
    decide +kernel
  have hx := isFinite_of_abs_le hlimit h
  rw [le_iff_value_le (value_abs hx).1 hlimit, (value_abs hx).2] at h
  exact ⟨hx, h.trans hvalue⟩

theorem Vec.Moderate.within (h : p.Moderate) : p.Within 997 :=
  ⟨within_of_abs_le h.x, within_of_abs_le h.y, within_of_abs_le h.z⟩

theorem value_overflowDistance :
    overflowDistance.isFinite = true ∧ value overflowDistance = 2 ^ (-1024 : ℤ) := by
  decide +kernel

theorem Vec.Within.isFinite (h : p.Within k) : p.isFinite = true := by
  rw [Vec.isFinite, h.x.isFinite, h.y.isFinite, h.z.isFinite]
  rfl

variable {source listener : Vec Float} {maxDegrees : Float}

theorem difference_within (hsource : source.Moderate) (hlistener : listener.Moderate) :
    (source.sub listener).Within 998 :=
  sub_within hsource.within hlistener.within (by decide) (by decide)

theorem distance_within (hsource : source.Moderate) (hlistener : listener.Moderate) :
    Within (source.distance listener) 1000 ∧ 0 ≤ value (source.distance listener) :=
  norm_within (difference_within hsource hlistener) (by decide) (by decide)

/-- Two moderate points are resolved if and only if their distance, unless zero, is greater than
`2 ^ (-1024)`. -/
theorem resolved_iff (hsource : source.Moderate) (hlistener : listener.Moderate) :
    source.Resolved listener ↔ (source.distance listener == 0) = true ∨
      2 ^ (-1024 : ℤ) < value (source.distance listener) := by
  obtain ⟨hlimit, hvalue⟩ := value_overflowDistance
  unfold Vec.Resolved
  rw [lt_iff_value_lt hlimit (distance_within hsource hlistener).1.isFinite, hvalue]

/-- A sound from elsewhere is heard at a point on a cap. -/
theorem blur_fst (hne : (source.distance listener == 0) = false) (random : Random) :
    (Cap.blur source listener maxDegrees random).1 =
      Cap.point listener (source.sub listener).unit (source.distance listener)
        (random.uniform 0 (Cap.fullTurn : Float)).1
        (random.step.uniform (Trig.cos (Trig.radians maxDegrees)) 1).1 := by
  have hblur : Cap.blur source listener maxDegrees random = _ := if_neg (Bool.eq_false_iff.mp hne)
  rw [hblur]
  rfl

/-- Whatever chance has it, a moderate point is blurred to a finite one if it is resolved. -/
theorem blur_isFinite (hsource : source.Moderate) (hlistener : listener.Moderate)
    (hresolved : source.Resolved listener) (hangle : (Trig.radians maxDegrees).isFinite = true)
    (random : Random) : (Cap.blur source listener maxDegrees random).1.isFinite = true := by
  have hdifference := difference_within hsource hlistener
  have hdistance := (distance_within hsource hlistener).1
  have hturn : Within (Cap.fullTurn : Float) 3 := by decide +kernel
  have hzero : Within (0 : Float) 3 := within_zero.1.mono (by decide)
  rw [resolved_iff hsource hlistener] at hresolved
  by_cases hne : (source.distance listener == 0) = true
  · have hblur : Cap.blur source listener maxDegrees random = (listener, random) := if_pos hne
    rw [hblur]
    exact hlistener.within.isFinite
  · have hfar := hresolved.resolve_left hne
    rw [blur_fst (Bool.eq_false_iff.mpr hne)]
    have hphi := uniform_within random hzero hturn (by decide) (by decide)
    have hcos := uniform_within random.step (cos_within hangle) (within_one.1.mono (by decide))
      (by decide) (by decide)
    exact (point_within (k := 1000) (hlistener.within.mono (by decide))
      (unit_within hdifference (by decide) (by decide) hfar)
      (exists_unit_coordinate hdifference (by decide) (by decide) hfar)
      hdistance hphi.isFinite hcos (by decide) (by decide)).isFinite

/-- A moderate point that is not resolved is blurred to a point without a finite coordinate. -/
theorem blur_not_isFinite (hsource : source.Moderate) (hlistener : listener.Moderate)
    (hresolved : ¬source.Resolved listener) (maxDegrees : Float) (random : Random) :
    let p := (Cap.blur source listener maxDegrees random).1
    p.x.isFinite = false ∧ p.y.isFinite = false ∧ p.z.isFinite = false := by
  obtain ⟨hdistance, hpos⟩ := distance_within hsource hlistener
  rw [resolved_iff hsource hlistener, not_or, not_lt, Bool.not_eq_true] at hresolved
  obtain ⟨hne, hsmall⟩ := hresolved
  have hvalue : value (source.distance listener) ≠ 0 := by
    rw [← within_zero.2, ne_eq, ← beq_iff_value_eq hdistance.isFinite within_zero.1.isFinite]
    exact Bool.eq_false_iff.mp hne
  have hreciprocal := isFinite_reciprocal hdistance.isFinite (lt_of_le_of_ne hpos hvalue.symm)
    hsmall
  have hinfinite {c : Float} : ¬(1 / source.distance listener * c).isFinite = true := by
    intro h
    have hfinite := (isFinite_of_mul h).1
    rw [hreciprocal] at hfinite
    cases hfinite
  dsimp only
  rw [blur_fst hne, ← Bool.not_eq_true, ← Bool.not_eq_true, ← Bool.not_eq_true, ← not_or, ← not_or]
  exact mt isFinite_of_point (not_or.mpr ⟨hinfinite, not_or.mpr ⟨hinfinite, hinfinite⟩⟩)

theorem blur_isFinite_iff (hsource : source.Moderate) (hlistener : listener.Moderate)
    (hangle : (Trig.radians maxDegrees).isFinite = true) (random : Random) :
    (Cap.blur source listener maxDegrees random).1.isFinite = true ↔ source.Resolved listener := by
  refine ⟨fun hfinite => ?_, fun h => blur_isFinite hsource hlistener h hangle random⟩
  by_contra hresolved
  obtain ⟨hx, -, -⟩ := blur_not_isFinite hsource hlistener hresolved maxDegrees random
  rw [Vec.isFinite, hx] at hfinite
  cases hfinite

end VoxelScout
