import Mathlib
import VoxelScout.Proofs.Bot.Pose
import VoxelScout.Proofs.Geometry.Exact

/-! # Turning the eyes to a point

A heading has two angles, and a direction other than zero has a heading. Without rounding the
heading of a direction points along it, straight up and down as well, where the horizontal part
has no direction of its own. So a bot that turns its eyes to a point looks exactly there.
-/

namespace VoxelScout

open Scalar

/-! ## Headings -/

namespace Heading

variable {d : Vec ℝ}

theorem toward_of_ne (h : d ≠ Vec.zero) :
    toward d = ⟨Complex.arg ⟨-d.z, -d.x⟩, Complex.arg ⟨√(d.x ^ 2 + d.z ^ 2), -d.y⟩⟩ := by
  have hlong : ¬(d.norm == (instOfNat 0 : OfNat ℝ 0).ofNat) = true := by
    simpa using mt Vec.norm_eq_zero_iff.mp h
  rw [toward, if_neg hlong, Trig.hypot_real]
  rfl

/-- The heading of a direction points along it. Where the horizontal part has no length the yaw
does not matter, since the cosine of the pitch is zero. -/
theorem direction_toward (h : d ≠ Vec.zero) : (toward d).direction = d.unit := by
  have hlevel : ‖(⟨-d.z, -d.x⟩ : ℂ)‖ = √(d.x ^ 2 + d.z ^ 2) := by
    rw [Complex.norm_eq_sqrt_sq_add_sq]
    congr 1
    ring
  have hlength : ‖(⟨√(d.x ^ 2 + d.z ^ 2), -d.y⟩ : ℂ)‖ = d.norm := by
    rw [Complex.norm_eq_sqrt_sq_add_sq, Vec.norm_real, Real.sq_sqrt (by positivity)]
    congr 1
    ring
  have hsinYaw := Complex.norm_mul_sin_arg ⟨-d.z, -d.x⟩
  have hcosYaw := Complex.norm_mul_cos_arg ⟨-d.z, -d.x⟩
  have hsinPitch := Complex.norm_mul_sin_arg ⟨√(d.x ^ 2 + d.z ^ 2), -d.y⟩
  have hcosPitch := Complex.norm_mul_cos_arg ⟨√(d.x ^ 2 + d.z ^ 2), -d.y⟩
  rw [hlevel] at hsinYaw hcosYaw
  rw [hlength] at hsinPitch hcosPitch
  dsimp only at hsinYaw hcosYaw hsinPitch hcosPitch
  have hpos := Vec.norm_pos h
  have hparts {a b : ℝ} (hab : d.norm * a = b) : a = 1 / d.norm * b := by
    rw [← hab, one_div, inv_mul_cancel_left₀ hpos.ne']
  rw [toward_of_ne h, direction, Vec.unit, one_real, Vec.scale, Vec.mk.injEq]
  simp only [Trig.sin_real, Trig.cos_real]
  refine ⟨hparts ?_, hparts ?_, hparts ?_⟩
  · linear_combination -Real.sin (Complex.arg ⟨-d.z, -d.x⟩) * hcosPitch - hsinYaw
  · linear_combination -hsinPitch
  · linear_combination -Real.cos (Complex.arg ⟨-d.z, -d.x⟩) * hcosPitch - hcosYaw

/-- The heading of a direction never has to be levelled: it has a horizontal part forwards. -/
theorem levelled_toward (h : d ≠ Vec.zero) : Bot.levelled (toward d) = toward d := by
  have hupright : |(toward d).pitch| ≤ Real.pi / 2 := by
    rw [toward_of_ne h, Complex.abs_arg_le_pi_div_two_iff]
    exact Real.sqrt_nonneg _
  obtain ⟨hlow, hhigh⟩ := abs_le.mp hupright
  have hclamp : max (-(Real.pi / 2)) (min (Real.pi / 2) (toward d).pitch) = (toward d).pitch := by
    rw [min_eq_right hhigh, max_eq_right hlow]
  have hhalf : (Trig.pi : ℝ) / (instOfNat 2 : OfNat ℝ 2).ofNat = Real.pi / 2 := by
    rw [ofNat_real, Trig.pi_real, Nat.cast_ofNat]
  unfold Bot.levelled
  rw [hhalf]
  exact congrArg (Heading.mk (toward d).yaw) hclamp

end Heading

/-! ## The bot -/

namespace Bot

variable {σ : Type}

/-- The heading of a direction points along it. So a bot that turns its eyes to a point away from
them looks exactly there, with the pose it shows and the one it aims with, and tells its host the
same heading. -/
theorem lookAt_points :
    (∀ d : Vec ℝ, d ≠ Vec.zero → (Heading.toward d).direction = d.scale (1 / d.norm)) ∧
    ∀ (host : Option (Host σ ℝ)) (config : Config ℝ) (seed : UInt64) (state : σ) (now : Instant)
      (observers : Nat) (steps : List (Step ℝ)) (target : Vec ℝ)
      (anyHost : Option (Host σ ℝ)) (anyState : σ),
      let b := ((Session.start config seed state now observers).run host steps).bot
      let eye := b.self.eye
      let heading := Heading.toward (target.sub eye)
      let turned := b.lookAt anyHost anyState target
      target ≠ eye →
        turned.1.self.view = (target.sub eye).scale (1 / target.distance eye) ∧
        turned.1.combat.self.view = (target.sub eye).scale (1 / target.distance eye) ∧
        levelled heading = heading ∧
        turned = ({ b with
          self := { b.self with heading }
          combat := { b.combat with self := { b.self with heading } } },
          command anyHost anyState [.look heading]) := by
  have hpoints (d : Vec ℝ) (hd : d ≠ Vec.zero) :
      (Heading.toward d).direction = d.scale (1 / d.norm) := by
    rw [Heading.direction_toward hd, Vec.unit, one_real]
  refine ⟨hpoints, ?_⟩
  intro host config seed state now observers steps target anyHost anyState b eye heading turned hapart
  have hne : target.sub eye ≠ Vec.zero := mt Vec.sub_eq_zero_iff.mp hapart
  have hlevel : levelled heading = heading := Heading.levelled_toward hne
  have hfollows := Follows.run host config seed state now observers steps
  have haim : b.combat.self = b.self := hfollows.aim.trans hfollows.self.symm
  have hturned : turned = ({ b with
      self := { b.self with heading }
      combat := { b.combat with self := { b.self with heading } } },
      command anyHost anyState [.look heading]) := by
    have hlook : turned = b.look anyHost anyState heading := rfl
    rw [hlook, look, hlevel, Combat.Tracker.look, haim]
  rw [hturned]
  exact ⟨hpoints _ hne, hpoints _ hne, hlevel, rfl⟩

/-- A bot that looked down over its left shoulder looks straight up. -/
theorem lookAt_points_zenith :
    let host : Option (Host Unit ℝ) := none
    let config : Config ℝ := ⟨Sight.Config.standard, Hearing.Config.standard, Combat.Config.standard⟩
    let b := ((Session.start config 1 () Instant.unset 0).run host [.look ⟨2, 5⟩]).bot
    let target : Vec ℝ := ⟨0, 10, 0⟩
    target ≠ b.self.eye ∧ (b.lookAt host () target).1.self.view = ⟨0, 1, 0⟩ ∧
      (b.lookAt host () target).1.combat.self.view = ⟨0, 1, 0⟩ := by
  intro host config b target
  have heye : b.self.eye = ⟨0, 1.8, 0⟩ := by
    have hstart : b.self.eye = Pose.initial.eye := rfl
    rw [hstart]
    simp [Pose.initial, Pose.eye, Vec.raise, Vec.add, Vec.zero, Stature.standard]
  have hapart : target ≠ b.self.eye := by
    rw [heye]
    norm_num [target]
  have hup : (target.sub b.self.eye).scale (1 / target.distance b.self.eye) = ⟨0, 1, 0⟩ := by
    rw [Vec.distance, heye, Vec.norm_real]
    norm_num [target, Vec.sub, Vec.scale]
  obtain ⟨-, hpoints⟩ := @lookAt_points Unit
  obtain ⟨hself, haim, -⟩ :=
    hpoints host config 1 () Instant.unset 0 [.look ⟨2, 5⟩] target host () hapart
  exact ⟨hapart, hself.trans hup, haim.trans hup⟩

end Bot

end VoxelScout
