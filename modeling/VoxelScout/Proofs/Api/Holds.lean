import VoxelScout.Proofs.Api.Orders
import VoxelScout.Proofs.Clock
import VoxelScout.Proofs.Combat.Bystanders

/-! # How long a control is held

A request to hold a control asks for whole milliseconds, and the timer keeps nanoseconds in a
word of 64 bits. As long as the time asked for fits, the control is held until that time is
over, whatever happens to other controls. A longer time is taken as well, but wraps: the end
lies before the one asked for, and the control is let go too early.
-/

namespace VoxelScout

/-! ## Controls that outlast operations -/

namespace Controls

/-- An operation neither presses a control nor lets go of one that is held until an instant. -/
def Step.Spares (a : Axis) (e : Instant) (x : Step) : Prop :=
  (∀ d, x.press? ≠ some (a, d)) ∧ x.ends e = false

/-- What spares a control that is held for some time spares one that is held longer. -/
theorem Step.ends_of_not_before {x : Step} {e later : Instant} (hx : x.ends e = false)
    (hlater : later.before e = false) : x.ends later = false := by
  cases x with
  | tick now =>
      simp only [ends, Instant.before, decide_eq_false_iff_not] at hx hlater ⊢
      omega
  | activate | hold | setClock => rfl
  | releaseAll => cases hx

namespace Session

variable {s : Session} {a : Axis}

theorem step_of_spared {x : Step} (hpress : ∀ d, x.press? ≠ some (a, d))
    (hends : (s.timer.active a && x.ends (s.timer.expiry a)) = false) :
    (s.step x).timer.expiry a = s.timer.expiry a ∧
      stream a (s.step x).sent = stream a s.sent := by
  cases hx : x.press? with
  | none =>
      rw [timer_step, s.timer.expiry_perform_of_no_press s.clock hx, sent_step, stream_append,
        s.timer.perform_of_no_press s.clock hx, Timer.release, stream_releases, hends]
      simp
  | some pressed =>
      obtain ⟨b, d⟩ := pressed
      have hother : b ≠ a := fun h => hpress d (h ▸ hx)
      have hperform := s.timer.perform_of_press s.clock hx
      rw [timer_step, sent_step, stream_append, hperform, Timer.expiry_setExpiry, stream_press]
      simp [hother, hother.symm]

/-- A control that is idle, or held until `e` or longer, is neither let go nor heard of in a run
of operations that spare it until `e`. -/
theorem run_of_spared {e : Instant} {steps : List Step}
    (hheld : s.timer.active a = false ∨ (s.timer.expiry a).before e = false)
    (hsteps : ∀ x ∈ steps, x.Spares a e) :
    (s.run steps).timer.expiry a = s.timer.expiry a ∧
      stream a (s.run steps).sent = stream a s.sent := by
  induction steps using List.reverseRecOn with
  | nil => exact ⟨rfl, rfl⟩
  | append_singleton steps x ih =>
      obtain ⟨hexpiry, hstream⟩ := ih fun y hy => hsteps y (by simp [hy])
      obtain ⟨hpress, hx⟩ := hsteps x (by simp)
      have hends : ((s.run steps).timer.active a && x.ends ((s.run steps).timer.expiry a)) =
          false := by
        rw [Timer.active, hexpiry, ← Timer.active, Bool.and_eq_false_iff]
        exact hheld.imp_right (Step.ends_of_not_before hx)
      obtain ⟨hnext, hnothing⟩ := step_of_spared hpress hends
      rw [run_concat]
      exact ⟨hnext.trans hexpiry, hnothing.trans hstream⟩

end Session

/-- The timer does not let go of a control up to an instant, neither on ticks that are not later
nor on anything that is done to other controls. -/
def Timer.Lasts (t : Timer) (a : Axis) (e : Instant) : Prop :=
  ∀ clock steps, (∀ x ∈ steps, x.Spares a e) →
    ((⟨t, clock, []⟩ : Session).run steps).timer.expiry a = t.expiry a ∧
      stream a ((⟨t, clock, []⟩ : Session).run steps).sent = []

theorem Timer.lasts_iff {t : Timer} {a : Axis} {e : Instant} :
    t.Lasts a e ↔ t.expiry a = Instant.unset ∨ (t.expiry a).before e = false := by
  constructor
  · intro hlasts
    rw [or_iff_not_imp_left]
    intro hset
    rw [← Bool.not_eq_true]
    intro hearly
    -- the tick at the instant itself finds the control over time
    have hspares : Step.Spares a e (.tick e) :=
      ⟨by simp [Step.press?], by simp [Step.ends, Instant.before]⟩
    obtain ⟨hexpiry, -⟩ := hlasts Instant.unset [.tick e] (by simpa using hspares)
    have hover : (t.tick e).1.expiry a = Instant.unset := by
      rw [Timer.tick, expiry_release, if_pos]
      simp [expired, Axis.mem_all, (t.active_iff a).mpr hset, hearly]
    exact hset (hexpiry.symm.trans hover)
  · intro hheld clock steps hsteps
    apply Session.run_of_spared (s := ⟨t, clock, []⟩) _ hsteps
    refine hheld.imp_left fun hunset => ?_
    rw [← Bool.not_eq_true, active_iff, not_not]
    exact hunset

end Controls

/-! ## Requests to hold a control -/

namespace Api

open Controls

/-- A control that is held on request is held for the milliseconds asked for, in 64 bits. So its end
is the one asked for, and no tick lets go of it before, exactly if so many milliseconds fit a
duration. -/
theorem answer_hold_lasts_iff [BodyReader] [Json.Diagnostics] {σ : Type}
    (host : Option (Host σ Float)) (bot : Bot Float) (s : σ) (bridge : Json) (r : Request)
    (now : Instant) {name : String} (hpost : r.method = "POST")
    (hpath : Endpoint.ofPath? r.path = some (.control name))
    (hgranted : (answer host bot s bridge r now).1.status = 200) :
    let controls := (answer host bot s bridge r now).2.1.controls
    ∃ axis n, Axis.name axis = name ∧ r.duration? = some n ∧ 0 < n ∧
      let requested := now.add (Duration.milliseconds n)
      let fits := Duration.milliseconds n ≤ Duration.longest
      controls.expiry axis = now.add (spanOf n) ∧
      (controls.expiry axis = requested ↔ fits) ∧
      (controls.Lasts axis requested ↔ fits ∨ controls.expiry axis = Instant.unset) := by
  intro controls
  obtain ⟨e, document, he, hdone, -⟩ := answer_done host bot s bridge r now hpost hgranted
  obtain rfl : e = .control name := Option.some.inj (he.symm.trans hpath)
  generalize hafter : (answer host bot s bridge r now).2 = after at hdone
  have hcontrols : controls = after.1.controls := congrArg (·.1.controls) hafter
  cases hdone with
  | @hold axis n hbody hn =>
      have hexpiry : controls.expiry axis = now.add (spanOf n) := by
        rw [hcontrols]
        simp [Bot.hold, Timer.activate, Timer.expiry_setExpiry]
      have hspan : spanOf n = Duration.milliseconds n ↔
          Duration.milliseconds n ≤ Duration.longest :=
        Duration.wrap_eq_self_iff (by unfold Duration.milliseconds; omega)
      have hshort : spanOf n ≤ Duration.longest := Duration.wrap_le_longest _
      refine ⟨axis, n, rfl, hbody, hn, hexpiry, ?_, ?_⟩
      · rw [hexpiry, ← hspan]
        simp [Instant.add]
      · have hlate : (now.add (spanOf n)).before (now.add (Duration.milliseconds n)) = false ↔
            Duration.milliseconds n ≤ spanOf n := by
          simp [Instant.before, Instant.add]
        rw [Timer.lasts_iff, hexpiry, or_comm, hlate]
        exact or_congr_left ⟨fun h => h.trans hshort, fun h => (hspan.mpr h).ge⟩

def jumpRequest (milliseconds : String) : Request :=
  ⟨"POST", "/api/controls/jump", "application/json",
    Text.bytes ("\x7b\"duration_ms\":" ++ milliseconds ++ "\x7d")⟩

local instance jsonOnly : BodyReader :=
  ⟨fun _ _ => none, fun _ _ => none, fun _ _ => none⟩

local instance tersely : Json.Diagnostics :=
  ⟨fun _ _ => "unreadable", fun _ => "unwritable"⟩

/-- A jump for the most milliseconds that fit lasts until its end, 292 years later. -/
theorem answer_hold_lasts_iff_longest :
    let r := jumpRequest "9223372036854"
    let now : Instant := ⟨1000000000000⟩
    let requested := now.add (Duration.milliseconds 9223372036854)
    (answer none Combat.newcomer () .null r now).1.status = 200 ∧
      (answer none Combat.newcomer () .null r now).2.1.controls.expiry .jump = requested ∧
      (answer none Combat.newcomer () .null r now).2.1.controls.Lasts .jump requested := by
  intro r now requested
  have hpath : Endpoint.ofPath? r.path = some (.control "jump") := by decide +kernel
  have hgranted : (answer none Combat.newcomer () .null r now).1.status = 200 := by decide +kernel
  have hasked : r.duration? = some 9223372036854 := by decide +kernel
  obtain ⟨axis, n, haxis, hbody, -, -, hexact, hlasts⟩ :=
    answer_hold_lasts_iff none Combat.newcomer () .null r now rfl hpath hgranted
  obtain rfl : axis = .jump := by
    revert haxis
    cases axis <;> decide
  obtain rfl : n = 9223372036854 := Option.some.inj (hbody.symm.trans hasked)
  have hfits : Duration.milliseconds 9223372036854 ≤ Duration.longest := by decide
  exact ⟨hgranted, hexact.mpr hfits, hlasts.mpr (.inl hfits)⟩

/-- One millisecond more is granted as well, but the jump ends long before it begins, and a tick
at the time of the request releases it. -/
theorem hold_too_long_ends_early :
    let r := jumpRequest "9223372036855"
    let now : Instant := ⟨1000000000000⟩
    let requested := now.add (Duration.milliseconds 9223372036855)
    let served := answer none Combat.newcomer () .null r now
    (served.1.status = 200 ∧ r.duration? = some 9223372036855) ∧
      served.2.1.controls.expiry .jump ≠ requested ∧
      now.before requested = true ∧
      (served.2.1.controls.tick now).2 = [⟨.jump, false⟩] := by
  decide +kernel

end Api

end VoxelScout
