import Mathlib.Data.List.Chain
import Mathlib.Data.List.Induction
import VoxelScout.Controls.Timer
import VoxelScout.Decimal.Reader

/-! # Timer and host in agreement

The timer keeps an end for each control, and the host hears presses and releases. Over
every run of operations both say the same as the log of the run: a control is down exactly
while its latest press has neither been let go nor run out.
-/

namespace VoxelScout

theorem Axis.index_inj {a b : Axis} : a.index = b.index ↔ a = b := by
  cases a <;> cases b <;> decide

theorem Axis.filter_all_eq (a : Axis) : Axis.all.filter (fun b => b = a) = [a] := by
  cases a <;> decide

theorem Axis.mem_all (a : Axis) : a ∈ Axis.all := by
  cases a <;> decide

theorem Axis.ofIndex?_eq_none {index : Int} (h : index < 0 ∨ 7 ≤ index) :
    Axis.ofIndex? index = none := by
  unfold Axis.ofIndex?
  split
  · rfl
  · apply List.getElem?_eq_none
    simp only [Axis.all, List.length_cons, List.length_nil]
    omega

/-- No instant within reach of 64-bit clocks and durations is the one that stands for none. -/
theorem Instant.add_ne_unset {clock : Instant} {d : Duration}
    (hclock : Decimal.fitsInt64 clock.nanos = true) (hd : Decimal.fitsInt64 d = true) :
    clock.add d ≠ Instant.unset := by
  intro heq
  have hnanos : clock.nanos + d = -62135596800000000000 := congrArg Instant.nanos heq
  simp only [Decimal.fitsInt64, Bool.and_eq_true, decide_eq_true_eq] at hclock hd
  omega

namespace Controls

namespace Timer

/-! ## Ends of the controls -/

theorem expiry_idle (a : Axis) : idle.expiry a = Instant.unset := by
  simp [idle, expiry]

theorem expiry_setExpiry (t : Timer) (a b : Axis) (i : Instant) :
    (t.setExpiry a i).expiry b = if b = a then i else t.expiry b := by
  simp only [setExpiry, expiry, Fin.getElem_fin]
  rw [Vector.getElem_set]
  simp only [Fin.val_inj, Axis.index_inj, eq_comm]

theorem expiry_release (t : Timer) (axes : List Axis) (a : Axis) :
    (t.release axes).1.expiry a = if a ∈ axes then Instant.unset else t.expiry a := by
  induction axes generalizing t with
  | nil => rfl
  | cons first rest ih =>
      have hrest := ih (t.setExpiry first Instant.unset)
      simp only [release, List.foldl_cons, expiry_setExpiry, List.mem_cons] at hrest ⊢
      rw [hrest]
      split <;> split <;> simp_all

theorem active_iff (t : Timer) (a : Axis) : t.active a = true ↔ t.expiry a ≠ Instant.unset := by
  simp [active, Instant.isUnset]

end Timer

/-! ## Events of one control -/

/-- What the host hears about one control: `true` for a press, `false` for a release. -/
def stream (a : Axis) (events : List Event) : List Bool :=
  (events.filter fun e => e.axis = a).map (·.pressed)

theorem stream_append (a : Axis) (events more : List Event) :
    stream a (events ++ more) = stream a events ++ stream a more := by
  simp [stream]

theorem stream_press (a b : Axis) : stream a [⟨b, true⟩] = if b = a then [true] else [] := by
  by_cases h : b = a <;> simp [stream, h]

theorem stream_releases (a : Axis) (p : Axis → Bool) :
    stream a ((Axis.all.filter p).map fun b => ⟨b, false⟩) = if p a then [false] else [] := by
  have hfilter : (Axis.all.filter p).filter (fun b => b = a) = if p a then [a] else [] := by
    rw [List.filter_comm, Axis.filter_all_eq]
    cases h : p a <;> simp [h]
  rw [stream, List.filter_map, List.map_map]
  simp only [Function.comp_def, hfilter]
  split <;> rfl

/-! ## Steps -/

/-- What may happen to a timer and its clock. Controls may be named by any number, and those
that have a control of their own are helpers for it. -/
inductive Step where
  | activate (index : Int) (d : Duration)
  | hold (axis : Axis) (d : Duration)
  | tick (now : Instant)
  | releaseAll
  | setClock (now : Instant)
  deriving DecidableEq, Repr

namespace Step

def press? : Step → Option (Axis × Duration)
  | .activate index d => (Axis.ofIndex? index).map (·, d)
  | .hold axis d => some (axis, d)
  | .tick _ | .releaseAll | .setClock _ => none

def ends (e : Instant) : Step → Bool
  | .tick now => e.before now
  | .releaseAll => true
  | .activate .. | .hold .. | .setClock _ => false

/-- Clocks and durations are within the range of 64 bits; the time of a tick may be any. -/
def inRange : Step → Bool
  | .activate _ d | .hold _ d => Decimal.fitsInt64 d
  | .setClock now => Decimal.fitsInt64 now.nanos
  | .tick _ | .releaseAll => true

theorem ends_of_press {x : Step} {pressed : Axis × Duration} (h : x.press? = some pressed)
    (e : Instant) : x.ends e = false := by
  cases x with
  | activate | hold => rfl
  | tick | releaseAll | setClock => cases h

theorem fitsInt64_of_press {x : Step} {a : Axis} {d : Duration} (h : x.press? = some (a, d))
    (hx : x.inRange = true) : Decimal.fitsInt64 d = true := by
  cases x with
  | activate index d' =>
      obtain ⟨b, -, hb⟩ := Option.map_eq_some_iff.mp h
      cases hb
      exact hx
  | hold b d' =>
      cases h
      exact hx
  | tick | releaseAll | setClock => cases h

end Step

def Timer.perform (t : Timer) (clock : Instant) : Step → Timer × List Event
  | .activate index d =>
    match Axis.ofIndex? index with
    | some a => t.activate a clock d
    | none => (t, [])
  | .hold a d => t.activate a clock d
  | .tick now => t.tick now
  | .releaseAll => t.releaseAll
  | .setClock _ => (t, [])

namespace Timer

variable (t : Timer) (clock : Instant)

theorem perform_of_press {x : Step} {a : Axis} {d : Duration} (h : x.press? = some (a, d)) :
    t.perform clock x = (t.setExpiry a (clock.add d), [⟨a, true⟩]) := by
  cases x with
  | activate index d' =>
      cases hindex : Axis.ofIndex? index with
      | none => simp [Step.press?, hindex] at h
      | some b =>
          simp only [Step.press?, hindex, Option.map_some, Option.some.injEq, Prod.mk.injEq] at h
          obtain ⟨rfl, rfl⟩ := h
          simp [perform, hindex, activate]
  | hold b d' =>
      simp only [Step.press?, Option.some.injEq, Prod.mk.injEq] at h
      obtain ⟨rfl, rfl⟩ := h
      rfl
  | tick | releaseAll | setClock => cases h

/-- A step that presses nothing releases what it lets go of, in the order of the controls. -/
theorem perform_of_no_press {x : Step} (h : x.press? = none) :
    t.perform clock x =
      t.release (Axis.all.filter fun a => t.active a && x.ends (t.expiry a)) := by
  cases x with
  | activate index d =>
      have hindex : Axis.ofIndex? index = none := by simpa [Step.press?] using h
      simp [perform, hindex, Step.ends, release]
  | hold => cases h
  | tick now => rfl
  | releaseAll => simp [perform, releaseAll, held, Step.ends]
  | setClock now => simp [perform, Step.ends, release]

/-- What a step without a press means for one control. -/
theorem expiry_perform_of_no_press {x : Step} (h : x.press? = none) (a : Axis) :
    (t.perform clock x).1.expiry a =
      if t.active a && x.ends (t.expiry a) then Instant.unset else t.expiry a := by
  rw [t.perform_of_no_press clock h, expiry_release]
  simp [Axis.mem_all]

theorem active_perform_of_no_press {x : Step} (h : x.press? = none) (a : Axis) :
    (t.perform clock x).1.active a = (t.active a && !x.ends (t.expiry a)) := by
  rw [Bool.eq_iff_iff, active_iff, t.expiry_perform_of_no_press clock h]
  cases hactive : t.active a with
  | false =>
      have hunset : t.expiry a = Instant.unset := by
        by_contra hset
        exact absurd ((t.active_iff a).mpr hset) (by simp [hactive])
      simp [hunset]
  | true =>
      have hset : t.expiry a ≠ Instant.unset := (t.active_iff a).mp hactive
      cases x.ends (t.expiry a) <;> simp [hset]

end Timer

/-! ## Sessions -/

structure Session where
  timer : Timer
  clock : Instant
  sent : List Event

namespace Session

def start (now : Instant) : Session :=
  ⟨Timer.idle, now, []⟩

def step (s : Session) (x : Step) : Session where
  timer := (s.timer.perform s.clock x).1
  clock := match x with
    | .setClock now => now
    | _ => s.clock
  sent := s.sent ++ (s.timer.perform s.clock x).2

@[simp] theorem timer_step (s : Session) (x : Step) :
    (s.step x).timer = (s.timer.perform s.clock x).1 := rfl

@[simp] theorem sent_step (s : Session) (x : Step) :
    (s.step x).sent = s.sent ++ (s.timer.perform s.clock x).2 := rfl

def run (s : Session) (steps : List Step) : Session :=
  steps.foldl step s

def log : Session → List Step → List (Instant × Step)
  | _, [] => []
  | s, x :: rest => (s.clock, x) :: (s.step x).log rest

theorem run_concat (s : Session) (steps : List Step) (x : Step) :
    s.run (steps ++ [x]) = (s.run steps).step x := by
  simp [run]

theorem log_concat (s : Session) (steps : List Step) (x : Step) :
    s.log (steps ++ [x]) = s.log steps ++ [((s.run steps).clock, x)] := by
  induction steps generalizing s with
  | nil => rfl
  | cons first rest ih =>
      rw [List.cons_append, log, ih, log, List.cons_append]
      rfl

theorem fitsInt64_clock_step {s : Session} (h : Decimal.fitsInt64 s.clock.nanos = true)
    {x : Step} (hx : x.inRange = true) : Decimal.fitsInt64 (s.step x).clock.nanos = true := by
  cases x with
  | setClock now => exact hx
  | activate | hold | tick | releaseAll => exact h

theorem fitsInt64_clock_run {s : Session} (h : Decimal.fitsInt64 s.clock.nanos = true)
    {steps : List Step} (hsteps : ∀ x ∈ steps, x.inRange = true) :
    Decimal.fitsInt64 (s.run steps).clock.nanos = true := by
  induction steps using List.reverseRecOn with
  | nil => exact h
  | append_singleton steps x ih =>
      rw [run_concat]
      exact fitsInt64_clock_step (ih fun y hy => hsteps y (by simp [hy])) (hsteps x (by simp))

end Session

/-! ## Reading a log -/

/-- A log says that a control is held until an instant: that is when its latest press runs
out, and no step since then has let go of it. -/
def HeldUntil (log : List (Instant × Step)) (a : Axis) (e : Instant) : Prop :=
  ∃ before clock x d after, log = before ++ (clock, x) :: after ∧ x.press? = some (a, d) ∧
    e = clock.add d ∧
    ∀ y ∈ after, (∀ d', y.2.press? ≠ some (a, d')) ∧ y.2.ends e = false

theorem heldUntil_concat {log : List (Instant × Step)} {clock : Instant} {x : Step} {a : Axis}
    {e : Instant} :
    HeldUntil (log ++ [(clock, x)]) a e ↔
      (∃ d, x.press? = some (a, d) ∧ e = clock.add d) ∨
        HeldUntil log a e ∧ (∀ d, x.press? ≠ some (a, d)) ∧ x.ends e = false := by
  constructor
  · rintro ⟨before, c, y, d, after, hlog, hpress, rfl, hafter⟩
    -- the latest press is the last step, or the last step comes after it
    rcases List.eq_nil_or_concat' after with rfl | ⟨after, last, rfl⟩
    · obtain ⟨-, hlast⟩ := List.append_inj' hlog rfl
      cases hlast
      exact .inl ⟨d, hpress, rfl⟩
    · rw [← List.cons_append, ← List.append_assoc] at hlog
      obtain ⟨rfl, hlast⟩ := List.append_inj' hlog rfl
      cases hlast
      refine .inr ⟨⟨before, c, y, d, after, rfl, hpress, rfl, ?_⟩, hafter (clock, x) (by simp)⟩
      exact fun z hz => hafter z (by simp [hz])
  · rintro (⟨d, hpress, rfl⟩ | ⟨⟨before, c, y, d, after, rfl, hpress, rfl, hafter⟩, hx⟩)
    · exact ⟨log, clock, x, d, [], rfl, hpress, rfl, by simp⟩
    · refine ⟨before, c, y, d, after ++ [(clock, x)], by simp, hpress, rfl, ?_⟩
      intro z hz
      rcases List.mem_append.mp hz with hz | hz
      · exact hafter z hz
      · rw [List.mem_singleton.mp hz]
        exact hx

/-! ## Runs -/

/-- Log, timer and host say the same about a control. -/
structure Agree (log : List (Instant × Step)) (s : Session) (a : Axis) : Prop where
  held : ∀ e, HeldUntil log a e ↔ s.timer.active a = true ∧ s.timer.expiry a = e
  last : (stream a s.sent).getLast? = some true ↔ s.timer.active a = true
  /-- The first that the host hears is a press. -/
  first : (stream a s.sent).head? ≠ some false
  /-- Of two events in a row one is a press. -/
  spaced : (stream a s.sent).IsChain fun p q => p = true ∨ q = true

namespace Agree

variable {log : List (Instant × Step)} {s : Session} {a : Axis}

theorem start (now : Instant) (a : Axis) : Agree [] (Session.start now) a where
  held e := by simp [HeldUntil, Session.start, Timer.active_iff, Timer.expiry_idle]
  last := by simp [stream, Session.start, Timer.active_iff, Timer.expiry_idle]
  first := by simp [stream, Session.start]
  spaced := .nil

/-- A step that neither presses the control nor lets go of it is not heard of. -/
theorem step_of_same {x : Step} (h : Agree log s a) (hpress : ∀ d, x.press? ≠ some (a, d))
    (hexpiry : (s.step x).timer.expiry a = s.timer.expiry a)
    (hends : s.timer.active a = true → x.ends (s.timer.expiry a) = false)
    (hstream : stream a (s.step x).sent = stream a s.sent) :
    Agree (log ++ [(s.clock, x)]) (s.step x) a := by
  have hactive : (s.step x).timer.active a = s.timer.active a := by
    rw [Timer.active, Timer.active, hexpiry]
  constructor
  · intro e
    rw [heldUntil_concat, h.held, hactive, hexpiry]
    constructor
    · rintro (⟨d, hd, -⟩ | ⟨hheld, -⟩)
      · exact absurd hd (hpress d)
      · exact hheld
    · rintro ⟨hheld, rfl⟩
      exact .inr ⟨⟨hheld, rfl⟩, hpress, hends hheld⟩
  · rw [hstream, hactive]
    exact h.last
  · rw [hstream]
    exact h.first
  · rw [hstream]
    exact h.spaced

/-- An event that tells what the control has become keeps host and timer in agreement, as
long as only a control that is held is released. -/
theorem step_of_event {x : Step} (h : Agree log s a) (pressed : Bool)
    (hheld : ∀ e, HeldUntil (log ++ [(s.clock, x)]) a e ↔
      pressed = true ∧ (s.step x).timer.expiry a = e)
    (hactive : (s.step x).timer.active a = pressed)
    (hstream : stream a (s.step x).sent = stream a s.sent ++ [pressed])
    (hdown : pressed = true ∨ s.timer.active a = true) :
    Agree (log ++ [(s.clock, x)]) (s.step x) a := by
  -- a release finds a press before it
  have hpress : pressed = true ∨ (stream a s.sent).getLast? = some true :=
    hdown.imp_right h.last.mpr
  constructor
  · rw [hactive]
    exact hheld
  · rw [hstream, hactive, List.getLast?_concat, Option.some_inj]
  · rw [hstream]
    cases hbefore : stream a s.sent with
    | nil => simpa [hbefore] using hpress
    | cons p rest =>
        have hfirst := h.first
        rw [hbefore] at hfirst
        exact hfirst
  · rw [hstream, List.isChain_append]
    refine ⟨h.spaced, .singleton pressed, ?_⟩
    intro p hp q hq
    rcases hpress with hnow | hlast
    · cases hq
      exact .inr hnow
    · rw [hlast] at hp
      cases hp
      exact .inl rfl

theorem step_of_press {x : Step} {d : Duration} (h : Agree log s a)
    (hpress : x.press? = some (a, d)) (hend : s.clock.add d ≠ Instant.unset) :
    Agree (log ++ [(s.clock, x)]) (s.step x) a := by
  have hperform := s.timer.perform_of_press s.clock hpress
  have hexpiry : (s.step x).timer.expiry a = s.clock.add d := by
    simp [hperform, Timer.expiry_setExpiry]
  apply h.step_of_event true _ _ _ (.inl rfl)
  · intro e
    rw [heldUntil_concat, hexpiry]
    constructor
    · rintro (⟨d', hd', rfl⟩ | ⟨-, hother, -⟩)
      · rw [hpress] at hd'
        cases hd'
        exact ⟨rfl, rfl⟩
      · exact absurd hpress (hother d)
    · rintro ⟨-, rfl⟩
      exact .inl ⟨d, hpress, rfl⟩
  · rw [Timer.active_iff, hexpiry]
    exact hend
  · simp [hperform, stream_append, stream_press]

theorem step_of_release {x : Step} (h : Agree log s a) (hpress : x.press? = none)
    (hactive : s.timer.active a = true) (hends : x.ends (s.timer.expiry a) = true) :
    Agree (log ++ [(s.clock, x)]) (s.step x) a := by
  apply h.step_of_event false _ _ _ (.inr hactive)
  · intro e
    rw [heldUntil_concat, h.held]
    constructor
    · rintro (⟨d, hd, -⟩ | ⟨⟨-, rfl⟩, -, hkept⟩)
      · rw [hpress] at hd
        cases hd
      · rw [hends] at hkept
        cases hkept
    · rintro ⟨hfalse, -⟩
      cases hfalse
  · rw [Session.timer_step, s.timer.active_perform_of_no_press s.clock hpress, hactive, hends]
    rfl
  · rw [Session.sent_step, stream_append, s.timer.perform_of_no_press s.clock hpress,
      Timer.release, stream_releases, hactive, hends]
    rfl

theorem step {x : Step} (h : Agree log s a)
    (hclock : Decimal.fitsInt64 s.clock.nanos = true) (hx : x.inRange = true) :
    Agree (log ++ [(s.clock, x)]) (s.step x) a := by
  cases hpress : x.press? with
  | none =>
      have hno : ∀ d, x.press? ≠ some (a, d) := by simp [hpress]
      by_cases hfree : s.timer.active a = true ∧ x.ends (s.timer.expiry a) = true
      · exact h.step_of_release hpress hfree.1 hfree.2
      · have hcond : (s.timer.active a && x.ends (s.timer.expiry a)) = false := by
          rw [Bool.and_eq_false_iff]
          grind
        apply h.step_of_same hno
        · rw [Session.timer_step, s.timer.expiry_perform_of_no_press s.clock hpress, hcond]
          rfl
        · intro hactive
          simpa [hactive] using hcond
        · rw [Session.sent_step, stream_append, s.timer.perform_of_no_press s.clock hpress,
            Timer.release, stream_releases, hcond]
          simp
  | some pressed =>
      obtain ⟨b, d⟩ := pressed
      by_cases hb : b = a
      · subst hb
        have hd : Decimal.fitsInt64 d = true := Step.fitsInt64_of_press hpress hx
        exact h.step_of_press hpress (Instant.add_ne_unset hclock hd)
      · have hperform := s.timer.perform_of_press s.clock hpress
        apply h.step_of_same
        · rintro d' hd'
          rw [hpress] at hd'
          cases hd'
          exact hb rfl
        · simp [hperform, Timer.expiry_setExpiry, Ne.symm hb]
        · exact fun _ => Step.ends_of_press hpress _
        · simp [hperform, stream_append, stream_press, hb]

theorem run {now : Instant} (hnow : Decimal.fitsInt64 now.nanos = true) {steps : List Step}
    (hsteps : ∀ x ∈ steps, x.inRange = true) (a : Axis) :
    Agree ((Session.start now).log steps) ((Session.start now).run steps) a := by
  induction steps using List.reverseRecOn with
  | nil => exact Agree.start now a
  | append_singleton steps x ih =>
      have hbefore : ∀ y ∈ steps, y.inRange = true := fun y hy => hsteps y (by simp [hy])
      rw [Session.run_concat, Session.log_concat]
      exact (ih hbefore).step (Session.fitsInt64_clock_run hnow hbefore) (hsteps x (by simp))

end Agree

/-! ## What the host hears of one step -/

theorem Timer.perform_events_of_no_press (t : Timer) (clock : Instant) {x : Step}
    (h : x.press? = none) :
    (t.perform clock x).2 =
      (Axis.all.filter fun a => t.active a && !(t.perform clock x).1.active a).map
        fun a => ⟨a, false⟩ := by
  simp only [t.active_perform_of_no_press clock h]
  rw [t.perform_of_no_press clock h]
  have hsame : (fun a => t.active a && !(t.active a && !x.ends (t.expiry a))) =
      fun a => t.active a && x.ends (t.expiry a) := by
    funext a
    cases t.active a <;> simp
  rw [hsame]
  rfl

/-- After every run a control is held exactly until its latest press runs out, unless something let
go of it before, and the host knows. A press is heard as that one press; any other step is heard as
the releases of the controls that it makes idle. -/
theorem run_agrees_with_host (now : Instant) (steps : List Step)
    (hnow : Decimal.fitsInt64 now.nanos = true) (hsteps : ∀ x ∈ steps, x.inRange = true) :
    let log := (Session.start now).log steps
    let s := (Session.start now).run steps
    (∀ a, (s.timer.active a = true ↔ ∃ e, HeldUntil log a e) ∧
      (∀ e, HeldUntil log a e → s.timer.expiry a = e) ∧
      ((stream a s.sent).getLast? = some true ↔ s.timer.active a = true) ∧
      (stream a s.sent).head? ≠ some false ∧
      (stream a s.sent).IsChain fun p q => p = true ∨ q = true) ∧
    ∀ x, ∃ events, (s.step x).sent = s.sent ++ events ∧
      (∀ a d, x.press? = some (a, d) → events = [⟨a, true⟩] ∧
        ∀ b, b ≠ a → (s.step x).timer.expiry b = s.timer.expiry b ∧ stream b events = []) ∧
      (∀ index d, x = .activate index d → index < 0 ∨ 7 ≤ index →
        events = [] ∧ (s.step x).timer = s.timer) ∧
      (x.press? = none →
        events = (Axis.all.filter fun a => s.timer.active a && !(s.step x).timer.active a).map
          (fun a => ⟨a, false⟩) ∧
        ∀ a, (s.step x).timer.active a = true →
          (s.step x).timer.expiry a = s.timer.expiry a) := by
  intro log s
  constructor
  · intro a
    have hagree : Agree log s a := Agree.run hnow hsteps a
    refine ⟨?_, fun e he => ((hagree.held e).mp he).2, hagree.last, hagree.first, hagree.spaced⟩
    constructor
    · exact fun hactive => ⟨_, (hagree.held _).mpr ⟨hactive, rfl⟩⟩
    · rintro ⟨e, he⟩
      exact ((hagree.held e).mp he).1
  · intro x
    refine ⟨(s.timer.perform s.clock x).2, rfl, ?_, ?_, ?_⟩
    · intro a d hpress
      have hperform := s.timer.perform_of_press s.clock hpress
      refine ⟨by rw [hperform], fun b hb => ⟨?_, ?_⟩⟩
      · rw [Session.timer_step, hperform, Timer.expiry_setExpiry, if_neg hb]
      · rw [hperform, stream_press, if_neg (Ne.symm hb)]
    · rintro index d rfl hindex
      simp [Timer.perform, Axis.ofIndex?_eq_none hindex]
    · intro hpress
      refine ⟨s.timer.perform_events_of_no_press s.clock hpress, ?_⟩
      intro a hactive
      rw [Session.timer_step, s.timer.active_perform_of_no_press s.clock hpress,
        Bool.and_eq_true, Bool.not_eq_true'] at hactive
      rw [Session.timer_step, s.timer.expiry_perform_of_no_press s.clock hpress, hactive.2]
      simp

/-- Pressed for a long time and then, later, for a short one, a control is still down at the
very end of the short time; a number behind the last control changes nothing. -/
theorem run_agrees_with_host_sprint :
    let steps : List Step := [.hold .sprint 1000, .activate 4 (-1), .setClock ⟨400⟩,
      .activate 6 100, .activate 7 100, .tick ⟨500⟩]
    let s := (Session.start ⟨0⟩).run steps
    (Decimal.fitsInt64 0 = true ∧ ∀ x ∈ steps, x.inRange = true) ∧
      s.timer.active .sprint = true ∧ s.timer.expiry .sprint = ⟨500⟩ ∧
      (stream .sprint s.sent).getLast? = some true := by
  intro steps s
  have hsteps : ∀ x ∈ steps, x.inRange = true := by decide
  have hheld : HeldUntil ((Session.start ⟨0⟩).log steps) .sprint ⟨500⟩ := by
    refine ⟨[(⟨0⟩, .hold .sprint 1000), (⟨0⟩, .activate 4 (-1)), (⟨0⟩, .setClock ⟨400⟩)], ⟨400⟩,
      .activate 6 100, 100, [(⟨400⟩, .activate 7 100), (⟨400⟩, .tick ⟨500⟩)], rfl, rfl, rfl, ?_⟩
    have hnext : ∀ y ∈ [((⟨400⟩ : Instant), Step.activate 7 100), (⟨400⟩, .tick ⟨500⟩)],
        y.2.press? = none ∧ y.2.ends ⟨500⟩ = false := by decide
    exact fun y hy => ⟨by simp [(hnext y hy).1], (hnext y hy).2⟩
  obtain ⟨hactive, hexpiry, hlast, -⟩ :=
    (run_agrees_with_host ⟨0⟩ steps (by decide) hsteps).1 .sprint
  have hdown : s.timer.active .sprint = true := hactive.mpr ⟨_, hheld⟩
  exact ⟨⟨by decide, hsteps⟩, hdown, hexpiry _ hheld, hlast.mpr hdown⟩

end Controls

end VoxelScout
