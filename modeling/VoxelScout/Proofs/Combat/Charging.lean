import VoxelScout.Proofs.Clock
import VoxelScout.Proofs.Combat.Cooldown
import VoxelScout.Proofs.Scalar.Exact

/-! # The charge grows

Three figures tell how far an attack is charged: whether the time to a full charge has passed,
what share of it has passed, and what share of the damage a swing would deal. Without rounding
they agree at every boundary, for every item. While the clock is not set back they only grow
from one reset of the charge to the next, for the item in the hand cannot change in between.
-/

namespace VoxelScout

open Scalar Terrain

namespace Combat

/-! ## Attack speeds -/

section Speeds

variable {α : Type} [Scalar α] {name : String} {s : α}

def speeds (α : Type) [Scalar α] : List α :=
  [handSpeed, 1.6, 1.1, 1.2, 0.8, 0.9, 1, 2, 3, 4]

theorem axeSpeed?_mem (h : axeSpeed? name = some s) : s ∈ speeds α := by
  unfold axeSpeed? at h
  split_ifs at h <;> cases h <;> simp [speeds]

theorem hoeSpeed?_mem (h : hoeSpeed? name = some s) : s ∈ speeds α := by
  unfold hoeSpeed? at h
  split_ifs at h <;> cases h <;> simp [speeds]

theorem toolSpeed_mem (name : String) :
    ((if nameContains name "axe" then axeSpeed? name else none).or
      (if nameContains name "hoe" then hoeSpeed? name else none)).getD handSpeed ∈ speeds α := by
  cases htool : (if nameContains name "axe" then axeSpeed? name else none : Option α).or
      (if nameContains name "hoe" then hoeSpeed? name else none) with
  | none => simp [speeds]
  | some s =>
      rcases Option.or_eq_some_iff.mp htool with haxe | ⟨-, hhoe⟩
      · exact axeSpeed?_mem (Option.ite_none_right_eq_some.mp haxe).2
      · exact hoeSpeed?_mem (Option.ite_none_right_eq_some.mp hhoe).2

theorem attackSpeed_mem (name : String) : attackSpeed name ∈ speeds α := by
  have htool := toolSpeed_mem (α := α) name
  unfold attackSpeed
  dsimp only
  generalize ((if nameContains name "axe" then axeSpeed? name else none).or
      (if nameContains name "hoe" then hoeSpeed? name else none)).getD (handSpeed : α) = tool at *
  split_ifs
  case neg => exact htool
  all_goals simp [speeds]

end Speeds

/-! ## Figures without rounding -/

section Figures

variable {name : String} {elapsed later : Duration}

theorem attackSpeed_bounds (name : String) :
    4 / 5 ≤ (attackSpeed name : ℚ) ∧ (attackSpeed name : ℚ) ≤ 4 := by
  have hall : ∀ s ∈ speeds ℚ, 4 / 5 ≤ s ∧ s ≤ 4 := by decide +kernel
  exact hall _ (attackSpeed_mem name)

theorem attackSpeed_pos (name : String) : 0 < (attackSpeed name : ℚ) :=
  lt_of_lt_of_le (by norm_num) (attackSpeed_bounds name).1

def exactCooldown (name : String) : ℚ :=
  1000000000 / attackSpeed name

theorem exactCooldown_bounds (name : String) :
    250000000 ≤ exactCooldown name ∧ exactCooldown name ≤ 1250000000 := by
  obtain ⟨hslow, hfast⟩ := attackSpeed_bounds name
  have hpos := attackSpeed_pos name
  unfold exactCooldown
  rw [le_div_iff₀ hpos, div_le_iff₀ hpos]
  constructor <;> linarith

theorem exactCooldown_pos (name : String) : 0 < exactCooldown name :=
  lt_of_lt_of_le (by norm_num) (exactCooldown_bounds name).1

theorem cooldown_eq_floor (name : String) : cooldown ℚ name = ⌊exactCooldown name⌋ :=
  truncate_of_nonneg (exactCooldown_pos name).le

theorem cooldown_bounds (name : String) :
    250000000 ≤ cooldown ℚ name ∧ cooldown ℚ name ≤ 1250000000 := by
  obtain ⟨hshort, hlong⟩ := exactCooldown_bounds name
  rw [cooldown_eq_floor]
  refine ⟨Int.le_floor.mpr (by exact_mod_cast hshort), ?_⟩
  exact_mod_cast (Int.floor_le _).trans hlong

theorem cooldown_pos (name : String) : (0 : ℚ) < cooldown ℚ name := by
  have hpos : 0 < cooldown ℚ name := lt_of_lt_of_le (by norm_num) (cooldown_bounds name).1
  exact_mod_cast hpos

theorem chargeRatio_eq (elapsed : Duration) (name : String) :
    (chargeRatio elapsed name : ℚ) = elapsed / cooldown ℚ name :=
  rfl

theorem one_le_chargeRatio_iff :
    1 ≤ (chargeRatio elapsed name : ℚ) ↔ cooldown ℚ name ≤ elapsed := by
  rw [chargeRatio_eq, one_le_div (cooldown_pos name), Int.cast_le]

theorem chargeRatio_mono (h : elapsed ≤ later) :
    (chargeRatio elapsed name : ℚ) ≤ chargeRatio later name := by
  rw [chargeRatio_eq, chargeRatio_eq]
  exact div_le_div_of_nonneg_right (Int.cast_le.mpr h) (cooldown_pos name).le

/-- The share of the charge that has passed half a tick later. -/
def progress (elapsed : Duration) (name : String) : ℚ :=
  (elapsed + 25000000) / exactCooldown name

theorem progress_nonneg (h : 0 ≤ elapsed) (name : String) : 0 ≤ progress elapsed name := by
  have hcast : (0 : ℚ) ≤ elapsed := by exact_mod_cast h
  exact div_nonneg (by linarith) (exactCooldown_pos name).le

theorem one_le_progress_iff :
    1 ≤ progress elapsed name ↔ exactCooldown name - 25000000 ≤ elapsed := by
  rw [progress, one_le_div (exactCooldown_pos name), sub_le_iff_le_add]

theorem damageShare_eq (elapsed : Duration) (name : String) :
    damageShare elapsed (attackSpeed name : ℚ) =
      min 1 (1 / 5 + 4 / 5 * progress elapsed name ^ 2) := by
  have hpos := attackSpeed_pos name
  have hticks : ((ofInt elapsed / 1000000 / 50 + 0.5) / (20 / attackSpeed name) : ℚ) =
      progress elapsed name := by
    change ((elapsed : ℚ) / 1000000 / 50 + 0.5) / (20 / attackSpeed name) = _
    unfold progress exactCooldown
    field_simp
    ring
  have hvalue : (0.2 + progress elapsed name * progress elapsed name * 0.8 : ℚ) =
      1 / 5 + 4 / 5 * progress elapsed name ^ 2 := by
    ring
  have hbounds : (0.2 : ℚ) ≤ 1 := by norm_num
  have hlow : (0.2 : ℚ) ≤ min (1 / 5 + 4 / 5 * progress elapsed name ^ 2) 1 :=
    le_min (by linarith [sq_nonneg (progress elapsed name)]) hbounds
  unfold damageShare
  dsimp only
  rw [hticks, hvalue, clamp_eq_max_min hbounds, max_eq_right hlow, min_comm]

theorem damageShare_bounds (elapsed : Duration) (name : String) :
    1 / 5 ≤ damageShare elapsed (attackSpeed name : ℚ) ∧
      damageShare elapsed (attackSpeed name : ℚ) ≤ 1 := by
  rw [damageShare_eq]
  refine ⟨le_min (by norm_num) ?_, min_le_left _ _⟩
  linarith [sq_nonneg (progress elapsed name)]

/-- The damage is full half a tick before the charge is. -/
theorem damageShare_eq_one_iff (h : 0 ≤ elapsed) :
    damageShare elapsed (attackSpeed name : ℚ) = 1 ↔ exactCooldown name - 25000000 ≤ elapsed := by
  rw [damageShare_eq, min_eq_left_iff, ← one_le_progress_iff,
    ← one_le_sq_iff₀ (progress_nonneg h name)]
  constructor <;> intro hle <;> linarith

theorem damageShare_mono (h : 0 ≤ elapsed) (hlater : elapsed ≤ later) :
    damageShare elapsed (attackSpeed name : ℚ) ≤ damageShare later (attackSpeed name) := by
  have hprogress : progress elapsed name ≤ progress later name := by
    have hcast : (elapsed : ℚ) ≤ later := Int.cast_le.mpr hlater
    exact div_le_div_of_nonneg_right (by linarith) (exactCooldown_pos name).le
  have hsquare : progress elapsed name ^ 2 ≤ progress later name ^ 2 :=
    pow_le_pow_left₀ (progress_nonneg h name) hprogress 2
  rw [damageShare_eq, damageShare_eq]
  exact min_le_min_left 1 (by linarith)

/-- Cutting the time to a full charge to whole nanoseconds takes less than half a tick off. -/
theorem damageShare_of_charged (h : cooldown ℚ name ≤ elapsed) :
    damageShare elapsed (attackSpeed name : ℚ) = 1 := by
  have hpassed : (cooldown ℚ name : ℚ) ≤ elapsed := Int.cast_le.mpr h
  have hcut : exactCooldown name < cooldown ℚ name + 1 := by
    rw [cooldown_eq_floor]
    exact Int.lt_floor_add_one _
  have hnonneg : 0 ≤ elapsed := le_trans (by norm_num) ((cooldown_bounds name).1.trans h)
  rw [damageShare_eq_one_iff hnonneg]
  linarith

end Figures

/-! ## Logs without resets -/

section Logs

variable {past more : List Entry} {e : Entry}

theorem resetClocks_cons_eq_nil_iff : resetClocks past (e :: more) = [] ↔
    e.resets past = false ∧ resetClocks (past ++ [e]) more = [] := by
  rw [resetClocks]
  cases e.resets past <;> simp

theorem resetClock_append (start : Instant) (h : resetClocks past more = []) :
    resetClock start (past ++ more) = resetClock start past := by
  induction more generalizing past with
  | nil => rw [List.append_nil]
  | cons e rest ih =>
      obtain ⟨hspared, hrest⟩ := resetClocks_cons_eq_nil_iff.mp h
      rw [List.append_cons, ih hrest, resetClock_concat, hspared]
      rfl

/-- Once an item has been shown, an entry that resets nothing shows no other one. -/
theorem lastHeld?_concat_of_spared (hheld : (lastHeld? past).isSome = true)
    (he : e.resets past = false) : lastHeld? (past ++ [e]) = lastHeld? past := by
  obtain ⟨held, hlast⟩ := Option.isSome_iff_exists.mp hheld
  rw [lastHeld?_concat]
  obtain ⟨clock, deed⟩ := e
  cases deed with
  | update shown =>
      have hsame : held = shown := by simpa [Entry.resets, hlast] using he
      rw [hlast, hsame]
      rfl
  | reset | attack | other => rfl

theorem lastHeld?_append (hheld : (lastHeld? past).isSome = true)
    (h : resetClocks past more = []) : lastHeld? (past ++ more) = lastHeld? past := by
  induction more generalizing past with
  | nil => rw [List.append_nil]
  | cons e rest ih =>
      obtain ⟨hspared, hrest⟩ := resetClocks_cons_eq_nil_iff.mp h
      have hsame := lastHeld?_concat_of_spared hheld hspared
      rw [List.append_cons, ih (hsame ▸ hheld) hrest, hsame]

end Logs

/-! ## Runs with a clock that is not set back -/

namespace Session

variable {α : Type} [Trig α] {s : Session α} {steps later : List (Step α)}

theorem run_append (s : Session α) (steps later : List (Step α)) :
    s.run (steps ++ later) = (s.run steps).run later :=
  List.foldl_append

theorem log_append (s : Session α) (steps later : List (Step α)) :
    s.log (steps ++ later) = s.log steps ++ (s.run steps).log later := by
  induction steps generalizing s with
  | nil => rfl
  | cons x rest ih =>
      rw [List.cons_append, log, ih, log, List.cons_append]
      rfl

/-- An update somewhere in a run shows an item. -/
theorem isSome_lastHeld?_log {snapshot : Snapshot α} (h : .update snapshot ∈ steps) :
    (lastHeld? (s.log steps)).isSome = true := by
  induction steps using List.reverseRecOn with
  | nil => cases h
  | append_singleton steps x ih =>
      rw [log_concat, lastHeld?_concat]
      rcases List.mem_append.mp h with hbefore | hlast
      · cases hheld : ((s.run steps).entry x).held? with
        | none => simpa using ih hbefore
        | some held => rfl
      · obtain rfl := List.mem_singleton.mp hlast
        rfl

def Steady : Session α → List (Step α) → Prop
  | _, [] => True
  | s, x :: rest => s.clock.nanos ≤ (s.step x).clock.nanos ∧ (s.step x).Steady rest

theorem steady_append :
    s.Steady (steps ++ later) ↔ s.Steady steps ∧ (s.run steps).Steady later := by
  induction steps generalizing s with
  | nil => simp [Steady, run]
  | cons x rest ih =>
      rw [List.cons_append, Steady, Steady, ih, and_assoc]
      rfl

theorem Steady.clock_le (h : s.Steady steps) : s.clock.nanos ≤ (s.run steps).clock.nanos := by
  induction steps generalizing s with
  | nil => exact le_rfl
  | cons x rest ih => exact h.1.trans (ih h.2)

/-- A step leaves the instant of the last reset alone or moves it to the clock. -/
theorem lastReset_step (s : Session α) (x : Step α) :
    (s.step x).tracker.lastReset = s.tracker.lastReset ∨
      (s.step x).tracker.lastReset = s.clock := by
  cases x with
  | update snapshot =>
      simp only [step, Tracker.update]
      split
      · exact .inr rfl
      · exact .inl rfl
  | attack accept target =>
      simp only [step, Tracker.attack_tracker]
      split
      · exact .inr rfl
      · exact .inl rfl
  | reset => exact .inr rfl
  | look | setClock | query => exact .inl rfl

theorem Steady.lastReset_le (h : s.Steady steps)
    (hstart : s.tracker.lastReset.nanos ≤ s.clock.nanos) :
    (s.run steps).tracker.lastReset.nanos ≤ (s.run steps).clock.nanos := by
  induction steps generalizing s with
  | nil => exact hstart
  | cons x rest ih =>
      apply ih h.2
      rcases s.lastReset_step x with hsame | hnow
      · rw [hsame]
        exact hstart.trans h.1
      · rw [hnow]
        exact h.1

end Session

/-- Between two resets that follow the first update, neither the instant that the charge is
measured from nor the name of the held item changes. -/
theorem run_of_no_reset {α : Type} [Trig α] (config : Config α) (start : Instant)
    {steps later : List (Step α)} {snapshot : Snapshot α} (hseen : .update snapshot ∈ steps) :
    let first := Session.start config start
    let s := first.run steps
    resetClocks (first.log steps) (s.log later) = [] →
      (s.run later).tracker.lastReset = s.tracker.lastReset ∧
        (s.run later).tracker.held = s.tracker.held := by
  intro first s hspared
  have hnow : Tells start (first.log steps) s.tracker := Tells.run config start steps
  have hthen : Tells start (first.log steps ++ s.log later) (s.run later).tracker := by
    rw [← Session.run_append, ← Session.log_append]
    exact Tells.run config start (steps ++ later)
  have hheld : (lastHeld? (first.log steps)).isSome = true := Session.isSome_lastHeld?_log hseen
  constructor
  · rw [hthen.lastReset, hnow.lastReset, resetClock_append start hspared]
  · rw [hthen.held, hnow.held, lastHeld?_append hheld hspared]

/-- Without rounding and on a clock that is not set back, the three figures of the charge stay
within their bounds and say the same of a full charge. From the first update on they do not fall
between two resets; before any reset the charge is full. -/
theorem run_charge_grows [Circular ℚ] (config : Config ℚ) (start : Instant)
    (steps later : List (Step ℚ))
    (hsteady : (Session.start config start).Steady (steps ++ later)) :
    let first := Session.start config start
    let s := first.run steps
    let s' := s.run later
    let elapsed := s.tracker.elapsed s.clock
    (∀ name, Duration.milliseconds 250 ≤ cooldown ℚ name ∧
      cooldown ℚ name ≤ Duration.milliseconds 1250 ∧ 0 < (attackSpeed name : ℚ)) ∧
    0 ≤ elapsed ∧
    (s.tracker.charged s.clock = true ↔ 1 ≤ s.tracker.ratio s.clock) ∧
    (1 / 5 ≤ s.tracker.damage s.clock ∧ s.tracker.damage s.clock ≤ 1) ∧
    (s.tracker.charged s.clock = true → s.tracker.damage s.clock = 1) ∧
    (s.tracker.damage s.clock = 1 ↔
      1000000000 / attackSpeed s.tracker.held - 25000000 ≤ (elapsed : ℚ)) ∧
    (∀ snapshot, .update snapshot ∈ steps → resetClocks (first.log steps) (s.log later) = [] →
      s.tracker.ratio s.clock ≤ s'.tracker.ratio s'.clock ∧
      s.tracker.damage s.clock ≤ s'.tracker.damage s'.clock ∧
      (s.tracker.charged s.clock = true → s'.tracker.charged s'.clock = true)) ∧
    (resetClocks [] (first.log steps) = [] → s.tracker.charged s.clock = true) := by
  intro first s s' elapsed
  obtain ⟨hbefore, hafter⟩ := Session.steady_append.mp hsteady
  have hstart : first.tracker.lastReset.nanos ≤ first.clock.nanos :=
    add_le_of_nonpos_right (by decide : -(Duration.seconds 5) ≤ 0)
  have hreset : s.tracker.lastReset.nanos ≤ s.clock.nanos := hbefore.lastReset_le hstart
  have helapsed : 0 ≤ elapsed := Duration.le_saturate (by decide) (sub_nonneg.mpr hreset)
  have hcharged (t : Tracker ℚ) (now : Instant) :
      t.charged now = true ↔ cooldown ℚ t.held ≤ t.elapsed now :=
    decide_eq_true_iff
  refine ⟨fun name => ⟨(cooldown_bounds name).1, (cooldown_bounds name).2, attackSpeed_pos name⟩,
    helapsed, (hcharged ..).trans one_le_chargeRatio_iff.symm, damageShare_bounds _ _,
    fun h => damageShare_of_charged ((hcharged ..).mp h), damageShare_eq_one_iff helapsed, ?_, ?_⟩
  · intro snapshot hseen hspared
    obtain ⟨hsame, hheld⟩ := run_of_no_reset config start hseen hspared
    have hlater : elapsed ≤ s'.tracker.elapsed s'.clock := by
      rw [Tracker.elapsed, hsame]
      exact Instant.since_mono hafter.clock_le _
    rw [Tracker.ratio, Tracker.ratio, Tracker.damage, Tracker.damage, hcharged, hcharged, hheld]
    exact ⟨chargeRatio_mono hlater, damageShare_mono helapsed hlater, fun h => h.trans hlater⟩
  · intro hspared
    have htells : Tells start (first.log steps) s.tracker := Tells.run config start steps
    have hlong : Duration.seconds 5 ≤ elapsed := by
      apply Duration.le_saturate (by decide)
      have hpassed : start.nanos ≤ s.clock.nanos := hbefore.clock_le
      rw [htells.lastReset, resetClock, hspared]
      change Duration.seconds 5 ≤ s.clock.nanos - (start.nanos + -(Duration.seconds 5))
      linarith
    rw [hcharged]
    exact (cooldown_bounds _).2.trans (le_trans (by decide) hlong)

section

/-- No swing depends on roots or angles where there is nobody to hit. -/
local instance : Circular ℚ :=
  ⟨fun _ => 0, fun _ => 0, fun _ => 0, fun _ => 0, fun _ _ => 0, 0⟩

def holding (name : String) : Snapshot ℚ :=
  ⟨⟨0⟩, { (Pose.initial : Pose ℚ) with heldItem := some { name } }, [], World.empty⟩

/-- With the slowest axe, a charge that was reset after one second is far from full a tenth of a
second later; seeing the axe once more does not take it back, and in time it is full. -/
theorem run_charge_grows_axe :
    let first : Session ℚ := Session.start Config.standard ⟨0⟩
    let steps : List (Step ℚ) := [.update (holding "stone_axe"), .setClock ⟨1000000000⟩, .reset,
      .setClock ⟨1100000000⟩]
    let later : List (Step ℚ) := [.update (holding "stone_axe"), .setClock ⟨2250000000⟩]
    let s := first.run steps
    let s' := s.run later
    first.Steady (steps ++ later) ∧ resetClocks (first.log steps) (s.log later) = [] ∧
      s.tracker.charged s.clock = false ∧
      s.tracker.damage s.clock ≤ s'.tracker.damage s'.clock ∧ s'.tracker.damage s'.clock = 1 := by
  intro first steps later s s'
  have hsteady : first.Steady (steps ++ later) := by
    simp [Session.Steady, Session.step, first, steps, later, Session.start]
  have hspared : resetClocks (first.log steps) (s.log later) = [] := by decide +kernel
  have hfull : s'.tracker.charged s'.clock = true := by decide +kernel
  obtain ⟨-, -, -, -, -, -, hgrows, -⟩ :=
    run_charge_grows Config.standard ⟨0⟩ steps later hsteady
  obtain ⟨-, hdamage, -⟩ := hgrows (holding "stone_axe") List.mem_cons_self hspared
  obtain ⟨-, -, -, -, hthen, -⟩ :=
    run_charge_grows Config.standard ⟨0⟩ (steps ++ later) [] (by rwa [List.append_nil])
  exact ⟨hsteady, hspared, by decide +kernel, hdamage, hthen hfull⟩

end

end Combat

end VoxelScout
