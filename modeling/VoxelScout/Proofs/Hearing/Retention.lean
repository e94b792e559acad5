import Mathlib.Data.List.Induction
import VoxelScout.Hearing.Tracker
import VoxelScout.Proofs.Clock

/-! # Which sounds are remembered

Sounds are heard and old ones dropped under a clock that may be set to anything. Over every
run the sounds remembered are those heard that every later pruning found young enough, as
they were heard and in the order of hearing. It is not the last pruning that decides: a
sound that was too old once stays forgotten when the clock goes back.
-/

namespace VoxelScout

namespace Hearing

variable {α : Type}

namespace Tracker

/-- What is young enough later is young enough now. -/
theorem keeps_of_le (t : Tracker α) {t₁ t₂ : Instant} (h : t₁.nanos ≤ t₂.nanos) {e : Event α}
    (hlater : t.keeps t₂ e = true) : t.keeps t₁ e = true := by
  apply decide_eq_true
  exact Int.lt_of_le_of_lt (Instant.since_mono h e.time) (of_decide_eq_true hlater)

/-- A pruning forgets all that an earlier one would have forgotten. -/
theorem prune_prune_of_le (t : Tracker α) {t₁ t₂ : Instant} (h : t₁.nanos ≤ t₂.nanos) :
    (t.prune t₁).prune t₂ = t.prune t₂ := by
  have hevents : (t.events.filter (t.keeps t₁)).filter (t.keeps t₂) =
      t.events.filter (t.keeps t₂) := by
    rw [List.filter_filter]
    apply List.filter_congr
    intro e _
    cases hlater : t.keeps t₂ e with
    | false => rfl
    | true => rw [t.keeps_of_le h hlater, Bool.and_self]
  change { t with events := (t.events.filter (t.keeps t₁)).filter (t.keeps t₂) } = t.prune t₂
  rw [hevents]
  rfl

theorem pruned_add_length (t : Tracker α) (now : Instant) :
    t.pruned now + (t.prune now).events.length = t.events.length :=
  Nat.sub_add_cancel (List.length_filter_le _ _)

end Tracker

/-! ## Sessions -/

inductive Step (α : Type) where
  | hear (id : PlayerId) (raw : RawSound α) (listener : Vec α) (now : Instant)
  | prune (now : Instant)

def Step.hearing? : Step α → Option Instant
  | .hear _ _ _ now => some now
  | .prune _ => none

/-- What an entry of the log says: the event that hearing a sound answered with, or when old
sounds were dropped. -/
inductive Entry (α : Type) where
  | heard (event : Event α)
  | pruned (now : Instant)

namespace Tracker

variable [Trig α]

def step (t : Tracker α) : Step α → Tracker α
  | .hear id raw listener now => (t.hear id raw listener now).2
  | .prune now => t.prune now

def run (t : Tracker α) (steps : List (Step α)) : Tracker α :=
  steps.foldl step t

def entry (t : Tracker α) : Step α → Entry α
  | .hear id raw listener now => .heard (t.hear id raw listener now).1
  | .prune now => .pruned now

def log : Tracker α → List (Step α) → List (Entry α)
  | _, [] => []
  | t, x :: rest => t.entry x :: (t.step x).log rest

theorem run_concat (t : Tracker α) (steps : List (Step α)) (x : Step α) :
    t.run (steps ++ [x]) = (t.run steps).step x := by
  simp [run]

theorem log_concat (t : Tracker α) (steps : List (Step α)) (x : Step α) :
    t.log (steps ++ [x]) = t.log steps ++ [(t.run steps).entry x] := by
  induction steps generalizing t with
  | nil => rfl
  | cons first rest ih =>
      rw [List.cons_append, log, ih, log, List.cons_append]
      rfl

end Tracker

/-! ## Reading a log -/

def Entry.event? : Entry α → Option (Event α)
  | .heard e => some e
  | .pruned _ => none

def heard (log : List (Entry α)) : List (Event α) :=
  log.filterMap Entry.event?

/-- An entry does not make an event forgotten: if it drops old sounds, the event is younger
than the limit. -/
def Entry.spares (maxAge : Duration) (e : Event α) : Entry α → Bool
  | .heard _ => true
  | .pruned now => Duration.saturate (now.nanos - e.time.nanos) < maxAge

/-- The events of a log that every later entry spares. -/
def spared (maxAge : Duration) : List (Entry α) → List (Event α)
  | [] => []
  | .heard e :: rest =>
    if rest.all (Entry.spares maxAge e) then e :: spared maxAge rest else spared maxAge rest
  | .pruned _ :: rest => spared maxAge rest

theorem spared_concat (maxAge : Duration) (log : List (Entry α)) (x : Entry α) :
    spared maxAge (log ++ [x]) =
      (spared maxAge log).filter (fun e => x.spares maxAge e) ++ x.event?.toList := by
  induction log with
  | nil => cases x <;> rfl
  | cons first rest ih =>
      cases first with
      | pruned now => exact ih
      | heard e =>
          rw [List.cons_append, spared, spared, List.all_append, ih]
          by_cases hrest : rest.all (Entry.spares maxAge e) = true
          · by_cases hx : x.spares maxAge e = true <;> simp [hrest, hx]
          · simp [hrest]

theorem spared_sublist (maxAge : Duration) (log : List (Entry α)) :
    (spared maxAge log).Sublist (heard log) := by
  induction log with
  | nil => exact List.Sublist.refl []
  | cons first rest ih =>
      cases first with
      | pruned now => exact ih
      | heard e =>
          have hheard : heard (.heard e :: rest) = e :: heard rest := rfl
          rw [spared, hheard]
          split
          · exact ih.cons_cons e
          · exact ih.cons e

theorem mem_spared {maxAge : Duration} {log : List (Entry α)} {e : Event α} :
    e ∈ spared maxAge log ↔ ∃ before after, log = before ++ .heard e :: after ∧
      ∀ x ∈ after, x.spares maxAge e = true := by
  induction log with
  | nil => simp [spared]
  | cons first rest ih =>
      -- the event is that of the first entry, or it was heard after it
      have hsplit : (∃ before after, first :: rest = before ++ .heard e :: after ∧
            ∀ x ∈ after, x.spares maxAge e = true) ↔
          (first = .heard e ∧ ∀ x ∈ rest, x.spares maxAge e = true) ∨
            e ∈ spared maxAge rest := by
        rw [ih]
        constructor
        · rintro ⟨_ | ⟨y, before⟩, after, heq, hafter⟩
          · obtain ⟨rfl, rfl⟩ := List.cons.inj heq
            exact .inl ⟨rfl, hafter⟩
          · obtain ⟨-, rfl⟩ := List.cons.inj heq
            exact .inr ⟨before, after, rfl, hafter⟩
        · rintro (⟨rfl, hrest⟩ | ⟨before, after, rfl, hafter⟩)
          · exact ⟨[], rest, rfl, hrest⟩
          · exact ⟨first :: before, after, rfl, hafter⟩
      rw [hsplit]
      cases first with
      | pruned now => simp [spared]
      | heard e' =>
          rw [spared]
          split
          next hall =>
            rw [List.all_eq_true] at hall
            constructor
            · rintro (_ | ⟨_, hmem⟩)
              · exact .inl ⟨rfl, hall⟩
              · exact .inr hmem
            · rintro (⟨heq, -⟩ | hmem)
              · cases heq
                exact List.mem_cons_self
              · exact List.mem_cons_of_mem e' hmem
          next hall =>
            rw [List.all_eq_true] at hall
            constructor
            · exact .inr
            · rintro (⟨heq, hrest⟩ | hmem)
              · cases heq
                exact absurd hrest hall
              · exact hmem

/-! ## Runs -/

/-- The tracker remembers what the log of its session says. -/
structure Recalls (config : Config α) (log : List (Entry α)) (t : Tracker α) : Prop where
  configured : t.config = config
  events : t.events = spared config.maxAge log
  /-- Whatever was heard is named by its category, forgotten or not. -/
  category : ∀ e ∈ heard log, e.category = categoryName e.categoryIndex

namespace Recalls

theorem new [Scalar α] (config : Config α) (seed : UInt64) :
    Recalls config.withDefaults [] (Tracker.new config seed) :=
  ⟨rfl, rfl, by simp [heard]⟩

variable [Trig α] {config : Config α} {log : List (Entry α)} {t : Tracker α}

theorem step (h : Recalls config log t) (x : Step α) :
    Recalls config (log ++ [t.entry x]) (t.step x) := by
  cases x with
  | hear id raw listener now =>
      refine ⟨h.configured, ?_, ?_⟩
      · have hall : (spared config.maxAge log).filter
            (fun e => (t.entry (.hear id raw listener now)).spares config.maxAge e) =
              spared config.maxAge log :=
          List.filter_eq_self.mpr fun _ _ => rfl
        rw [spared_concat, hall, ← h.events]
        rfl
      · intro e he
        rw [heard, List.filterMap_append, List.mem_append] at he
        rcases he with he | he
        · exact h.category e he
        · obtain rfl : e = (t.hear id raw listener now).1 := List.mem_singleton.mp he
          rfl
  | prune now =>
      refine ⟨h.configured, ?_, ?_⟩
      · rw [spared_concat, ← h.events, ← h.configured]
        exact (List.append_nil _).symm
      · intro e he
        rw [heard, List.filterMap_append, List.mem_append] at he
        rcases he with he | he
        · exact h.category e he
        · cases he

theorem run (config : Config α) (seed : UInt64) (steps : List (Step α)) :
    Recalls config.withDefaults ((Tracker.new config seed).log steps)
      ((Tracker.new config seed).run steps) := by
  induction steps using List.reverseRecOn with
  | nil => exact Recalls.new config seed
  | append_singleton steps x ih =>
      rw [Tracker.run_concat, Tracker.log_concat]
      exact ih.step x

end Recalls

/-- Events bear the clock at which they were heard. -/
theorem map_time_heard_log [Trig α] (t : Tracker α) (steps : List (Step α)) :
    (heard (t.log steps)).map (·.time) = steps.filterMap Step.hearing? := by
  induction steps generalizing t with
  | nil => rfl
  | cons x rest ih =>
      cases x with
      | hear id raw listener now =>
          have hcons : heard (t.log (.hear id raw listener now :: rest)) =
              (t.hear id raw listener now).1 ::
                heard ((t.step (.hear id raw listener now)).log rest) := rfl
          rw [hcons, List.map_cons, ih]
          rfl
      | prune now => exact ih (t.prune now)

/-- After every run, whatever the clock did, the events remembered are those of the heard ones that
every later pruning found young enough, in order. A pruning counts what it drops and makes an
earlier one superfluous. -/
theorem run_remembers_spared [Trig α] (config : Config α) (seed : UInt64)
    (steps : List (Step α)) :
    let t := (Tracker.new config seed).run steps
    let log := (Tracker.new config seed).log steps
    let maxAge := config.withDefaults.maxAge
    (t.events = spared maxAge log ∧ t.events.Sublist (heard log) ∧
      ∀ e, e ∈ t.events ↔ ∃ before after, log = before ++ .heard e :: after ∧
        ∀ now, Entry.pruned now ∈ after →
          Duration.saturate (now.nanos - e.time.nanos) < maxAge) ∧
    (∀ now, t.pruned now + (t.prune now).events.length = t.events.length) ∧
    (∀ t₁ t₂ : Instant, t₁.nanos ≤ t₂.nanos → (t.prune t₁).prune t₂ = t.prune t₂) ∧
    (∀ e ∈ t.events, e.category = categoryName e.categoryIndex) ∧
    (∀ category, t.inCategory category =
      t.events.filter fun e => categoryName e.categoryIndex = category) ∧
    ((steps.filterMap Step.hearing?).Pairwise (fun s s' => s.nanos ≤ s'.nanos) →
      t.events.Pairwise fun e e' => e.time.nanos ≤ e'.time.nanos) := by
  intro t log maxAge
  have h : Recalls config.withDefaults log t := Recalls.run config seed steps
  have hsublist : t.events.Sublist (heard log) := by
    rw [h.events]
    exact spared_sublist maxAge log
  have hcategory : ∀ e ∈ t.events, e.category = categoryName e.categoryIndex :=
    fun e he => h.category e (hsublist.subset he)
  refine ⟨⟨h.events, hsublist, ?_⟩, t.pruned_add_length, fun _ _ => t.prune_prune_of_le,
    hcategory, ?_, ?_⟩
  · intro e
    rw [h.events, mem_spared]
    have hspares (after : List (Entry α)) : (∀ x ∈ after, x.spares maxAge e = true) ↔
        ∀ now, Entry.pruned now ∈ after →
          Duration.saturate (now.nanos - e.time.nanos) < maxAge := by
      constructor
      · intro hall now hnow
        simpa [Entry.spares] using hall (.pruned now) hnow
      · rintro hall (e' | now) hx
        · rfl
        · simpa [Entry.spares] using hall now hx
    exact exists_congr fun before => exists_congr fun after => and_congr_right' (hspares after)
  · intro category
    apply List.filter_congr
    intro e he
    rw [hcategory e he]
    exact Bool.beq_eq_decide_eq _ _
  · intro hclock
    rw [← map_time_heard_log (Tracker.new config seed), List.pairwise_map] at hclock
    exact hclock.sublist hsublist

end Hearing

end VoxelScout
