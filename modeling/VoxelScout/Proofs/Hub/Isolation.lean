import VoxelScout.Proofs.Hub.Frames

/-! # Members do not disturb each other

A member sees of a hub whether it runs, what waits in its queue, the own membership and the
own mailbox. What others do, that they come, leave or read, changes nothing of this, and
nothing of this depends on it. So two histories that differ in what others do only are the
same to a member.
-/

namespace VoxelScout.Hub

variable {ι φ : Type} [DecidableEq ι]

/-- All steps but the coming, leaving and reading of others. -/
def Step.concerns (i : ι) : Step ι φ → Bool
  | .register owner | .unregister owner | .take owner => owner == i
  | .start | .broadcast _ | .deliver | .stop => true

/-- Two hubs that are the same to someone. -/
structure Alike (i : ι) (h h' : Hub ι φ) : Prop where
  phase : h.phase = h'.phase
  queue : h.queue = h'.queue
  member : i ∈ h.members ↔ i ∈ h'.members
  mailbox : h.mailbox? i = h'.mailbox? i

namespace Alike

variable {i : ι} {h h' : Hub ι φ}

theorem refl (i : ι) (h : Hub ι φ) : Alike i h h :=
  ⟨rfl, rfl, Iff.rfl, rfl⟩

theorem symm (halike : Alike i h h') : Alike i h' h :=
  ⟨halike.phase.symm, halike.queue.symm, halike.member.symm, halike.mailbox.symm⟩

theorem trans {h'' : Hub ι φ} (halike : Alike i h h') (halike' : Alike i h' h'') :
    Alike i h h'' :=
  ⟨halike.phase.trans halike'.phase, halike.queue.trans halike'.queue,
    halike.member.trans halike'.member, halike.mailbox.trans halike'.mailbox⟩

theorem waiting (halike : Alike i h h') : h.waiting i = h'.waiting i := by
  rw [Hub.waiting, Hub.waiting, halike.mailbox]

theorem step (halike : Alike i h h') (x : Step ι φ) : Alike i (h.step x) (h'.step x) where
  phase := by
    rw [step_phase, step_phase, halike.phase]
  queue := by
    rw [queue_step, queue_step, halike.queue, halike.phase]
  member := by
    rw [mem_members_step, mem_members_step, halike.queue, halike.phase, halike.mailbox,
      halike.member]
  mailbox := by
    rw [mailbox?_step, mailbox?_step, halike.queue, halike.phase, halike.mailbox]
    simp only [halike.member]

/-- What others do is not seen. -/
theorem step_left (halike : Alike i h h') {x : Step ι φ} (hx : x.concerns i = false) :
    Alike i (h.step x) h' := by
  suffices hsame : Alike i (h.step x) h from hsame.trans halike
  cases x with
  | register owner | unregister owner | take owner =>
      have howner : owner ≠ i := by simpa [Step.concerns] using hx
      constructor
      · rw [step_phase]
      · rw [queue_step]
      · simp [mem_members_step, howner]
      · simp [mailbox?_step, howner]
  | start | broadcast | deliver | stop => simp [Step.concerns] at hx

end Alike

/-- A log that someone could write: it tells only of steps that concern the writer, and what
the writer sees. -/
structure Seen (i : ι) (f : Hub ι φ → Step ι φ → List φ) : Prop where
  alike : ∀ h h' x, Alike i h h' → f h x = f h' x
  other : ∀ h x, x.concerns i = false → f h x = []

theorem seen_read (i : ι) : Seen (φ := φ) i (read i) where
  alike h h' x halike := by
    cases x with
    | take owner => simp only [read, halike.waiting]
    | start | register | unregister | broadcast | deliver | stop => rfl
  other h x hx := by
    cases x with
    | take owner =>
        have howner : owner ≠ i := by simpa [Step.concerns] using hx
        simp [read, howner]
    | start | register | unregister | broadcast | deliver | stop => rfl

theorem seen_put (i : ι) : Seen (φ := φ) i (put i) where
  alike h h' x halike := by
    rw [put, put, (halike.step x).waiting, halike.waiting]
  other h x hx := by
    rw [put, ((Alike.refl i h).step_left hx).waiting, List.drop_length]

theorem Seen.log_filter {i : ι} {f : Hub ι φ → Step ι φ → List φ} (hf : Seen i f)
    {h h' : Hub ι φ} (halike : Alike i h h') (steps : List (Step ι φ)) :
    log f h steps = log f h' (steps.filter (·.concerns i)) := by
  induction steps generalizing h h' with
  | nil => rfl
  | cons x rest ih =>
      cases hx : x.concerns i with
      | true =>
          rw [List.filter_cons_of_pos hx, log, log, hf.alike h h' x halike, ih (halike.step x)]
      | false =>
          rw [List.filter_cons_of_neg (by simp [hx]), log, hf.other h x hx, List.nil_append,
            ih (halike.step_left hx)]

theorem Alike.after_filter {i : ι} {h h' : Hub ι φ} (halike : Alike i h h')
    (steps : List (Step ι φ)) :
    Alike i (h.after steps) (h'.after (steps.filter (·.concerns i))) := by
  induction steps generalizing h h' with
  | nil => exact halike
  | cons x rest ih =>
      cases hx : x.concerns i with
      | true =>
          rw [List.filter_cons_of_pos hx]
          exact ih (halike.step x)
      | false =>
          rw [List.filter_cons_of_neg (by simp [hx])]
          exact ih (halike.step_left hx)

/-- To someone all that matters of a history are the steps that concern him. -/
theorem alike_run {i : ι} {steps steps' : List (Step ι φ)}
    (hsteps : steps'.filter (·.concerns i) = steps.filter (·.concerns i)) :
    Alike i (run steps') (run steps) := by
  have hleft := (Alike.refl i new).after_filter steps'
  rw [hsteps] at hleft
  exact hleft.trans ((Alike.refl i new).after_filter steps).symm

theorem Seen.log_run {i : ι} {f : Hub ι φ → Step ι φ → List φ} (hf : Seen i f)
    {steps steps' : List (Step ι φ)}
    (hsteps : steps'.filter (·.concerns i) = steps.filter (·.concerns i)) :
    log f new steps' = log f new steps := by
  rw [hf.log_filter (.refl i new) steps', hf.log_filter (.refl i new) steps, hsteps]

end VoxelScout.Hub
