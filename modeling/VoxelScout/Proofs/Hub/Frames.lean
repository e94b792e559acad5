import VoxelScout.Proofs.Hub.Mailboxes

/-! # The way of a frame

A frame that is broadcast is accepted, waits for its turn, is taken by the loop, is put into
the mailboxes of the members there are, and is read out of each of them. Logs tell which
frames a history accepts, takes, puts and reads: the queue and every mailbox are read in the
order in which they are filled.
-/

namespace VoxelScout.Hub

variable {ι φ : Type} [DecidableEq ι]

/-! ## Logs -/

def after (h : Hub ι φ) (steps : List (Step ι φ)) : Hub ι φ :=
  steps.foldl step h

def log (f : Hub ι φ → Step ι φ → List φ) : Hub ι φ → List (Step ι φ) → List φ
  | _, [] => []
  | h, x :: rest => f h x ++ log f (h.step x) rest

def waiting (h : Hub ι φ) (i : ι) : List φ :=
  ((h.mailbox? i).map (·.frames)).getD []

/-- The frame of a message that is broadcast, unless the queue is full. -/
def accepted (h : Hub ι φ) : Step ι φ → List φ
  | .broadcast written => if h.queue.length = queueLimit then [] else written.toList
  | _ => []

/-- The frame that the loop takes out of the queue. -/
def taken (h : Hub ι φ) : Step ι φ → List φ
  | .deliver => if h.phase == .running then h.queue.take 1 else []
  | _ => []

/-- What a step adds to the frames in the mailbox of someone. -/
def put (i : ι) (h : Hub ι φ) (x : Step ι φ) : List φ :=
  ((h.step x).waiting i).drop (h.waiting i).length

def read (i : ι) (h : Hub ι φ) : Step ι φ → List φ
  | .take owner => if owner = i then (h.waiting i).take 1 else []
  | _ => []

theorem log_append (f : Hub ι φ → Step ι φ → List φ) (h : Hub ι φ) (steps more : List (Step ι φ)) :
    log f h (steps ++ more) = log f h steps ++ log f (h.after steps) more := by
  induction steps generalizing h with
  | nil => rfl
  | cons x rest ih =>
      rw [List.cons_append, log, ih, log, List.append_assoc]
      rfl

theorem log_concat (f : Hub ι φ → Step ι φ → List φ) (steps : List (Step ι φ)) (x : Step ι φ) :
    log f new (steps ++ [x]) = log f new steps ++ f (run steps) x := by
  rw [log_append, log, log, List.append_nil]
  rfl

theorem run_append (steps more : List (Step ι φ)) :
    run (steps ++ more) = (run steps).after more :=
  List.foldl_append

/-! ## The queue -/

theorem accepted_step {h : Hub ι φ} (hqueue : h.queue.length ≤ queueLimit) (x : Step ι φ) :
    h.queue ++ accepted h x = taken h x ++ (h.step x).queue := by
  rw [queue_step]
  cases x with
  | broadcast written =>
      rcases Nat.lt_or_eq_of_le hqueue with hroom | hfull
      · simp [accepted, taken, hroom, Nat.ne_of_lt hroom]
      · simp [accepted, taken, hfull]
  | deliver =>
      by_cases hrunning : h.phase = .running
      · cases hframes : h.queue <;> simp [accepted, taken, hrunning, hframes]
      · simp [accepted, taken, hrunning]
  | start | register | unregister | take | stop => simp [accepted, taken]

/-- What is accepted is taken in order, or still waits. -/
theorem log_accepted (steps : List (Step ι φ)) (hsteps : Once steps) :
    log accepted new steps = log taken new steps ++ (run steps).queue := by
  induction steps using List.reverseRecOn with
  | nil => rfl
  | append_singleton steps x ih =>
      have hqueue := (Follows.run hsteps.of_append).queue
      rw [log_concat, log_concat, run_concat, ih hsteps.of_append, List.append_assoc,
        accepted_step hqueue, List.append_assoc]

/-! ## One mailbox -/

/-- A step reads a frame out of a mailbox, or puts the frame that is taken into it if the
owner is a member before and after. -/
theorem Orderly.waiting_step {h : Hub ι φ} (horderly : Orderly h) (x : Step ι φ) (i : ι) :
    (h.step x).waiting i = (h.waiting i).drop (read i h x).length ++
      if i ∈ h.members ∧ i ∈ (h.step x).members then taken h x else [] := by
  unfold waiting
  rw [mailbox?_step]
  cases x with
  | start | broadcast => simp [read, taken]
  | register owner =>
      cases h.mailbox? i with
      | none =>
          simp only [read, taken]
          split <;> simp
      | some m => simp [read, taken]
  | unregister owner =>
      cases h.mailbox? i with
      | none => simp [read, taken]
      | some m =>
          simp only [Option.map_some, read, taken]
          split <;> simp [Mailbox.shut]
  | deliver =>
      by_cases hi : i ∈ h.members
      · obtain ⟨m, hm, -⟩ := horderly.mailbox? hi
        have hrunning := horderly.running_of_mem hi
        cases hqueue : h.queue with
        | nil => simp [read, taken, hm, hqueue]
        | cons frame rest =>
            cases hfull : m.isFull <;>
              simp [read, taken, mem_members_step, Mailbox.offer, hm, hi, hrunning, hqueue, hfull]
      · simp [read, hi]
  | take owner =>
      by_cases howner : owner = i
      · cases hm : h.mailbox? i with
        | none => simp [read, taken, waiting, howner, hm]
        | some m =>
            cases hframes : m.frames <;>
              simp [read, taken, waiting, Mailbox.pop, howner, hm, hframes]
      · simp [read, taken, howner]
  | stop =>
      cases h.mailbox? i with
      | none => simp [read, taken]
      | some m =>
          simp only [Option.map_some, read, taken]
          split <;> simp [Mailbox.shut]

/-- What a step puts into a mailbox is what the loop takes, if the owner is a member before
and after. -/
theorem Orderly.put_eq {h : Hub ι φ} (horderly : Orderly h) (x : Step ι φ) (i : ι) :
    put i h x = if i ∈ h.members ∧ i ∈ (h.step x).members then taken h x else [] := by
  unfold put
  rw [horderly.waiting_step]
  cases x with
  | deliver => simp [read]
  | start | register | unregister | broadcast | take | stop => simp [taken]

theorem read_append_drop (i : ι) (h : Hub ι φ) (x : Step ι φ) :
    read i h x ++ (h.waiting i).drop (read i h x).length = h.waiting i := by
  cases x with
  | take owner =>
      by_cases howner : owner = i
      · cases hframes : h.waiting i <;> simp [read, howner, hframes]
      · simp [read, howner]
  | start | register | unregister | broadcast | deliver | stop => simp [read]

/-- A mailbox is read in the order in which frames are put into it. -/
theorem log_put (steps : List (Step ι φ)) (hsteps : Once steps) (i : ι) :
    log (put i) new steps = log (read i) new steps ++ (run steps).waiting i := by
  induction steps using List.reverseRecOn with
  | nil => rfl
  | append_singleton steps x ih =>
      have horderly := (Follows.run hsteps.of_append).toOrderly
      calc log (put i) new (steps ++ [x])
          = log (read i) new steps ++ ((run steps).waiting i ++ put i (run steps) x) := by
            rw [log_concat, ih hsteps.of_append, List.append_assoc]
        _ = log (read i) new steps ++ (read i (run steps) x ++ ((run steps).step x).waiting i) := by
            rw [horderly.waiting_step, ← horderly.put_eq, ← List.append_assoc (read i _ x),
              read_append_drop]
        _ = log (read i) new (steps ++ [x]) ++ (run (steps ++ [x])).waiting i := by
            rw [log_concat, run_concat, List.append_assoc]

end VoxelScout.Hub
