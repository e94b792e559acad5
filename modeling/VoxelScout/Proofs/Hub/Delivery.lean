import VoxelScout.Proofs.Hub.Isolation

/-! # What a member gets

The frames that a member gets are those that the loop takes while the membership lasts, in
order and each once. It lasts until the member leaves, is too slow or the hub stops, and what
is in the mailbox then can still be read.
-/

namespace VoxelScout.Hub

variable {ι φ : Type} [DecidableEq ι]

/-! ## Membership -/

/-- Part of a history between a registration and the step that ends the membership, if one
does. -/
structure Tenure (steps : List (Step ι φ)) (i : ι) (before during later : List (Step ι φ)) :
    Prop where
  split : steps = before ++ .register i :: (during ++ later)
  absent : ∀ seen, seen <+: before → i ∉ (run seen).members
  present : ∀ seen, seen <+: during → i ∈ (run (before ++ .register i :: seen)).members
  gone : ∀ seen, seen <+: later → seen ≠ [] →
    i ∉ (run (before ++ .register i :: (during ++ seen))).members

theorem newcomer_of_mem_members {h : Hub ι φ} {x : Step ι φ} {i : ι}
    (hi : i ∈ (h.step x).members) (hnot : i ∉ h.members) : x = .register i := by
  rw [mem_members_step] at hi
  cases x <;> simp_all

/-- Whoever was a member and is not will never be again. -/
theorem not_mem_members_of_gone {steps more : List (Step ι φ)} (hsteps : Once (steps ++ more))
    {i : ι} (hi : Registered steps i) (hnot : i ∉ (run steps).members) :
    i ∉ (run (steps ++ more)).members := by
  induction more using List.reverseRecOn with
  | nil => simpa using hnot
  | append_singleton more x ih =>
      rw [← List.append_assoc] at hsteps ⊢
      rw [run_concat]
      intro hmem
      obtain rfl := newcomer_of_mem_members hmem (ih hsteps.of_append)
      exact hsteps.not_registered (hi.append _)

/-- Nothing is put into the mailbox of someone who is no member. -/
theorem log_put_of_absent (steps : List (Step ι φ)) {more : List (Step ι φ)}
    (hsteps : Once (steps ++ more)) {i : ι}
    (habsent : ∀ seen, seen <+: more → i ∉ (run (steps ++ seen)).members) :
    log (put i) (run steps) more = [] := by
  induction more generalizing steps with
  | nil => rfl
  | cons x rest ih =>
      have horderly := (Follows.run hsteps.of_append).toOrderly
      have hnot : i ∉ (run steps).members := by
        simpa using habsent [] List.nil_prefix
      have hlater (seen : List (Step ι φ)) (hseen : seen <+: rest) :
          i ∉ (run (steps ++ [x] ++ seen)).members := by
        rw [← List.append_cons]
        exact habsent (x :: seen) ((List.prefix_cons_inj x).mpr hseen)
      rw [List.append_cons] at hsteps
      rw [log, horderly.put_eq, if_neg fun hmem => hnot hmem.1, ← run_concat]
      exact ih (steps ++ [x]) hsteps hlater

/-- A member gets the frames that are taken until the membership ends. -/
theorem exists_split_of_mem {steps rest : List (Step ι φ)} (hsteps : Once (steps ++ rest)) {i : ι}
    (hregistered : Registered steps i) (hi : i ∈ (run steps).members) :
    ∃ during later, rest = during ++ later ∧
      (∀ seen, seen <+: during → i ∈ (run (steps ++ seen)).members) ∧
      (∀ seen, seen <+: later → seen ≠ [] → i ∉ (run (steps ++ (during ++ seen))).members) ∧
      log (put i) (run steps) rest = log taken (run steps) during := by
  induction rest generalizing steps with
  | nil =>
      refine ⟨[], [], rfl, fun seen hseen => ?_, fun seen hseen hne => ?_, rfl⟩
      · obtain rfl := List.prefix_nil.mp hseen
        simpa using hi
      · exact absurd (List.prefix_nil.mp hseen) hne
  | cons x rest ih =>
      have horderly := (Follows.run hsteps.of_append).toOrderly
      rw [List.append_cons] at hsteps
      by_cases hx : i ∈ (run (steps ++ [x])).members
      · obtain ⟨during, later, rfl, hpresent, hgone, hlog⟩ :=
          ih hsteps (hregistered.append _) hx
        refine ⟨x :: during, later, rfl, fun seen hseen => ?_, fun seen hseen hne => ?_, ?_⟩
        · rcases List.prefix_cons_iff.mp hseen with rfl | ⟨seen', rfl, hseen'⟩
          · simpa using hi
          · rw [List.append_cons]
            exact hpresent seen' hseen'
        · rw [List.cons_append, List.append_cons]
          exact hgone seen hseen hne
        · rw [log, log, horderly.put_eq, if_pos ⟨hi, run_concat steps x ▸ hx⟩, ← run_concat, hlog]
      · -- whoever has gone is not taken in again
        have hgone (seen : List (Step ι φ)) (hseen : seen <+: rest) :
            i ∉ (run (steps ++ [x] ++ seen)).members := by
          obtain ⟨more, rfl⟩ := hseen
          rw [← List.append_assoc] at hsteps
          exact not_mem_members_of_gone hsteps.of_append (hregistered.append _) hx
        refine ⟨[], x :: rest, rfl, fun seen hseen => ?_, fun seen hseen hne => ?_, ?_⟩
        · obtain rfl := List.prefix_nil.mp hseen
          simpa using hi
        · rcases List.prefix_cons_iff.mp hseen with rfl | ⟨seen', rfl, hseen'⟩
          · exact absurd rfl hne
          · rw [List.nil_append, List.append_cons]
            exact hgone seen' hseen'
        · change put i (run steps) x ++ log (put i) ((run steps).step x) rest = []
          rw [horderly.put_eq, if_neg (fun hmem => hx (run_concat steps x ▸ hmem.2)),
            ← run_concat]
          exact log_put_of_absent _ hsteps hgone

/-- Only who is registered is ever a member. -/
theorem not_mem_members_of_not_registered {steps : List (Step ι φ)} (hsteps : Once steps) {i : ι}
    (hi : ¬Registered steps i) {seen : List (Step ι φ)} (hseen : seen <+: steps) :
    i ∉ (run seen).members := by
  obtain ⟨more, rfl⟩ := hseen
  have hfollows := Follows.run hsteps.of_append
  exact fun hmem => hi (((hfollows.registered i).mp (hfollows.owned i hmem)).append more)

/-- Whoever is registered gets the frames that are taken while the membership lasts. -/
theorem exists_tenure {steps : List (Step ι φ)} (hsteps : Once steps) {i : ι}
    (hi : Registered steps i) :
    ∃ before during later, Tenure steps i before during later ∧
      log (put i) new steps = log taken (run (before ++ [.register i])) during := by
  obtain ⟨before, rest, rfl, hrunning⟩ := hi
  have hsplit : before ++ .register i :: rest = before ++ [.register i] ++ rest :=
    List.append_cons before _ rest
  rw [hsplit] at hsteps
  have hnew : ¬Registered before i := hsteps.of_append.not_registered
  have hbefore : Once before := hsteps.of_append.of_append
  have hfollows := Follows.run hbefore
  have habsent : ∀ seen, seen <+: before → i ∉ (run seen).members :=
    fun seen hseen => not_mem_members_of_not_registered hbefore hnew hseen
  have hnothing : log (put i) new before = [] := log_put_of_absent [] hbefore habsent
  have hnot : i ∉ (run before).members := habsent before List.prefix_rfl
  have hmem : i ∈ (run (before ++ [.register i])).members := by
    rw [run_concat, mem_members_step]
    exact .inr ⟨hfollows.running.mpr hrunning, rfl⟩
  have hregistered : Registered (before ++ [.register i]) i := ⟨before, [], rfl, hrunning⟩
  obtain ⟨during, later, rfl, hpresent, hgone, hlog⟩ := exists_split_of_mem hsteps hregistered hmem
  refine ⟨before, during, later, ⟨rfl, habsent, fun seen hseen => ?_, fun seen hseen hne => ?_⟩, ?_⟩
  · rw [List.append_cons]
    exact hpresent seen hseen
  · rw [List.append_cons]
    exact hgone seen hseen hne
  · calc log (put i) new (before ++ .register i :: (during ++ later))
        = log (put i) new before ++ put i (run before) (.register i) ++
            log (put i) (run (before ++ [.register i])) (during ++ later) := by
          rw [hsplit, log_append, log_concat]
          rfl
      _ = log taken (run (before ++ [.register i])) during := by
          rw [hnothing, hfollows.put_eq, if_neg fun h => hnot h.1, hlog]
          rfl

theorem Tenure.log_taken {steps before during later : List (Step ι φ)} {i : ι}
    (htenure : Tenure steps i before during later) :
    log taken new steps = log taken new before ++
      log taken (run (before ++ [.register i])) during ++
      log taken (run (before ++ .register i :: during)) later := by
  calc log taken new steps
      = log taken new before ++ log taken (run (before ++ [.register i])) (during ++ later) := by
        rw [htenure.split, log_append, run_concat]
        rfl
    _ = log taken new before ++ log taken (run (before ++ [.register i])) during ++
          log taken (run (before ++ .register i :: during)) later := by
        rw [log_append, ← run_append, ← List.append_cons, List.append_assoc]

/-! ## Slow members -/

/-- The loop removes a member exactly when it takes a frame for which the mailbox of the member
has no room. -/
theorem Orderly.not_mem_members_deliver {h : Hub ι φ} (horderly : Orderly h) {i : ι}
    (hi : i ∈ h.members) :
    i ∉ (h.step .deliver).members ↔
      taken h .deliver ≠ [] ∧ (h.waiting i).length = mailboxLimit := by
  obtain ⟨m, hm, -⟩ := horderly.mailbox? hi
  have hroom := horderly.room m (List.mem_of_find?_eq_some hm)
  have hfull : m.isFull = true ↔ m.frames.length = mailboxLimit := by
    simp only [Mailbox.isFull, decide_eq_true_eq]
    omega
  simp [mem_members_step, taken, waiting, hi, horderly.running_of_mem hi, hm, hfull]

def Step.reads (i : ι) : Step ι φ → Bool
  | .take owner => owner == i
  | .start | .register _ | .unregister _ | .broadcast _ | .deliver | .stop => false

theorem read_eq (i : ι) (h : Hub ι φ) (x : Step ι φ) :
    read i h x = (h.waiting i).take (if x.reads i then 1 else 0) := by
  cases x with
  | take owner => by_cases howner : owner = i <;> simp [read, Step.reads, howner]
  | start | register | unregister | broadcast | deliver | stop => rfl

/-- Whoever has gone can still read what is in the mailbox. -/
theorem log_read_of_gone {steps more : List (Step ι φ)} (hsteps : Once (steps ++ more))
    {i : ι} (hi : Registered steps i) (hnot : i ∉ (run steps).members) :
    log (read i) (run steps) more =
      ((run steps).waiting i).take (more.countP (·.reads i)) := by
  induction more generalizing steps with
  | nil => rfl
  | cons x rest ih =>
      have horderly := (Follows.run hsteps.of_append).toOrderly
      rw [List.append_cons] at hsteps
      have hgone := not_mem_members_of_gone hsteps.of_append hi hnot
      have hwaiting : (run (steps ++ [x])).waiting i =
          ((run steps).waiting i).drop (read i (run steps) x).length := by
        rw [run_concat, horderly.waiting_step, if_neg fun h => hnot h.1, List.append_nil]
      rw [log, ← run_concat, ih hsteps (hi.append _) hgone, hwaiting, read_eq, List.countP_cons]
      cases hframes : (run steps).waiting i with
      | nil => simp
      | cons frame frames => cases x.reads i <;> simp [List.take_succ_cons]

/-! ## The main statement -/

/-- The loop takes the accepted frames in order. What a mailbox is given is the block of frames
taken during the membership of its owner, which ends where a frame finds the mailbox full. Nobody
else makes a difference to this. -/
theorem run_delivers (steps : List (Step ι φ)) (hsteps : Once steps) :
    log accepted new steps = log taken new steps ++ (run steps).queue ∧
    (∀ i, log (put i) new steps = log (read i) new steps ++ (run steps).waiting i) ∧
    (∀ i, Registered steps i → ∃ before during later, Tenure steps i before during later ∧
      log (put i) new steps = log taken (run (before ++ [.register i])) during ∧
      log taken new steps = log taken new before ++ log (put i) new steps ++
        log taken (run (before ++ .register i :: during)) later) ∧
    (∀ i, ¬Registered steps i → log (put i) new steps = []) ∧
    (∀ before later i, steps = before ++ .deliver :: later → i ∈ (run before).members →
      (i ∉ (run (before ++ [.deliver])).members ↔
        taken (run before) .deliver ≠ [] ∧ ((run before).waiting i).length = mailboxLimit) ∧
      (i ∉ (run (before ++ [.deliver])).members →
        put i (run before) .deliver = [] ∧
        log (read i) (run (before ++ [.deliver])) later =
          ((run before).waiting i).take (later.countP (·.reads i)))) ∧
    ∀ i steps', steps'.filter (·.concerns i) = steps.filter (·.concerns i) →
      log (put i) new steps' = log (put i) new steps ∧
      log (read i) new steps' = log (read i) new steps ∧
      (run steps').mailbox? i = (run steps).mailbox? i ∧
      (i ∈ (run steps').members ↔ i ∈ (run steps).members) := by
  refine ⟨log_accepted steps hsteps, log_put steps hsteps, fun i hi => ?_, fun i hi => ?_,
    fun before later i hsplit hi => ?_, fun i steps' hsame => ?_⟩
  · obtain ⟨before, during, later, htenure, hput⟩ := exists_tenure hsteps hi
    exact ⟨before, during, later, htenure, hput, by rw [hput, htenure.log_taken]⟩
  · exact log_put_of_absent [] hsteps fun seen => not_mem_members_of_not_registered hsteps hi
  · rw [hsplit, List.append_cons] at hsteps
    have hfollows := Follows.run hsteps.of_append.of_append
    rw [run_concat]
    refine ⟨hfollows.not_mem_members_deliver hi, fun hgone => ?_⟩
    have hput : put i (run before) .deliver = [] := by
      rw [hfollows.put_eq, if_neg fun h => hgone h.2]
    have hwaiting : ((run before).step .deliver).waiting i = (run before).waiting i := by
      rw [hfollows.waiting_step, ← hfollows.put_eq, hput]
      simp [read]
    have hregistered : Registered (before ++ [.deliver]) i :=
      ((hfollows.registered i).mp (hfollows.owned i hi)).append _
    have hread := log_read_of_gone hsteps hregistered (run_concat before _ ▸ hgone)
    rw [run_concat, hwaiting] at hread
    exact ⟨hput, hread⟩
  · have halike : Alike i (run steps') (run steps) := alike_run hsame
    exact ⟨(seen_put i).log_run hsame, (seen_read i).log_run hsame, halike.mailbox, halike.member⟩

set_option maxRecDepth 4000 in
/-- The first of the two members is removed by the last frame and still reads the first two,
and the second would have read the same without the first. -/
theorem run_delivers_unevenPair :
    let steps := unevenPair ++ [.take 1, .take 1]
    Once steps ∧ ∃ before later, steps = before ++ .deliver :: later ∧
      1 ∈ (run before).members ∧ 1 ∉ (run (before ++ [.deliver])).members ∧
      log (read 1) (run (before ++ [.deliver])) later = [0, 1] ∧
      log (read 2) new (steps.filter (·.concerns 2)) = log (read 2) new steps := by
  intro steps
  have hsteps : Once steps := by
    unfold Once
    decide
  obtain ⟨-, -, -, -, hslow, halone⟩ := run_delivers steps hsteps
  have hsplit : steps = steps.take 196 ++ .deliver :: [.take 2, .take 1, .take 1] := by decide
  have hmember : 1 ∈ (run (steps.take 196)).members := by decide
  obtain ⟨hremoved, hread⟩ := hslow _ _ 1 hsplit hmember
  have hgone : 1 ∉ (run (steps.take 196 ++ [.deliver])).members := hremoved.mpr (by decide)
  refine ⟨hsteps, _, _, hsplit, hmember, hgone, ?_, (halone 2 _ ?_).2.1⟩
  · rw [(hread hgone).2]
    decide
  · rw [List.filter_filter]
    simp

end VoxelScout.Hub
