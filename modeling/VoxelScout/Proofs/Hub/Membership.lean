import Mathlib.Data.List.Induction
import Mathlib.Data.List.Nodup
import VoxelScout.Hub

/-! # Members and their mailboxes

Members are removed when they leave, when they are too slow, and when the hub stops. Each of
these is a visit: it goes to some of those who have mailboxes, changes the mailboxes, and
removes the owners of some. Visits keep a hub in order, and so a hub is in order after every
history in which nobody asks twice to become a member.
-/

namespace VoxelScout.Hub

variable {ι φ : Type}

/-! ## Histories -/

def Step.newcomer? : Step ι φ → Option ι
  | .register owner => some owner
  | .start | .unregister _ | .broadcast _ | .deliver | .take _ | .stop => none

/-- Nobody asks twice to become a member. -/
def Once (steps : List (Step ι φ)) : Prop :=
  (steps.filterMap Step.newcomer?).Nodup

def Running (steps : List (Step ι φ)) : Prop :=
  .start ∈ steps ∧ .stop ∉ steps

/-- Someone became a member at some time, while the hub ran. -/
def Registered (steps : List (Step ι φ)) (i : ι) : Prop :=
  ∃ before after, steps = before ++ .register i :: after ∧ Running before

theorem registered_concat {steps : List (Step ι φ)} {x : Step ι φ} {i : ι} :
    Registered (steps ++ [x]) i ↔ Registered steps i ∨ x = .register i ∧ Running steps := by
  constructor
  · rintro ⟨before, after, hsteps, hrunning⟩
    rcases List.eq_nil_or_concat' after with rfl | ⟨after, last, rfl⟩
    · obtain ⟨rfl, hlast⟩ := List.append_inj' hsteps rfl
      cases hlast
      exact .inr ⟨rfl, hrunning⟩
    · rw [← List.cons_append, ← List.append_assoc] at hsteps
      obtain ⟨rfl, -⟩ := List.append_inj' hsteps rfl
      exact .inl ⟨before, after, rfl, hrunning⟩
  · rintro (⟨before, after, rfl, hrunning⟩ | ⟨rfl, hrunning⟩)
    · exact ⟨before, after ++ [x], by simp, hrunning⟩
    · exact ⟨steps, [], rfl, hrunning⟩

theorem Registered.append {steps : List (Step ι φ)} {i : ι} (h : Registered steps i)
    (more : List (Step ι φ)) : Registered (steps ++ more) i := by
  obtain ⟨before, after, rfl, hrunning⟩ := h
  exact ⟨before, after ++ more, by simp, hrunning⟩

theorem Once.of_append {steps more : List (Step ι φ)} (h : Once (steps ++ more)) : Once steps := by
  unfold Once at h
  rw [List.filterMap_append] at h
  exact List.Nodup.of_append_left h

/-- Whoever asks to become a member has never been one. -/
theorem Once.not_registered {steps : List (Step ι φ)} {i : ι}
    (h : Once (steps ++ [.register i])) : ¬Registered steps i := by
  rintro ⟨before, after, rfl, -⟩
  simp [Once, Step.newcomer?, List.nodup_append] at h

/-! ## Single mailboxes -/

def Mailbox.shut (m : Mailbox ι φ) : Mailbox ι φ :=
  { m with closed := true }

def Mailbox.pop (m : Mailbox ι φ) : Mailbox ι φ :=
  { m with frames := m.frames.tail }

/-- What may be done to the mailboxes of those who are visited: nobody else gets a mailbox,
those of the ones who leave are closed and no others, and none gets too full. -/
structure Courteous (leaves : Mailbox ι φ → Bool) (f : Mailbox ι φ → Mailbox ι φ) : Prop where
  owner : ∀ m, (f m).owner = m.owner
  closed : ∀ m, (f m).closed = (m.closed || leaves m)
  room : ∀ m, m.frames.length ≤ mailboxLimit → (f m).frames.length ≤ mailboxLimit

theorem courteous_shut : Courteous (ι := ι) (φ := φ) (fun _ => true) Mailbox.shut where
  owner _ := rfl
  closed m := by simp [Mailbox.shut]
  room _ h := h

theorem courteous_pop : Courteous (ι := ι) (φ := φ) (fun _ => false) Mailbox.pop where
  owner _ := rfl
  closed m := by simp [Mailbox.pop]
  room m h := by
    simp only [Mailbox.pop, List.length_tail]
    omega

theorem courteous_offer (frame : φ) :
    Courteous (ι := ι) Mailbox.isFull fun m => m.offer frame where
  owner m := by
    unfold Mailbox.offer
    split <;> rfl
  closed m := by
    unfold Mailbox.offer
    cases m.isFull <;> simp
  room m h := by
    unfold Mailbox.offer
    split
    · exact h
    · next hfull =>
        simp only [Mailbox.isFull, decide_eq_true_eq] at hfull
        simp only [List.length_append, List.length_singleton]
        omega

/-! ## Hubs in order -/

/-- Members and mailboxes fit each other: a mailbox is open as long as its owner is a member. -/
structure Orderly (h : Hub ι φ) : Prop where
  idle : h.phase ≠ .running → h.members = []
  nodup : h.members.Nodup
  owners : (h.mailboxes.map (·.owner)).Nodup
  owned : ∀ i ∈ h.members, i ∈ h.mailboxes.map (·.owner)
  closed : ∀ m ∈ h.mailboxes, m.closed = true ↔ m.owner ∉ h.members
  room : ∀ m ∈ h.mailboxes, m.frames.length ≤ mailboxLimit
  queue : h.queue.length ≤ queueLimit

namespace Orderly

variable {h : Hub ι φ}

theorem new : Orderly (new : Hub ι φ) where
  idle _ := rfl
  nodup := List.nodup_nil
  owners := List.nodup_nil
  owned _ hi := by cases hi
  closed _ hm := by cases hm
  room _ hm := by cases hm
  queue := Nat.zero_le _

theorem running_of_mem (horderly : Orderly h) {i : ι} (hi : i ∈ h.members) :
    h.phase = .running := by
  by_contra hphase
  rw [horderly.idle hphase] at hi
  cases hi

theorem post (horderly : Orderly h) (written : Option φ) : Orderly (h.post written).2 := by
  cases written with
  | none => exact horderly
  | some frame =>
      change Orderly (h.broadcast frame)
      unfold broadcast
      split
      · next hroom =>
          refine { horderly with queue := ?_ }
          simp only [List.length_append, List.length_singleton]
          omega
      · exact horderly

theorem register (horderly : Orderly h) {i : ι} (hi : i ∉ h.mailboxes.map (·.owner)) :
    Orderly (h.register i) := by
  unfold Hub.register
  split
  · next hrunning =>
      have hnew : i ∉ h.members := fun hmem => hi (horderly.owned i hmem)
      refine ⟨fun hphase => absurd (beq_iff_eq.mp hrunning) hphase, ?_, ?_, ?_, ?_, ?_,
        horderly.queue⟩
      · exact List.nodup_append.mpr ⟨horderly.nodup, List.nodup_singleton i, by grind⟩
      · rw [List.map_append]
        exact List.nodup_append.mpr ⟨horderly.owners, List.nodup_singleton i, by grind⟩
      · have howned := horderly.owned
        simp only [List.map_append, List.mem_append]
        grind
      · intro m hm
        rcases List.mem_append.mp hm with hm | hm
        · have hne : m.owner ≠ i := fun heq => hi (heq ▸ List.mem_map_of_mem hm)
          simp [hne, horderly.closed m hm]
        · obtain rfl := List.mem_singleton.mp hm
          simp
      · intro m hm
        rcases List.mem_append.mp hm with hm | hm
        · exact horderly.room m hm
        · obtain rfl := List.mem_singleton.mp hm
          exact Nat.zero_le _
  · exact horderly

end Orderly

/-- A hub in order that is as a history says. -/
structure Follows (steps : List (Step ι φ)) (h : Hub ι φ) : Prop extends Orderly h where
  running : h.phase = .running ↔ Running steps
  stopped : h.phase = .stopped ↔ .stop ∈ steps
  registered : ∀ i, i ∈ h.mailboxes.map (·.owner) ↔ Registered steps i

namespace Follows

variable {steps : List (Step ι φ)} {h : Hub ι φ}

theorem new : Follows [] (new : Hub ι φ) where
  toOrderly := Orderly.new
  running := by simp [Hub.new, Running]
  stopped := by simp [Hub.new]
  registered i := by simp [Hub.new, Registered]

end Follows

variable [DecidableEq ι]

theorem run_concat (steps : List (Step ι φ)) (x : Step ι φ) :
    run (steps ++ [x]) = (run steps).step x := by
  simp [run]

theorem owner_of_mailbox? {h : Hub ι φ} {i : ι} {m : Mailbox ι φ} (hm : h.mailbox? i = some m) :
    m.owner = i := by
  simpa using List.find?_some hm

theorem mailbox?_isSome {h : Hub ι φ} {i : ι} :
    (h.mailbox? i).isSome = true ↔ i ∈ h.mailboxes.map (·.owner) := by
  simp [mailbox?, List.find?_isSome]

/-- Where nobody has two mailboxes, one of them is the mailbox of its owner. -/
theorem mailbox?_owner {h : Hub ι φ} (howners : (h.mailboxes.map (·.owner)).Nodup)
    {m : Mailbox ι φ} (hm : m ∈ h.mailboxes) : h.mailbox? m.owner = some m := by
  have hsome : (h.mailbox? m.owner).isSome = true :=
    mailbox?_isSome.mpr (List.mem_map_of_mem hm)
  obtain ⟨m', hm'⟩ := Option.isSome_iff_exists.mp hsome
  rw [hm']
  exact congrArg some (List.inj_on_of_nodup_map howners (List.mem_of_find?_eq_some hm') hm
    (owner_of_mailbox? hm'))

/-! ## Visits -/

/-- The hub after a visit to some of those who have mailboxes: what the visit does to a
mailbox, and whose owner leaves. -/
def visit (h : Hub ι φ) (leaves : Mailbox ι φ → Bool) (f : Mailbox ι φ → Mailbox ι φ)
    (which : ι → Bool) : Hub ι φ :=
  { h with
    members := h.members.filter fun i => !(which i && (h.mailbox? i).any leaves)
    mailboxes := h.mailboxes.map fun m => if which m.owner then f m else m }

section Visit

variable {h : Hub ι φ} {leaves : Mailbox ι φ → Bool} {f : Mailbox ι φ → Mailbox ι φ}
  {which : ι → Bool}

theorem mailbox?_mapMailboxes (howner : ∀ m, (f m).owner = m.owner) (i : ι) :
    (h.mapMailboxes which f).mailbox? i =
      (h.mailbox? i).map fun m => if which i then f m else m := by
  have hcomp : ((fun m : Mailbox ι φ => m.owner == i) ∘ fun m => if which m.owner then f m else m) =
      fun m => m.owner == i := by
    funext m
    by_cases hm : which m.owner = true <;> simp [hm, howner]
  unfold mailbox? mapMailboxes
  rw [List.find?_map, hcomp]
  cases hfind : h.mailboxes.find? fun m => m.owner == i with
  | none => rfl
  | some m =>
      have hm : m.owner = i := owner_of_mailbox? hfind
      simp [hm]

theorem mailbox?_visit (hf : Courteous leaves f) (i : ι) :
    (h.visit leaves f which).mailbox? i =
      (h.mailbox? i).map fun m => if which i then f m else m :=
  mailbox?_mapMailboxes hf.owner i

theorem mem_members_visit {i : ι} :
    i ∈ (h.visit leaves f which).members ↔
      i ∈ h.members ∧ (which i = true → (h.mailbox? i).any leaves = false) := by
  simp only [visit, List.mem_filter, Bool.not_eq_true', Bool.and_eq_false_imp]

theorem owners_visit (hf : Courteous leaves f) :
    (h.visit leaves f which).mailboxes.map (·.owner) = h.mailboxes.map (·.owner) := by
  simp only [visit, List.map_map]
  apply List.map_congr_left
  intro m _
  by_cases hm : which m.owner = true <;> simp [hm, hf.owner]

/-- Only what is done to the mailboxes of those who are visited matters. -/
theorem visit_congr {leaves' : Mailbox ι φ → Bool} {f' : Mailbox ι φ → Mailbox ι φ}
    (hsame : ∀ m ∈ h.mailboxes, which m.owner = true → leaves m = leaves' m ∧ f m = f' m) :
    h.visit leaves f which = h.visit leaves' f' which := by
  have hmembers : (h.visit leaves f which).members = (h.visit leaves' f' which).members := by
    apply List.filter_congr
    intro i _
    cases hwhich : which i with
    | false => rfl
    | true =>
        cases hm : h.mailbox? i with
        | none => rfl
        | some m =>
            have howner : m.owner = i := owner_of_mailbox? hm
            simp [(hsame m (List.mem_of_find?_eq_some hm) (howner ▸ hwhich)).1]
  have hmailboxes : (h.visit leaves f which).mailboxes = (h.visit leaves' f' which).mailboxes := by
    apply List.map_congr_left
    intro m hm
    by_cases hwhich : which m.owner = true
    · simp [hwhich, (hsame m hm hwhich).2]
    · simp [hwhich]
  change Hub.mk h.phase _ _ h.queue = Hub.mk h.phase _ _ h.queue
  congr 1

/-- A visit on which nobody leaves. -/
theorem mapMailboxes_eq : h.mapMailboxes which f = h.visit (fun _ => false) f which := by
  simp [mapMailboxes, visit]

theorem visit_of_forall_not (hwhich : ∀ i, which i = false) : h.visit leaves f which = h := by
  simp [visit, hwhich]

/-- A visit to several is a visit to the first and then to the others. -/
theorem visit_cons (hf : Courteous leaves f) {i : ι} {rest : List ι} (hi : i ∉ rest) :
    (h.visit leaves f (· == i)).visit leaves f rest.contains =
      h.visit leaves f (i :: rest).contains := by
  have hmembers : ((h.visit leaves f (· == i)).visit leaves f rest.contains).members =
      (h.visit leaves f (i :: rest).contains).members := by
    change (h.members.filter _).filter _ = h.members.filter _
    rw [List.filter_filter]
    apply List.filter_congr
    intro j _
    rw [mailbox?_visit hf]
    by_cases hj : j = i
    · subst hj
      simp [hi]
    · simp [hj]
  have hmailboxes : ((h.visit leaves f (· == i)).visit leaves f rest.contains).mailboxes =
      (h.visit leaves f (i :: rest).contains).mailboxes := by
    change (h.mailboxes.map _).map _ = h.mailboxes.map _
    rw [List.map_map]
    apply List.map_congr_left
    intro m _
    by_cases hm : m.owner = i
    · simp [hm, hf.owner, hi]
    · simp [hm]
  change Hub.mk h.phase _ _ h.queue = Hub.mk h.phase _ _ h.queue
  congr 1

end Visit

/-! ## Steps on hubs in order -/

namespace Orderly

variable {h : Hub ι φ}

theorem mailbox? (horderly : Orderly h) {i : ι} (hi : i ∈ h.members) :
    ∃ m, h.mailbox? i = some m ∧ m.closed = false := by
  obtain ⟨m, hm⟩ := Option.isSome_iff_exists.mp (mailbox?_isSome.mpr (horderly.owned i hi))
  refine ⟨m, hm, Bool.eq_false_iff.mpr fun hclosed => ?_⟩
  have hgone := (horderly.closed m (List.mem_of_find?_eq_some hm)).mp hclosed
  exact hgone (owner_of_mailbox? hm ▸ hi)

theorem visit (horderly : Orderly h) {leaves : Mailbox ι φ → Bool}
    {f : Mailbox ι φ → Mailbox ι φ} (hf : Courteous leaves f) (which : ι → Bool) :
    Orderly (h.visit leaves f which) where
  idle hphase := by
    change h.members.filter _ = []
    rw [horderly.idle hphase, List.filter_nil]
  nodup := horderly.nodup.filter _
  owners := by
    rw [owners_visit hf]
    exact horderly.owners
  owned i hi := by
    rw [owners_visit hf]
    exact horderly.owned i (mem_members_visit.mp hi).1
  closed := by
    intro m' hm'
    obtain ⟨m, hm, rfl⟩ := List.mem_map.mp hm'
    have hclosed := horderly.closed m hm
    cases hwhich : which m.owner with
    | false => simp [mem_members_visit, hwhich, hclosed]
    | true =>
        simp only [if_true, hf.owner, hf.closed, mem_members_visit, hwhich, true_implies,
          mailbox?_owner horderly.owners hm, Option.any_some, Bool.or_eq_true, hclosed]
        grind
  room := by
    intro m' hm'
    obtain ⟨m, hm, rfl⟩ := List.mem_map.mp hm'
    by_cases hwhich : which m.owner = true
    · simpa [hwhich] using hf.room m (horderly.room m hm)
    · simpa [hwhich] using horderly.room m hm
  queue := horderly.queue

/-- To be removed is to be visited and to leave. -/
theorem remove_eq (horderly : Orderly h) (which : ι → Bool) :
    h.remove which =
      h.visit (fun _ => true) Mailbox.shut fun i => which i && h.members.contains i := by
  have hmembers : (h.remove which).members = (h.visit (fun _ => true) Mailbox.shut fun i =>
      which i && h.members.contains i).members := by
    apply List.filter_congr
    intro i hi
    obtain ⟨m, hm, -⟩ := horderly.mailbox? hi
    simp [hi, hm]
  change Hub.mk h.phase _ _ h.queue = Hub.mk h.phase _ _ h.queue
  congr 1

theorem unregister_of_mem (horderly : Orderly h) {i : ι} (hi : i ∈ h.members) :
    h.unregister i = h.visit (fun _ => true) Mailbox.shut (· == i) := by
  have hrunning : h.phase = .running := horderly.running_of_mem hi
  have hwhich : (fun j => j == i && h.members.contains j) = (· == i) := by
    funext j
    by_cases hj : j = i <;> simp [hj, hi]
  rw [Hub.unregister, if_pos (by simp [hrunning]), horderly.remove_eq, hwhich]

theorem unregister_of_not_mem (horderly : Orderly h) {i : ι} (hi : i ∉ h.members) :
    h.unregister i = h := by
  unfold Hub.unregister
  split
  · rw [horderly.remove_eq]
    apply visit_of_forall_not
    intro j
    by_cases hj : j = i <;> simp [hj, hi]
  · rfl

theorem stop_eq (horderly : Orderly h) :
    h.stop =
      { h.visit (fun _ => true) Mailbox.shut h.members.contains with phase := .stopped } := by
  rw [Hub.stop, horderly.remove_eq]
  simp only [Bool.true_and]

end Orderly

theorem deliver_of_cons {h : Hub ι φ} (hrunning : h.phase = .running) {frame : φ} {rest : List φ}
    (hqueue : h.queue = frame :: rest) :
    h.deliver = { h with queue := rest }.visit Mailbox.isFull (fun m => m.offer frame)
      h.members.contains := by
  have hmembers : (h.members.filter fun i => !h.slow.contains i) =
      h.members.filter fun i => !(h.members.contains i && (h.mailbox? i).any Mailbox.isFull) := by
    apply List.filter_congr
    intro i hi
    simp [slow, hi]
  unfold deliver
  rw [if_pos (by simp [hrunning]), hqueue]
  change Hub.mk h.phase _ _ rest = Hub.mk h.phase _ _ rest
  rw [hmembers]
  rfl

/-- The loop is idle when it does not run or finds no frame; else it offers the first frame to
every member. -/
theorem deliver_cases (h : Hub ι φ) :
    (h.phase ≠ .running ∨ h.queue = []) ∧ h.deliver = h ∨
      ∃ frame rest, h.phase = .running ∧ h.queue = frame :: rest ∧
        h.deliver = { h with queue := rest }.visit Mailbox.isFull (fun m => m.offer frame)
          h.members.contains := by
  by_cases hrunning : h.phase = .running
  · cases hqueue : h.queue with
    | nil => exact .inl ⟨.inr rfl, by simp [deliver, hqueue]⟩
    | cons frame rest =>
        exact .inr ⟨frame, rest, hrunning, rfl, deliver_of_cons hrunning hqueue⟩
  · exact .inl ⟨.inl hrunning, by simp [deliver, hrunning]⟩

theorem take_eq (h : Hub ι φ) (i : ι) :
    h.take i = h.visit (fun _ => false) Mailbox.pop (· == i) :=
  mapMailboxes_eq

/-- Hubs stay in order as long as nobody who has a mailbox asks for another. -/
theorem Orderly.step {h : Hub ι φ} (horderly : Orderly h) {x : Step ι φ}
    (hnew : ∀ i, x = .register i → i ∉ h.mailboxes.map (·.owner)) : Orderly (h.step x) := by
  cases x with
  | start =>
      change Orderly h.start
      unfold start
      split
      · next hwaiting =>
          have hidle : h.members = [] := horderly.idle (by simp [beq_iff_eq.mp hwaiting])
          exact { horderly with idle := fun _ => hidle }
      · exact horderly
  | register i => exact horderly.register (hnew i rfl)
  | unregister i =>
      change Orderly (h.unregister i)
      by_cases hi : i ∈ h.members
      · rw [horderly.unregister_of_mem hi]
        exact horderly.visit courteous_shut _
      · rw [horderly.unregister_of_not_mem hi]
        exact horderly
  | broadcast written => exact horderly.post written
  | deliver =>
      change Orderly h.deliver
      rcases h.deliver_cases with ⟨-, hidle⟩ | ⟨frame, rest, -, hqueue, hdeliver⟩
      · rwa [hidle]
      · have hrest : Orderly { h with queue := rest } := by
          have hlength := horderly.queue
          rw [hqueue] at hlength
          exact { horderly with queue := Nat.le_of_succ_le hlength }
        rw [hdeliver]
        exact hrest.visit (courteous_offer frame) _
  | take i =>
      change Orderly (h.take i)
      rw [take_eq]
      exact horderly.visit courteous_pop _
  | stop =>
      change Orderly h.stop
      rw [horderly.stop_eq]
      have hvisit := horderly.visit courteous_shut h.members.contains
      have hnobody : (h.visit (fun _ => true) Mailbox.shut h.members.contains).members = [] := by
        rw [List.eq_nil_iff_forall_not_mem]
        intro i hi
        obtain ⟨hi, hstays⟩ := mem_members_visit.mp hi
        obtain ⟨m, hm, -⟩ := horderly.mailbox? hi
        simp [hi, hm] at hstays
      exact { hvisit with idle := fun _ => hnobody }

/-! ## What one step does -/

theorem step_owners (h : Hub ι φ) (x : Step ι φ) :
    (h.step x).mailboxes.map (·.owner) = h.mailboxes.map (·.owner) ++
      if h.phase = .running then x.newcomer?.toList else [] := by
  have hremove (which : ι → Bool) :
      (h.remove which).mailboxes.map (·.owner) = h.mailboxes.map (·.owner) := by
    simp only [remove, List.map_map]
    apply List.map_congr_left
    intro m _
    simp only [Function.comp_apply]
    split <;> rfl
  cases x with
  | start =>
      simp only [step, start, Step.newcomer?]
      split <;> simp
  | register i =>
      by_cases hrunning : h.phase = .running <;>
        simp [step, register, Step.newcomer?, hrunning]
  | unregister i =>
      simp only [step, unregister, Step.newcomer?]
      split <;> simp [hremove]
  | broadcast written =>
      cases written with
      | none => simp [step, post, Step.newcomer?]
      | some frame =>
          simp only [step, post, broadcast, Step.newcomer?]
          split <;> simp
  | deliver =>
      simp only [step, Step.newcomer?, Option.toList_none, ite_self, List.append_nil]
      rcases h.deliver_cases with ⟨-, hidle⟩ | ⟨frame, rest, -, -, hdeliver⟩
      · rw [hidle]
      · rw [hdeliver]
        exact owners_visit (courteous_offer frame)
  | take i =>
      simp only [step, Step.newcomer?, Option.toList_none, ite_self, List.append_nil, take_eq]
      exact owners_visit courteous_pop
  | stop => simp [step, stop, Step.newcomer?, hremove]

theorem step_phase (h : Hub ι φ) (x : Step ι φ) :
    (h.step x).phase =
      match x with
      | .start => if h.phase = .waiting then .running else h.phase
      | .stop => .stopped
      | _ => h.phase := by
  cases x with
  | start => by_cases hwaiting : h.phase = .waiting <;> simp [step, start, hwaiting]
  | register i => by_cases hrunning : h.phase = .running <;> simp [step, register, hrunning]
  | unregister i =>
      by_cases hrunning : h.phase = .running <;> simp [step, unregister, remove, hrunning]
  | broadcast written =>
      cases written with
      | none => rfl
      | some frame =>
          simp only [step, post, broadcast]
          split <;> rfl
  | deliver =>
      rcases h.deliver_cases with ⟨-, hidle⟩ | ⟨frame, rest, -, -, hdeliver⟩
      · simp [step, hidle]
      · simp [step, hdeliver, visit]
  | take i => rfl
  | stop => rfl

theorem queue_step (h : Hub ι φ) (x : Step ι φ) :
    (h.step x).queue =
      match x with
      | .broadcast written =>
        if h.queue.length < queueLimit then h.queue ++ written.toList else h.queue
      | .deliver => if h.phase = .running then h.queue.tail else h.queue
      | _ => h.queue := by
  cases x with
  | start => by_cases hwaiting : h.phase = .waiting <;> simp [step, start, hwaiting]
  | register owner => by_cases hrunning : h.phase = .running <;> simp [step, register, hrunning]
  | unregister owner =>
      by_cases hrunning : h.phase = .running <;> simp [step, unregister, remove, hrunning]
  | broadcast written =>
      cases written with
      | none => simp [step, post]
      | some frame =>
          by_cases hroom : h.queue.length < queueLimit <;> simp [step, post, broadcast, hroom]
  | deliver =>
      rcases h.deliver_cases with ⟨hno, hidle⟩ | ⟨frame, rest, hrunning, hqueue, hdeliver⟩
      · rcases hno with hno | hno <;> simp [step, hidle, hno]
      · simp [step, hdeliver, visit, hrunning, hqueue]
  | take owner => rfl
  | stop => rfl

theorem mem_members_step (h : Hub ι φ) (x : Step ι φ) (i : ι) :
    i ∈ (h.step x).members ↔
      match x with
      | .register owner => i ∈ h.members ∨ h.phase = .running ∧ owner = i
      | .unregister owner => i ∈ h.members ∧ ¬(h.phase = .running ∧ owner = i)
      | .deliver => i ∈ h.members ∧
          ¬(h.phase = .running ∧ h.queue ≠ [] ∧ (h.mailbox? i).any Mailbox.isFull = true)
      | .stop => False
      | _ => i ∈ h.members := by
  cases x with
  | start => by_cases hwaiting : h.phase = .waiting <;> simp [step, start, hwaiting]
  | register owner =>
      by_cases hrunning : h.phase = .running <;>
        simp [step, register, hrunning, eq_comm (a := i)]
  | unregister owner =>
      by_cases hrunning : h.phase = .running <;>
        simp [step, unregister, remove, hrunning, eq_comm (a := i)]
  | broadcast written =>
      cases written with
      | none => rfl
      | some frame =>
          by_cases hroom : h.queue.length < queueLimit <;> simp [step, post, broadcast, hroom]
  | deliver =>
      rcases h.deliver_cases with ⟨hno, hidle⟩ | ⟨frame, rest, hrunning, hqueue, hdeliver⟩
      · rcases hno with hno | hno <;> simp [step, hidle, hno]
      · simp only [step, hdeliver, mem_members_visit]
        simp [mailbox?, hrunning, hqueue]
        grind
  | take owner => rfl
  | stop => simp [step, stop, remove]

theorem mailbox?_remove (h : Hub ι φ) (which : ι → Bool) (i : ι) :
    (h.remove which).mailbox? i =
      (h.mailbox? i).map fun m => if which i && h.members.contains i then m.shut else m := by
  have hremove : (h.remove which).mailbox? i =
      (h.mapMailboxes (fun j => which j && h.members.contains j) Mailbox.shut).mailbox? i := rfl
  rw [hremove, mailbox?_mapMailboxes courteous_shut.owner]

theorem mailbox?_step (h : Hub ι φ) (x : Step ι φ) (i : ι) :
    (h.step x).mailbox? i =
      match x with
      | .register owner =>
        (h.mailbox? i).or (if h.phase = .running ∧ owner = i then some ⟨i, [], false⟩ else none)
      | .unregister owner => (h.mailbox? i).map fun m =>
        if h.phase = .running ∧ owner = i ∧ i ∈ h.members then m.shut else m
      | .deliver => (h.mailbox? i).map fun m =>
        if h.phase = .running ∧ i ∈ h.members then h.queue.head?.elim m m.offer else m
      | .take owner => (h.mailbox? i).map fun m => if owner = i then m.pop else m
      | .stop => (h.mailbox? i).map fun m => if i ∈ h.members then m.shut else m
      | _ => h.mailbox? i := by
  cases x with
  | start => by_cases hwaiting : h.phase = .waiting <;> simp [step, start, hwaiting, mailbox?]
  | register owner =>
      by_cases hrunning : h.phase = .running
      · by_cases howner : owner = i <;>
          simp [step, register, hrunning, mailbox?, List.find?_append, howner]
      · simp [step, register, hrunning]
  | unregister owner =>
      by_cases hrunning : h.phase = .running
      · simp only [step, unregister, hrunning, beq_self_eq_true, if_true, true_and, mailbox?_remove]
        cases h.mailbox? i <;> grind
      · simp [step, unregister, hrunning]
  | broadcast written =>
      cases written with
      | none => rfl
      | some frame =>
          by_cases hroom : h.queue.length < queueLimit <;>
            simp [step, post, broadcast, hroom, mailbox?]
  | deliver =>
      rcases h.deliver_cases with ⟨hno, hidle⟩ | ⟨frame, rest, hrunning, hqueue, hdeliver⟩
      · rcases hno with hno | hno <;> simp [step, hidle, hno]
      · simp only [step, hdeliver, mailbox?_visit (courteous_offer frame)]
        simp [mailbox?, hrunning, hqueue]
  | take owner =>
      simp only [step, take_eq, mailbox?_visit courteous_pop]
      grind
  | stop =>
      have hstop : (h.step .stop).mailbox? i = (h.remove fun _ => true).mailbox? i := rfl
      rw [hstop, mailbox?_remove]
      simp

/-! ## Runs -/

namespace Follows

variable {steps : List (Step ι φ)} {h : Hub ι φ}

theorem step (hfollows : Follows steps h) {x : Step ι φ} (hsteps : Once (steps ++ [x])) :
    Follows (steps ++ [x]) (h.step x) where
  toOrderly := by
    apply hfollows.toOrderly.step
    rintro i rfl
    rw [hfollows.registered]
    exact hsteps.not_registered
  running := by
    have hrunning := hfollows.running
    have hstopped := hfollows.stopped
    rw [step_phase]
    unfold Running at hrunning ⊢
    cases x <;> cases hphase : h.phase <;> grind
  stopped := by
    have hstopped := hfollows.stopped
    rw [step_phase]
    cases x <;> cases hphase : h.phase <;> grind
  registered i := by
    rw [step_owners, List.mem_append, hfollows.registered, registered_concat, ← hfollows.running]
    cases x <;> grind [Step.newcomer?]

theorem run {steps : List (Step ι φ)} (hsteps : Once steps) : Follows steps (run steps) := by
  induction steps using List.reverseRecOn with
  | nil => exact Follows.new
  | append_singleton steps x ih =>
      rw [run_concat]
      exact (ih hsteps.of_append).step hsteps

end Follows

end VoxelScout.Hub
