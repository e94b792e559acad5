import VoxelScout.Proofs.Hub.Membership

/-! # Mailboxes are closed once

The careful steps below visit the members one by one, in any order, and fail wherever
something is put into a closed mailbox or a closed mailbox is closed. They never fail: they
come to what the steps of the hub come to, whatever the order. So a mailbox is closed exactly
when its owner was registered and is a member no longer.
-/

namespace VoxelScout.Hub

variable {ι φ : Type} [DecidableEq ι]

def isClosed (h : Hub ι φ) (i : ι) : Bool :=
  (h.mailbox? i).any (·.closed)

def isOpen (h : Hub ι φ) (i : ι) : Bool :=
  (h.mailbox? i).any (!·.closed)

/-! ## Careful steps -/

def send? (h : Hub ι φ) (i : ι) (frame : φ) : Option (Hub ι φ) :=
  if h.isOpen i then
    some (h.mapMailboxes (· == i) fun m => { m with frames := m.frames ++ [frame] })
  else none

/-- Removes a member and closes the mailbox, which has to be open. -/
def expel? (h : Hub ι φ) (i : ι) : Option (Hub ι φ) :=
  if h.isOpen i then
    some { h.mapMailboxes (· == i) Mailbox.shut with members := h.members.filter (· ≠ i) }
  else none

/-- Offers a frame to a member, who is removed if the mailbox is full. -/
def offer? (frame : φ) (h : Hub ι φ) (i : ι) : Option (Hub ι φ) :=
  if (h.mailbox? i).any Mailbox.isFull then h.expel? i else h.send? i frame

/-- A step that takes care of the mailboxes and visits the members in a given order. -/
def step? (h : Hub ι φ) (order : List ι) : Step ι φ → Option (Hub ι φ)
  | .start => some h.start
  | .register owner => some (h.register owner)
  | .unregister owner =>
    if h.phase == .running && h.members.contains owner then h.expel? owner else some h
  | .broadcast written => some (h.post written).2
  | .deliver =>
    if h.phase == .running then
      match h.queue with
      | [] => some h
      | frame :: rest => order.foldlM (offer? frame) { h with queue := rest }
    else some h
  | .take owner => some (h.take owner)
  | .stop => (order.foldlM expel? h).map fun h => { h with phase := .stopped }

/-- What careful steps may come to, in whatever order they visit the members. -/
inductive Reaches : List (Step ι φ) → Hub ι φ → Prop where
  | new : Reaches [] new
  | step {steps : List (Step ι φ)} {h h' : Hub ι φ} (before : Reaches steps h) (x : Step ι φ)
      (order : List ι) (visits : order.Perm h.members) (after : h.step? order x = some h') :
      Reaches (steps ++ [x]) h'

/-! ## Care is never needed -/

theorem expel?_of_isOpen {h : Hub ι φ} {i : ι} (hopen : h.isOpen i = true) :
    h.expel? i = some (h.visit (fun _ => true) Mailbox.shut (· == i)) := by
  have hmembers : h.members.filter (· ≠ i) =
      h.members.filter fun j => !(j == i && (h.mailbox? j).any fun _ => true) := by
    apply List.filter_congr
    intro j _
    by_cases hj : j = i
    · subst hj
      cases hm : h.mailbox? j with
      | none => simp [isOpen, hm] at hopen
      | some m => simp
    · simp [hj]
  simp only [expel?, hopen, if_true, hmembers]
  rfl

theorem offer?_of_isOpen {h : Hub ι φ} (howners : (h.mailboxes.map (·.owner)).Nodup) {i : ι}
    (hopen : h.isOpen i = true) (frame : φ) :
    offer? frame h i = some (h.visit Mailbox.isFull (fun m => m.offer frame) (· == i)) := by
  cases hm : h.mailbox? i with
  | none => simp [isOpen, hm] at hopen
  | some m =>
      -- it is the only mailbox of its owner, so that its room decides
      have hfull : ∀ m' ∈ h.mailboxes, (m'.owner == i) = true → m'.isFull = m.isFull := by
        intro m' hm' howner
        have hsame := mailbox?_owner howners hm'
        rw [beq_iff_eq.mp howner, hm] at hsame
        rw [Option.some.inj hsame]
      cases hroom : m.isFull with
      | true =>
          have hvisit : h.visit (fun _ => true) Mailbox.shut (· == i) =
              h.visit Mailbox.isFull (fun m => m.offer frame) (· == i) := by
            apply visit_congr
            intro m' hm' howner
            simp [hfull m' hm' howner, hroom, Mailbox.offer, Mailbox.shut]
          simp [offer?, hm, hroom, expel?_of_isOpen hopen, hvisit]
      | false =>
          have hvisit : h.visit (fun _ => false)
              (fun m => { m with frames := m.frames ++ [frame] }) (· == i) =
              h.visit Mailbox.isFull (fun m => m.offer frame) (· == i) := by
            apply visit_congr
            intro m' hm' howner
            simp [hfull m' hm' howner, hroom, Mailbox.offer]
          simp [offer?, hm, hroom, send?, hopen, mapMailboxes_eq, hvisit]

/-- Careful visits to members whose mailboxes are open succeed, in any order. -/
theorem foldlM_visit {visit? : Hub ι φ → ι → Option (Hub ι φ)} {leaves : Mailbox ι φ → Bool}
    {f : Mailbox ι φ → Mailbox ι φ} (hf : Courteous leaves f)
    (hvisit : ∀ (h : Hub ι φ) i, (h.mailboxes.map (·.owner)).Nodup → h.isOpen i = true →
      visit? h i = some (h.visit leaves f (· == i)))
    {order : List ι} (horder : order.Nodup) (h : Hub ι φ)
    (howners : (h.mailboxes.map (·.owner)).Nodup) (hopen : ∀ i ∈ order, h.isOpen i = true) :
    order.foldlM visit? h = some (h.visit leaves f order.contains) := by
  induction order generalizing h with
  | nil => exact congrArg some (visit_of_forall_not fun _ => rfl).symm
  | cons i rest ih =>
      obtain ⟨hi, hrest⟩ := List.nodup_cons.mp horder
      have hlater : ∀ j ∈ rest, (h.visit leaves f (· == i)).isOpen j = true := by
        intro j hj
        have hne : j ≠ i := fun heq => hi (heq ▸ hj)
        have hj := hopen j (List.mem_cons_of_mem i hj)
        simpa [isOpen, mailbox?_visit hf, hne] using hj
      rw [List.foldlM_cons, hvisit h i howners (hopen i List.mem_cons_self)]
      have hdistinct : ((h.visit leaves f (· == i)).mailboxes.map (·.owner)).Nodup := by
        rwa [owners_visit hf]
      exact (ih hrest _ hdistinct hlater).trans (congrArg some (visit_cons hf hi))

theorem Orderly.isOpen {h : Hub ι φ} (horderly : Orderly h) {i : ι} (hi : i ∈ h.members) :
    h.isOpen i = true := by
  obtain ⟨m, hm, hclosed⟩ := horderly.mailbox? hi
  simp [Hub.isOpen, hm, hclosed]

/-- A careful step succeeds and comes to what the step comes to. -/
theorem Orderly.step?_eq {h : Hub ι φ} (horderly : Orderly h) {order : List ι}
    (horder : order.Perm h.members) (x : Step ι φ) : h.step? order x = some (h.step x) := by
  have hnodup : order.Nodup := horder.nodup_iff.mpr horderly.nodup
  have hmem : ∀ i ∈ order, i ∈ h.members := fun i hi => horder.mem_iff.mp hi
  have hcontains : order.contains = h.members.contains := by
    funext i
    simp [horder.mem_iff]
  cases x with
  | start => rfl
  | register i => rfl
  | unregister i =>
      by_cases hi : i ∈ h.members
      · have hrunning : h.phase = .running := horderly.running_of_mem hi
        simp [step?, Hub.step, hrunning, hi, expel?_of_isOpen (horderly.isOpen hi),
          horderly.unregister_of_mem hi]
      · simp [step?, Hub.step, hi, horderly.unregister_of_not_mem hi]
  | broadcast written => rfl
  | deliver =>
      rcases h.deliver_cases with ⟨hno, hidle⟩ | ⟨frame, rest, hrunning, hqueue, hdeliver⟩
      · rcases hno with hno | hno <;> simp [step?, Hub.step, hidle, hno]
      · have hoffers : order.foldlM (offer? frame) { h with queue := rest } = some h.deliver := by
          rw [hdeliver, ← hcontains]
          exact foldlM_visit (courteous_offer frame)
            (fun h i howners hopen => offer?_of_isOpen howners hopen frame) hnodup _
            horderly.owners fun i hi => horderly.isOpen (hmem i hi)
        simpa [step?, Hub.step, hrunning, hqueue] using hoffers
  | take i => rfl
  | stop =>
      have hexpels : order.foldlM expel? h =
          some (h.visit (fun _ => true) Mailbox.shut h.members.contains) := by
        rw [← hcontains]
        exact foldlM_visit courteous_shut (fun h i _ hopen => expel?_of_isOpen hopen) hnodup h
          horderly.owners fun i hi => horderly.isOpen (hmem i hi)
      simp [step?, Hub.step, hexpels, horderly.stop_eq]

theorem reaches_iff {steps : List (Step ι φ)} (hsteps : Once steps) {h : Hub ι φ} :
    Reaches steps h ↔ h = run steps := by
  constructor
  · intro hreaches
    induction hreaches with
    | new => rfl
    | step before x order visits after ih =>
        have hrun := ih hsteps.of_append
        subst hrun
        rw [(Follows.run hsteps.of_append).step?_eq visits] at after
        rw [run_concat, Option.some.inj after]
  · rintro rfl
    induction steps using List.reverseRecOn with
    | nil => exact .new
    | append_singleton steps x ih =>
        have hfollows := Follows.run hsteps.of_append
        refine .step (ih hsteps.of_append) x (run steps).members (.refl _) ?_
        rw [hfollows.step?_eq (.refl _), run_concat]

/-- In whatever order members are visited, no frame is put into a closed mailbox and none is closed
twice. The closed mailboxes are those of everybody who was registered and is a member no longer;
stopping closes them all. -/
theorem run_closes_once (steps : List (Step ι φ)) (hsteps : Once steps) :
    (∀ h, Reaches steps h ↔ h = run steps) ∧
    (∀ i, (run steps).isClosed i = true ↔ Registered steps i ∧ i ∉ (run steps).members) ∧
    (∀ x order, order.Perm (run steps).members →
      (run steps).step? order x = some ((run steps).step x)) ∧
    (.stop ∈ steps → (run steps).members = [] ∧
      ∀ i, Registered steps i → (run steps).isClosed i = true) := by
  have hfollows : Follows steps (run steps) := Follows.run hsteps
  have hclosed (i : ι) : (run steps).isClosed i = true ↔
      Registered steps i ∧ i ∉ (run steps).members := by
    rw [← hfollows.registered, ← mailbox?_isSome]
    cases hm : (run steps).mailbox? i with
    | none => simp [isClosed, hm]
    | some m =>
        have howner : m.owner = i := owner_of_mailbox? hm
        simp [isClosed, hm, hfollows.closed m (List.mem_of_find?_eq_some hm), howner]
  refine ⟨fun h => reaches_iff hsteps, hclosed, fun x order horder => hfollows.step?_eq horder x,
    fun hstop => ?_⟩
  have hnobody : (run steps).members = [] :=
    hfollows.idle (by simp [hfollows.stopped.mpr hstop])
  refine ⟨hnobody, fun i hi => (hclosed i).mpr ⟨hi, ?_⟩⟩
  simp [hnobody]

def unevenPair : List (Step Nat Nat) :=
  [.start, .register 1, .register 2] ++
    (List.range 65).flatMap fun frame => [.broadcast (some frame), .deliver, .take 2]

set_option maxRecDepth 4000 in
/-- A member who was removed for being slow leaves, the hub stops, and then the other leaves. -/
theorem run_closes_once_unevenPair :
    let steps := unevenPair ++ [.unregister 1, .stop, .unregister 2]
    Once steps ∧ (run unevenPair).members = [2] ∧
      ∀ h, Reaches steps h → h.members = [] ∧ h.isClosed 1 = true ∧ h.isClosed 2 = true := by
  intro steps
  have hsteps : Once steps := by
    unfold Once
    decide
  have hone : Registered steps 1 := ⟨[.start], _, rfl, by simp [Running]⟩
  have htwo : Registered steps 2 := ⟨[.start, .register 1], _, rfl, by simp [Running]⟩
  obtain ⟨hreaches, -, -, hstop⟩ := run_closes_once steps hsteps
  obtain ⟨hnobody, hclosed⟩ := hstop (by simp [steps])
  refine ⟨hsteps, by decide, fun h hh => ?_⟩
  obtain rfl := (hreaches h).mp hh
  exact ⟨hnobody, hclosed 1 hone, hclosed 2 htwo⟩

end VoxelScout.Hub
