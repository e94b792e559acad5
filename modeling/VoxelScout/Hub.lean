/-! # Broadcasting to many listeners

Frames go through one queue to the mailboxes of all members. Nothing ever waits: a frame
that finds the queue full is dropped, and a member whose mailbox is full is. Whoever is no
longer a member finds its mailbox closed, but what is in it can still be taken.
-/

namespace VoxelScout

namespace Hub

def queueLimit : Nat :=
  256

def mailboxLimit : Nat :=
  64

inductive Phase where
  | waiting
  | running
  | stopped
  deriving DecidableEq, Repr

structure Mailbox (ι φ : Type) where
  owner : ι
  /-- The frames that wait, oldest first. -/
  frames : List φ
  closed : Bool
  deriving DecidableEq, Repr

namespace Mailbox

variable {ι φ : Type}

def isFull (m : Mailbox ι φ) : Bool :=
  mailboxLimit ≤ m.frames.length

def offer (m : Mailbox ι φ) (frame : φ) : Mailbox ι φ :=
  if m.isFull then { m with closed := true } else { m with frames := m.frames ++ [frame] }

end Mailbox

end Hub

open Hub in
/-- The hub: its members, the mailboxes of all who ever registered, and the frames that
wait to be passed on. -/
structure Hub (ι φ : Type) where
  phase : Phase
  members : List ι
  mailboxes : List (Mailbox ι φ)
  queue : List φ
  deriving DecidableEq, Repr

namespace Hub

variable {ι φ : Type} [DecidableEq ι]

def new : Hub ι φ :=
  ⟨.waiting, [], [], []⟩

def size (h : Hub ι φ) : Nat :=
  h.members.length

def mailbox? (h : Hub ι φ) (owner : ι) : Option (Mailbox ι φ) :=
  h.mailboxes.find? fun m => m.owner == owner

def mapMailboxes (h : Hub ι φ) (which : ι → Bool) (f : Mailbox ι φ → Mailbox ι φ) : Hub ι φ :=
  { h with mailboxes := h.mailboxes.map fun m => if which m.owner then f m else m }

def start (h : Hub ι φ) : Hub ι φ :=
  if h.phase == .waiting then { h with phase := .running } else h

def register (h : Hub ι φ) (owner : ι) : Hub ι φ :=
  if h.phase == .running then
    { h with members := h.members ++ [owner], mailboxes := h.mailboxes ++ [⟨owner, [], false⟩] }
  else h

def remove (h : Hub ι φ) (which : ι → Bool) : Hub ι φ :=
  { h with
    members := h.members.filter fun i => !which i
    mailboxes := h.mailboxes.map fun m =>
      if which m.owner && h.members.contains m.owner then { m with closed := true } else m }

def unregister (h : Hub ι φ) (owner : ι) : Hub ι φ :=
  if h.phase == .running then h.remove (· == owner) else h

def broadcast (h : Hub ι φ) (frame : φ) : Hub ι φ :=
  if h.queue.length < queueLimit then { h with queue := h.queue ++ [frame] } else h

/-- Broadcasts a message as the frame it is written as, and says whether it could be
written. One that cannot be written changes nothing. -/
def post (h : Hub ι φ) (written : Option φ) : Bool × Hub ι φ :=
  match written with
  | none => (false, h)
  | some frame => (true, h.broadcast frame)

def slow (h : Hub ι φ) : List ι :=
  h.members.filter fun i => (h.mailbox? i).any Mailbox.isFull

/-- Passes the first frame of the queue on to the mailboxes of all members; the slow ones
are removed instead. -/
def deliver (h : Hub ι φ) : Hub ι φ :=
  if h.phase == .running then
    match h.queue with
    | [] => h
    | frame :: rest =>
      { h with
        queue := rest
        members := h.members.filter fun i => !h.slow.contains i
        mailboxes := h.mailboxes.map fun m =>
          if h.members.contains m.owner then m.offer frame else m }
  else h

def take (h : Hub ι φ) (owner : ι) : Hub ι φ :=
  h.mapMailboxes (· == owner) fun m => { m with frames := m.frames.tail }

def stop (h : Hub ι φ) : Hub ι φ :=
  { h.remove fun _ => true with phase := .stopped }

/-! ## Histories -/

/-- One thing that happens to a hub. A message that is broadcast comes as the frame it is
written as, if it can be written. -/
inductive Step (ι φ : Type) where
  | start
  | register (owner : ι)
  | unregister (owner : ι)
  | broadcast (written : Option φ)
  | deliver
  | take (owner : ι)
  | stop
  deriving DecidableEq, Repr

def step (h : Hub ι φ) : Step ι φ → Hub ι φ
  | .start => h.start
  | .register owner => h.register owner
  | .unregister owner => h.unregister owner
  | .broadcast written => (h.post written).2
  | .deliver => h.deliver
  | .take owner => h.take owner
  | .stop => h.stop

def run (steps : List (Step ι φ)) : Hub ι φ :=
  steps.foldl step new

end Hub

end VoxelScout
