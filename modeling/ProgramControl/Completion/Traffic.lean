import ProgramControl.Completion.Courier
import ProgramControl.Completion.JobPosition

/-!
# Traffic through the completion queue

Any number of submitters and the courier's thread work on one queue.  A submission takes the
lock, gives out a number and offers the envelope to the channel; if there was no room it keeps the
lock until the envelope is in the backlog.  The courier looks into the channel without the lock
and into the backlog with it.  Handles are cloned and dropped at any time, and so an abort is
asked for.

A label names what happens next; a run is a list of labels, so a statement about all lists of
labels is one about every interleaving.

* `Traffic.step?`    one step, `none` while it cannot be taken;
* `Traffic.run`      a run; labels that cannot move change nothing.
-/

namespace ProgramControl

structure Traffic (σ : Type) where
  courier : Courier
  receiver : σ
  /-- an envelope that found no room, in the hands of the submitter who holds the lock -/
  held : Option Envelope := none
  /-- the envelopes taken up for delivery, in order -/
  taken : List Envelope := []
  /-- what submitters were told, in order -/
  told : List (Except QueueFault Envelope) := []

inductive Traffic.Label where
  /-- a submission begins, through any handle -/
  | submit (program : Nat) (completion : Completion)
  /-- the submission that found no room puts its envelope into the backlog -/
  | hold
  | courier
  | clone
  | drop
  | abort
  deriving DecidableEq, Repr

namespace Traffic

variable {σ : Type}

def start (policy : RetryPolicy) (depth : Nat) (receiver : σ) : Traffic σ :=
  { courier := .start policy depth, receiver }

def isLocked (t : Traffic σ) : Bool := t.held.isSome

/-- All that was submitted and not yet taken up, in the order in which it was submitted. -/
def waiting (t : Traffic σ) : List Envelope := t.courier.queue.contents ++ t.held.toList

def withQueue (queue : Queue) (t : Traffic σ) : Traffic σ :=
  { t with courier := { t.courier with queue } }

def submit (program : Nat) (completion : Completion) (t : Traffic σ) : Option (Traffic σ) :=
  if t.isLocked || t.courier.handles == 0 then none
  else match t.courier.queue.offer program completion with
    | (.sent e, queue) => some { t.withQueue queue with told := t.told ++ [.ok e] }
    | (.full e, queue) => some { t.withQueue queue with held := some e }
    | (.closed, queue) => some { t.withQueue queue with told := t.told ++ [.error .closed] }

def hold (t : Traffic σ) : Option (Traffic σ) :=
  t.held.map fun e =>
    { t.withQueue (t.courier.queue.hold e) with held := none, told := t.told ++ [.ok e] }

/-- The courier's next step looks into the backlog. -/
def needsLock : Stage → Bool
  | .checking | .draining => true
  | _ => false

/-- The envelope that a step of the courier took up. -/
def newlyTaken (before after : Courier) : List Envelope :=
  if before.inHand?.isNone then after.inHand?.toList else []

def moveCourier (r : Receiver σ) (t : Traffic σ) : Option (Traffic σ) :=
  if needsLock t.courier.stage && t.isLocked then none
  else (t.courier.step r t.receiver).map fun (courier, receiver) =>
    { t with courier, receiver, taken := t.taken ++ newlyTaken t.courier courier }

def withHandles (handles : Nat) (t : Traffic σ) : Traffic σ :=
  { t with courier := { t.courier with handles } }

/-- Handles that cannot be dropped: the one through which the lock was taken. -/
def inUse (t : Traffic σ) : Nat := t.held.toList.length

def step? (r : Receiver σ) : Label → Traffic σ → Option (Traffic σ)
  | .submit program completion, t => t.submit program completion
  | .hold, t => t.hold
  | .courier, t => t.moveCourier r
  | .clone, t =>
    if t.courier.handles = 0 then none else some (t.withHandles (t.courier.handles + 1))
  | .drop, t =>
    if t.courier.handles ≤ t.inUse then none
    else some (t.withHandles (t.courier.handles - 1))
  | .abort, t => some { t with courier := t.courier.abort }

/-- One step; nothing changes where it cannot be taken. -/
def step (r : Receiver σ) (l : Label) (t : Traffic σ) : Traffic σ := (step? r l t).getD t

def run (r : Receiver σ) (labels : List Label) (t : Traffic σ) : Traffic σ :=
  labels.foldl (fun t l => step r l t) t

end Traffic

/-- A job position receives envelopes: it is always ready and accepts every one. -/
def JobPosition.receiver : Receiver JobPosition where
  ready _ := true
  deliver e j := (.accepted, (j.apply e).2)

end ProgramControl
