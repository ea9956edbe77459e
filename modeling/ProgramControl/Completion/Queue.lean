import ProgramControl.Completion.Envelope
import ProgramControl.Log

/-!
# The completion queue

Completions wait in a channel of bounded depth and, when that is full, in a backlog without a
bound.  The sequence number is given out and the envelope is stored under one lock, which the
receiving end takes only to look into the backlog.  So a submission is two steps for the receiving
end: `offer` takes the lock, gives out the number and tries the channel; `hold` puts an envelope
that found no room into the backlog and ends the lock.  `notify` is the two in a row.

* `contents q`        channel, then backlog;
* `notify_contents`   an accepted submission is added to the contents exactly once;
* `takeChannel`, `takeBacklog`   the two ways out.
-/

namespace ProgramControl

structure Queue where
  /-- room in the channel, at least one -/
  depth : Nat
  channel : List Envelope := []
  backlog : List Envelope := []
  /-- the sequence number given out last -/
  issued : Nat := 0
  /-- the receiving end exists -/
  isOpen : Bool := true
  deriving DecidableEq, Repr

/-- What became of an envelope that was offered to the channel. -/
inductive Offer where
  | sent (e : Envelope)
  /-- no room: the envelope is to be held back -/
  | full (e : Envelope)
  | closed
  deriving DecidableEq, Repr

namespace Queue

def contents (q : Queue) : List Envelope := q.channel ++ q.backlog

def nextEnvelope (q : Queue) (program : Nat) (completion : Completion) : Envelope :=
  ⟨q.issued + 1, program, completion⟩

/-- First half of a submission.  The number is used up whatever becomes of the envelope.  While
the backlog holds anything the channel is not tried, not even to see whether it is closed. -/
def offer (program : Nat) (completion : Completion) (q : Queue) : Offer × Queue :=
  let e := q.nextEnvelope program completion
  let q := { q with issued := q.issued + 1 }
  if q.backlog.isEmpty then
    if q.isOpen then
      if q.channel.length < q.depth then (.sent e, { q with channel := q.channel ++ [e] })
      else (.full e, q)
    else (.closed, q)
  else (.full e, q)

/-- Second half of a submission that found no room. -/
def hold (e : Envelope) (q : Queue) : Queue := { q with backlog := q.backlog ++ [e] }

def notify (program : Nat) (completion : Completion) (q : Queue) :
    Except QueueFault Envelope × Queue :=
  match q.offer program completion with
  | (.sent e, q) => (.ok e, q)
  | (.full e, q) => (.ok e, q.hold e)
  | (.closed, q) => (.error .closed, q)

/-- What a submission reports, from its result and the queue after it. -/
def notifyEntry (result : Except QueueFault Envelope) (after : Queue) : Option Entry :=
  match result with
  | .error _ => none
  | .ok e =>
    if after.backlog.isEmpty then some (.debug s!"completion #{e.sequence} queued")
    else some (.warn (s!"completion queue full: #{e.sequence} held in backlog " ++
      s!"({after.backlog.length} waiting)"))

def takeChannel (q : Queue) : Option (Envelope × Queue) :=
  match q.channel with
  | [] => none
  | e :: rest => some (e, { q with channel := rest })

def takeBacklog (q : Queue) : Option (Envelope × Queue) :=
  match q.backlog with
  | [] => none
  | e :: rest => some (e, { q with backlog := rest })

/-- The receiving end goes away, and with it what the channel held. -/
def close (q : Queue) : Queue := { q with isOpen := false, channel := [] }

/-! ## Small laws -/

theorem notify_contents {q q' : Queue} {program : Nat} {completion : Completion} {e : Envelope}
    (h : q.notify program completion = (.ok e, q')) :
    q'.contents = q.contents ++ [e] ∧ e.sequence = q.issued + 1 ∧ q'.issued = q.issued + 1 := by
  unfold notify offer at h
  cases hb : q.backlog with
  | nil =>
    simp only [hb, List.isEmpty_nil, if_true] at h
    by_cases ho : q.isOpen = true
    · rw [if_pos ho] at h
      by_cases hr : q.channel.length < q.depth
      · rw [if_pos hr] at h
        cases h
        simp [contents, nextEnvelope, hb]
      · rw [if_neg hr] at h
        cases h
        simp [contents, nextEnvelope, hold, hb]
    · rw [if_neg ho] at h
      cases h
  | cons b bs =>
    simp only [hb, List.isEmpty_cons, Bool.false_eq_true, if_false] at h
    cases h
    simp [contents, nextEnvelope, hold, hb]

theorem notify_error {q q' : Queue} {program : Nat} {completion : Completion} {fault : QueueFault}
    (h : q.notify program completion = (.error fault, q')) : q'.contents = q.contents := by
  unfold notify at h
  split at h
  · cases h
  · cases h
  · rename_i offered
    cases h
    simp only [offer] at offered
    split at offered
    · split at offered
      · split at offered <;> cases offered
      · cases offered
        rfl
    · cases offered

end Queue

end ProgramControl
