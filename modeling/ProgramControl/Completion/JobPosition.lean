import ProgramControl.Completion.Envelope
import ProgramControl.Log

/-!
# The position within a job

A receiver of completions keeps the position within the stored job.  It applies each envelope at
most once: one whose sequence number is not above the last applied one is counted as a duplicate
and changes nothing else.

* `apply_eq_false_iff`       which envelopes are duplicates.
-/

namespace ProgramControl

structure JobPosition where
  /-- lines consumed since the start of the job -/
  position : Nat := 0
  /-- the job was finished by a plain end -/
  finished : Bool := false
  completions : Nat := 0
  rewinds : Nat := 0
  duplicates : Nat := 0
  lastSequence : Nat := 0
  deriving DecidableEq, Repr

namespace JobPosition

def advance (lines : Nat) (j : JobPosition) : JobPosition :=
  { j with position := j.position + lines, finished := false }

/-- Apply an envelope; the answer is `false` for a duplicate. -/
def apply (e : Envelope) (j : JobPosition) : Bool × JobPosition :=
  if e.sequence ≤ j.lastSequence then
    (false, { j with duplicates := j.duplicates + 1 })
  else
    let j := { j with lastSequence := e.sequence, completions := j.completions + 1 }
    if e.completion.repeatRequested then
      (true, { j with position := 0, finished := false, rewinds := j.rewinds + 1 })
    else (true, { j with finished := true })

/-- What applying an envelope reports, from the position before it. -/
def applyEntry (e : Envelope) (before : JobPosition) : Entry :=
  if e.sequence ≤ before.lastSequence then .debug s!"duplicate completion #{e.sequence} ignored"
  else if e.completion.repeatRequested then
    .info s!"program {e.program} complete: position reset for repeat"
  else .info s!"program {e.program} complete at position {before.position}"

/-! ## Small laws -/

theorem apply_eq_false_iff {e : Envelope} {j : JobPosition} :
    (j.apply e).1 = false ↔ e.sequence ≤ j.lastSequence := by
  unfold apply
  split
  · next h => exact iff_of_true rfl h
  · next h => refine iff_of_false ?_ h; split <;> simp

theorem lastSequence_apply (e : Envelope) (j : JobPosition) :
    (j.apply e).2.lastSequence = max j.lastSequence e.sequence := by
  unfold apply
  split
  · next h => exact (Nat.max_eq_left h).symm
  · next h =>
    have : j.lastSequence ≤ e.sequence := Nat.le_of_lt (Nat.lt_of_not_le h)
    split <;> exact (Nat.max_eq_right this).symm

end JobPosition

end ProgramControl
