import Mathlib.Data.List.DropRight
import Mathlib.Data.List.Induction
import ProgramControl.Proofs.Completion.Order

/-!
# The history of a job position

Handles of a job position share it: they take turns, and each turn is one use, an advance or an
envelope to apply.  What came of the uses so far is its history, a list of marks.  The six numbers
of the job position say nothing but that history, whatever order advances, completions and
duplicates came in.

* `marks`                    the history that uses leave;
* `ofMarks`                  the job position that a history describes, field by field;
* `ofMarks_concat`           one more mark changes the description as the use changes the position;
* `after_countDuplicate`     one duplicate more has no part in what is done later;
* `after_eq_ofMarks`         a position is what its history describes, envelopes are applied in
                             increasing order, and what was applied once has no second effect.
-/

namespace ProgramControl.JobPosition

/-! ## Histories -/

/-- What is done to a job position, through any of its handles. -/
inductive Use where
  | advance (lines : Nat)
  | apply (e : Envelope)
  deriving DecidableEq, Repr

/-- What came of a use: an envelope was applied, or ignored as a duplicate. -/
inductive Mark where
  | advanced (lines : Nat)
  | applied (e : Envelope)
  | ignored (e : Envelope)
  deriving DecidableEq, Repr

def use : Use → JobPosition → JobPosition
  | .advance lines, j => j.advance lines
  | .apply e, j => (j.apply e).2

/-- The mark that a use leaves; whether an envelope was applied is the answer of `apply`. -/
def mark : Use → JobPosition → Mark
  | .advance lines, _ => .advanced lines
  | .apply e, j => if (j.apply e).1 then .applied e else .ignored e

/-- The position after some uses. -/
def after (uses : List Use) (j : JobPosition) : JobPosition := uses.foldl (fun j u => j.use u) j

/-- The marks that some uses leave, in order. -/
def marks : List Use → JobPosition → List Mark
  | [], _ => []
  | u :: uses, j => j.mark u :: marks uses (j.use u)

namespace Mark

def applied? : Mark → Option Envelope
  | .applied e => some e
  | _ => none

def isIgnored : Mark → Bool
  | .ignored _ => true
  | _ => false

/-- The job was sent back to its start. -/
def isRewind : Mark → Bool
  | .applied e => e.completion.repeatRequested
  | _ => false

/-- The job was brought to its end. -/
def isFinish : Mark → Bool
  | .applied e => !e.completion.repeatRequested
  | _ => false

def lines : Mark → Nat
  | .advanced lines => lines
  | _ => 0

end Mark

/-- The envelopes that were applied, in order. -/
def appliedIn (ms : List Mark) : List Envelope := ms.filterMap Mark.applied?

/-- The greatest number among the envelopes, or zero. -/
def greatestIn (es : List Envelope) : Nat := es.foldr (fun e n => max e.sequence n) 0

/-- The lines of all advances since the last rewind. -/
def linesSince (ms : List Mark) : Nat :=
  (ms.rtakeWhile fun m => !m.isRewind).foldr (fun m n => m.lines + n) 0

/-- The latest mark but for duplicates brought the job to its end. -/
def finishes (ms : List Mark) : Bool :=
  (ms.filter fun m => !m.isIgnored).getLast?.any Mark.isFinish

/-- The job position that a history describes. -/
def ofMarks (ms : List Mark) : JobPosition where
  position := linesSince ms
  finished := finishes ms
  completions := (appliedIn ms).length
  rewinds := (appliedIn ms).countP (·.completion.repeatRequested)
  duplicates := ms.countP Mark.isIgnored
  lastSequence := greatestIn (appliedIn ms)

section

variable {u : Use} {e : Envelope} {j : JobPosition} {m : Mark} {ms : List Mark}

theorem after_append (uses later : List Use) (j : JobPosition) :
    after (uses ++ later) j = after later (after uses j) := List.foldl_append

theorem marks_append (uses later : List Use) (j : JobPosition) :
    marks (uses ++ later) j = marks uses j ++ marks later (after uses j) := by
  induction uses generalizing j with
  | nil => rfl
  | cons u uses ih => exact congrArg (List.cons _) (ih (j.use u))

/-! ## One more mark -/

theorem appliedIn_concat (ms : List Mark) (m : Mark) :
    appliedIn (ms ++ [m]) = appliedIn ms ++ m.applied?.toList := by
  rw [appliedIn, List.filterMap_append, List.filterMap_cons]
  cases m.applied? <;> rfl

theorem greatestIn_concat (es : List Envelope) (e : Envelope) :
    greatestIn (es ++ [e]) = max (greatestIn es) e.sequence := by
  induction es with
  | nil => exact Nat.max_comm ..
  | cons f es ih =>
    rw [List.cons_append]
    show max f.sequence (greatestIn (es ++ [e])) = max (max f.sequence (greatestIn es)) e.sequence
    rw [ih, Nat.max_assoc]

theorem greatestIn_lt_iff {es : List Envelope} {n : Nat} :
    greatestIn es < n ↔ 0 < n ∧ ∀ e ∈ es, e.sequence < n := by
  induction es with
  | nil => exact ⟨fun h => ⟨h, nofun⟩, And.left⟩
  | cons e es ih =>
    show max e.sequence (greatestIn es) < n ↔ _
    rw [Nat.max_lt, ih, List.forall_mem_cons, and_left_comm]

theorem linesSince_concat (ms : List Mark) (m : Mark) :
    linesSince (ms ++ [m]) = if m.isRewind then 0 else linesSince ms + m.lines := by
  have shift (ns : List Mark) (k : Nat) : ns.foldr (fun m n => m.lines + n) k =
      ns.foldr (fun m n => m.lines + n) 0 + k := by
    induction ns with
    | nil => exact (Nat.zero_add k).symm
    | cons n ns ih => rw [List.foldr_cons, List.foldr_cons, ih, Nat.add_assoc]
  rw [linesSince, List.rtakeWhile_concat]
  cases m.isRewind with
  | true => rfl
  | false =>
    rw [Bool.not_false, if_pos rfl, List.foldr_append, shift, if_neg Bool.false_ne_true]
    rfl

theorem finishes_concat (ms : List Mark) (m : Mark) :
    finishes (ms ++ [m]) = if m.isIgnored then finishes ms else m.isFinish := by
  rw [finishes, List.filter_append, List.filter_singleton]
  cases m.isIgnored with
  | true => exact congrArg (fun ns : List Mark => ns.getLast?.any Mark.isFinish) (List.append_nil _)
  | false =>
    rw [Bool.not_false, cond_true, List.getLast?_concat]
    rfl

/-- One more mark changes the description as the use that left it changes the position. -/
theorem ofMarks_concat (ms : List Mark) (u : Use) :
    ofMarks (ms ++ [(ofMarks ms).mark u]) = (ofMarks ms).use u := by
  rw [ofMarks, linesSince_concat, finishes_concat, appliedIn_concat, List.countP_append]
  cases u with
  | advance lines =>
    simp [mark, use, advance, ofMarks, Mark.isRewind, Mark.isIgnored, Mark.isFinish, Mark.lines,
      Mark.applied?]
  | apply e =>
    by_cases old : e.sequence ≤ greatestIn (appliedIn ms)
    · have ignored : (ofMarks ms).apply e = (false, _) := if_pos old
      rw [mark, use, ignored]
      simp [ofMarks, Mark.isRewind, Mark.isIgnored, Mark.lines, Mark.applied?]
    · have last : max (greatestIn (appliedIn ms)) e.sequence = e.sequence :=
        Nat.max_eq_right (Nat.le_of_not_le old)
      have applied : (ofMarks ms).apply e = _ := if_neg old
      rw [mark, use, applied]
      cases wants : e.completion.repeatRequested <;>
        simp [ofMarks, Mark.isRewind, Mark.isIgnored, Mark.isFinish, Mark.lines, Mark.applied?,
          greatestIn_concat, last, wants]

theorem eq_ofMarks (uses : List Use) : after uses {} = ofMarks (marks uses {}) := by
  induction uses using List.reverseRecOn with
  | nil => rfl
  | append_singleton uses u ih =>
    have last : after (uses ++ [u]) {} = (after uses {}).use u := after_append uses [u] {}
    have left : marks (uses ++ [u]) {} = marks uses {} ++ [(after uses {}).mark u] :=
      marks_append uses [u] {}
    rw [last, left, ih, ofMarks_concat]

/-! ## What is applied -/

/-- An envelope is applied iff its number is above all that were applied before, and above zero. -/
theorem apply_ofMarks_iff : ((ofMarks ms).apply e).1 = true ↔
    0 < e.sequence ∧ ∀ a ∈ appliedIn ms, a.sequence < e.sequence := by
  rw [← greatestIn_lt_iff, ← Nat.not_le, ← Bool.not_eq_false, apply_eq_false_iff]
  rfl

theorem inOrder_appliedIn (uses : List Use) : InOrder (appliedIn (marks uses {})) := by
  induction uses using List.reverseRecOn with
  | nil => exact .nil
  | append_singleton uses u ih =>
    have left : marks (uses ++ [u]) {} = marks uses {} ++ [(after uses {}).mark u] :=
      marks_append uses [u] {}
    rw [left, appliedIn_concat]
    cases marked : ((after uses {}).mark u).applied? with
    | none => rwa [Option.toList_none, List.append_nil]
    | some e =>
      obtain ⟨new, rfl⟩ : ((after uses {}).apply e).1 = true ∧ u = .apply e := by
        cases u with
        | advance lines => cases marked
        | apply f =>
          cases answer : ((after uses {}).apply f).1 <;>
            simp only [mark, answer, Bool.false_eq_true, if_true, if_false, Mark.applied?,
              reduceCtorEq, Option.some.injEq] at marked
          subst marked
          exact ⟨answer, rfl⟩
      rw [eq_ofMarks, apply_ofMarks_iff] at new
      exact inOrder_append_singleton.2 ⟨ih, new.2⟩

/-! ## One more duplicate -/

/-- The position with one more duplicate counted. -/
def countDuplicate (j : JobPosition) : JobPosition := { j with duplicates := j.duplicates + 1 }

theorem use_countDuplicate (u : Use) (j : JobPosition) :
    j.countDuplicate.use u = (j.use u).countDuplicate ∧ j.countDuplicate.mark u = j.mark u := by
  cases u with
  | advance lines => exact ⟨rfl, rfl⟩
  | apply e =>
    by_cases old : e.sequence ≤ j.lastSequence
    · simp [use, mark, apply, old, countDuplicate]
    · cases wants : e.completion.repeatRequested <;>
        simp [use, mark, apply, old, countDuplicate, wants]

theorem after_countDuplicate (uses : List Use) (j : JobPosition) :
    after uses j.countDuplicate = (after uses j).countDuplicate ∧
      marks uses j.countDuplicate = marks uses j := by
  induction uses generalizing j with
  | nil => exact ⟨rfl, rfl⟩
  | cons u uses ih =>
    obtain ⟨next, same⟩ := use_countDuplicate u j
    obtain ⟨last, rest⟩ := ih (j.use u)
    refine ⟨?_, ?_⟩
    · show after uses (j.countDuplicate.use u) = _
      rw [next]
      exact last
    · rw [marks, marks, same, next, rest]

theorem apply_of_mem (uses : List Use) (mem : e ∈ appliedIn (marks uses {})) :
    (after uses {}).apply e = (false, (after uses {}).countDuplicate) := by
  have old : e.sequence ≤ (after uses {}).lastSequence := by
    rw [eq_ofMarks]
    refine Nat.le_of_not_lt fun above => ?_
    exact Nat.lt_irrefl _ ((greatestIn_lt_iff.1 above).2 e mem)
  rw [apply, if_pos old]
  rfl

end

/-- **A job position is what its history describes**, after any uses through any handles.  Envelopes
are applied in increasing order, each one exactly if its number is above all those before it; and
one that was applied, delivered again at any later time, is counted as a duplicate and has no other
effect then or afterwards. -/
theorem after_eq_ofMarks (uses : List Use) :
    after uses {} = ofMarks (marks uses {}) ∧
      InOrder (appliedIn (marks uses {})) ∧
      (∀ e, ((after uses {}).apply e).1 = true ↔
        0 < e.sequence ∧ ∀ a ∈ appliedIn (marks uses {}), a.sequence < e.sequence) ∧
      ∀ e ∈ appliedIn (marks uses {}), ∀ later : List Use,
        let again := uses ++ .apply e :: later
        let once := uses ++ later
        after again {} =
            { after once {} with duplicates := (after once {}).duplicates + 1 } ∧
          marks again {} = marks uses {} ++ .ignored e :: marks later (after uses {}) ∧
          marks once {} = marks uses {} ++ marks later (after uses {}) := by
  refine ⟨eq_ofMarks uses, inOrder_appliedIn uses, fun e => ?_, fun e mem later => ?_⟩
  · rw [eq_ofMarks]
    exact apply_ofMarks_iff
  · have duplicate := apply_of_mem uses mem
    have ignored : (after uses {}).mark (.apply e) = .ignored e := by
      rw [mark, duplicate]
      rfl
    have counted : (after uses {}).use (.apply e) = (after uses {}).countDuplicate := by
      rw [use, duplicate]
    obtain ⟨last, rest⟩ := after_countDuplicate later (after uses {})
    refine ⟨?_, ?_, marks_append ..⟩
    · show after (uses ++ .apply e :: later) {} = (after (uses ++ later) {}).countDuplicate
      rw [after_append, after_append, ← last, ← counted]
      rfl
    · show marks (uses ++ .apply e :: later) {} = _
      rw [marks_append, marks, ignored, counted, rest]

/-- A repeated job: the envelope of its first round comes again in the second round, and once more
after the job was finished. -/
theorem after_eq_ofMarks_secondRound :
    let first : Envelope := ⟨1, 1, ⟨true⟩⟩
    let uses : List Use := [.advance 10, .apply first, .advance 5]
    let later : List Use := [.apply ⟨2, 2, ⟨false⟩⟩, .apply first]
    first ∈ appliedIn (marks uses {}) ∧
      after (uses ++ .apply first :: later) {} =
        { after (uses ++ later) {} with duplicates := 2 } ∧
      after (uses ++ later) {} = ⟨5, true, 2, 1, 1, 2⟩ := by
  intro first uses later
  have mem : first ∈ appliedIn (marks uses {}) := by decide
  have again := ((after_eq_ofMarks uses).2.2.2 first mem later).1
  exact ⟨mem, again, rfl⟩

end ProgramControl.JobPosition
