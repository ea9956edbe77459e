import Mathlib.Data.List.Induction
import ProgramControl.Proofs.Program.Watch

/-!
# The barrier

A transition that holds the job or resets the modal state waits for standstill first.  The wait also
ends when motion is halted, and the transition cannot tell one from the other.  So it looks at the
latch right after it, and only if the latch is clear does it go on.

* `gate`                  a watch that opens when the wait is over and the latch was found clear;
* `Call.obeys_gate`       a call passes the gate, or is preempted there and leaves the program as it
                          was;
* `gate_opened`           behind an open gate there was a wait, and a look after it.
-/

namespace ProgramControl

/-- How far a call has come on its way through the gate. -/
inductive Gate where
  /-- no wait has ended yet -/
  | shut
  /-- a wait has ended, and the latch was not looked at since -/
  | waited
  /-- the look after the wait found the latch set -/
  | seen
  /-- the look after the wait found it clear -/
  | passed
  deriving DecidableEq

/-- The job is held and the modal state reset behind the gate only.  Between a wait and the look
after it, and once the latch was seen there, nothing is done but reporting. -/
def gate : Watch Gate where
  allows now action :=
    match action with
    | .engagePause | .resetModal => now = .passed
    | .readLatch => now ≠ .seen
    | .report _ => True
    | .haltMotion => False
    | _ => now = .shut ∨ now = .passed
  next now action answer :=
    match action, answer with
    | .awaitStandstill, _ => .waited
    | .readLatch, found => if now = .waited then (if found then .seen else .passed) else now
    | _, _ => now

theorem gate_reports (entry : Entry) : gate.Ignores (.report entry) :=
  fun _ => ⟨trivial, fun _ => rfl⟩

/-- How a directive on the program `p` may end. -/
def Passes (d : Directive) (p : Program) : Gate → Except Refusal Outcome → Program → Prop
  | .shut, _, _ | .passed, _, _ => True
  | .waited, _, _ => False
  | .seen, r, q => r = .error (.preempted d .motionQuiesced) ∧ q = p

namespace Transition

variable {fitted : Equipment} {p : Program} {d : Directive}

theorem passes_pause (message : String) :
    Obeys gate .shut p (pause fitted d message) (Passes d p) := by
  simp only [pause, obeys_bind, obeys_ite, obeys_throw, then_ok, then_error,
    obeys_waitForStandstill, obeys_checkpoint gate_reports, obeys_perform]
  refine ⟨fun _ => trivial, fun _ => ⟨fun _ => trivial, fun _ => ?_⟩⟩
  refine ⟨.inl rfl, .inl rfl, Gate.noConfusion, ⟨rfl, rfl⟩, rfl, ?_⟩
  rintro (fault | ⟨⟩)
  · trivial
  · rw [obeys_bind, obeys_enter_publish gate_reports]
    exact ⟨.inr rfl, trivial⟩

theorem passes_resume : Obeys gate .shut p (resume d) (Passes d p) := by
  simp only [resume, obeys_bind, obeys_get, obeys_ite, obeys_throw, then_ok,
    obeys_enter_publish gate_reports, obeys_outcome]
  exact ⟨fun _ => trivial, fun _ => ⟨.inl rfl, trivial⟩⟩

theorem passes_pauseIfEnabled :
    Obeys gate .shut p (pauseIfEnabled fitted d) (Passes d p) := by
  simp only [pauseIfEnabled, obeys_bind, obeys_perform, then_ok, obeys_ite,
    obeys_report gate_reports, obeys_outcome]
  exact ⟨.inl rfl, fun _ => ⟨fun _ => passes_pause _, fun _ => trivial⟩⟩

theorem passes_submitCompletion (repeatRequested : Bool) {q : Program} :
    Obeys gate .passed q (submitCompletion repeatRequested) fun now _ _ => now = .passed := by
  simp only [submitCompletion, obeys_bind, obeys_get, then_ok, obeys_perform]
  refine ⟨.inr rfl, ?_⟩
  rintro (fault | e) <;> rw [obeys_bind, obeys_report gate_reports] <;> rfl

theorem passes_finish (repeatRequested : Bool) :
    Obeys gate .shut p (finish fitted d repeatRequested) (Passes d p) := by
  simp only [finish, obeys_bind, obeys_ite, obeys_throw, then_ok, then_error,
    obeys_waitForStandstill, obeys_checkpoint gate_reports, obeys_perform]
  refine ⟨fun _ => trivial, fun _ => ?_⟩
  refine ⟨.inl rfl, .inl rfl, Gate.noConfusion, ⟨rfl, rfl⟩, rfl, ?_⟩
  rintro (fault | ⟨⟩)
  · trivial
  · simp only [obeys_bind]
    -- what is behind the gate stays there, whatever later looks find
    refine (obeys_shutOffAll gate_reports d _ (· = .passed) (· = .passed) ?_ rfl).mono ?_
    · rintro n now rfl
      exact ⟨Gate.noConfusion, rfl, .inr rfl, fun _ => rfl⟩
    · rintro now r q ⟨rfl, ⟨rfl, rfl⟩ | ⟨rfl, rfl⟩⟩
      · simp only [then_ok, obeys_checkpoint gate_reports, then_error, obeys_bind,
          obeys_enter_publish gate_reports]
        refine ⟨Gate.noConfusion, trivial, .inr rfl,
          (passes_submitCompletion repeatRequested).mono ?_⟩
        rintro now (e | emitted) q rfl <;> trivial
      · trivial

theorem passes_apply : Obeys gate .shut p (apply fitted d) (Passes d p) := by
  simp only [apply, obeys_bind, obeys_refuseIfLatched, then_ok, then_error, obeys_get, obeys_ite,
    obeys_throw]
  refine ⟨Gate.noConfusion, trivial, fun _ => trivial, fun _ => ⟨fun _ => trivial, fun _ => ?_⟩⟩
  cases d with
  | pauseUnconditional => exact passes_pause _
  | pauseOptional => exact passes_pauseIfEnabled
  | resumeObserved => exact passes_resume
  | programEnd => exact passes_finish _
  | programEndRepeat => exact passes_finish _
  | emergencyStop => trivial
  | setOptionalStop enabled => trivial

theorem passes_beginProgram : Obeys gate .shut p beginProgram fun now _ _ => now = .shut := by
  simp only [beginProgram, obeys_bind, obeys_refuseIfLatched, then_ok, then_error, obeys_get,
    obeys_ite, obeys_throw, obeys_set, obeys_enter_publish gate_reports,
    obeys_report gate_reports, obeys_pure]
  exact ⟨Gate.noConfusion, rfl, fun _ => rfl, fun _ => ⟨.inl rfl, rfl⟩⟩

end Transition

/-- How a call on the program `p` may end. -/
def Call.Passes (call : Call) (p : Program) : Gate → Result × Program → Prop
  | .shut, _ | .passed, _ => True
  | .waited, _ => False
  | .seen, end_ => ∃ d, call = .directive d ∧
      end_ = (.error (.preempted d .motionQuiesced), p)

/-- A call that is stopped at the gate leaves the program as it was. -/
theorem Call.obeys_gate (call : Call) (fitted : Equipment) (p : Program) :
    Course.Obeys gate .shut (call.service fitted p) (call.Passes p) := by
  cases call with
  | directive d =>
    refine (Course.obeys_bind ..).2 (Course.Obeys.mono Transition.passes_apply ?_)
    rintro now ⟨r, q⟩ passes
    cases now with
    | shut => trivial
    | passed => trivial
    | waited => exact passes
    | seen =>
      obtain ⟨rfl, rfl⟩ := passes
      exact ⟨d, rfl, rfl⟩
  | beginProgram =>
    refine (Course.obeys_bind ..).2 (Course.Obeys.mono Transition.passes_beginProgram ?_)
    rintro now end_ rfl
    trivial

/-! ## Behind the gate -/

section

variable {σ : Type}

theorem gate_after_concat (now : Gate) (h : List (Exchange σ)) (x : Exchange σ) :
    gate.after now (h ++ [x]) = gate.next (gate.after now h) x.action x.answer := by
  rw [Watch.after, List.foldl_append]
  rfl

/-- What comes after a wait, and is no wait itself, opens the gate only by finding the latch
clear. -/
theorem gate_next_passed {now : Gate} {x : Exchange σ} (passed : gate.next now x.action x.answer =
    .passed) : now = .passed ∨ x.found? = some false := by
  obtain ⟨action, answer, before, after⟩ := x
  cases action with
  | awaitStandstill => cases passed
  | readLatch =>
    by_cases waited : now = .waited
    · subst waited
      cases answer with
      | true => cases passed
      | false => exact .inr rfl
    · refine .inl (Eq.trans ?_ passed)
      exact (if_neg waited).symm
  | _ => exact .inl passed

/-- A history that has come to the gate contains a last wait, and if it has passed the gate, a look
after that wait that found the latch clear. -/
theorem gate_opened (h : List (Exchange σ)) :
    gate.after .shut h = .shut ∨ ∃ a y b, h = a ++ y :: b ∧ y.action = .awaitStandstill ∧
      (∀ x ∈ b, x.action ≠ .awaitStandstill) ∧
      (gate.after .shut h = .passed → ∃ x ∈ b, x.found? = some false) := by
  induction h using List.reverseRecOn with
  | nil => exact .inl rfl
  | append_singleton h x ih =>
    rw [gate_after_concat]
    by_cases wait : x.action = .awaitStandstill
    · refine .inr ⟨h, x, [], rfl, wait, fun _ mem => absurd mem List.not_mem_nil, fun passed => ?_⟩
      obtain ⟨action, answer, before, after⟩ := x
      cases wait
      cases passed
    · rcases ih with still | ⟨a, y, b, rfl, waits, none, looked⟩
      · rw [still]
        obtain ⟨action, answer, before, after⟩ := x
        cases action with
        | awaitStandstill => exact absurd rfl wait
        | _ => exact .inl rfl
      · refine .inr ⟨a, y, b ++ [x], by simp, waits, fun z mem => ?_, fun passed => ?_⟩
        · rcases List.mem_append.1 mem with mem | mem
          · exact none z mem
          · rw [List.mem_singleton.1 mem]
            exact wait
        · rcases gate_next_passed passed with before | found
          · obtain ⟨z, mem, found⟩ := looked before
            exact ⟨z, List.mem_append_left _ mem, found⟩
          · exact ⟨x, List.mem_append_right _ (List.mem_singleton.2 rfl), found⟩

end

end ProgramControl
