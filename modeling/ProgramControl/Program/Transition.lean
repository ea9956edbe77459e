import ProgramControl.Program.Course
import ProgramControl.Roster

/-!
# Transitions of a program

How a directive moves a program between its run states, and what is done on the way.

| directive               | from            | on the way                                 | to      |
|-------------------------|-----------------|--------------------------------------------|---------|
| pause, unconditional    | running, paused | barrier, pause                             | paused  |
| pause, optional, on     | running, paused | barrier, pause                             | paused  |
| pause, optional, off    | running, paused | nothing                                    | same    |
| resume                  | paused          | nothing                                    | running |
| end, with repeat or not | running, paused | barrier, modal reset, outputs, completion  | ended   |

The shutdown latch is read on entry and again before every side effect but the last.  A latch
seen on the way ends the transition; what was done is reported and not undone.
-/

namespace ProgramControl

/-- What is fitted to the machine. -/
structure Equipment where
  barrier : Bool := true
  pause : Bool := true
  outputs : Roster := .empty
  deriving DecidableEq, Repr

/-- The program in hand and its number, counted from one. -/
structure Program where
  state : RunState := .running
  number : Nat := 1
  deriving DecidableEq, Repr, Inhabited

/-- The answer to a directive that was carried out. -/
structure Outcome where
  directive : Directive
  state : RunState
  steps : StepSet
  message : String
  deriving DecidableEq, Repr

/-- A course that may end in a refusal and may change the program in hand. -/
abbrev Transition := ExceptT Refusal (StateT Program Course)

namespace Transition

def perform (action : Action) : Transition action.Answer := monadLift (Course.perform action)

def refuseIfLatched : Transition Unit := do
  if ← perform .readLatch then throw .alreadyShutdown

/-- Give up in mid-transition. -/
def preempted {α : Type} (d : Directive) (completed : StepSet) : Transition α := do
  perform (.report (.warn s!"{d.text}: preempted by emergency stop after {completed.text}"))
  throw (.preempted d completed)

/-- Give up if shutdown has been latched meanwhile. -/
def checkpoint (d : Directive) (completed : StepSet) : Transition Unit := do
  if ← perform .readLatch then preempted d completed

/-- Enter a run state and publish it. -/
def enter (state : RunState) : Transition Unit := do
  let p ← get
  if p.state ≠ state then
    perform (.report (.info s!"program {p.number}: {p.state.name} → {state.name}"))
  set { p with state }
  perform (.publish state)

def waitForStandstill : Transition Unit := do
  perform .approachBarrier
  perform .awaitStandstill

def outcome (d : Directive) (steps : StepSet) (message : String) : Transition Outcome := do
  return ⟨d, (← get).state, steps, message⟩

/-! ## The transitions -/

variable (fitted : Equipment)

/-- Both collaborators of a pause are looked for before the first is called. -/
def pause (d : Directive) (message : String) : Transition Outcome := do
  if ¬ fitted.barrier then throw (.notConfigured d "motion barrier")
  if ¬ fitted.pause then throw (.notConfigured d "pause mechanism")
  waitForStandstill
  let steps := StepSet.motionQuiesced
  checkpoint d steps
  match ← perform .engagePause with
  | .error fault => throw (.stepFailed d "pause" fault)
  | .ok () =>
    enter .paused
    outcome d (steps.insert .pauseEngaged) message

def resume (d : Directive) : Transition Outcome := do
  let p ← get
  if p.state ≠ .paused then throw (.invalidTransition d p.state)
  enter .running
  outcome d .empty s!"{d.text}: program resumed"

/-- Tell one output to stop, unless shutdown is latched.  A failure is reported and no more. -/
def shutOff (d : Directive) (output : String) : Transition Flow := do
  if ← perform .readLatch then return .stop
  match ← perform (.shutOff output) with
  | .ok () => pure ()
  | .error fault =>
    perform (.report (.warn
      s!"{d.text}: auxiliary output '{output}' shutdown failed: {fault.message}"))
  return .go

def shutOffAll (d : Directive) (completed : StepSet) : Transition Unit := do
  match ← Roster.walk (shutOff d) fitted.outputs.names with
  | .go => pure ()
  | .stop => preempted d completed

/-- Submit the completion of the program in hand.  The program has ended whether or not the
completion found a queue to wait in; the answer says which. -/
def submitCompletion (repeatRequested : Bool) : Transition Bool := do
  let p ← get
  match ← perform (.submit p.number ⟨repeatRequested⟩) with
  | .ok e =>
    perform (.report (.info
      s!"program {p.number} ended (repeat={repeatRequested}), completion #{e.sequence}"))
    return true
  | .error fault =>
    perform (.report (.error
      s!"program {p.number} ended but completion not queued: {fault.message}"))
    return false

def finish (d : Directive) (repeatRequested : Bool) : Transition Outcome := do
  if ¬ fitted.barrier then throw (.notConfigured d "motion barrier")
  waitForStandstill
  let steps := StepSet.motionQuiesced
  checkpoint d steps
  match ← perform .resetModal with
  | .error fault => throw (.stepFailed d "modal reset" fault)
  | .ok () =>
    let steps := steps.insert .modalReset
    shutOffAll fitted d steps
    let steps := steps.insert .auxiliaryOff
    checkpoint d steps
    enter .ended
    let emitted ← submitCompletion repeatRequested
    let steps := if emitted then steps.insert .completionEmitted else steps
    outcome d steps
      (if repeatRequested then s!"{d.text}: program end with reset - ready for restart"
        else s!"{d.text}: program end - ready for new program")

def pauseIfEnabled (d : Directive) : Transition Outcome := do
  if ← perform .readOptionalStop then
    pause fitted d s!"{d.text}: optional stop triggered - send RESUME to continue"
  else
    perform (.report (.debug s!"{d.text}: optional stop disabled, skipped"))
    outcome d .empty s!"{d.text}: optional stop skipped (disabled)"

def apply (d : Directive) : Transition Outcome := do
  refuseIfLatched
  let p ← get
  if ¬ d.isProgramDirective then throw (.invalidTransition d p.state)
  if p.state.isTerminal then throw (.programEnded d)
  match d with
  | .pauseUnconditional =>
    pause fitted d s!"{d.text}: program paused - send RESUME to continue"
  | .pauseOptional => pauseIfEnabled fitted d
  | .resumeObserved => resume d
  | .programEnd => finish fitted d false
  | .programEndRepeat => finish fitted d true
  | .emergencyStop | .setOptionalStop _ => throw (.invalidTransition d p.state)

/-- Begin a new program after the last has ended; the answer is its number. -/
def beginProgram : Transition Nat := do
  refuseIfLatched
  let p ← get
  if ¬ p.state.isTerminal then throw (.programActive p.state)
  set { p with number := p.number + 1 }
  enter .running
  perform (.report (.info s!"program {p.number + 1} started"))
  return p.number + 1

/-! ## Laws -/

theorem run_bind {α β : Type} (t : Transition α) (f : α → Transition β) (p : Program) :
    (t >>= f).run.run p = (t.run.run p).bind fun end_ =>
      match end_.1 with
      | .ok a => (f a).run.run end_.2
      | .error e => .done (.error e, end_.2) := by
  show Course.bind (t.run.run p) _ = _
  congr 1
  funext end_
  obtain ⟨r, q⟩ := end_
  cases r <;> rfl

end Transition

namespace Program

/-- A directive applied to a program: a course that ends with the answer and the program. -/
def apply (fitted : Equipment) (d : Directive) (p : Program) :
    Course (Except Refusal Outcome × Program) :=
  (Transition.apply fitted d).run.run p

def begin (p : Program) : Course (Except Refusal Nat × Program) :=
  Transition.beginProgram.run.run p

end Program

end ProgramControl
