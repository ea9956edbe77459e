import ProgramControl.Program.Transition

/-!
# Dispatch: many callers, one worker

Any number of callers ask for directives; one worker owns the program and applies what reaches
it, one request at a time, in the order in which requests entered a bounded channel.  Two calls
do not take that way: the emergency stop latches shutdown and halts motion on the caller's own
thread and never waits, and the optional-stop flag is set there too.  Visitors make no calls; they
stop the machine in an emergency, on their own threads.

The whole is a system of threads that share a state `σ` (the plant).  A label names the thread
that takes the next step; a run is a list of labels, so a statement about all lists of labels is
one about every interleaving.

* `System.move?`    the step of one thread, with what it shows; none while that thread cannot move;
* `System.step`     the same as a function of the system; nothing changes while it cannot move;
* `System.settle`   the schedule that lets the worker go first until nobody can move.
-/

namespace ProgramControl

inductive Call where
  | directive (d : Directive)
  | beginProgram
  deriving DecidableEq, Repr

inductive Reply where
  | outcome (o : Outcome)
  | program (number : Nat)
  deriving DecidableEq, Repr

abbrev Result := Except Refusal Reply

/-- Where a call stands after the part that runs on the caller's own thread. -/
inductive Submission where
  | settled (result : Result)
  /-- the worker has to do it -/
  | forWorker

namespace Call

def perform (action : Action) : Course action.Answer := .perform action

/-- Latch shutdown, then halt motion.  The answer says whether this call latched it. -/
def emergencyStop : Course Bool := do
  let first ← perform .tripLatch
  perform .haltMotion
  return first

/-- Continue unless shutdown is latched. -/
def unlessLatched (next : Course Submission) : Course Submission := do
  if ← perform .readLatch then return .settled (.error .alreadyShutdown)
  next

/-- An outcome of the caller's own thread, with the state last published. -/
def ownOutcome (d : Directive) (message : String) : Course Submission := do
  let state ← perform .readPublished
  return .settled (.ok (.outcome ⟨d, state, .empty, message⟩))

/-- The part of a call that runs on the caller's own thread. -/
def submission : Call → Course Submission
  | .directive .emergencyStop => do
    let _ ← emergencyStop
    ownOutcome .emergencyStop
      (Directive.emergencyStop.text ++ ": motion halted - restart required")
  | .directive (.setOptionalStop enabled) => unlessLatched do
    let _ ← perform (.setOptionalStop enabled)
    ownOutcome (.setOptionalStop enabled)
      ("SET_OPTIONAL_STOP: optional stop " ++ if enabled then "enabled" else "disabled")
  | .directive _ | .beginProgram => unlessLatched (return .forWorker)

/-- The part of a call that the worker does. -/
def service (fitted : Equipment) (p : Program) : Call → Course (Result × Program)
  | .directive d => do
    let (result, p) ← p.apply fitted d
    return (result.map .outcome, p)
  | .beginProgram => do
    let (result, p) ← p.begin
    return (result.map .program, p)

end Call

/-- A call on its way to the worker, with the place of its caller. -/
structure Errand where
  caller : Nat
  call : Call
  deriving DecidableEq, Repr

inductive Caller.Stage where
  /-- between calls -/
  | free
  /-- doing its own part of a call -/
  | calling (call : Call) (course : Course Submission)
  /-- about to put a call into the channel -/
  | sending (call : Call)
  /-- the call is in the channel or with the worker -/
  | awaiting

/-- A caller makes its calls one after the other and keeps the results. -/
structure Caller where
  todo : List Call
  stage : Caller.Stage := .free
  results : List Result := []

namespace Caller

def isFree (c : Caller) : Bool :=
  match c.stage with
  | .free => true
  | _ => false

def isDone (c : Caller) : Bool := c.todo.isEmpty && c.isFree

def receive (result : Result) (c : Caller) : Caller :=
  { c with stage := .free, results := c.results ++ [result] }

def isAwaiting (c : Caller) : Bool :=
  match c.stage with
  | .awaiting => true
  | _ => false

end Caller

inductive Worker where
  | idle (p : Program)
  | busy (errand : Errand) (course : Course (Result × Program))
  /-- a collaborator broke down under the worker -/
  | dead

namespace Worker

def isIdle : Worker → Bool
  | .idle _ => true
  | _ => false

def isDead : Worker → Bool
  | .dead => true
  | _ => false

/-- The program, while nothing is being done to it. -/
def program? : Worker → Option Program
  | .idle p => some p
  | _ => none

end Worker

/-- What the threads share.  An action is carried out when the plant is ready for it; no answer
means that the collaborator broke down. -/
structure Plant (σ : Type) where
  ready : Action → σ → Bool
  perform : (action : Action) → σ → Option action.Answer × σ

/-- What a step shows. -/
inductive Occurrence (σ : Type) where
  | begins (i : Nat) (call : Call)
  /-- an action of a caller's own part of a call -/
  | onCaller (i : Nat) (x : Exchange σ)
  /-- the caller's own part is done and the rest is for the worker -/
  | defers (i : Nat) (call : Call)
  /-- the call gets its result from the caller's own thread -/
  | settles (i : Nat) (call : Call) (result : Result)
  | enters (errand : Errand)
  /-- the worker takes an errand, with the program as it is then -/
  | takes (errand : Errand) (p : Program)
  | onWorker (x : Exchange σ)
  /-- the worker hands the result to the caller, with the program as it is then -/
  | replies (errand : Errand) (result : Result) (p : Program)
  | onVisitor (i : Nat) (x : Exchange σ)
  /-- a collaborator breaks down under the worker -/
  | breaks

structure System (σ : Type) where
  /-- room in the channel; with none a call is handed over when the worker is idle -/
  depth : Nat
  fitted : Equipment
  plant : σ
  channel : List Errand := []
  worker : Worker := .idle {}
  callers : List Caller := []
  visitors : List (Course Bool) := []

inductive Label where
  | caller (i : Nat)
  | worker
  | visitor (i : Nat)
  deriving DecidableEq, Repr

namespace System

variable {σ : Type} (world : Plant σ)

def setCaller (i : Nat) (c : Caller) (s : System σ) : System σ :=
  { s with callers := s.callers.set i c }

/-- The channel takes one more call now. -/
def hasRoom (s : System σ) : Bool :=
  s.channel.length < s.depth || (s.channel.isEmpty && s.worker.isIdle)

def deliver (i : Nat) (result : Result) (s : System σ) : System σ :=
  { s with callers := s.callers.modify i (·.receive result) }

/-- The worker is gone: whoever waits for it is told so. -/
def bury (s : System σ) : System σ :=
  { s with
    worker := .dead
    channel := []
    callers := s.callers.map fun c => if c.isAwaiting then c.receive (.error .closed) else c }

/-- The step of one caller, `none` while it cannot move. -/
def moveCaller (i : Nat) (s : System σ) : Option (Occurrence σ × System σ) :=
  match s.callers[i]? with
  | none => none
  | some c =>
    match c.stage with
    | .free =>
      match c.todo with
      | [] => none
      | call :: todo =>
        some (.begins i call, s.setCaller i { c with todo, stage := .calling call call.submission })
    | .calling call (.done (.settled result)) =>
      some (.settles i call result, s.setCaller i (c.receive result))
    | .calling call (.done .forWorker) =>
      some (.defers i call, s.setCaller i { c with stage := .sending call })
    | .calling call (.act action next) =>
      if world.ready action s.plant then
        match world.perform action s.plant with
        | (some answer, plant) =>
          some (.onCaller i ⟨action, answer, s.plant, plant⟩,
            { s.setCaller i { c with stage := .calling call (next answer) } with plant })
        | (none, _) => none
      else none
    | .sending call =>
      if s.worker.isDead then
        some (.settles i call (.error .closed), s.setCaller i (c.receive (.error .closed)))
      else if s.hasRoom then
        some (.enters ⟨i, call⟩, { s.setCaller i { c with stage := .awaiting } with
          channel := s.channel ++ [⟨i, call⟩] })
      else none
    | .awaiting => none

/-- The step of the worker, `none` while it cannot move. -/
def moveWorker (s : System σ) : Option (Occurrence σ × System σ) :=
  match s.worker with
  | .idle p =>
    match s.channel with
    | [] => none
    | errand :: channel =>
      some (.takes errand p,
        { s with channel, worker := .busy errand (errand.call.service s.fitted p) })
  | .busy errand (.done (result, p)) =>
    some (.replies errand result p, { s.deliver errand.caller result with worker := .idle p })
  | .busy errand (.act action next) =>
    if world.ready action s.plant then
      match world.perform action s.plant with
      | (some answer, plant) =>
        some (.onWorker ⟨action, answer, s.plant, plant⟩,
          { s with plant, worker := .busy errand (next answer) })
      | (none, plant) => some (.breaks, { s.bury with plant })
    else none
  | .dead => none

/-- The step of one visitor, `none` while it cannot move. -/
def moveVisitor (i : Nat) (s : System σ) : Option (Occurrence σ × System σ) :=
  match s.visitors[i]? with
  | some (.act action next) =>
    if world.ready action s.plant then
      match world.perform action s.plant with
      | (some answer, plant) =>
        some (.onVisitor i ⟨action, answer, s.plant, plant⟩,
          { s with plant, visitors := s.visitors.set i (next answer) })
      | (none, _) => none
    else none
  | _ => none

def move? : Label → System σ → Option (Occurrence σ × System σ)
  | .caller i, s => s.moveCaller world i
  | .worker, s => s.moveWorker world
  | .visitor i, s => s.moveVisitor world i

def step? (l : Label) (s : System σ) : Option (System σ) := (move? world l s).map Prod.snd

/-- The step of one thread; nothing changes while it cannot move. -/
def step (l : Label) (s : System σ) : System σ := (step? world l s).getD s

def run (labels : List Label) (s : System σ) : System σ :=
  labels.foldl (fun s l => step world l s) s

/-- The labels in the order in which `settle` tries them. -/
def labels (s : System σ) : List Label :=
  .worker :: (List.range s.callers.length).map .caller ++
    (List.range s.visitors.length).map .visitor

/-- Let the first thread that can move take a step, so many times at most. -/
def settleWithin : Nat → System σ → System σ
  | 0, s => s
  | n + 1, s =>
    match s.labels.findSome? (step? world · s) with
    | some s => settleWithin n s
    | none => s

/-- More steps than one call can take: the roster holds at most sixteen outputs, each of them good
for three actions. -/
def stepsPerCall : Nat := 100

def openCalls (s : System σ) : Nat :=
  s.callers.foldr (fun c n => c.todo.length + (if c.isFree then 0 else 1) + n) 0

/-- Enough steps for all calls that have no result yet, and two for each visitor. -/
def budget (s : System σ) : Nat := stepsPerCall * s.openCalls + 2 * s.visitors.length

def settle (s : System σ) : System σ := settleWithin world s.budget s

end System

end ProgramControl
