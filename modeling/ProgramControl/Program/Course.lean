import ProgramControl.Completion.Envelope
import ProgramControl.Log
import ProgramControl.Refusal

/-!
# Courses of action

A thread acts on what it shares with others through indivisible actions: it reads or changes the
board, calls a collaborator, submits a completion, reports.  A course is the tree of what a thread
does next, depending on the answers so far; between two of its actions other threads may act.

The wait for standstill is two actions, because it begins at one moment and ends at another: a
thread approaches the barrier, and `awaitStandstill` is answered when the barrier lets it pass.

* `Board`              what all threads see;
* `Exchange`           an action as it was carried out, with its answer;
* `Course.interpret`   carry out a course in a monad that answers the actions;
* `bind_assoc`         courses compose.
-/

namespace ProgramControl

/-- Three things are visible to every thread: the optional-stop flag, the shutdown latch, and the
run state last published by the thread that owns the program.  Each operation is one indivisible
access. -/
structure Board where
  optionalStop : Bool := false
  latch : Latch := .clear
  published : RunState := .running
  deriving DecidableEq, Repr

namespace Board

def isLatched (b : Board) : Bool := b.latch.isLatched

/-- Set the optional-stop flag; the answer is its previous value. -/
def setOptionalStop (on : Bool) (b : Board) : Bool × Board :=
  (b.optionalStop, { b with optionalStop := on })

/-- Latch shutdown; the answer says whether this call latched it. -/
def trip (b : Board) : Bool × Board :=
  (!b.isLatched, { b with latch := .latched })

def check (b : Board) : Except Refusal Unit :=
  if b.isLatched then .error .alreadyShutdown else .ok ()

def publish (s : RunState) (b : Board) : Board := { b with published := s }

end Board

inductive Action where
  | readLatch
  | readOptionalStop
  | readPublished
  | tripLatch
  | setOptionalStop (on : Bool)
  | publish (state : RunState)
  | haltMotion
  | readHalted
  | countMove
  | approachBarrier
  | awaitStandstill
  | engagePause
  | resetModal
  | shutOff (output : String)
  | submit (program : Nat) (completion : Completion)
  | report (entry : Entry)
  deriving DecidableEq, Repr

namespace Action

@[reducible] def Answer : Action → Type
  | .readLatch | .readOptionalStop | .tripLatch | .setOptionalStop _ | .readHalted => Bool
  | .readPublished => RunState
  | .engagePause | .resetModal | .shutOff _ => Except Fault Unit
  | .submit .. => Except QueueFault Envelope
  | .publish _ | .haltMotion | .countMove | .approachBarrier | .awaitStandstill | .report _ => Unit

end Action

/-- An action as it was carried out.  `σ` is what the thread shares with others. -/
structure Exchange (σ : Type) where
  action : Action
  answer : action.Answer
  /-- what is shared, when the action begins -/
  before : σ
  /-- and when the answer is there -/
  after : σ

inductive Course (α : Type) where
  | done (a : α)
  | act (action : Action) (next : action.Answer → Course α)

namespace Course

variable {α β γ : Type}

def perform (action : Action) : Course action.Answer := .act action .done

def bind : Course α → (α → Course β) → Course β
  | .done a, f => f a
  | .act action next, f => .act action fun answer => (next answer).bind f

instance : Monad Course where
  pure := .done
  bind := bind

/-- Carry out a course where every action has an answer. -/
def interpret {m : Type → Type} [Monad m] (answer : (action : Action) → m action.Answer) :
    Course α → m α
  | .done a => pure a
  | .act action next => do interpret answer (next (← answer action))

/-! ## Laws -/

theorem bind_done (c : Course α) : c.bind .done = c := by
  induction c with
  | done a => rfl
  | act action next ih => exact congrArg (Course.act action) (funext ih)

theorem bind_assoc (c : Course α) (f : α → Course β) (g : β → Course γ) :
    (c.bind f).bind g = c.bind fun a => (f a).bind g := by
  induction c with
  | done a => rfl
  | act action next ih => exact congrArg (Course.act action) (funext ih)

instance : LawfulMonad Course := LawfulMonad.mk' Course
  (fun c => bind_done c) (fun _ _ => rfl) (fun c f g => bind_assoc c f g)

@[simp] theorem pure_eq (a : α) : (pure a : Course α) = .done a := rfl

@[simp] theorem bind_eq (c : Course α) (f : α → Course β) : c >>= f = c.bind f := rfl

end Course

end ProgramControl
