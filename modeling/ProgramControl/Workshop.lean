import ProgramControl.Completion.Courier
import ProgramControl.Dispatch.System
import ProgramControl.Motion
import ProgramControl.Simulation

/-!
# The workshop

The plant of a machine whose collaborators are all simulated: the board, the move counter, the
owner of the modal state, the mechanism that holds a job, the auxiliary outputs, and the courier
with the completion queue.  None of them ever breaks down, and only the wait for standstill can
keep a thread waiting.

* `Workshop.perform`   what an action does and answers;
* `Workshop.plant`     the same as a plant of a dispatch system;
* `admitMove`          the admission of a move as a course of its two accesses.
-/

namespace ProgramControl

structure Workshop where
  board : Board := {}
  motion : Motion := {}
  modal : ModalUnit := {}
  holder : HoldUnit := {}
  units : List OutputUnit := []
  courier : Courier
  log : List Entry := []
  deriving DecidableEq, Repr

/-- Admit a move: look whether motion is halted, then count the move in. -/
def admitMove : Course Bool := do
  if ← Course.perform .readHalted then
    Course.perform (.report Motion.refusedEntry)
    return false
  Course.perform .countMove
  return true

namespace Workshop

def report (entries : List Entry) (w : Workshop) : Workshop := { w with log := w.log ++ entries }

def engagePause (w : Workshop) : Except Fault Unit × Workshop :=
  let ((answer, entries), holder) := w.holder.hold
  (answer, { w with holder }.report entries)

def resetModal (w : Workshop) : Except Fault Unit × Workshop :=
  let ((answer, entries), modal) := w.modal.reset
  (answer, { w with modal }.report entries)

def shutOff (output : String) (w : Workshop) : Except Fault Unit × Workshop :=
  let ((answer, entries), units) := OutputUnit.shutOffFirst output w.units
  (answer, { w with units }.report entries)

def submit (program : Nat) (completion : Completion) (w : Workshop) :
    Except QueueFault Envelope × Workshop :=
  let (result, courier) := w.courier.notify program completion
  (result, { w with courier }.report (Queue.notifyEntry result courier.queue).toList)

def perform (action : Action) (w : Workshop) : action.Answer × Workshop :=
  match action with
  | .readLatch => (w.board.isLatched, w)
  | .readOptionalStop => (w.board.optionalStop, w)
  | .readPublished => (w.board.published, w)
  | .tripLatch =>
    let (first, board) := w.board.trip
    (first, { w with board })
  | .setOptionalStop on =>
    let (previous, board) := w.board.setOptionalStop on
    (previous, { w with board })
  | .publish state => ((), { w with board := w.board.publish state })
  | .haltMotion => ((), { w with motion := w.motion.halt })
  | .readHalted => (w.motion.isHalted, w)
  | .countMove => ((), { w with motion := w.motion.countIn }.report [w.motion.countEntry])
  | .approachBarrier => ((), { w with motion := w.motion.enterWait })
  | .awaitStandstill => ((), w)
  | .engagePause => w.engagePause
  | .resetModal => w.resetModal
  | .shutOff output => w.shutOff output
  | .submit program completion => w.submit program completion
  | .report entry => ((), w.report [entry])

def ready (action : Action) (w : Workshop) : Bool :=
  match action with
  | .awaitStandstill => w.motion.mayReturn
  | _ => true

def plant : Plant Workshop where
  ready := ready
  perform action w :=
    let (answer, w) := w.perform action
    (some answer, w)

end Workshop

end ProgramControl
