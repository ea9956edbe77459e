import ProgramControl.Rehearsal.Consignee
import ProgramControl.Workshop

/-!
# The test bench

The workshop with a station in front of each collaborator.  A call first goes into the journal
under the station's name; then the oldest hook that waits for that station is taken down and its
acts are carried out; then the collaborator is called.  An act can stand in for the collaborator's
answer.

While the bench is attended, its barrier completes moves itself, so that a wait for standstill
ends at once.
-/

namespace ProgramControl.Rehearsal

inductive Act where
  | trip
  | halt
  /-- latch and halt -/
  | stop
  | optional (on : Bool)
  | admitMove
  /-- answer with this fault instead of calling the collaborator -/
  | answer (fault : Fault)
  | breakDown
  deriving DecidableEq, Repr

structure Rig where
  optionalStop : Bool := false
  outputs : List String := []
  barrier : Bool := true
  pause : Bool := true
  script : List Cue := []
  /-- the courier has broken down before the rehearsal starts -/
  courierDead : Bool := false
  queueDepth : Nat := 16
  channelDepth : Nat := 32
  deriving DecidableEq, Repr

structure Bench extends Workshop where
  hooks : List (String × List Act) := []
  journal : List String := []
  attended : Bool := true
  consignee : Consignee
  deriving DecidableEq, Repr

namespace Bench

/-! ## Hooks -/

structure Effect where
  bench : Bench
  /-- the last answer that stands in for the collaborator's -/
  answer : Option Fault := none
  brokeDown : Bool := false

def act (b : Bench) : Act → Bench
  | .trip => { b with board := b.board.trip.2 }
  | .halt => { b with motion := b.motion.halt }
  | .stop => { b with board := b.board.trip.2, motion := b.motion.halt }
  | .optional on => { b with board := (b.board.setOptionalStop on).2 }
  | .admitMove => { b with motion := b.motion.admitMove.2, log := b.log ++ [b.motion.admitEntry] }
  | .answer _ | .breakDown => b

/-- Carry out acts in order.  A breakdown ends them. -/
def carryOut : List Act → Effect → Effect
  | [], e => e
  | .breakDown :: _, e => { e with brokeDown := true }
  | a :: acts, e =>
    let answer := match a with
      | .answer fault => some fault
      | _ => e.answer
    carryOut acts { e with bench := e.bench.act a, answer }

/-- Take down the oldest hook for a station. -/
def takeHook (station : String) : List (String × List Act) →
    List Act × List (String × List Act)
  | [] => ([], [])
  | (s, acts) :: hooks =>
    if s = station then (acts, hooks)
    else
      let (found, hooks) := takeHook station hooks
      (found, (s, acts) :: hooks)

def arrive (station : String) (b : Bench) : Effect :=
  let (acts, hooks) := takeHook station b.hooks
  carryOut acts { bench := { b with journal := b.journal ++ [station], hooks } }

/-- The plant behind the stations carries out an action. -/
def withWorkshop {α : Type} (call : Workshop → α × Workshop) (b : Bench) : α × Bench :=
  let (answer, workshop) := call b.toWorkshop
  (answer, { b with toWorkshop := workshop })

/-- A collaborator is called through its station. -/
def through (station : String) (call : Workshop → Except Fault Unit × Workshop) (b : Bench) :
    Option (Except Fault Unit) × Bench :=
  let e := b.arrive station
  if e.brokeDown then (none, e.bench)
  else match e.answer with
    | some fault => (some (.error fault), e.bench)
    | none =>
      let (answer, b) := e.bench.withWorkshop call
      (some answer, b)

/-! ## The plant -/

/-- Complete all moves if the bench is attended and there is a wait to end. -/
def tend (b : Bench) : Bench :=
  if b.attended ∧ ¬ b.motion.halted then { b with motion := b.motion.completeAll } else b

/-- A thread approaches the barrier; the answers of hooks have no effect on it. -/
def approachBarrier (b : Bench) : Option Unit × Bench :=
  let e := b.arrive "barrier"
  if e.brokeDown then (none, e.bench)
  else
    let (_, b) := e.bench.tend.withWorkshop (Workshop.perform .approachBarrier)
    (some (), b)

/-- Carry out an action: the collaborators have stations in front of them. -/
def perform (action : Action) (b : Bench) : Option action.Answer × Bench :=
  match action with
  | .approachBarrier => b.approachBarrier
  | .engagePause => b.through "pause" Workshop.engagePause
  | .resetModal => b.through "modal" Workshop.resetModal
  | .shutOff output => b.through ("aux:" ++ output) (Workshop.shutOff output)
  | action =>
    let (answer, b) := b.withWorkshop (Workshop.perform action)
    (some answer, b)

def plant : Plant Bench where
  ready action b := b.toWorkshop.ready action
  perform := perform

/-- Carry out a course that nobody interrupts; no result if a collaborator breaks down. -/
def carryThrough {α : Type} (c : Course α) (b : Bench) : Option α × Bench :=
  (c.interpret (m := OptionT (StateM Bench)) fun action => OptionT.mk (perform action)).run.run b

/-! ## Setting up and observing -/

def settleDelivery (b : Bench) : Bench :=
  let (courier, consignee) :=
    b.courier.settle Consignee.receiver b.consignee.script.length b.consignee
  { b with courier, consignee }

/-- The courier breaks down over an envelope of no program. -/
def loseCourier (b : Bench) : Bench :=
  let (_, courier) := b.courier.notify 0 ⟨false⟩
  settleDelivery { b with courier, consignee := { b.consignee with script := [.panic] } }

def setUp (rig : Rig) : Bench :=
  let b : Bench := {
    board := { optionalStop := rig.optionalStop }
    units := rig.outputs.map fun name => { name }
    courier := .start (.ofConfig 5 0) rig.queueDepth
    consignee := { script := rig.script } }
  if rig.courierDead then b.loseCourier else b

def clearStep (b : Bench) : Bench := { b with journal := [], log := [] }

end Bench

/-- The roster that a rig's outputs make, and the answers to their registrations. -/
def Rig.roster (rig : Rig) : Roster × List (Except RosterFault Unit) :=
  Roster.empty.registerAll rig.outputs

def Rig.fitted (rig : Rig) : Equipment :=
  { barrier := rig.barrier, pause := rig.pause, outputs := rig.roster.1 }

/-- Steps that a rehearsal can take whoever owns the program. -/
inductive BenchStep where
  | trip
  | halt
  | completeMove
  | look
  | hook (station : String) (acts : List Act)
  | modalFailing (on : Bool)
  | advance (lines : Nat)
  | optional (on : Bool)
  | admitMove
  deriving DecidableEq, Repr

namespace Bench

/-- The answer of a bench step, where it has one, and the bench after it. -/
def take (b : Bench) : BenchStep → Option Bool × Bench
  | .trip =>
    let (first, board) := b.board.trip
    (some first, { b with board })
  | .halt => (none, { b with motion := b.motion.halt })
  | .completeMove => (none, { b with motion := b.motion.completeMove })
  | .look => (none, b)
  | .hook station acts => (none, { b with hooks := b.hooks ++ [(station, acts)] })
  | .modalFailing on => (none, { b with modal := { b.modal with failing := on } })
  | .advance lines =>
    (none, { b with consignee := { b.consignee with job := b.consignee.job.advance lines } })
  | .optional on =>
    let (previous, board) := b.board.setOptionalStop on
    (some previous, { b with board })
  | .admitMove =>
    let (admitted, motion) := b.motion.admitMove
    (some admitted, { b with motion, log := b.log ++ [b.motion.admitEntry] })

end Bench

end ProgramControl.Rehearsal
