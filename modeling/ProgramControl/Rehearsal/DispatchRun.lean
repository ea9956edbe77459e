import ProgramControl.Rehearsal.ProgramRun

/-!
# Rehearsing dispatch on the bench

Caller 0 makes one call at a time and waits for its result; further callers (producers) are
started with a list of calls.  After every step threads move until none can: then all producers
are done, or the worker waits at the barrier.  The bench is attended only while no producer has
open calls, so that only a producer's directive can be made to wait there.
-/

namespace ProgramControl.Rehearsal

inductive DispatchStep where
  | submit (call : Call)
  /-- the emergency stop outside any call -/
  | stop
  | start (calls : List Call)
  | bench (step : BenchStep)
  deriving DecidableEq, Repr

structure ProducerView where
  done : Bool
  results : List Result

/-- What is seen after a step of a dispatch rehearsal. -/
structure DispatchView where
  answer : Answer
  bench : Bench
  producers : List ProducerView

structure DispatchReport where
  registered : List (Except RosterFault Unit)
  views : List DispatchView
  final : Bench
  producers : List (List Result)
  workerLog : List Entry

namespace DispatchRun

def setUp (rig : Rig) : System Bench :=
  { depth := rig.channelDepth
    fitted := rig.fitted
    plant := .setUp rig
    callers := [{ todo := [] }] }

def producers (s : System Bench) : List Caller := s.callers.drop 1

def allDone (s : System Bench) : Bool := (producers s).all Caller.isDone

def settle (s : System Bench) : System Bench := s.settle Bench.plant

def attend (attended : Bool) (s : System Bench) : System Bench :=
  { s with plant := { s.plant with attended } }

/-- Let caller 0 make a call; its result is the one more that it has afterwards. -/
def submit (call : Call) (s : System Bench) : Option Result × System Bench :=
  let s := attend (allDone s) s
  let callers := s.callers.modify 0 fun c => { c with todo := c.todo ++ [call] }
  let s := settle { s with callers }
  (s.callers[0]?.bind fun c => if c.isDone then c.results.getLast? else none, s)

def start (calls : List Call) (s : System Bench) : System Bench :=
  settle { attend false s with callers := s.callers ++ [{ todo := calls }] }

def step (s : System Bench) : DispatchStep → Answer × System Bench
  | .submit call =>
    let (result, s) := submit call s
    (Answer.ofResult result, s)
  | .stop =>
    let (first, plant) := s.plant.carryThrough Call.emergencyStop
    (Answer.ofFlag first, settle { s with plant })
  | .start calls => (.nothing, start calls s)
  | .bench b =>
    let (flag, plant) := s.plant.take b
    (Answer.ofFlag flag, settle { s with plant })

def view (answer : Answer) (s : System Bench) : DispatchView :=
  { answer
    bench := s.plant
    producers := (producers s).map fun c => ⟨c.isDone, c.results⟩ }

def views : System Bench → List DispatchStep → List DispatchView × System Bench
  | s, [] => ([], s)
  | s, step :: steps =>
    let (answer, s) := DispatchRun.step { s with plant := s.plant.clearStep } step
    let s := { s with plant := s.plant.settleDelivery }
    let (rest, last) := views s steps
    (view answer s :: rest, last)

/-- Complete moves until all producers are done, so many times at most.  Each time at least one
open call gets its result. -/
def releaseWithin : Nat → System Bench → System Bench
  | 0, s => s
  | n + 1, s =>
    if allDone s then s
    else
      let plant := { s.plant with motion := s.plant.motion.completeAll }
      releaseWithin n (settle { s with plant })

def farewell (s : System Bench) : List Entry :=
  match s.worker with
  | .idle p => [.info s!"dispatcher stopped: program {p.number} in {p.state.name}"]
  | _ => []

def run (rig : Rig) (steps : List DispatchStep) : DispatchReport :=
  let (views, s) := views (setUp rig) steps
  let s := releaseWithin s.openCalls s
  let s := { s with plant := s.plant.settleDelivery }
  { registered := rig.roster.2
    views
    final := s.plant
    producers := (producers s).map (·.results)
    workerLog := farewell s }

end DispatchRun

end ProgramControl.Rehearsal
