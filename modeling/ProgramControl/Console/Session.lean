import ProgramControl.Completion.LineOutput
import ProgramControl.Console.Command
import ProgramControl.Settings.Basic
import ProgramControl.Workshop

/-!
# A console session

Two threads stand between the input and the machine.  The reader takes lines one by one.  A line
that is no command is complained about; an emergency stop and a request for the state are carried
out by the reader itself; all other commands go into a queue without a bound.  The producer takes
them from there, one at a time, and carries each out before it takes the next.  So an emergency
stop never waits behind other commands, and those keep their order.

When the input has ended, the reader says so and then hangs up.  The producer goes when the queue
is empty and nobody is left at its other end.  The main thread waits for the first, then for the
producer; then it lets the dispatch system go, and the last submission handle with it, and waits
for the courier to deliver what is left.

The session is a system of threads like the dispatch system within it: a label names the thread
that takes the next step.  Each move that was admitted completes by a step of its own.

* `Session.step?`     the step of one thread;
* `Session.settle`    a schedule in which moves complete last.
-/

namespace ProgramControl.Console

inductive Response where
  | note (text : String)
  | complaint (text : String)
  deriving DecidableEq, Repr

namespace Response

def text : Response → String
  | .note text => "// " ++ text
  | .complaint text => "!! " ++ text

def ofResult : Result → Response
  | .ok (.outcome o) => .note o.message
  | .ok (.program n) => .note s!"NEW_PROGRAM: program {n} running"
  | .error refusal => .complaint refusal.message

def ofMove (ms : Nat) (admitted : Bool) : Response :=
  if admitted then .note s!"move admitted ({Text.elapsed ms})"
  else .complaint "move refused: motion halted"

def ofState (state : RunState) (latch : Latch) (optionalStop : Bool) : Response :=
  .note s!"state={state.name} shutdown={latch.name} optional_stop={optionalStop}"

end Response

/-- How a command is carried out: through a call, or by a thread's own actions. -/
inductive Work where
  | call (call : Call)
  | course (course : Course Response)

namespace Command

def showState : Course Response := do
  let state ← Course.perform .readPublished
  let latched ← Course.perform .readLatch
  let optionalStop ← Course.perform .readOptionalStop
  return .ofState state (if latched then .latched else .clear) optionalStop

def work : Command → Work
  | .directive d => .call (.directive d)
  | .newProgram => .call .beginProgram
  | .move ms => .course do return .ofMove ms (← admitMove)
  | .status => .course showState

def isImmediate : Command → Bool
  | .status => true
  | c => c.isEmergency

end Command

inductive Task where
  | idle
  /-- waiting for the result of a call -/
  | calling
  | acting (course : Course Response)
  /-- about to hang up -/
  | leaving
  | gone

namespace Task

/-- The thread is in the middle of a command. -/
def isBusy : Task → Bool
  | .calling | .acting _ => true
  | _ => false

/-- The thread takes up nothing any more. -/
def isOut : Task → Bool
  | .leaving | .gone => true
  | _ => false

def isGone : Task → Bool
  | .gone => true
  | _ => false

end Task

/-- What the main thread waits for. -/
inductive Closing where
  /-- the end of the input, or a signal -/
  | waiting
  /-- the end of the producer -/
  | joining
  /-- the end of the dispatch system, when nobody uses it any more -/
  | releasing
  /-- the end of the courier -/
  | delivering
  | closed
  deriving DecidableEq, Repr

structure Session where
  system : System Workshop
  output : LineOutput := { output := {} }
  /-- lines that the reader has not taken yet -/
  lines : List (List Char) := []
  /-- no more lines will come -/
  ended : Bool := false
  /-- no signal has come -/
  running : Bool := true
  /-- commands that the producer has not taken yet -/
  queue : List Command := []
  reader : Task := .idle
  producer : Task := .idle
  main : Closing := .waiting
  responses : List Response := []

namespace Session

inductive Label where
  | reader
  | producer
  | main
  | dispatch (label : ProgramControl.Label)
  | courier
  /-- an outstanding move completes -/
  | move
  deriving DecidableEq, Repr

/-- The places of the two threads among the callers of the dispatch system. -/
def readerPlace : Nat := 0

def producerPlace : Nat := 1

def respond (r : Response) (s : Session) : Session := { s with responses := s.responses ++ [r] }

def takeUp (place : Nat) (work : Work) (s : Session) : Task × Session :=
  match work with
  | .call call =>
    let callers := s.system.callers.modify place fun c => { c with todo := c.todo ++ [call] }
    (.calling, { s with system := { s.system with callers } })
  | .course course => (.acting course, s)

/-- The result of the call made at a place, once it is there. -/
def resultAt? (place : Nat) (s : Session) : Option Result :=
  match s.system.callers[place]? with
  | some c => if c.isDone then c.results.getLast? else none
  | none => none

def goOn (place : Nat) (s : Session) : Task → Option (Task × Session)
  | .idle | .leaving | .gone => none
  | .calling => (s.resultAt? place).map fun result => (.idle, s.respond (.ofResult result))
  | .acting (.done response) => some (.idle, s.respond response)
  | .acting (.act action next) =>
    if s.system.plant.ready action then
      let (answer, plant) := s.system.plant.perform action
      some (.acting (next answer), { s with system := { s.system with plant } })
    else none

/-- The dispatch system is no more. -/
def isTornDown (s : Session) : Bool :=
  match s.main with
  | .delivering | .closed => true
  | _ => false

/-- The reader deals with a line.  It leaves if nobody is there for the command. -/
def readLine (line : List Char) (s : Session) : Session :=
  match Command.ofLine line with
  | .error .empty => s
  | .error fault => s.respond (.complaint fault.message)
  | .ok command =>
    if s.isTornDown then { s with reader := .leaving }
    else if command.isImmediate then
      let (reader, s) := s.takeUp readerPlace command.work
      { s with reader }
    else if s.producer.isGone then { s with reader := .leaving }
    else { s with queue := s.queue ++ [command] }

def stepReader (s : Session) : Option Session :=
  match s.reader, s.lines with
  | .idle, [] => if s.ended then some { s with reader := .leaving } else none
  | .idle, line :: lines => some ({ s with lines }.readLine line)
  | .leaving, _ => some { s with reader := .gone }
  | task, _ => (s.goOn readerPlace task).map fun (reader, s) => { s with reader }

/-- The producer goes when a signal has come, or when the reader has hung up and nothing is left in
the queue. -/
def stepProducer (s : Session) : Option Session :=
  match s.producer, s.queue with
  | .idle, [] =>
    if s.running && !s.reader.isGone then none else some { s with producer := .gone }
  | .idle, command :: queue =>
    if s.running then
      let (producer, s) := { s with queue }.takeUp producerPlace command.work
      some { s with producer }
    else some { s with producer := .gone }
  | task, _ => (s.goOn producerPlace task).map fun (producer, s) => { s with producer }

/-- Nobody uses the dispatch system, and its worker is through with what was sent to it. -/
def isReleased (s : Session) : Bool :=
  !s.reader.isBusy && s.system.channel.isEmpty && s.system.worker.isIdle

/-- The last submission handle goes with the dispatch system. -/
def tearDown (s : Session) : Session :=
  let w := s.system.plant
  { s with
    main := .delivering
    system := { s.system with plant := { w with courier := { w.courier with handles := 0 } } } }

def stepMain (s : Session) : Option Session :=
  match s.main with
  | .waiting => if s.reader.isOut || !s.running then some { s with main := .joining } else none
  | .joining => if s.producer.isGone then some { s with main := .releasing } else none
  | .releasing => if s.isReleased then some s.tearDown else none
  | .delivering => if s.system.plant.courier.isGone then some { s with main := .closed } else none
  | .closed => none

def stepCourier (s : Session) : Option Session :=
  (s.system.plant.courier.step LineOutput.receiver s.output).map fun (courier, output) =>
    { s with output, system := { s.system with plant := { s.system.plant with courier } } }

def stepMove (s : Session) : Option Session :=
  let w := s.system.plant
  if w.motion.outstanding = 0 then none
  else
    let plant := { w with motion := w.motion.completeMove }
    some { s with system := { s.system with plant } }

/-- The step of one thread, `none` while it cannot move. -/
def step? : Label → Session → Option Session
  | .reader, s => s.stepReader
  | .producer, s => s.stepProducer
  | .main, s => s.stepMain
  | .dispatch label, s => (s.system.step? Workshop.plant label).map fun system => { s with system }
  | .courier, s => s.stepCourier
  | .move, s => s.stepMove

/-- The step of one thread; nothing changes while it cannot move. -/
def step (label : Label) (s : Session) : Session := (step? label s).getD s

def run (labels : List Label) (s : Session) : Session := labels.foldl (fun s l => step l s) s

/-- The labels in the order in which `settle` tries them. -/
def labels : List Label :=
  [.dispatch .worker, .dispatch (.caller readerPlace), .dispatch (.caller producerPlace), .reader,
   .producer, .courier, .move, .main]

/-- Let the first thread that can move take a step, so many times at most. -/
def settleWithin : Nat → Session → Session
  | 0, s => s
  | n + 1, s =>
    match labels.findSome? (step? · s) with
    | some s => settleWithin n s
    | none => s

/-- Steps that are enough for all there is to do: so many for each call, command and line, and as
many to close the session.  Each may admit a move, which completes by a step of its own, or submit
an envelope, which takes the courier five. -/
def enough (s : Session) : Nat :=
  let todo := s.system.openCalls + s.system.channel.length + s.queue.length + s.lines.length + 1
  6 * (2 * ((System.stepsPerCall + 20) * todo) + s.system.plant.motion.outstanding) +
    2 * s.system.plant.courier.enough s.output.answersLeft

def settle (s : Session) : Session := settleWithin s.enough s

/-! ## From the first line to the last -/

def start (settings : Settings) (outputs : Roster) : Session :=
  { system := {
      depth := settings.program.channelDepth.toNat
      fitted := { outputs }
      plant := {
        board := { optionalStop := settings.program.optionalStop }
        units := outputs.names.map fun name => { name }
        courier := .start
          (.ofConfig settings.notifier.alertAfter.toNat settings.notifier.firstBackoff.toNat)
          settings.notifier.queueDepth.toNat }
      callers := [{ todo := [] }, { todo := [] }] } }

/-- Give the reader a line and let everything settle. -/
def feed (line : List Char) (s : Session) : Session := settle { s with lines := s.lines ++ [line] }

/-- A signal asks the console to stop: motion is halted, commands not yet taken are left in the
queue, and failed deliveries are not tried again. -/
def interrupt (s : Session) : Session :=
  let (_, plant) := (Call.emergencyStop.interpret (m := StateM Workshop) Workshop.perform).run
    s.system.plant
  settle { s with
    running := false
    system := { s.system with plant := { plant with courier := plant.courier.abort } } }

/-- The input has ended. -/
def finish (s : Session) : Session := settle { s with ended := true }

end Session

end ProgramControl.Console
