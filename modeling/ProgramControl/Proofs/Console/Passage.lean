import ProgramControl.Console.Session
import ProgramControl.Proofs.Completion.Order
import ProgramControl.Proofs.Dispatch.Linearization

/-!
# Passages of a console session

A passage leads from one state of a session to another by steps of its threads, in any order, and
shows what they do: lines are read, commands are taken out of the queue, threads act and respond,
the dispatch system takes its own steps, and at the end the threads leave, one after the other.
Nobody leaves before it is time, because no signal comes (`Orderly`).

* `Event`, `shown`     what a run shows;
* `Move`               the step of a thread, with one case for each kind;
* `move_of_step?`      every step is one of them;
* `orderly_of_move`    and leaves the session in order;
* `passage_run`        so every run is a passage.
-/

namespace ProgramControl.Console

/-- The complaint about a line that is no command.  A blank line is none, and no complaint. -/
def CommandFault.complaint? : CommandFault → Option Response
  | .empty => none
  | fault => some (.complaint fault.message)

namespace Session

/-- The threads that carry out commands. -/
inductive Thread where
  | reader
  | producer
  deriving DecidableEq, Repr

def Thread.place : Thread → Nat
  | .reader => readerPlace
  | .producer => producerPlace

def Thread.label : Thread → Label
  | .reader => .reader
  | .producer => .producer

theorem Thread.place_inj {a b : Thread} (same : a.place = b.place) : a = b := by
  cases a <;> cases b <;> first | rfl | cases same

def task : Thread → Session → Task
  | .reader, s => s.reader
  | .producer, s => s.producer

def withTask (thread : Thread) (task : Task) (s : Session) : Session :=
  match thread with
  | .reader => { s with reader := task }
  | .producer => { s with producer := task }

@[simp] theorem task_withTask (thread : Thread) (task : Task) (s : Session) :
    (s.withTask thread task).task thread = task := by
  cases thread <;> rfl

theorem task_withTask_of_ne {thread other : Thread} (ne : other ≠ thread) (task : Task)
    (s : Session) : (s.withTask other task).task thread = s.task thread := by
  cases thread <;> cases other <;> first | rfl | exact absurd rfl ne

@[simp] theorem system_withTask (thread : Thread) (task : Task) (s : Session) :
    (s.withTask thread task).system = s.system := by
  cases thread <;> rfl

/-- A thread takes up a command. -/
def undertake (thread : Thread) (command : Command) (s : Session) : Session :=
  let (task, s) := s.takeUp thread.place command.work
  s.withTask thread task

section

variable (thread : Thread) (command : Command) (s : Session)

@[simp] theorem lines_undertake : (s.undertake thread command).lines = s.lines := by
  unfold undertake takeUp
  cases command.work <;> cases thread <;> rfl

@[simp] theorem queue_undertake : (s.undertake thread command).queue = s.queue := by
  unfold undertake takeUp
  cases command.work <;> cases thread <;> rfl

@[simp] theorem responses_undertake : (s.undertake thread command).responses = s.responses := by
  unfold undertake takeUp
  cases command.work <;> cases thread <;> rfl

@[simp] theorem output_undertake : (s.undertake thread command).output = s.output := by
  unfold undertake takeUp
  cases command.work <;> cases thread <;> rfl

/-- Only the thread's own place in the dispatch system is touched. -/
theorem system_undertake : ∃ callers, callers.length = s.system.callers.length ∧
    (s.undertake thread command).system = { s.system with callers } := by
  unfold undertake takeUp
  cases command.work <;> rw [system_withTask]
  · exact ⟨_, List.length_modify .., rfl⟩
  · exact ⟨s.system.callers, rfl, rfl⟩

@[simp] theorem plant_undertake : (s.undertake thread command).system.plant = s.system.plant := by
  obtain ⟨callers, -, same⟩ := system_undertake thread command s
  rw [same]

theorem closing_undertake : (s.undertake thread command).ended = s.ended ∧
    (s.undertake thread command).running = s.running ∧
    (s.undertake thread command).main = s.main := by
  unfold undertake takeUp
  cases command.work <;> cases thread <;> exact ⟨rfl, rfl, rfl⟩

theorem isBusy_undertake : ((s.undertake thread command).task thread).isBusy := by
  unfold undertake takeUp
  cases command.work <;> rw [task_withTask] <;> rfl

variable {thread} in
theorem task_undertake_of_ne {other : Thread} (ne : other ≠ thread) :
    (s.undertake other command).task thread = s.task thread := by
  unfold undertake takeUp
  cases command.work <;> cases thread <;> cases other <;> first | rfl | exact absurd rfl ne

end

/-- What a step shows. -/
inductive Event where
  /-- the reader takes a line -/
  | reads (line : List Char)
  /-- the producer takes a command out of the queue -/
  | takes (command : Command)
  /-- an action of a thread's own -/
  | acts (thread : Thread) (x : Exchange Workshop)
  /-- a thread is done with a command -/
  | responds (thread : Thread) (r : Response)
  /-- a step of the dispatch system -/
  | dispatch (o : Occurrence Workshop)
  | courier
  | move
  /-- the reader finds that no more lines will come, and says so -/
  | inputEnds
  /-- the reader gives up its end of the queue -/
  | hangsUp
  /-- the producer leaves -/
  | quits
  /-- the main thread comes to a stage of closing -/
  | closes (stage : Closing)

namespace Event

def line? : Event → Option (List Char)
  | .reads line => some line
  | _ => none

def taken? : Event → Option Command
  | .takes command => some command
  | _ => none

def occurrence? : Event → Option (Occurrence Workshop)
  | .dispatch o => some o
  | _ => none

/-- What is written in answer to the input. -/
def response? : Event → Option Response
  | .reads line =>
    match Command.ofLine line with
    | .error fault => fault.complaint?
    | .ok _ => none
  | .responds _ r => some r
  | _ => none

end Event

section

variable (h : List Event)

def linesRead : List (List Char) := h.filterMap (·.line?)

def taken : List Command := h.filterMap (·.taken?)

def dispatched : List (Occurrence Workshop) := h.filterMap (·.occurrence?)

def responded : List Response := h.filterMap (·.response?)

end

/-- What a thread shows when it goes on with its task. -/
def ongoing? (thread : Thread) (s : Session) : Option Event :=
  match s.task thread with
  | .idle | .leaving | .gone => none
  | .calling => (s.resultAt? thread.place).map fun result => .responds thread (.ofResult result)
  | .acting (.done r) => some (.responds thread r)
  | .acting (.act action _) =>
    let (answer, plant) := s.system.plant.perform action
    some (.acts thread ⟨action, answer, s.system.plant, plant⟩)

/-- What the next step of a thread shows. -/
def event? : Label → Session → Option Event
  | .reader, s =>
    match s.reader, s.lines with
    | .idle, [] => some .inputEnds
    | .idle, line :: _ => some (.reads line)
    | .leaving, _ => some .hangsUp
    | _, _ => s.ongoing? .reader
  | .producer, s =>
    match s.producer, s.queue with
    | .idle, [] => some .quits
    | .idle, command :: _ => some (if s.running then .takes command else .quits)
    | _, _ => s.ongoing? .producer
  | .main, s => s.stepMain.map fun t => .closes t.main
  | .dispatch l, s => (System.move? Workshop.plant l s.system).map fun (o, _) => .dispatch o
  | .courier, _ => some .courier
  | .move, _ => some .move

/-- What a run shows. -/
def shown : List Label → Session → List Event
  | [], _ => []
  | l :: labels, s =>
    match step? l s with
    | some t => (event? l s).toList ++ shown labels t
    | none => shown labels s

/-- The threads leave one after the other, and no signal makes them. -/
structure Orderly (s : Session) : Prop where
  running : s.running
  reader (out : s.reader.isOut) : s.lines = [] ∧ s.ended
  producer (out : s.producer.isOut) : s.producer = .gone ∧ s.reader = .gone ∧ s.queue = []
  joins (closing : s.main ≠ .waiting) : s.reader.isOut
  releases (closing : s.main ≠ .waiting) (joined : s.main ≠ .joining) : s.producer = .gone
  alone (down : s.isTornDown) : s.system.plant.courier.handles = 0

/-- The step of some thread, by what it shows. -/
inductive Move : Session → Event → Session → Prop where
  /-- the line is no command -/
  | faulty {s : Session} {line : List Char} {lines : List (List Char)} {fault : CommandFault}
      (idle : s.reader = .idle) (next : s.lines = line :: lines)
      (decodes : Command.ofLine line = .error fault) :
      Move s (.reads line) { s with lines, responses := s.responses ++ fault.complaint?.toList }
  /-- the command goes into the queue -/
  | queues {s : Session} {line : List Char} {lines : List (List Char)} {command : Command}
      (idle : s.reader = .idle) (next : s.lines = line :: lines)
      (decodes : Command.ofLine line = .ok command) (later : command.isImmediate = false) :
      Move s (.reads line) { s with lines, queue := s.queue ++ [command] }
  /-- the reader takes the command up itself -/
  | starts {s : Session} {line : List Char} {lines : List (List Char)} {command : Command}
      (idle : s.reader = .idle) (next : s.lines = line :: lines)
      (decodes : Command.ofLine line = .ok command) (now : command.isImmediate) :
      Move s (.reads line) ({ s with lines }.undertake .reader command)
  | takes {s : Session} {command : Command} {queue : List Command}
      (idle : s.producer = .idle) (next : s.queue = command :: queue) :
      Move s (.takes command) ({ s with queue }.undertake .producer command)
  | acts {s : Session} {thread : Thread} {action : Action}
      {next : action.Answer → Course Response} {answer : action.Answer} {plant : Workshop}
      (task : s.task thread = .acting (.act action next))
      (done : s.system.plant.perform action = (answer, plant)) :
      Move s (.acts thread ⟨action, answer, s.system.plant, plant⟩)
        ({ s with system := { s.system with plant } }.withTask thread (.acting (next answer)))
  | ends {s : Session} {thread : Thread} {r : Response} (task : s.task thread = .acting (.done r)) :
      Move s (.responds thread r) ((s.respond r).withTask thread .idle)
  | hears {s : Session} {thread : Thread} {result : Result} (task : s.task thread = .calling)
      (there : s.resultAt? thread.place = some result) :
      Move s (.responds thread (.ofResult result))
        ((s.respond (.ofResult result)).withTask thread .idle)
  | dispatch {s : Session} {l : ProgramControl.Label} {o : Occurrence Workshop}
      {system : System Workshop}
      (moved : System.move? Workshop.plant l s.system = some (o, system)) :
      Move s (.dispatch o) { s with system }
  | courier {s : Session} {courier : Courier} {output : LineOutput}
      (moved : s.system.plant.courier.step LineOutput.receiver s.output = some (courier, output)) :
      Move s .courier { s with
        output, system := { s.system with plant := { s.system.plant with courier } } }
  | move {s : Session} (outstanding : s.system.plant.motion.outstanding ≠ 0) :
      Move s .move { s with system := { s.system with
        plant := { s.system.plant with motion := s.system.plant.motion.completeMove } } }
  | inputEnds {s : Session} (idle : s.reader = .idle) (read : s.lines = []) (ended : s.ended) :
      Move s .inputEnds { s with reader := .leaving }
  | hangsUp {s : Session} (leaving : s.reader = .leaving) (read : s.lines = [])
      (ended : s.ended) : Move s .hangsUp { s with reader := .gone }
  | quits {s : Session} (idle : s.producer = .idle) (taken : s.queue = [])
      (hungUp : s.reader = .gone) (read : s.lines = []) (ended : s.ended) :
      Move s .quits { s with producer := .gone }
  | joins {s : Session} (waiting : s.main = .waiting) (out : s.reader.isOut) :
      Move s (.closes .joining) { s with main := .joining }
  | releases {s : Session} (joining : s.main = .joining) (quit : s.producer = .gone) :
      Move s (.closes .releasing) { s with main := .releasing }
  | tearsDown {s : Session} (releasing : s.main = .releasing) (released : s.isReleased)
      (out : s.reader.isOut) (quit : s.producer = .gone) :
      Move s (.closes .delivering) s.tearDown
  | closes {s : Session} (delivering : s.main = .delivering)
      (gone : s.system.plant.courier.isGone) : Move s (.closes .closed) { s with main := .closed }

variable {s t u : Session} {e : Event} {h k : List Event}

theorem Task.not_out_of_idle {task : Task} (idle : task = .idle) : task.isOut = false :=
  idle ▸ rfl

theorem Task.eq_gone_of_isGone {task : Task} (gone : task.isGone) : task = .gone := by
  cases task with
  | gone => rfl
  | _ => cases gone

theorem closing_of_isTornDown (down : s.isTornDown) : s.main ≠ .waiting ∧ s.main ≠ .joining := by
  unfold isTornDown at down
  split at down
  · rename_i main
    rw [main]
    exact ⟨nofun, nofun⟩
  · rename_i main
    rw [main]
    exact ⟨nofun, nofun⟩
  · cases down

/-- As long as the reader is there, the dispatch system is, and so is the producer. -/
theorem Orderly.open_of_idle (orderly : s.Orderly) (idle : s.reader = .idle) :
    s.isTornDown = false ∧ s.producer.isGone = false := by
  have stays : s.reader.isOut = false := Task.not_out_of_idle idle
  constructor
  · refine Bool.eq_false_iff.2 fun down => ?_
    have out := orderly.joins (closing_of_isTornDown down).1
    rw [stays] at out
    cases out
  · refine Bool.eq_false_iff.2 fun gone => ?_
    obtain ⟨-, hungUp, -⟩ := orderly.producer (Task.eq_gone_of_isGone gone ▸ rfl)
    rw [idle] at hungUp
    cases hungUp

theorem move_of_readLine {line : List Char} {lines : List (List Char)} (orderly : s.Orderly)
    (idle : s.reader = .idle) (next : s.lines = line :: lines) :
    Move s (.reads line) ({ s with lines }.readLine line) := by
  obtain ⟨stands, listens⟩ := orderly.open_of_idle idle
  replace stands : isTornDown { s with lines } = false := stands
  unfold readLine
  cases decodes : Command.ofLine line with
  | error fault =>
    have move := Move.faulty idle next decodes
    cases fault with
    | empty =>
      simp only [CommandFault.complaint?, Option.toList_none, List.append_nil] at move
      exact move
    | _ => exact move
  | ok command =>
    simp only [stands, listens, Bool.false_eq_true, if_false]
    cases now : command.isImmediate with
    | true =>
      simp only [if_true]
      exact .starts idle next decodes now
    | false =>
      simp only [Bool.false_eq_true, if_false]
      exact .queues idle next decodes now

theorem move_of_goOn (thread : Thread)
    (gone : (s.goOn thread.place (s.task thread)).map (fun (task, s) => s.withTask thread task) =
      some t) : ∃ e, s.ongoing? thread = some e ∧ Move s e t := by
  unfold ongoing?
  cases task : s.task thread with
  | idle | leaving | gone =>
    rw [task] at gone
    cases gone
  | calling =>
    rw [task] at gone
    cases there : s.resultAt? thread.place with
    | none =>
      rw [goOn, there] at gone
      cases gone
    | some result =>
      rw [goOn, there] at gone
      cases gone
      exact ⟨_, rfl, .hears task there⟩
  | acting course =>
    rw [task] at gone
    cases course with
    | done r =>
      cases gone
      exact ⟨_, rfl, .ends task⟩
    | act action next =>
      simp only [goOn] at gone
      split at gone
      · cases gone
        exact ⟨_, rfl, .acts task rfl⟩
      · cases gone

theorem move_of_stepReader (orderly : s.Orderly) (stepped : s.stepReader = some t) :
    ∃ e, event? .reader s = some e ∧ Move s e t := by
  unfold stepReader at stepped
  split at stepped
  · rename_i idle read
    split at stepped
    · rename_i ended
      cases stepped
      exact ⟨.inputEnds, by simp only [event?, idle, read], .inputEnds idle read ended⟩
    · cases stepped
  · rename_i line lines idle next
    cases stepped
    exact ⟨.reads line, by simp only [event?, idle, next], move_of_readLine orderly idle next⟩
  · rename_i leaving
    cases stepped
    obtain ⟨read, ended⟩ := orderly.reader (leaving ▸ rfl)
    exact ⟨.hangsUp, by simp only [event?, leaving], .hangsUp leaving read ended⟩
  · rename_i leaving empty next
    obtain ⟨e, event, move⟩ := move_of_goOn .reader stepped
    refine ⟨e, ?_, move⟩
    rw [event?]
    split
    · exact (empty ‹_› ‹_›).elim
    · exact (next _ _ ‹_› ‹_›).elim
    · exact (leaving ‹_›).elim
    · exact event

theorem move_of_stepProducer (orderly : s.Orderly) (stepped : s.stepProducer = some t) :
    ∃ e, event? .producer s = some e ∧ Move s e t := by
  unfold stepProducer at stepped
  split at stepped
  · rename_i idle taken
    split at stepped
    · cases stepped
    · rename_i deserted
      cases stepped
      simp only [orderly.running, Bool.true_and, Bool.not_eq_true', Bool.not_eq_false] at deserted
      have hungUp := Task.eq_gone_of_isGone deserted
      obtain ⟨read, ended⟩ := orderly.reader (hungUp ▸ rfl)
      exact ⟨.quits, by simp only [event?, idle, taken], .quits idle taken hungUp read ended⟩
  · rename_i command queue idle next
    rw [if_pos orderly.running] at stepped
    cases stepped
    exact ⟨.takes command, by simp only [event?, idle, next, if_pos orderly.running],
      .takes idle next⟩
  · rename_i empty next
    obtain ⟨e, event, move⟩ := move_of_goOn .producer stepped
    refine ⟨e, ?_, move⟩
    rw [event?]
    split
    · exact (empty ‹_› ‹_›).elim
    · exact (next _ _ ‹_› ‹_›).elim
    · exact event

theorem move_of_stepMain (orderly : s.Orderly) (stepped : s.stepMain = some t) :
    Move s (.closes t.main) t := by
  unfold stepMain at stepped
  split at stepped
  · rename_i waiting
    split at stepped
    · rename_i asked
      cases stepped
      refine .joins waiting ?_
      simpa only [orderly.running, Bool.not_true, Bool.or_false] using asked
    · cases stepped
  · rename_i joining
    split at stepped
    · rename_i gone
      cases stepped
      exact .releases joining (Task.eq_gone_of_isGone gone)
    · cases stepped
  · rename_i releasing
    split at stepped
    · rename_i released
      cases stepped
      have closing : s.main ≠ .waiting ∧ s.main ≠ .joining := by
        rw [releasing]
        exact ⟨nofun, nofun⟩
      exact .tearsDown releasing released (orderly.joins closing.1)
        (orderly.releases closing.1 closing.2)
    · cases stepped
  · rename_i delivering
    split at stepped
    · rename_i gone
      cases stepped
      exact .closes delivering gone
    · cases stepped
  · cases stepped

theorem move_of_step? {l : Label} (orderly : s.Orderly) (stepped : step? l s = some t) :
    ∃ e, event? l s = some e ∧ Move s e t := by
  cases l with
  | reader => exact move_of_stepReader orderly stepped
  | producer => exact move_of_stepProducer orderly stepped
  | main =>
    refine ⟨_, ?_, move_of_stepMain orderly stepped⟩
    rw [event?, show s.stepMain = some t from stepped]
    rfl
  | dispatch l =>
    obtain ⟨system, gone, rfl⟩ := Option.map_eq_some_iff.1 stepped
    obtain ⟨⟨o, system⟩, moved, rfl⟩ := Option.map_eq_some_iff.1 gone
    exact ⟨.dispatch o, Option.map_eq_some_iff.2 ⟨_, moved, rfl⟩, .dispatch moved⟩
  | courier =>
    obtain ⟨⟨courier, output⟩, moved, rfl⟩ := Option.map_eq_some_iff.1 stepped
    exact ⟨_, rfl, .courier moved⟩
  | move =>
    simp only [step?, stepMove] at stepped
    split at stepped
    · cases stepped
    · rename_i outstanding
      cases stepped
      exact ⟨_, rfl, .move outstanding⟩

/-! ## The order in which threads leave -/

theorem Task.isOut_of_isBusy {task : Task} (busy : task.isBusy) : task.isOut = false := by
  cases task with
  | calling | acting => rfl
  | idle | leaving | gone => cases busy

/-- The plant changes by single actions. -/
theorem plant_of_dispatch {l : ProgramControl.Label} {o : Occurrence Workshop}
    {a b : System Workshop} (moved : System.move? Workshop.plant l a = some (o, b)) :
    b.plant = a.plant ∨ ∃ action, b.plant = (a.plant.perform action).2 := by
  have next := System.plant_of_move System.neverBreaks_workshop (System.move_of_move? moved)
  cases exchange : o.exchange? with
  | none =>
    rw [exchange] at next
    exact .inl next
  | some x =>
    rw [exchange] at next
    obtain ⟨done, before, after⟩ := next
    have same : (x.before.perform x.action).2 = x.after := congrArg Prod.snd done
    exact .inr ⟨x.action, by rw [← before, same, after]⟩

theorem handles_perform (action : Action) (w : Workshop) :
    (w.perform action).2.courier.handles = w.courier.handles := by
  cases action <;> rfl

theorem handles_of_move (move : Move s e t) : t.system.plant.courier.handles = 0 ∨
    t.system.plant.courier.handles = s.system.plant.courier.handles := by
  cases move with
  | dispatch moved =>
    rcases plant_of_dispatch moved with same | ⟨action, same⟩
    · exact .inr (by rw [same])
    · exact .inr (by rw [same, handles_perform])
  | courier moved => exact .inr (Courier.moves_of_step moved).handles_eq
  | starts | takes => exact .inr (by rw [plant_undertake])
  | @acts _ action _ _ _ task done =>
    have same := handles_perform action s.system.plant
    rw [done] at same
    rw [system_withTask]
    exact .inr same
  | ends | hears =>
    rw [system_withTask]
    exact .inr rfl
  | tearsDown => exact .inl rfl
  | _ => exact .inr rfl

theorem orderly_of_there (running : s.running) (waiting : s.main = .waiting)
    (reads : s.reader.isOut = false) (produces : s.producer.isOut = false) : s.Orderly where
  running := running
  reader out := absurd out (Bool.eq_false_iff.1 reads)
  producer out := absurd out (Bool.eq_false_iff.1 produces)
  joins closing := absurd waiting closing
  releases closing := absurd waiting closing
  alone down := absurd waiting (closing_of_isTornDown down).1

namespace Orderly

variable (orderly : s.Orderly)

include orderly

/-- As long as the reader is there, nobody has begun to leave. -/
theorem early (there : s.reader.isOut = false) :
    s.main = .waiting ∧ s.producer.isOut = false := by
  constructor
  · refine Decidable.byContradiction fun closing => ?_
    exact absurd (orderly.joins closing) (Bool.eq_false_iff.1 there)
  · refine Bool.eq_false_iff.2 fun out => ?_
    obtain ⟨-, hungUp, -⟩ := orderly.producer out
    rw [hungUp] at there
    cases there

theorem reads (there : s.reader.isOut = false) (running : t.running = s.running)
    (main : t.main = s.main) (producer : t.producer = s.producer)
    (stays : t.reader.isOut = false) : t.Orderly := by
  obtain ⟨waiting, produces⟩ := orderly.early there
  exact orderly_of_there (running.trans orderly.running) (main.trans waiting) stays
    (producer ▸ produces)

theorem produces (there : s.producer.isOut = false) (ended : t.ended = s.ended)
    (running : t.running = s.running) (main : t.main = s.main) (reader : t.reader = s.reader)
    (lines : t.lines = s.lines) (stays : t.producer.isOut = false) : t.Orderly where
  running := running.trans orderly.running
  reader out := by
    rw [lines, ended]
    exact orderly.reader (reader ▸ out)
  producer out := absurd out (Bool.eq_false_iff.1 stays)
  joins closing := by
    rw [reader]
    exact orderly.joins (main ▸ closing)
  releases closing joined := by
    have gone := orderly.releases (main ▸ closing) (main ▸ joined)
    rw [gone] at there
    cases there
  alone down := by
    obtain ⟨closing, joined⟩ := closing_of_isTornDown down
    have gone := orderly.releases (main ▸ closing) (main ▸ joined)
    rw [gone] at there
    cases there

theorem others (same : t = { s with system := t.system, output := t.output })
    (handles : t.system.plant.courier.handles = 0 ∨
      t.system.plant.courier.handles = s.system.plant.courier.handles) : t.Orderly := by
  rw [same]
  refine ⟨orderly.running, orderly.reader, orderly.producer, orderly.joins, orderly.releases, ?_⟩
  intro down
  rcases handles with none | same
  · exact none
  · exact same.trans (orderly.alone down)

end Orderly

/-- A step of any thread keeps the order. -/
theorem orderly_of_move (move : Move s e t) (orderly : s.Orderly) : t.Orderly := by
  have handles := handles_of_move move
  cases move with
  | faulty idle | queues idle =>
    have there : s.reader.isOut = false := Task.not_out_of_idle idle
    exact orderly.reads there rfl rfl rfl there
  | @starts line lines command idle =>
    obtain ⟨-, running, main⟩ := closing_undertake .reader command { s with lines }
    have producer : (undertake .reader command { s with lines }).task .producer = s.producer :=
      task_undertake_of_ne command { s with lines } (by decide)
    exact orderly.reads (Task.not_out_of_idle idle) running main producer
      (Task.isOut_of_isBusy (isBusy_undertake .reader command _))
  | @takes command queue idle =>
    obtain ⟨ended, running, main⟩ := closing_undertake .producer command { s with queue }
    have reader : (undertake .producer command { s with queue }).task .reader = s.reader :=
      task_undertake_of_ne command { s with queue } (by decide)
    exact orderly.produces (Task.not_out_of_idle idle) ended running main reader
      (lines_undertake ..) (Task.isOut_of_isBusy (isBusy_undertake .producer command _))
  | @acts thread _ _ _ _ task | @ends thread _ task | @hears thread _ task =>
    have there : (s.task thread).isOut = false := by
      rw [task]
      rfl
    cases thread with
    | reader => exact orderly.reads there rfl rfl rfl rfl
    | producer => exact orderly.produces there rfl rfl rfl rfl rfl rfl
  | dispatch | courier | move => exact orderly.others rfl handles
  | inputEnds idle read ended =>
    obtain ⟨waiting, produces⟩ := orderly.early (Task.not_out_of_idle idle)
    exact {
      running := orderly.running
      reader := fun _ => ⟨read, ended⟩
      producer := fun out => absurd out (Bool.eq_false_iff.1 produces)
      joins := fun _ => rfl
      releases := fun closing => absurd waiting closing
      alone := orderly.alone }
  | hangsUp leaving read ended =>
    exact {
      running := orderly.running
      reader := fun _ => ⟨read, ended⟩
      producer := fun out => ⟨(orderly.producer out).1, rfl, (orderly.producer out).2.2⟩
      joins := fun _ => rfl
      releases := orderly.releases
      alone := orderly.alone }
  | quits idle taken hungUp =>
    exact {
      running := orderly.running
      reader := orderly.reader
      producer := fun _ => ⟨rfl, hungUp, taken⟩
      joins := orderly.joins
      releases := fun _ _ => rfl
      alone := orderly.alone }
  | joins waiting out =>
    exact {
      running := orderly.running
      reader := orderly.reader
      producer := orderly.producer
      joins := fun _ => out
      releases := fun _ joined => absurd rfl joined
      alone := nofun }
  | releases joining quit =>
    exact {
      running := orderly.running
      reader := orderly.reader
      producer := orderly.producer
      joins := fun _ => orderly.joins (joining ▸ nofun)
      releases := fun _ _ => quit
      alone := nofun }
  | tearsDown releasing released out quit =>
    exact ⟨orderly.running, orderly.reader, orderly.producer, fun _ => out, fun _ _ => quit,
      fun _ => rfl⟩
  | closes delivering =>
    have closing : s.main ≠ .waiting ∧ s.main ≠ .joining := by
      rw [delivering]
      exact ⟨nofun, nofun⟩
    exact {
      running := orderly.running
      reader := orderly.reader
      producer := orderly.producer
      joins := fun _ => orderly.joins closing.1
      releases := fun _ _ => orderly.releases closing.1 closing.2
      alone := fun _ => orderly.alone (by rw [isTornDown, delivering]) }

/-- Steps of threads in any order. -/
inductive Passage : Session → List Event → Session → Prop where
  | refl (s : Session) : Passage s [] s
  | step {s t u : Session} {e : Event} {h : List Event} (passage : Passage s h t)
      (move : Move t e u) : Passage s (h ++ [e]) u

theorem Passage.trans (passage : Passage s h t) (more : Passage t k u) :
    Passage s (h ++ k) u := by
  induction more with
  | refl => rwa [List.append_nil]
  | step _ move ih =>
    rw [← List.append_assoc]
    exact ih.step move

theorem Passage.orderly (passage : Passage s h t) (orderly : s.Orderly) : t.Orderly := by
  induction passage with
  | refl => exact orderly
  | step _ move ih => exact orderly_of_move move ih

theorem Passage.split_cons (passage : Passage s (h ++ e :: k) u) :
    ∃ t t', Passage s h t ∧ Move t e t' ∧ Passage t' k u := by
  generalize whole : h ++ e :: k = hk at passage
  induction passage generalizing k with
  | refl => exact absurd whole (List.append_ne_nil_of_right_ne_nil _ (List.cons_ne_nil e k))
  | @step t u e' hk passage move ih =>
    rcases List.eq_nil_or_concat k with rfl | ⟨k, last, rfl⟩
    · obtain ⟨rfl, last⟩ := List.append_inj' whole rfl
      cases last
      exact ⟨t, u, passage, move, .refl u⟩
    · rw [List.concat_eq_append, ← List.cons_append, ← List.append_assoc] at whole
      obtain ⟨same, last⟩ := List.append_inj' whole rfl
      cases last
      obtain ⟨m, m', before, first, after⟩ := ih same
      exact ⟨m, m', before, first, List.concat_eq_append ▸ after.step move⟩

/-- The dispatch system takes the steps that are shown; its worker, its channel and what is fitted
stay as they are otherwise. -/
theorem system_of_move (move : Move s e t) :
    match e.occurrence? with
    | some o => ∃ l, System.move? Workshop.plant l s.system = some (o, t.system)
    | none => t.system.worker = s.system.worker ∧ t.system.channel = s.system.channel ∧
        t.system.fitted = s.system.fitted := by
  cases move with
  | dispatch moved => exact ⟨_, moved⟩
  | @starts line lines command =>
    obtain ⟨callers, -, same⟩ := system_undertake .reader command { s with lines }
    rw [same]
    exact ⟨rfl, rfl, rfl⟩
  | @takes command queue =>
    obtain ⟨callers, -, same⟩ := system_undertake .producer command { s with queue }
    rw [same]
    exact ⟨rfl, rfl, rfl⟩
  | @acts thread | @ends thread | @hears thread => cases thread <;> exact ⟨rfl, rfl, rfl⟩
  | _ => exact ⟨rfl, rfl, rfl⟩

/-- Every run is a passage. -/
theorem passage_run (labels : List Label) (orderly : s.Orderly) :
    Passage s (shown labels s) (run labels s) := by
  induction labels generalizing s with
  | nil => exact .refl s
  | cons l labels ih =>
    rw [run, List.foldl_cons, ← run, shown]
    cases stepped : step? l s with
    | none =>
      have same : step l s = s := by rw [step, stepped]; rfl
      rw [same]
      exact ih orderly
    | some t =>
      obtain ⟨e, event, move⟩ := move_of_step? orderly stepped
      have same : step l s = t := by rw [step, stepped]; rfl
      rw [same, event]
      exact ((Passage.refl s).step move).trans (ih (orderly_of_move move orderly))

/-- The session at its start, with all lines that are ever read. -/
def begun (settings : Settings) (outputs : Roster) (lines : List (List Char)) (ended : Bool) :
    Session :=
  { start settings outputs with lines, ended }

theorem orderly_begun (settings : Settings) (outputs : Roster) (lines : List (List Char))
    (ended : Bool) : (begun settings outputs lines ended).Orderly :=
  orderly_of_there rfl rfl rfl rfl

end Session

end ProgramControl.Console
