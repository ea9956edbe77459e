import ProgramControl.Proofs.Console.Passage

/-!
# Duties of the reader and the producer

A line is a duty of the reader, a command in the queue one of the producer, and when the input has
ended they have to leave.  A duty begins with one event, and some duties call for a piece of work
after it.  Each thread sees to its duties one after the other, and shows of each what the script of
that duty says.

* `Duty.Script`        all that is shown of a duty;
* `Midway`             where a thread stands in a piece of work;
* `Progress`           how far a thread is with its duties;
* `Progress.step`      a step of any thread keeps that;
* `Passage.progress`   so what a thread shows is the scripts of its duties, one after the other.
-/

namespace ProgramControl.Console.Session

open ProgramControl.System (CallerIs Rests InCall)

/-- A first event, and then a piece of work, if there is any. -/
structure Duty where
  opening : Event
  work? : Option Work

/-- All that a thread shows of a piece of work. -/
inductive WorkScript (thread : Thread) : Work → List Event → Prop where
  | call {call : Call} {os : List (Occurrence Workshop)} {result : Result}
      (script : CallScript thread.place call os result) :
      WorkScript thread (.call call) (os.map .dispatch ++ [.responds thread (.ofResult result)])
  | course {course : Course Response} {xs : List (Exchange Workshop)} {r : Response}
      (reaches : course.Reaches xs (.done r)) :
      WorkScript thread (.course course) (xs.map (.acts thread) ++ [.responds thread r])

/-- All that a thread shows of a duty. -/
inductive Duty.Script (thread : Thread) : Duty → List Event → Prop where
  | light (opening : Event) : Script thread ⟨opening, none⟩ [opening]
  | heavy (opening : Event) {work : Work} {es : List Event} (script : WorkScript thread work es) :
      Script thread ⟨opening, some work⟩ (opening :: es)

/-- All that a thread shows of its duties, one after the other. -/
inductive Scripts (thread : Thread) : List Duty → List Event → Prop where
  | nil : Scripts thread [] []
  | cons {duty : Duty} {duties : List Duty} {es more : List Event}
      (script : duty.Script thread es) (rest : Scripts thread duties more) :
      Scripts thread (duty :: duties) (es ++ more)

/-- The command of a line, if the reader carries it out itself. -/
def immediate? (line : List Char) : Option Command :=
  match Command.ofLine line with
  | .ok command => if command.isImmediate then some command else none
  | .error _ => none

/-- The command of a line, if it goes into the queue. -/
def queued? (line : List Char) : Option Command :=
  match Command.ofLine line with
  | .ok command => if command.isImmediate then none else some command
  | .error _ => none

namespace Duty

def ofLine (line : List Char) : Duty := ⟨.reads line, (immediate? line).map Command.work⟩

def ofCommand (command : Command) : Duty := ⟨.takes command, some command.work⟩

end Duty

/-- What a thread has still to do to leave. -/
def leave : Thread → Task → List Duty
  | .reader, .gone => []
  | .reader, .leaving => [⟨.hangsUp, none⟩]
  | .reader, _ => [⟨.inputEnds, none⟩, ⟨.hangsUp, none⟩]
  | .producer, .gone => []
  | .producer, _ => [⟨.quits, none⟩]

theorem work?_of_leave (thread : Thread) (task : Task) :
    ∀ duty ∈ leave thread task, duty.work? = none := by
  cases thread <;> cases task <;> simp [leave]

/-- Lines and commands that a thread has not begun.  Lines that are not read yet bring the producer
more. -/
def coming : Thread → Session → List Duty
  | .reader, s => s.lines.map .ofLine
  | .producer, s => (s.queue ++ s.lines.filterMap queued?).map .ofCommand

/-- The duties that a thread has not begun. -/
def ahead (thread : Thread) (s : Session) : List Duty :=
  s.coming thread ++ if s.ended then leave thread (s.task thread) else []

/-- The event belongs to a duty of the thread. -/
def Event.isOf (thread : Thread) : Event → Bool
  | .reads _ | .inputEnds | .hangsUp => thread = .reader
  | .takes _ | .quits => thread = .producer
  | .acts other _ | .responds other _ => thread = other
  | .dispatch o => o.caller? = some thread.place
  | .courier | .move | .closes _ => false

/-- What is shown of the duties of one thread. -/
def part (thread : Thread) (h : List Event) : List Event := h.filter (·.isOf thread)

/-- Where a thread stands in a piece of work, after it has shown so much of it. -/
inductive Midway (thread : Thread) (s : Session) : Work → List Event → Prop where
  | call {call : Call} {os : List (Occurrence Workshop)} (task : s.task thread = .calling)
      (stands : InCall thread.place call [] s.system os) :
      Midway thread s (.call call) (os.map .dispatch)
  | course {course rest : Course Response} {xs : List (Exchange Workshop)}
      (task : s.task thread = .acting rest) (rests : Rests thread.place s.system)
      (reaches : course.Reaches xs rest) : Midway thread s (.course course) (xs.map (.acts thread))

/-- The thread is between two duties. -/
structure IsFree (thread : Thread) (s : Session) : Prop where
  task : (s.task thread).isBusy = false
  rests : Rests thread.place s.system

/-- How far a thread is with its duties. -/
inductive Progress (thread : Thread) (duties : List Duty) (h : List Event) (s : Session) :
    Prop where
  | between {finished : List Duty} (split : duties = finished ++ s.ahead thread)
      (scripts : Scripts thread finished (part thread h)) (free : IsFree thread s)
  | within {finished : List Duty} {opening : Event} {work : Work} {before es : List Event}
      (split : duties = finished ++ ⟨opening, some work⟩ :: s.ahead thread)
      (scripts : Scripts thread finished before)
      (shows : part thread h = before ++ opening :: es) (midway : Midway thread s work es)

variable {s t : Session} {e : Event} {h k : List Event} {thread other : Thread} {work : Work}
  {es : List Event} {duties : List Duty}

theorem part_concat (thread : Thread) (h : List Event) (e : Event) :
    part thread (h ++ [e]) = part thread h ++ if e.isOf thread then [e] else [] := by
  rw [part, List.filter_append, List.filter_cons]
  rfl

theorem Scripts.append {more : List Duty} {es' : List Event} (scripts : Scripts thread duties es)
    (rest : Scripts thread more es') : Scripts thread (duties ++ more) (es ++ es') := by
  induction scripts with
  | nil => exact rest
  | cons script _ ih =>
    rw [List.append_assoc]
    exact .cons script ih

theorem Scripts.concat {duty : Duty} {es' : List Event} (scripts : Scripts thread duties es)
    (script : duty.Script thread es') : Scripts thread (duties ++ [duty]) (es ++ es') :=
  List.append_nil es' ▸ scripts.append (.cons script .nil)

theorem Duty.Script.cases {duty : Duty} (script : duty.Script thread es) :
    duty.work? = none ∧ es = [duty.opening] ∨ ∃ work rest, duty.work? = some work ∧
      WorkScript thread work rest ∧ es = duty.opening :: rest := by
  cases script with
  | light => exact .inl ⟨rfl, rfl⟩
  | heavy _ script => exact .inr ⟨_, _, rfl, script, rfl⟩

theorem Midway.busy (midway : Midway thread s work es) : (s.task thread).isBusy := by
  cases midway with
  | call task | course task =>
    rw [task]
    rfl

theorem Progress.free_of_not_busy (progress : Progress thread duties h s)
    (there : (s.task thread).isBusy = false) : IsFree thread s := by
  cases progress with
  | between split scripts free => exact free
  | within split scripts shows midway => exact absurd midway.busy (Bool.eq_false_iff.1 there)

/-! ## Taking up work -/

theorem leave_of_there {task : Task} (there : task.isOut = false) :
    leave thread task = leave thread .idle := by
  cases task with
  | leaving | gone => cases there
  | idle | calling | acting => cases thread <;> rfl

theorem ahead_congr (coming : t.coming thread = s.coming thread) (ended : t.ended = s.ended)
    (leave : leave thread (t.task thread) = leave thread (s.task thread)) :
    t.ahead thread = s.ahead thread := by
  rw [ahead, ahead, coming, ended, leave]

theorem ahead_of_ended {task : Task} (nothing : s.coming thread = []) (ended : s.ended)
    (stage : s.task thread = task) : s.ahead thread = leave thread task := by
  rw [ahead, nothing, if_pos ended, stage]
  rfl

theorem coming_congr (lines : t.lines = s.lines) (queue : t.queue = s.queue) :
    t.coming thread = s.coming thread := by
  cases thread <;> simp only [coming, lines, queue]

@[simp] theorem coming_withTask (thread other : Thread) (task : Task) (s : Session) :
    (s.withTask other task).coming thread = s.coming thread := by
  cases thread <;> cases other <;> rfl

@[simp] theorem ended_withTask (thread : Thread) (task : Task) (s : Session) :
    (s.withTask thread task).ended = s.ended := by
  cases thread <;> rfl

@[simp] theorem coming_undertake (thread other : Thread) (command : Command) (s : Session) :
    (s.undertake other command).coming thread = s.coming thread :=
  coming_congr (lines_undertake ..) (queue_undertake ..)

theorem stands_undertake_of_ne (ne : other ≠ thread) (command : Command) {c : Caller}
    {waits : List Errand} (stands : CallerIs thread.place c waits s.system) :
    CallerIs thread.place c waits (s.undertake other command).system := by
  unfold undertake takeUp
  cases command.work with
  | course => rwa [system_withTask]
  | call call =>
    rw [system_withTask]
    exact stands.congr (List.getElem?_modify_ne _ _ fun same => ne (Thread.place_inj same)) rfl

theorem midway_undertake (command : Command) (rests : Rests thread.place s.system) :
    Midway thread (s.undertake thread command) command.work [] := by
  unfold undertake takeUp
  cases command.work with
  | course course =>
    have rests : Rests thread.place (s.withTask thread (.acting course)).system := by
      rwa [system_withTask]
    exact .course (task_withTask ..) rests (.refl course)
  | call call =>
    obtain ⟨results, stands⟩ := rests
    show Midway _ _ _ (([] : List (Occurrence Workshop)).map .dispatch)
    refine .call (task_withTask ..) ?_
    rw [system_withTask]
    exact .ahead (stands.assign call)

/-! ## Steps of others -/

theorem queued?_of_error {line : List Char} {fault : CommandFault}
    (decodes : Command.ofLine line = .error fault) :
    immediate? line = none ∧ queued? line = none := by
  simp [immediate?, queued?, decodes]

theorem queued?_of_ok {line : List Char} {command : Command}
    (decodes : Command.ofLine line = .ok command) :
    immediate? line = (if command.isImmediate then some command else none) ∧
      queued? line = if command.isImmediate then none else some command := by
  simp [immediate?, queued?, decodes]

/-- What a step does to the duties of another thread: nothing. -/
theorem frame_of_move (move : Move s e t) (other : e.isOf thread = false) :
    t.task thread = s.task thread ∧ t.coming thread = s.coming thread ∧ t.ended = s.ended ∧
      ∀ c waits, CallerIs thread.place c waits s.system →
        CallerIs thread.place c waits t.system := by
  cases move with
  | faulty idle next decodes =>
    cases thread with
    | reader => cases other
    | producer =>
      refine ⟨rfl, ?_, rfl, fun _ _ stands => stands⟩
      rw [coming, coming, next, List.filterMap_cons, (queued?_of_error decodes).2]
  | queues idle next decodes later =>
    cases thread with
    | reader => cases other
    | producer =>
      refine ⟨rfl, ?_, rfl, fun _ _ stands => stands⟩
      rw [coming, coming, next, List.filterMap_cons, (queued?_of_ok decodes).2, later,
        List.append_assoc]
      rfl
  | starts idle next decodes now =>
    cases thread with
    | reader => cases other
    | producer =>
      have ne : Thread.reader ≠ .producer := by decide
      refine ⟨task_undertake_of_ne _ _ ne, ?_, (closing_undertake ..).1, fun _ _ stands =>
        stands_undertake_of_ne ne _ ⟨stands.place, stands.waits⟩⟩
      rw [coming_undertake, coming, coming, next, List.filterMap_cons, (queued?_of_ok decodes).2,
        now]
      rfl
  | takes idle next =>
    cases thread with
    | producer => cases other
    | reader =>
      have ne : Thread.producer ≠ .reader := by decide
      exact ⟨task_undertake_of_ne _ _ ne, coming_undertake .., (closing_undertake ..).1,
        fun _ _ stands => stands_undertake_of_ne ne _ ⟨stands.place, stands.waits⟩⟩
  | acts task done | ends task | hears task there =>
    have ne := fun same => of_decide_eq_false other (Eq.symm same)
    refine ⟨(task_withTask_of_ne ne ..).trans (by cases thread <;> rfl),
      (coming_withTask ..).trans (coming_congr rfl rfl), ended_withTask .., fun _ _ stands => ?_⟩
    rw [system_withTask]
    exact ⟨stands.place, stands.waits⟩
  | dispatch moved =>
    refine ⟨by cases thread <;> rfl, coming_congr rfl rfl, rfl, fun _ _ => ?_⟩
    exact .frame System.neverBreaks_workshop (System.move_of_move? moved) (of_decide_eq_false other)
  | inputEnds | hangsUp =>
    cases thread with
    | reader => cases other
    | producer => exact ⟨rfl, rfl, rfl, fun _ _ stands => stands⟩
  | quits =>
    cases thread with
    | producer => cases other
    | reader => exact ⟨rfl, rfl, rfl, fun _ _ stands => stands⟩
  | courier | move | joins | releases | tearsDown | closes =>
    exact ⟨by cases thread <;> rfl, coming_congr rfl rfl, rfl,
      fun _ _ stands => ⟨stands.place, stands.waits⟩⟩

theorem Midway.frame (move : Move s e t) (other : e.isOf thread = false)
    (midway : Midway thread s work es) : Midway thread t work es := by
  obtain ⟨task, -, -, keeps⟩ := frame_of_move move other
  cases midway with
  | call calling stands => exact .call (task.trans calling) (stands.map keeps)
  | course acting rests reaches => exact .course (task.trans acting) (rests.map keeps) reaches

theorem Progress.frame (move : Move s e t) (other : e.isOf thread = false)
    (progress : Progress thread duties h s) : Progress thread duties (h ++ [e]) t := by
  obtain ⟨task, coming, ended, keeps⟩ := frame_of_move move other
  have ahead : t.ahead thread = s.ahead thread := ahead_congr coming ended (task ▸ rfl)
  have same : part thread (h ++ [e]) = part thread h := by
    rw [part_concat, other]
    exact List.append_nil _
  cases progress with
  | between split scripts free =>
    exact .between (ahead ▸ split) (same ▸ scripts) ⟨task ▸ free.task, free.rests.map keeps⟩
  | within split scripts shows midway =>
    exact .within (ahead ▸ split) scripts (same.trans shows) (midway.frame move other)

/-! ## Own steps -/

theorem resultAt?_eq_some {place : Nat} {c : Caller} {waits : List Errand} {result : Result}
    (stands : CallerIs place c waits s.system) (there : s.resultAt? place = some result) :
    c.todo = [] ∧ c.isFree ∧ c.results.getLast? = some result := by
  unfold resultAt? at there
  simp only [stands.place] at there
  split at there
  · rename_i isDone
    obtain ⟨todo, free⟩ := Bool.and_eq_true_iff.1 isDone
    exact ⟨List.isEmpty_iff.1 todo, free, there⟩
  · cases there

theorem InCall.script_of_result {call : Call} {os : List (Occurrence Workshop)} {place : Nat}
    {result : Result} (stands : InCall place call [] s.system os)
    (there : s.resultAt? place = some result) :
    CallScript place call os result ∧ Rests place s.system := by
  cases stands with
  | ahead stands =>
    obtain ⟨todo, -⟩ := resultAt?_eq_some stands there
    cases todo
  | submitting stands | sending stands | awaiting stands =>
    obtain ⟨-, free, -⟩ := resultAt?_eq_some stands there
    cases free
  | answered stands script =>
    obtain ⟨-, -, last⟩ := resultAt?_eq_some stands there
    rw [List.getLast?_concat] at last
    cases last
    exact ⟨script, _, stands⟩

/-- A step in a piece of work goes on in its script, or ends it. -/
theorem Midway.step (alive : s.system.worker.isDead = false) (move : Move s e t)
    (own : e.isOf thread) (midway : Midway thread s work es) :
    t.ahead thread = s.ahead thread ∧ (Midway thread t work (es ++ [e]) ∨
      WorkScript thread work (es ++ [e]) ∧ IsFree thread t) := by
  have there : leave thread (s.task thread) = leave thread .idle :=
    leave_of_there (Task.isOut_of_isBusy midway.busy)
  have busy := midway.busy
  cases move with
  | faulty task | queues task | starts task | inputEnds task | hangsUp task =>
    cases of_decide_eq_true own
    rw [show s.task .reader = _ from task] at busy
    cases busy
  | takes task | quits task =>
    cases of_decide_eq_true own
    rw [show s.task .producer = _ from task] at busy
    cases busy
  | dispatch moved =>
    refine ⟨ahead_congr (coming_congr rfl rfl) rfl (by cases thread <;> rfl), .inl ?_⟩
    have move := System.move_of_move? moved
    have mine := of_decide_eq_true own
    cases midway with
    | course acting rests =>
      exact absurd mine (System.Rests.no_step System.neverBreaks_workshop move rests)
    | @call call os calling stands =>
      have next := stands.step_last System.neverBreaks_workshop alive move mine
      show Midway _ _ _ (os.map .dispatch ++ [_].map .dispatch)
      rw [← List.map_append]
      exact .call (by cases thread <;> exact calling) next
  | acts task done =>
    cases of_decide_eq_true own
    refine ⟨ahead_congr ((coming_withTask ..).trans (coming_congr rfl rfl)) (ended_withTask ..) ?_,
      .inl ?_⟩
    · rw [task_withTask, there]
      exact leave_of_there rfl
    cases midway with
    | call calling => cases calling.symm.trans task
    | @course course rest xs acting rests reaches =>
      cases acting.symm.trans task
      show Midway _ _ _ (xs.map (.acts thread) ++ [_].map (.acts thread))
      rw [← List.map_append]
      refine .course (task_withTask ..) ?_ (reaches.trans (.act (.refl _)))
      rw [system_withTask]
      refine rests.map fun _ _ stands => ?_
      exact ⟨stands.place, stands.waits⟩
  | ends task =>
    cases of_decide_eq_true own
    refine ⟨ahead_congr ((coming_withTask ..).trans (coming_congr rfl rfl)) (ended_withTask ..) ?_,
      .inr ?_⟩
    · rw [task_withTask, there]
    cases midway with
    | call calling => cases calling.symm.trans task
    | course acting rests reaches =>
      cases acting.symm.trans task
      exact ⟨.course reaches, by rw [task_withTask]; rfl, by rwa [system_withTask]⟩
  | hears task result =>
    cases of_decide_eq_true own
    refine ⟨ahead_congr ((coming_withTask ..).trans (coming_congr rfl rfl)) (ended_withTask ..) ?_,
      .inr ?_⟩
    · rw [task_withTask, there]
    cases midway with
    | course acting => cases acting.symm.trans task
    | call calling stands =>
      obtain ⟨script, rests⟩ := InCall.script_of_result stands result
      exact ⟨.call script, by rw [task_withTask]; rfl, by rwa [system_withTask]⟩
  | courier | move | joins | releases | tearsDown | closes => cases own

theorem Progress.begin (move : Move s e t) (own : e.isOf thread) {finished : List Duty}
    (split : duties = finished ++ s.ahead thread)
    (scripts : Scripts thread finished (part thread h)) (free : IsFree thread s) :
    Progress thread duties (h ++ [e]) t := by
  have shown : part thread (h ++ [e]) = part thread h ++ [e] := by rw [part_concat, own]; rfl
  have light (opens : s.ahead thread = ⟨e, none⟩ :: t.ahead thread) (free : IsFree thread t) :
      Progress thread duties (h ++ [e]) t := by
    refine .between (by rw [split, opens, ← List.singleton_append, ← List.append_assoc]) ?_ free
    rw [shown]
    exact scripts.concat (.light e)
  have heavy {work : Work} (opens : s.ahead thread = ⟨e, some work⟩ :: t.ahead thread)
      (midway : Midway thread t work []) : Progress thread duties (h ++ [e]) t :=
    .within (split.trans (congrArg _ opens)) scripts shown midway
  have idles := free.task
  cases move with
  | faulty idle next decodes =>
    cases of_decide_eq_true own
    refine light ?_ ⟨free.task, free.rests⟩
    rw [ahead, coming, next, List.map_cons, Duty.ofLine, (queued?_of_error decodes).1]
    rfl
  | queues idle next decodes later =>
    cases of_decide_eq_true own
    refine light ?_ ⟨free.task, free.rests⟩
    rw [ahead, coming, next, List.map_cons, Duty.ofLine, (queued?_of_ok decodes).1, later]
    rfl
  | @starts line lines command idle next decodes now =>
    cases of_decide_eq_true own
    refine heavy ?_ (midway_undertake command free.rests)
    rw [ahead, ahead, coming_undertake, (closing_undertake ..).1, show s.task .reader = _ from idle,
      leave_of_there (Task.isOut_of_isBusy (isBusy_undertake ..)), coming, next, List.map_cons,
      Duty.ofLine, (queued?_of_ok decodes).1, now]
    rfl
  | @takes command queue idle next =>
    cases of_decide_eq_true own
    refine heavy ?_ (midway_undertake command free.rests)
    rw [ahead, ahead, coming_undertake, (closing_undertake ..).1,
      show s.task .producer = _ from idle,
      leave_of_there (Task.isOut_of_isBusy (isBusy_undertake ..)), coming, next, List.cons_append,
      List.map_cons]
    rfl
  | inputEnds idle read ended =>
    cases of_decide_eq_true own
    have nothing : s.coming .reader = [] := congrArg (List.map Duty.ofLine) read
    have after : ahead .reader { s with reader := .leaving } = leave .reader .leaving :=
      ahead_of_ended nothing ended rfl
    exact light ((ahead_of_ended nothing ended idle).trans (after ▸ rfl)) ⟨rfl, free.rests⟩
  | hangsUp leaving read ended =>
    cases of_decide_eq_true own
    have nothing : s.coming .reader = [] := congrArg (List.map Duty.ofLine) read
    have after : ahead .reader { s with reader := .gone } = leave .reader .gone :=
      ahead_of_ended nothing ended rfl
    exact light ((ahead_of_ended nothing ended leaving).trans (after ▸ rfl)) ⟨rfl, free.rests⟩
  | quits idle taken hungUp read ended =>
    cases of_decide_eq_true own
    have nothing : s.coming .producer = [] := by
      rw [coming, taken, read]
      rfl
    have after : ahead .producer { s with producer := .gone } = leave .producer .gone :=
      ahead_of_ended nothing ended rfl
    exact light ((ahead_of_ended nothing ended idle).trans (after ▸ rfl)) ⟨rfl, free.rests⟩
  | acts task | ends task | hears task =>
    cases of_decide_eq_true own
    rw [task] at idles
    cases idles
  | dispatch moved =>
    have move := System.move_of_move? moved
    have mine := of_decide_eq_true own
    exact absurd mine (System.Rests.no_step System.neverBreaks_workshop move free.rests)
  | courier | move | joins | releases | tearsDown | closes => cases own

theorem Progress.step (alive : s.system.worker.isDead = false) (move : Move s e t)
    (progress : Progress thread duties h s) : Progress thread duties (h ++ [e]) t := by
  cases own : e.isOf thread with
  | false => exact progress.frame move own
  | true =>
    cases progress with
    | between split scripts free => exact .begin move own split scripts free
    | within split scripts shows midway =>
      have shown : part thread (h ++ [e]) = part thread h ++ [e] := by rw [part_concat, own]; rfl
      rw [shows, List.append_assoc, List.cons_append] at shown
      obtain ⟨same, next⟩ := midway.step alive move own
      rcases next with midway | ⟨script, free⟩
      · exact .within (same ▸ split) scripts shown midway
      · refine .between (by rw [split, same, ← List.singleton_append, ← List.append_assoc]) ?_ free
        rw [shown]
        exact scripts.concat (.heavy _ script)

/-! ## Passages -/

theorem alive_of_move (move : Move s e t) (alive : s.system.worker.isDead = false) :
    t.system.worker.isDead = false := by
  have next := system_of_move move
  cases occurrence : e.occurrence? with
  | none =>
    rw [occurrence] at next
    rwa [next.1]
  | some o =>
    rw [occurrence] at next
    obtain ⟨l, moved⟩ := next
    exact System.alive_of_move System.neverBreaks_workshop (System.move_of_move? moved) alive

theorem Passage.alive (passage : Passage s h t) (alive : s.system.worker.isDead = false) :
    t.system.worker.isDead = false := by
  induction passage with
  | refl => exact alive
  | step _ move ih => exact alive_of_move move ih

/-- What a thread shows goes on in the scripts of its duties. -/
theorem Passage.progress (passage : Passage s k t) (alive : s.system.worker.isDead = false)
    (progress : Progress thread duties h s) : Progress thread duties (h ++ k) t := by
  induction passage with
  | refl => rwa [List.append_nil]
  | step passage move ih =>
    rw [← List.append_assoc]
    exact ih.step (passage.alive alive) move

/-! ## Scripts -/

theorem Midway.exists_script (midway : Midway thread s work es) :
    ∃ rest, WorkScript thread work (es ++ rest) := by
  cases midway with
  | call _ stands =>
    obtain ⟨rest, result, script⟩ := stands.exists_script
    refine ⟨rest.map .dispatch ++ [.responds thread (.ofResult result)], ?_⟩
    rw [← List.append_assoc, ← List.map_append]
    exact .call script
  | @course course rest xs _ _ reaches =>
    obtain ⟨ys, r, more⟩ := rest.exists_history s.system.plant
    refine ⟨ys.map (.acts thread) ++ [.responds thread r], ?_⟩
    rw [← List.append_assoc, ← List.map_append]
    exact .course (reaches.trans more)

theorem Duty.exists_script (thread : Thread) (w : Workshop) (duty : Duty) :
    ∃ es, duty.Script thread es := by
  obtain ⟨opening, work?⟩ := duty
  cases work? with
  | none => exact ⟨_, .light opening⟩
  | some work =>
    cases work with
    | call call =>
      obtain ⟨rest, result, script⟩ :=
        CallScript.exists_of_reaches thread.place w (.refl call.submission)
      exact ⟨_, .heavy opening (.call script)⟩
    | course course =>
      obtain ⟨xs, r, reaches⟩ := course.exists_history w
      exact ⟨_, .heavy opening (.course reaches)⟩

theorem exists_scripts (thread : Thread) (w : Workshop) (duties : List Duty) :
    ∃ script, Scripts thread duties script := by
  induction duties with
  | nil => exact ⟨[], .nil⟩
  | cons duty duties ih =>
    obtain ⟨es, script⟩ := duty.exists_script thread w
    obtain ⟨more, rest⟩ := ih
    exact ⟨es ++ more, .cons script rest⟩

/-- What a thread has shown of its duties is the beginning of their scripts, and all of them when
it has nothing more to do. -/
theorem Progress.exists_scripts (progress : Progress thread duties h s) :
    ∃ script, Scripts thread duties script ∧ part thread h <+: script ∧
      ((s.task thread).isBusy = false → s.ahead thread = [] → part thread h = script) := by
  cases progress with
  | @between finished split scripts free =>
    obtain ⟨more, later⟩ := Session.exists_scripts thread s.system.plant (s.ahead thread)
    refine ⟨part thread h ++ more, split ▸ scripts.append later, List.prefix_append .., ?_⟩
    intro _ nothing
    rw [nothing] at later
    cases later
    exact (List.append_nil _).symm
  | @within finished opening work before es split scripts shows midway =>
    obtain ⟨rest, script⟩ := midway.exists_script
    obtain ⟨more, later⟩ := Session.exists_scripts thread s.system.plant (s.ahead thread)
    refine ⟨before ++ ((opening :: (es ++ rest)) ++ more),
      split ▸ scripts.append (.cons (.heavy _ script) later), ?_, ?_⟩
    · rw [shows]
      exact ⟨rest ++ more, by simp only [List.append_assoc, List.cons_append]⟩
    · exact fun there => absurd midway.busy (Bool.eq_false_iff.1 there)

/-- What a thread shows after it has begun a duty begins with the rest of the script of that
duty. -/
theorem Passage.plays_duty {duty : Duty} (alive : s.system.worker.isDead = false)
    (start : Progress thread duties [] s) (passage : Passage s (h ++ e :: k) t)
    (own : e.isOf thread) (opening : duty.opening = e)
    (opens : ∀ m m', Move m e m' →
      (m.task thread).isBusy = false ∧ ∃ rest, m.ahead thread = duty :: rest) :
    ∃ es, duty.Script thread (e :: es) ∧ Plays es (part thread k) := by
  obtain ⟨m, m', before, move, after⟩ := passage.split_cons
  obtain ⟨there, rest, next⟩ := opens m m' move
  have free : IsFree thread m := (before.progress alive start).free_of_not_busy there
  -- from here on as if the session had begun with this duty
  have begun : Progress thread (m.ahead thread) ([] ++ [e]) m' :=
    .begin move own (List.nil_append _).symm .nil free
  have progress := after.progress (alive_of_move move (before.alive alive)) begun
  obtain ⟨script, scripts, shows, -⟩ := progress.exists_scripts
  have shown : part thread ([] ++ [e] ++ k) = e :: part thread k := by
    rw [part, List.nil_append, List.singleton_append, List.filter_cons, if_pos own]
    rfl
  rw [next] at scripts
  rw [shown] at shows
  cases scripts with
  | @cons _ _ es more first later =>
    obtain ⟨es, rfl⟩ : ∃ rest, es = e :: rest := by
      rcases first.cases with ⟨-, rfl⟩ | ⟨work, rest, -, -, rfl⟩ <;> exact ⟨_, by rw [opening]⟩
    have shows : part thread k <+: es ++ more := (List.cons_prefix_cons.1 shows).2
    exact ⟨es, first, List.prefix_or_prefix_of_prefix shows (List.prefix_append es more)⟩

theorem progress_begun (settings : Settings) (outputs : Roster) (lines : List (List Char))
    (ended : Bool) (thread : Thread) :
    Progress thread ((begun settings outputs lines ended).ahead thread) []
      (begun settings outputs lines ended) := by
  refine .between rfl .nil ⟨?_, [], ?_, ?_⟩ <;> cases thread <;> rfl

end ProgramControl.Console.Session
