import ProgramControl.Proofs.Console.Duties
import ProgramControl.Proofs.Dispatch.Rest

/-!
# A session comes to rest

Apart from the courier, who may be told to try again for as long as the receiver says so, threads of
a session cannot go on for ever; and where they come to rest, nothing is left to do.

* `Within n`             the threads have so many steps left at most;
* `within_of_move`       a step takes one of them;
* `Passage.within`       so a session takes so many steps for each line;
* `IsStill.free`         where nobody can move, each thread is through with a duty;
* `IsStill.empty`        no line and no command is left;
* `IsStill.closing`      and the threads have left, if the input has ended.
-/

namespace ProgramControl

theorem Shares.grow {α : Type} {enough : Nat → α → Prop} {f : α → α} {m n : Nat} {l : List α}
    (grows : ∀ k a, enough k a → enough (k + m) (f a)) (shares : Shares enough n l) (i : Nat) :
    Shares enough (n + m) (l.modify i f) := by
  induction shares generalizing i with
  | nil n => cases i <;> exact .nil _
  | @cons n n' a l first rest ih =>
    cases i with
    | zero =>
      have same : n + n' + m = n + m + n' := by omega
      rw [same]
      exact .cons (grows n a first) rest
    | succ i =>
      rw [Nat.add_assoc]
      exact .cons first (ih i)

theorem Caller.Within.assign {n : Nat} {c : Caller} (within : c.Within n) (call : Call) :
    Caller.Within (n + System.stepsPerCall) { c with todo := c.todo ++ [call] } := by
  obtain ⟨todo, stage, results⟩ := c
  unfold Caller.Within at within ⊢
  have more : System.stepsPerCall * (todo ++ [call]).length =
      System.stepsPerCall * todo.length + System.stepsPerCall := by
    rw [List.length_append]
    rfl
  cases stage with
  | calling mine course =>
    obtain ⟨m, course, le⟩ := within
    exact ⟨m, course, by simp only [more] at le ⊢; omega⟩
  | _ =>
    simp only [more] at within ⊢
    omega

namespace Console

theorem Command.within_showState : Course.Within 3 showState :=
  .act fun _ => .act fun _ => .act fun _ => .done 0 _

theorem Command.within_work {command : Command} {course : Course Response}
    (work : command.work = .course course) : course.Within 3 := by
  cases command with
  | directive | newProgram => cases work
  | status =>
    cases work
    exact within_showState
  | move ms =>
    cases work
    refine .act fun halted => ?_
    cases halted with
    | true => exact .act fun _ => .done 1 _
    | false => exact .act fun _ => .done 1 _

/-- What is enough for a thread to finish its task, apart from what it is called for. -/
def Task.Within (n : Nat) : Task → Prop
  | .idle | .leaving | .gone => True
  | .calling => 1 ≤ n
  | .acting course => ∃ m, course.Within m ∧ m + 1 ≤ n

theorem Task.Within.pos {n : Nat} {task : Task} (within : task.Within n) (busy : task.isBusy) :
    1 ≤ n := by
  cases task with
  | idle | leaving | gone => cases busy
  | calling => exact within
  | acting course =>
    obtain ⟨m, -, le⟩ := within
    omega

theorem Task.Within.mono {n m : Nat} {task : Task} (within : task.Within n) (le : n ≤ m) :
    task.Within m := by
  cases task with
  | idle | leaving | gone => trivial
  | calling => exact Nat.le_trans within le
  | acting course =>
    obtain ⟨k, course, le'⟩ := within
    exact ⟨k, course, Nat.le_trans le' le⟩

theorem Task.Within.act {n : Nat} {action : Action} {next : action.Answer → Course Response}
    (within : Task.Within n (.acting (.act action next))) (answer : action.Answer) :
    ∃ m, m + 1 ≤ n ∧ Task.Within m (.acting (next answer)) := by
  obtain ⟨m, course, le⟩ := within
  cases course with
  | @act m _ _ rest => exact ⟨m + 1, le, m, rest answer, Nat.le_refl _⟩

namespace Session

open ProgramControl.System (CallerIs)

/-- Enough to take up a command and to carry it out. -/
def commandSteps : Nat := System.stepsPerCall + 2

/-- Steps that the main thread has left. -/
def closingSteps : Closing → Nat
  | .waiting => 4
  | .joining => 3
  | .releasing => 2
  | .delivering => 1
  | .closed => 0

/-- Steps with which the threads leave. -/
def toLeave (s : Session) : Nat :=
  (leave .reader s.reader).length + (leave .producer s.producer).length + closingSteps s.main

/-- Threads other than the courier have so many steps left at most.  Each of their steps may admit
a move, which is done by a step of its own. -/
def Within (n : Nat) (s : Session) : Prop :=
  ∃ dispatch reader producer, s.system.Within dispatch ∧ s.reader.Within reader ∧
    s.producer.Within producer ∧
    2 * (dispatch + reader + producer + commandSteps * s.queue.length +
      (commandSteps + 1) * s.lines.length + s.toLeave) +
      s.system.plant.motion.outstanding ≤ n

def Event.isStep : Event → Bool
  | .courier => false
  | _ => true

/-- Steps of all threads but the courier. -/
def steps (h : List Event) : List Event := h.filter (·.isStep)

variable {s t : Session} {e : Event} {h : List Event} {n : Nat}

theorem outstanding_perform (action : Action) (w : Workshop) :
    (w.perform action).2.motion.outstanding ≤ w.motion.outstanding + 1 := by
  cases action with
  | countMove => exact Nat.le_refl _
  | haltMotion =>
    show w.motion.halt.outstanding ≤ _
    rw [Motion.halt]
    split <;> exact Nat.le_succ _
  | _ => exact Nat.le_succ _

theorem outstanding_of_move {l : ProgramControl.Label} {o : Occurrence Workshop}
    {a b : System Workshop} (moved : System.move? Workshop.plant l a = some (o, b)) :
    b.plant.motion.outstanding ≤ a.plant.motion.outstanding + 1 := by
  rcases plant_of_dispatch moved with same | ⟨action, same⟩
  · rw [same]
    exact Nat.le_succ _
  · rw [same]
    exact outstanding_perform ..

theorem toLeave_withTask (thread : Thread) (task : Task) (s : Session)
    (there : (s.task thread).isOut = false) (stays : task.isOut = false) :
    (s.withTask thread task).toLeave = s.toLeave := by
  have same : leave thread task = leave thread (s.task thread) :=
    (leave_of_there stays).trans (leave_of_there there).symm
  cases thread <;> simp only [toLeave, withTask, same, Session.task]

theorem toLeave_undertake (thread : Thread) (command : Command) (s : Session)
    (there : (s.task thread).isOut = false) :
    (s.undertake thread command).toLeave = s.toLeave := by
  unfold undertake takeUp
  cases command.work with
  | call => exact toLeave_withTask thread .calling _ (by cases thread <;> exact there) rfl
  | course course => exact toLeave_withTask thread (.acting course) s there rfl

/-- Taking up a command costs no more than is enough for one. -/
theorem within_undertake (thread : Thread) (command : Command) {k : Nat}
    (dispatch : s.system.Within k) :
    ∃ k' m, (s.undertake thread command).system.Within k' ∧
      ((s.undertake thread command).task thread).Within m ∧ k' + m + 1 ≤ k + commandSteps := by
  unfold undertake takeUp
  cases work : command.work with
  | course course =>
    refine ⟨k, 4, ?_, ?_, ?_⟩
    · rwa [system_withTask]
    · rw [task_withTask]
      exact ⟨3, Command.within_work work, Nat.le_refl _⟩
    · simp only [commandSteps, System.stepsPerCall]
      omega
  | call call =>
    obtain ⟨callers, worker, visitors, shares, busy, visits, le⟩ := dispatch
    refine ⟨k + System.stepsPerCall, 1, ?_, ?_, ?_⟩
    · rw [system_withTask]
      exact ⟨callers + System.stepsPerCall, worker, visitors,
        shares.grow (fun _ _ within => within.assign call) _, busy, visits, by simp only; omega⟩
    · rw [task_withTask]
      exact Nat.le_refl 1
    · simp only [commandSteps]
      omega

theorem Within.spend {k r p : Nat} (dispatch : t.system.Within k) (reader : t.reader.Within r)
    (producer : t.producer.Within p)
    (lt : 2 * (k + r + p + commandSteps * t.queue.length + (commandSteps + 1) * t.lines.length +
      t.toLeave) + t.system.plant.motion.outstanding + 1 ≤ n) : ∃ m, m + 1 ≤ n ∧ t.Within m :=
  ⟨_, lt, k, r, p, dispatch, reader, producer, Nat.le_refl _⟩

/-- What one step preserves: it takes one from the budget, or is one of the courier. -/
theorem within_of_move (move : Move s e t) (within : s.Within n) :
    ∃ m, m + (if e.isStep then 1 else 0) ≤ n ∧ t.Within m := by
  obtain ⟨k, r, p, dispatch, reader, producer, le⟩ := within
  cases move with
  | faulty idle next =>
    rw [next, List.length_cons, Nat.mul_succ] at le
    refine Within.spend dispatch reader producer ?_
    simp only [toLeave] at le ⊢
    omega
  | queues idle next =>
    rw [next, List.length_cons, Nat.mul_succ] at le
    refine Within.spend dispatch reader producer ?_
    simp only [toLeave, List.length_append, List.length_singleton, Nat.mul_add] at le ⊢
    omega
  | @starts line lines command idle next =>
    rw [next, List.length_cons, Nat.mul_succ] at le
    obtain ⟨k', m, dispatch, task, cost⟩ :=
      within_undertake (s := { s with lines }) .reader command dispatch
    have ne : Thread.reader ≠ .producer := by decide
    have others : Task.Within p (({ s with lines }.undertake .reader command).task .producer) :=
      task_undertake_of_ne command { s with lines } ne ▸ producer
    have leaves := toLeave_undertake .reader command { s with lines } (Task.not_out_of_idle idle)
    refine Within.spend dispatch task others ?_
    rw [leaves]
    simp only [lines_undertake, queue_undertake, plant_undertake, toLeave] at le ⊢
    omega
  | @takes command queue idle next =>
    rw [next, List.length_cons, Nat.mul_succ] at le
    obtain ⟨k', m, dispatch, task, cost⟩ :=
      within_undertake (s := { s with queue }) .producer command dispatch
    have ne : Thread.producer ≠ .reader := by decide
    have others : Task.Within r (({ s with queue }.undertake .producer command).task .reader) :=
      task_undertake_of_ne command { s with queue } ne ▸ reader
    have leaves := toLeave_undertake .producer command { s with queue } (Task.not_out_of_idle idle)
    refine Within.spend dispatch others task ?_
    rw [leaves]
    simp only [lines_undertake, queue_undertake, plant_undertake, toLeave] at le ⊢
    omega
  | @acts thread action rest answer plant task done =>
    have admits := outstanding_perform action s.system.plant
    rw [done] at admits
    have leaves := toLeave_withTask thread (.acting (rest answer))
      { s with system := { s.system with plant } } (by cases thread <;> exact task ▸ rfl) rfl
    cases thread with
    | reader =>
      rw [show s.reader = _ from task] at reader
      obtain ⟨r', spent, reader⟩ := reader.act answer
      refine Within.spend dispatch reader producer ?_
      rw [leaves]
      simp only [withTask, toLeave] at admits le ⊢
      omega
    | producer =>
      rw [show s.producer = _ from task] at producer
      obtain ⟨p', spent, producer⟩ := producer.act answer
      refine Within.spend dispatch reader producer ?_
      rw [leaves]
      simp only [withTask, toLeave] at admits le ⊢
      omega
  | @ends thread _ task | @hears thread _ task =>
    have busy : (s.task thread).isBusy := task ▸ rfl
    have leaves := toLeave_withTask thread .idle s (Task.isOut_of_isBusy busy) rfl
    cases thread with
    | reader =>
      have spent := reader.pos busy
      refine Within.spend dispatch (r := r - 1) trivial producer ?_
      simp only [withTask, respond, toLeave] at leaves le ⊢
      omega
    | producer =>
      have spent := producer.pos busy
      refine Within.spend dispatch reader (p := p - 1) trivial ?_
      simp only [withTask, respond, toLeave] at leaves le ⊢
      omega
  | dispatch moved =>
    have admits := outstanding_of_move moved
    obtain ⟨k', spent, dispatch⟩ := System.within_of_move (System.move_of_move? moved) dispatch
    refine Within.spend dispatch reader producer ?_
    simp only [toLeave] at le ⊢
    omega
  | courier => exact ⟨n, Nat.le_refl _, k, r, p, dispatch, reader, producer, le⟩
  | move outstanding =>
    refine Within.spend dispatch reader producer ?_
    simp only [Motion.completeMove, toLeave] at le ⊢
    omega
  | inputEnds stage | hangsUp stage =>
    refine Within.spend dispatch (r := r) trivial producer ?_
    simp only [toLeave, stage, leave, List.length_cons, List.length_nil] at le ⊢
    omega
  | quits stage =>
    refine Within.spend dispatch reader (p := p) trivial ?_
    simp only [toLeave, stage, leave, List.length_cons, List.length_nil] at le ⊢
    omega
  | joins stage | releases stage | tearsDown stage | closes stage =>
    refine Within.spend dispatch reader producer ?_
    simp only [tearDown, toLeave, stage, closingSteps] at le ⊢
    omega

theorem Passage.within (passage : Passage s h t) (within : s.Within n) :
    ∃ m, (steps h).length + m ≤ n ∧ t.Within m := by
  induction passage with
  | refl => exact ⟨n, by rw [steps, List.filter_nil, List.length_nil]; omega, within⟩
  | @step t u e h passage move ih =>
    obtain ⟨m, le, left⟩ := ih
    obtain ⟨m', spent, left'⟩ := within_of_move move left
    refine ⟨m', ?_, left'⟩
    rw [steps, List.filter_append, List.length_append, List.filter_cons]
    split at spent <;> rename_i step
    · rw [if_pos step]
      show (steps h).length + 1 + m' ≤ n
      omega
    · rw [if_neg step]
      show (steps h).length + 0 + m' ≤ n
      omega

theorem within_begun (settings : Settings) (outputs : Roster) (lines : List (List Char))
    (ended : Bool) : (begun settings outputs lines ended).Within
      (2 * ((commandSteps + 1) * lines.length + 7)) := by
  have callers : Shares (fun n c => Caller.Within n c) (0 + (0 + 0))
      (begun settings outputs lines ended).system.callers :=
    .cons (Nat.le_refl 0) (.cons (Nat.le_refl 0) (.nil 0))
  have dispatch : (begun settings outputs lines ended).system.Within 0 :=
    ⟨0, 0, 0, callers, trivial, .nil 0, Nat.le_refl 0⟩
  refine ⟨0, 0, 0, dispatch, trivial, trivial, ?_⟩
  simp [begun, start, toLeave, leave, closingSteps]

/-! ## Standing still -/

/-- A thread that can go on with its task does so by its own step. -/
theorem moves_of_goOn (thread : Thread) (goes : (s.goOn thread.place (s.task thread)).isSome) :
    (step? thread.label s).isSome := by
  cases thread with
  | reader =>
    show s.stepReader.isSome
    unfold stepReader
    split
    · rename_i idle _
      rw [show s.task .reader = _ from idle] at goes
      cases goes
    · rfl
    · rfl
    · rwa [Option.isSome_map]
  | producer =>
    show s.stepProducer.isSome
    unfold stepProducer
    split
    · rename_i idle _
      rw [show s.task .producer = _ from idle] at goes
      cases goes
    · split <;> rfl
    · rwa [Option.isSome_map]

theorem moves_of_answered (thread : Thread) {results : List Result} {result : Result}
    (task : s.task thread = .calling)
    (stands : CallerIs thread.place { todo := [], results := results ++ [result] } [] s.system) :
    (step? thread.label s).isSome := by
  refine moves_of_goOn thread ?_
  rw [task, goOn, Option.isSome_map, resultAt?]
  simp [stands.place, Caller.isDone, Caller.isFree]

/-- A thread goes on with its own actions, unless one of them has to wait. -/
theorem moves_of_acting (thread : Thread) {course : Course Response}
    (task : s.task thread = .acting course) (ready : course.IsReady Workshop.plant s.system.plant) :
    (step? thread.label s).isSome := by
  refine moves_of_goOn thread ?_
  rw [task]
  cases course with
  | done r => rfl
  | act action next =>
    have now : s.system.plant.ready action = true := ready
    simp only [goOn, now, if_true, Option.isSome_some]

/-- Nobody but the courier can move. -/
def IsStill (s : Session) : Prop := ∀ l, l ≠ .courier → step? l s = none

theorem IsStill.ready (still : s.IsStill) (action : Action) :
    Workshop.plant.ready action s.system.plant := by
  have standstill : s.system.plant.motion.outstanding = 0 := by
    have none := still .move (by decide)
    simp only [step?, stepMove] at none
    split at none
    · assumption
    · cases none
  cases action with
  | awaitStandstill =>
    show s.system.plant.motion.mayReturn
    simp [Motion.mayReturn, standstill]
  | _ => rfl

theorem IsStill.stuck (still : s.IsStill) (l : ProgramControl.Label) :
    System.move? Workshop.plant l s.system = none :=
  Option.map_eq_none_iff.1 (Option.map_eq_none_iff.1 (still (.dispatch l) nofun))

/-- Where nobody can move, a thread is between two duties. -/
theorem IsStill.free (still : s.IsStill) (alive : s.system.worker.isDead = false)
    {thread : Thread} {duties : List Duty} (progress : Progress thread duties h s) :
    IsFree thread s := by
  have rests (moves : (step? thread.label s).isSome) : False := by
    rw [still thread.label (by cases thread <;> nofun)] at moves
    cases moves
  cases progress with
  | between split scripts free => exact free
  | within split scripts shows midway =>
    cases midway with
    | course task =>
      exact (rests (moves_of_acting thread task (System.isReady_of_ready still.ready _))).elim
    | call task stands =>
      obtain ⟨results, result, answered⟩ :=
        stands.answered_of_stuck System.neverBreaks_workshop alive still.ready still.stuck
      exact (rests (moves_of_answered thread task answered)).elim

theorem Task.idle_or_out {task : Task} (free : task.isBusy = false) :
    task = .idle ∨ task.isOut := by
  cases task with
  | idle => exact .inl rfl
  | calling | acting => cases free
  | leaving | gone => exact .inr rfl

theorem Task.leaving_or_gone {task : Task} (out : task.isOut) : task = .leaving ∨ task = .gone := by
  cases task with
  | idle | calling | acting => cases out
  | leaving => exact .inl rfl
  | gone => exact .inr rfl

theorem IsStill.empty (still : s.IsStill) (orderly : s.Orderly)
    (free : ∀ thread, IsFree thread s) : s.lines = [] ∧ s.queue = [] := by
  constructor
  · rcases Task.idle_or_out (free .reader).task with idle | out
    · cases lines : s.lines with
      | nil => rfl
      | cons line rest =>
        have none := still .reader (by decide)
        simp only [step?, stepReader, show s.reader = .idle from idle, lines] at none
        cases none
    · exact (orderly.reader out).1
  · rcases Task.idle_or_out (free .producer).task with idle | out
    · cases queue : s.queue with
      | nil => rfl
      | cons command rest =>
        have none := still .producer (by decide)
        simp only [step?, stepProducer, show s.producer = .idle from idle, queue, orderly.running,
          if_true] at none
        cases none
    · exact (orderly.producer out).2.2

/-- As long as the input has not ended the threads wait for more; when it has ended they leave, and
the main thread waits for nobody but the courier. -/
theorem IsStill.closing (still : s.IsStill) (orderly : s.Orderly)
    (free : ∀ thread, IsFree thread s) (idle : s.system.worker.isIdle)
    (empty : s.system.channel = []) :
    if s.ended then s.reader = .gone ∧ s.producer = .gone ∧
      (s.main = .closed ∨ s.main = .delivering ∧ s.system.plant.courier.isGone = false)
    else s.reader = .idle ∧ s.producer = .idle ∧ s.main = .waiting := by
  obtain ⟨lines, queue⟩ := still.empty orderly free
  have reads := still .reader (by decide)
  have produces := still .producer (by decide)
  have closes := still .main (by decide)
  simp only [step?, stepReader, stepProducer, stepMain] at reads produces closes
  split
  · rename_i ended
    have gone : s.reader = .gone := by
      rcases Task.idle_or_out (free .reader).task with idle | out
      · simp [show s.reader = .idle from idle, lines, ended] at reads
      · rcases Task.leaving_or_gone out with leaving | gone
        · simp [show s.reader = .leaving from leaving] at reads
        · exact gone
    have quit : s.producer = .gone := by
      rcases Task.idle_or_out (free .producer).task with idle | out
      · simp [show s.producer = .idle from idle, queue, gone, Task.isGone] at produces
      · exact (orderly.producer out).1
    refine ⟨gone, quit, ?_⟩
    cases main : s.main with
    | closed => exact .inl rfl
    | delivering =>
      refine .inr ⟨rfl, Bool.eq_false_iff.2 fun done => ?_⟩
      simp [main, done] at closes
    | waiting => simp [main, gone, Task.isOut] at closes
    | joining => simp [main, quit, Task.isGone] at closes
    | releasing => simp [main, isReleased, gone, Task.isBusy, empty, idle] at closes
  · rename_i more
    have reading : s.reader.isOut = false :=
      Bool.eq_false_iff.2 fun out => more (orderly.reader out).2
    obtain ⟨waiting, producing⟩ := orderly.early reading
    have idle (thread : Thread) (there : (s.task thread).isOut = false) :
        s.task thread = .idle :=
      (Task.idle_or_out (free thread).task).resolve_right (Bool.eq_false_iff.1 there)
    exact ⟨idle .reader reading, idle .producer producing, waiting⟩

end Session

end Console

end ProgramControl
