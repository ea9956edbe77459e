import ProgramControl.Proofs.Completion.Draining
import ProgramControl.Proofs.Console.Rest

/-!
# A session settles

The courier of a session tires: an attempt fails only as long as the output has answers left.  So
the steps of all threads can be counted, the courier's with them, and `settle` goes on until nobody
can move.  When the input has ended, that is the end of the session.

* `LineOutput.tires`     an attempt that fails uses up an answer;
* `Brief`                whatever is under way in a session is the rest of one command;
* `Left n`               all threads together have so many steps left at most;
* `settle_rests`         `settle` is a run that stops only when nobody can move;
* `closed_of_stuck`      after the end of the input, nobody can move when the session is closed.
-/

namespace ProgramControl

/-! ## The courier's steps -/

/-- What is left of the answers, and that a failure uses one of them up. -/
theorem Output.length_writeAll (answers : List WriteAnswer) (record : List Char) :
    (writeAll answers record).2.2.length ≤ answers.length ∧
      ((writeAll answers record).2.1 ≠ none →
        (writeAll answers record).2.2.length < answers.length) := by
  fun_induction writeAll answers record with
  | case1 => exact ⟨Nat.le_refl _, fun failed => absurd rfl failed⟩
  | case2 => exact ⟨Nat.le_refl _, fun failed => absurd rfl failed⟩
  | case3 answers record _ ih =>
    exact ⟨Nat.le_succ_of_le ih.1, fun failed => Nat.lt_succ_of_lt (ih.2 failed)⟩
  | case4 => exact ⟨Nat.le_succ _, fun _ => Nat.lt_succ_self _⟩
  | case5 => exact ⟨Nat.le_succ _, fun _ => Nat.lt_succ_self _⟩
  | case6 n answers record _ rest ih =>
    exact ⟨Nat.le_succ_of_le ih.1, fun failed => Nat.lt_succ_of_lt (ih.2 failed)⟩

theorem LineOutput.answersLeft_deliver (e : Envelope) (l : LineOutput) :
    (l.deliver e).2.answersLeft ≤ l.answersLeft ∧
      ((l.deliver e).1 ≠ .ok () → (l.deliver e).2.answersLeft < l.answersLeft) := by
  obtain ⟨le, lt⟩ := Output.length_writeAll l.output.writes (record l.torn e)
  rcases whole : Output.writeAll l.output.writes (record l.torn e) with ⟨accepted, failure, writes⟩
  rw [whole] at le lt
  simp only at le lt
  unfold deliver Output.write
  rw [whole]
  cases failure with
  | some text =>
    have lt := lt nofun
    constructor
    · exact Nat.add_le_add_right le _
    · exact fun _ => Nat.add_lt_add_right lt _
  | none =>
    simp only [Output.flush, answersLeft]
    cases flushes : l.output.flushes with
    | nil => exact ⟨Nat.add_le_add_right le _, fun failed => absurd rfl failed⟩
    | cons answer rest =>
      have fewer : writes.length + rest.length < l.output.writes.length + (answer :: rest).length :=
        Nat.add_lt_add_of_le_of_lt le (Nat.lt_succ_self _)
      cases answer with
      | some text => exact ⟨Nat.le_of_lt fewer, fun _ => fewer⟩
      | none => exact ⟨Nat.le_of_lt fewer, fun failed => absurd rfl failed⟩

theorem LineOutput.tires : LineOutput.receiver.Tires LineOutput.answersLeft where
  le e l := by
    have le := (l.answersLeft_deliver e).1
    unfold receiver
    rcases whole : l.deliver e with ⟨result, after⟩
    rw [whole] at le
    simp only [whole]
    cases result <;> exact le
  lt {e l fault} failed := by
    have lt := (l.answersLeft_deliver e).2
    unfold receiver at failed ⊢
    rcases whole : l.deliver e with ⟨result, after⟩
    rw [whole] at lt
    simp only [whole] at failed ⊢
    cases result with
    | ok => cases failed
    | error => exact lt nofun

theorem Courier.toGo_notify (program : Nat) (completion : Completion) (each failures : Nat)
    (c : Courier) :
    (c.notify program completion).2.toGo each failures ≤ c.toGo each failures + each := by
  have grows : (c.queue.notify program completion).2.contents.length ≤
      c.queue.contents.length + 1 := by
    rcases submitted : c.queue.notify program completion with ⟨result, queue⟩
    cases result with
    | ok e =>
      rw [(Queue.notify_contents submitted).1, List.length_append]
      exact Nat.le_refl _
    | error fault =>
      rw [Queue.notify_error submitted]
      exact Nat.le_succ _
  have cost := Nat.mul_le_mul_left each grows
  rw [Nat.mul_succ] at cost
  show each * (c.queue.notify program completion).2.contents.length + 3 * failures + c.stage.cost ≤
    each * c.queue.contents.length + 3 * failures + c.stage.cost + each
  omega

theorem Workshop.toGo_perform (action : Action) (failures : Nat) (w : Workshop) :
    (w.perform action).2.courier.toGo 5 failures ≤ w.courier.toGo 5 failures + 5 := by
  cases action with
  | submit program completion => exact Courier.toGo_notify program completion 5 failures w.courier
  | _ => exact Nat.le_add_right ..

/-! ## Counting all steps -/

namespace Console

namespace Session

variable {s t : Session} {e : Event} {h : List Event} {n : Nat}

theorem length_callers_of_move (move : Move s e t) :
    t.system.callers.length = s.system.callers.length := by
  cases move with
  | @starts line lines command =>
    obtain ⟨callers, length, same⟩ := system_undertake .reader command { s with lines }
    rwa [same]
  | @takes command queue =>
    obtain ⟨callers, length, same⟩ := system_undertake .producer command { s with queue }
    rwa [same]
  | dispatch moved => exact System.length_callers_of_move (System.move_of_move? moved)
  | @acts thread | @ends thread | @hears thread => cases thread <;> rfl
  | _ => rfl

theorem visitors_of_move (move : Move s e t) (none : s.system.visitors = []) :
    t.system.visitors = [] := by
  cases move with
  | @starts line lines command =>
    obtain ⟨callers, -, same⟩ := system_undertake .reader command { s with lines }
    rwa [same]
  | @takes command queue =>
    obtain ⟨callers, -, same⟩ := system_undertake .producer command { s with queue }
    rwa [same]
  | dispatch moved =>
    cases System.move_of_move? moved with
    | onVisitor place =>
      rw [none] at place
      cases place
    | _ => exact none
  | @acts thread | @ends thread | @hears thread => cases thread <;> exact none
  | _ => exact none

/-- Whatever is under way is the rest of one command, and nobody but the two threads makes calls. -/
structure Brief (s : Session) : Prop where
  system : s.system.Brief
  task (thread : Thread) : (s.task thread).Within 4
  two : s.system.callers.length = 2
  alone : s.system.visitors = []

theorem brief_undertake (thread : Thread) (command : Command) (system : s.system.Brief) :
    (s.undertake thread command).system.Brief ∧
      ((s.undertake thread command).task thread).Within 4 := by
  unfold undertake takeUp
  cases work : command.work with
  | course course =>
    rw [system_withTask, task_withTask]
    exact ⟨system, 3, Command.within_work work, Nat.le_refl _⟩
  | call call =>
    rw [system_withTask, task_withTask]
    refine ⟨⟨?_, system.worker, system.visitors⟩, show 1 ≤ 4 by decide⟩
    exact system.modify _ fun c short call' course stage => short call' course stage

theorem task_within_of_move (move : Move s e t) (brief : s.Brief) (thread : Thread) :
    (t.task thread).Within 4 := by
  cases own : e.isOf thread with
  | false =>
    rw [(frame_of_move move own).1]
    exact brief.task thread
  | true =>
    cases move with
    | faulty | queues =>
      cases of_decide_eq_true own
      exact brief.task .reader
    | dispatch =>
      cases thread with
      | reader => exact brief.task .reader
      | producer => exact brief.task .producer
    | @starts line lines command =>
      cases of_decide_eq_true own
      exact (brief_undertake (s := { s with lines }) .reader command brief.system).2
    | @takes command queue =>
      cases of_decide_eq_true own
      exact (brief_undertake (s := { s with queue }) .producer command brief.system).2
    | @acts _ action next answer plant task =>
      cases of_decide_eq_true own
      have within := brief.task thread
      rw [task] at within
      obtain ⟨m, le, within⟩ := within.act answer
      rw [task_withTask]
      exact within.mono (Nat.le_of_succ_le le)
    | ends | hears =>
      cases of_decide_eq_true own
      rw [task_withTask]
      trivial
    | inputEnds | hangsUp | quits =>
      cases of_decide_eq_true own
      trivial
    | courier | move | joins | releases | tearsDown | closes => cases own

theorem brief_of_move (move : Move s e t) (brief : s.Brief) : t.Brief := by
  refine ⟨?_, task_within_of_move move brief, (length_callers_of_move move).trans brief.two,
    visitors_of_move move brief.alone⟩
  obtain ⟨callers, worker, visitors⟩ := brief.system
  cases move with
  | @starts line lines command =>
    exact (brief_undertake (s := { s with lines }) .reader command brief.system).1
  | @takes command queue =>
    exact (brief_undertake (s := { s with queue }) .producer command brief.system).1
  | acts | ends | hears =>
    rw [system_withTask]
    exact ⟨callers, worker, visitors⟩
  | dispatch moved => exact System.brief_of_move (System.move_of_move? moved) brief.system
  | _ => exact ⟨callers, worker, visitors⟩

theorem Passage.brief (passage : Passage s h t) (brief : s.Brief) : t.Brief := by
  induction passage with
  | refl => exact brief
  | step _ move ih => exact brief_of_move move ih

theorem brief_begun (settings : Settings) (outputs : Roster) (lines : List (List Char))
    (ended : Bool) : (begun settings outputs lines ended).Brief where
  system :=
    { callers := fun c mem => .of_stage fun call course stage => by
        simp only [begun, start, List.mem_cons, List.not_mem_nil, or_false, or_self] at mem
        subst mem
        cases stage
      worker := trivial
      visitors := fun v mem => absurd mem List.not_mem_nil }
  task thread := by cases thread <;> trivial
  two := rfl
  alone := rfl

/-- The steps that the courier has left, an envelope being good for five. -/
def toDeliver (s : Session) : Nat := s.system.plant.courier.toGo 5 s.output.answersLeft

/-- All threads together have so many steps left at most.  A step of another thread costs the
courier five at most. -/
def Left (n : Nat) (s : Session) : Prop := ∃ m, s.Within m ∧ 6 * m + s.toDeliver ≤ n

theorem toDeliver_of_move (move : Move s e t) :
    t.toDeliver + (if e.isStep then 0 else 1) ≤ s.toDeliver + if e.isStep then 5 else 0 := by
  unfold toDeliver
  cases move with
  | dispatch moved =>
    rcases plant_of_dispatch moved with same | ⟨action, same⟩
    · rw [same]
      exact Nat.le_add_right ..
    · rw [same]
      exact Workshop.toGo_perform ..
  | @acts thread action _ _ _ task done =>
    have cost := Workshop.toGo_perform action s.output.answersLeft s.system.plant
    rw [done] at cost
    cases thread <;> exact cost
  | courier moved =>
    exact (Courier.moves_of_step moved).toGo_lt LineOutput.tires (by decide)
      fun _ => .inr (by decide)
  | starts | takes =>
    rw [plant_undertake, output_undertake]
    exact Nat.le_add_right ..
  | @ends thread | @hears thread => cases thread <;> exact Nat.le_add_right ..
  | _ => exact Nat.le_add_right ..

/-- What one step preserves: it takes one from the budget. -/
theorem left_of_move (move : Move s e t) (left : s.Left n) : ∃ m, m + 1 ≤ n ∧ t.Left m := by
  obtain ⟨m, within, le⟩ := left
  obtain ⟨m', spent, within'⟩ := within_of_move move within
  have delivers := toDeliver_of_move move
  refine ⟨6 * m' + t.toDeliver, ?_, m', within', Nat.le_refl _⟩
  split at spent <;> rename_i step
  · rw [if_pos step, if_pos step] at delivers
    omega
  · rw [if_neg step, if_neg step] at delivers
    omega

/-- The steps that `settle` allows are enough. -/
theorem Brief.left (brief : s.Brief) : s.Left s.enough := by
  have reader := brief.task .reader
  have producer := brief.task .producer
  refine ⟨_, ⟨_, 4, 4, brief.system.within, reader, producer, Nat.le_refl _⟩, ?_⟩
  have leaves : s.toLeave ≤ 7 := by
    have reader : (leave .reader s.reader).length ≤ 2 := by cases s.reader <;> simp [leave]
    have producer : (leave .producer s.producer).length ≤ 1 := by cases s.producer <;> simp [leave]
    have main : closingSteps s.main ≤ 4 := by cases s.main <;> decide
    unfold toLeave
    omega
  have delivers : s.toDeliver ≤ 2 * s.system.plant.courier.enough s.output.answersLeft := by
    have cost := s.system.plant.courier.stage.cost_le
    unfold toDeliver Courier.toGo Courier.enough
    omega
  rw [brief.alone, List.length_nil]
  simp only [enough, System.stepsPerCall, commandSteps]
  omega

/-! ## Settling -/

theorem mem_labels {l : Label} (brief : s.Brief) (moves : step? l s = some t) : l ∈ labels := by
  cases l with
  | dispatch l =>
    obtain ⟨system, gone, -⟩ := Option.map_eq_some_iff.1 moves
    obtain ⟨⟨o, system⟩, moved, -⟩ := Option.map_eq_some_iff.1 gone
    cases l with
    | worker => decide
    | caller i =>
      have inside : i < s.system.callers.length := by
        apply Classical.byContradiction
        intro outside
        have absent := List.getElem?_eq_none (Nat.not_lt.1 outside)
        rw [System.move?, System.moveCaller, absent] at moved
        cases moved
      rw [brief.two] at inside
      match i, inside with
      | 0, _ => decide
      | 1, _ => decide
    | visitor i =>
      rw [System.move?, System.moveVisitor, brief.alone] at moved
      cases moved
  | reader | producer | main | courier | move => decide

/-- A session settles by a run, where nobody can move any more. -/
theorem settleWithin_rests (orderly : s.Orderly) (brief : s.Brief) (left : s.Left n) :
    ∃ more, settleWithin n s = run more s ∧ ∀ l, step? l (run more s) = none := by
  induction n generalizing s with
  | zero =>
    refine ⟨[], rfl, fun l => ?_⟩
    cases moved : step? l s with
    | none => exact moved
    | some t =>
      obtain ⟨e, -, move⟩ := move_of_step? orderly moved
      obtain ⟨m, none, -⟩ := left_of_move move left
      omega
  | succ n ih =>
    rw [settleWithin]
    cases found : labels.findSome? (step? · s) with
    | none =>
      refine ⟨[], rfl, fun l => ?_⟩
      cases moved : step? l s with
      | none => exact moved
      | some t =>
        cases moved.symm.trans (List.findSome?_eq_none_iff.1 found l (mem_labels brief moved))
    | some t =>
      obtain ⟨l, -, moved⟩ := List.exists_of_findSome?_eq_some found
      obtain ⟨e, -, move⟩ := move_of_step? orderly moved
      obtain ⟨m, le, m', within, le'⟩ := left_of_move move left
      obtain ⟨more, same, stuck⟩ := ih (orderly_of_move move orderly) (brief_of_move move brief)
        ⟨m', within, by omega⟩
      have begins : run (l :: more) s = run more t := by
        rw [run, List.foldl_cons, step, moved]
        rfl
      exact ⟨l :: more, same.trans begins.symm, begins ▸ stuck⟩

theorem settle_rests (orderly : s.Orderly) (brief : s.Brief) :
    ∃ more, s.settle = run more s ∧ ∀ l, step? l (run more s) = none :=
  settleWithin_rests orderly brief brief.left

/-- A session in which nobody can move after the end of the input is closed. -/
theorem closed_of_stuck (orderly : s.Orderly) (stuck : ∀ l, step? l s = none) (ended : s.ended)
    (free : ∀ thread, IsFree thread s) (idle : s.system.worker.isIdle)
    (empty : s.system.channel = []) : s.main = .closed := by
  have still : s.IsStill := fun l _ => stuck l
  have closing := still.closing orderly free idle empty
  rw [if_pos ended] at closing
  obtain ⟨-, -, closed | ⟨delivering, goes⟩⟩ := closing
  · exact closed
  · -- no handle is left, so the courier does not wait for more
    have alone := orderly.alone (by rw [isTornDown, delivering])
    have running : s.system.plant.courier.stage ≠ .stopped ∧
        s.system.plant.courier.stage ≠ .dead := by
      constructor <;> exact fun stage => by
        rw [Courier.isGone, stage] at goes
        cases goes
    obtain ⟨next, moved⟩ :=
      Courier.exists_step (r := LineOutput.receiver) (s := s.output) alone rfl running
    have never := stuck .courier
    rw [step?, stepCourier, moved] at never
    cases never

/-! ## The end of the input -/

/-- What can be done before the input has ended can be done after it. -/
theorem move_with_end (move : Move s e t) :
    Move { s with ended := true } e { t with ended := true } := by
  have undertakes (thread : Thread) (command : Command) (s : Session) :
      { s.undertake thread command with ended := true } =
        undertake thread command { s with ended := true } := by
    unfold undertake takeUp
    cases command.work <;> cases thread <;> rfl
  have moves (thread : Thread) (task : Task) (s : Session) :
      { s.withTask thread task with ended := true } =
        withTask thread task { s with ended := true } := by
    cases thread <;> rfl
  have same (thread : Thread) (s : Session) :
      task thread { s with ended := true } = s.task thread := by
    cases thread <;> rfl
  cases move with
  | faulty idle next decodes => exact .faulty idle next decodes
  | queues idle next decodes later => exact .queues idle next decodes later
  | starts idle next decodes now =>
    rw [undertakes]
    exact .starts idle next decodes now
  | takes idle next =>
    rw [undertakes]
    exact .takes idle next
  | acts task done =>
    rw [moves]
    exact .acts ((same ..).trans task) done
  | ends task =>
    rw [moves]
    exact .ends ((same ..).trans task)
  | hears task there =>
    rw [moves]
    exact .hears ((same ..).trans task) there
  | dispatch moved => exact .dispatch moved
  | courier moved => exact .courier moved
  | move outstanding => exact .move outstanding
  | inputEnds idle read => exact .inputEnds idle read rfl
  | hangsUp leaving read => exact .hangsUp leaving read rfl
  | quits idle taken hungUp read => exact .quits idle taken hungUp read rfl
  | joins waiting out => exact .joins waiting out
  | releases joining quit => exact .releases joining quit
  | tearsDown releasing released out quit => exact .tearsDown releasing released out quit
  | closes delivering gone => exact .closes delivering gone

theorem Passage.with_end (passage : Passage s h t) :
    Passage { s with ended := true } h { t with ended := true } := by
  induction passage with
  | refl => exact .refl _
  | step _ move ih => exact ih.step (move_with_end move)

end Session

end Console

end ProgramControl
