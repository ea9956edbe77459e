import ProgramControl.Proofs.Console.Producer
import ProgramControl.Proofs.Console.Reader

/-!
# Every line once, in order

Whatever the order in which the threads of a session take their steps, each line is dealt with once.
What the reader shows is the scripts of the lines, one after the other; what the producer shows is
the scripts of the commands that went through the queue, in the order of their lines.  Nothing is
left behind when the input has ended, and no command keeps the reader from an emergency stop.

* `CarriesOut`             all that a session does about its lines;
* `Passage.carriesOut`     every passage from the start does it;
* `run_carriesOut`         and so does every run, and what is left to do when the input ends.
-/

namespace ProgramControl.Console.Session

/-- The session `s` has come to `t`, and has shown `h`. -/
structure CarriesOut (s : Session) (h : List Event) (t : Session) : Prop where
  /-- each thread sees to its duties once, in the order of the lines; when it has nothing more to
  do it has seen to all of them -/
  scripts (thread : Thread) : ∃ script, Scripts thread (s.ahead thread) script ∧
    part thread h <+: script ∧
    ((t.task thread).isBusy = false → t.ahead thread = [] → part thread h = script)
  /-- lines are read once, in order -/
  lines : s.lines = linesRead h ++ t.lines
  /-- commands enter and leave the queue in the order of their lines -/
  queue : (linesRead h).filterMap queued? = taken h ++ t.queue
  /-- no emergency stop ever enters it, and no request for the state -/
  keptOut (command : Command) (queued : command ∈ taken h ++ t.queue) :
    command.isEmergency = false ∧ command ≠ .status
  /-- blank lines are exactly those in which there is no command to decode -/
  blank (line : List Char) : Command.ofLine line = .error .empty ↔ Text.isBlankText line
  /-- a line that is no command has no effect but a complaint, and a blank one has none at all -/
  faulty (h₁ h₂ : List Event) (line : List Char) (fault : CommandFault)
    (reads : h = h₁ ++ .reads line :: h₂) (decodes : Command.ofLine line = .error fault) :
    ∃ m, Passage s h₁ m ∧ Passage { m with
      lines := m.lines.tail
      responses := m.responses ++
        if Text.isBlankText line then [] else [.complaint fault.message] } h₂ t
  /-- what was written is the complaints and the ends of the scripts, in the order in which they
  were shown -/
  responses : t.responses = responded h
  /-- an emergency stop is carried out before the next line is read -/
  stops (h₁ h₂ : List Event) (line : List Char) (reads : h = h₁ ++ .reads line :: h₂)
    (decodes : Command.ofLine line = .ok (.directive .emergencyStop)) :
    ∃ script, System.StopScript readerPlace script ∧
      Plays (.dispatch (.begins readerPlace (.directive .emergencyStop)) ::
        script.map .dispatch ++ [.responds .reader (.note (Directive.emergencyStop.text ++
          ": motion halted - restart required"))]) (part .reader h₂)
  /-- nothing makes the reader wait, but for more lines -/
  prompt : t.reader = .gone ∨ t.reader = .idle ∧ t.lines = [] ∧ t.ended = false ∨
    (step? .reader t).isSome ∨ (step? (.dispatch (.caller readerPlace)) t).isSome
  /-- a request for the state only reads it -/
  looks (x : Exchange Workshop) (acts : .acts .reader x ∈ h) : x.after = x.before
  /-- a command that was taken is applied before anything else is done for the queue -/
  applies (h₁ h₂ : List Event) (command : Command) (takes : h = h₁ ++ .takes command :: h₂) :
    ∃ script, Applies command script ∧ Plays script (part .producer h₂)
  /-- the actions of the two threads are carried out, each on the plant as it is -/
  acts (h₁ h₂ : List Event) (thread : Thread) (x : Exchange Workshop)
    (acts : h = h₁ ++ .acts thread x :: h₂) :
    x.before.perform x.action = (x.answer, x.after) ∧ ∃ m m', Passage s h₁ m ∧
      m.system.plant = x.before ∧ m'.system.plant = x.after ∧ Passage m' h₂ t
  /-- the worker serves the producer's requests, each once and in order, and no others -/
  serial : System.Serial s.system.fitted (dispatched h) t.system.worker
  fifo : entered (dispatched h) = (replied (dispatched h)).map Prod.fst ++ t.system.waiting
  errands (errand : Errand) (enters : errand ∈ entered (dispatched h)) :
    errand.caller = producerPlace
  /-- threads cannot go on for ever -/
  bounded : (steps h).length ≤ 2 * ((commandSteps + 1) * s.lines.length + 7)
  /-- they leave one after the other, the producer when all commands are applied -/
  leaves : LeavesInOrder s.lines h
  /-- where they come to a rest, all lines are dealt with; if no more will come they have left -/
  rest (still : t.IsStill) : t.lines = [] ∧ t.queue = [] ∧ t.system.waiting = [] ∧
    (∀ thread, (t.task thread).isBusy = false ∧ t.ahead thread = []) ∧
    if s.ended then t.reader = .gone ∧ t.producer = .gone ∧
      (t.main = .closed ∨ t.main = .delivering ∧ t.system.plant.courier.isGone = false)
    else t.reader = .idle ∧ t.producer = .idle ∧ t.main = .waiting

variable {s t : Session} {e : Event} {h : List Event}

theorem unchanged_of_look {x : Exchange Workshop} (look : x.action ∈ Command.looks)
    (done : x.before.perform x.action = (x.answer, x.after)) : x.after = x.before := by
  obtain ⟨action, answer, before, after⟩ := x
  simp only [Command.looks, List.mem_cons, List.not_mem_nil, or_false] at look
  rcases look with rfl | rfl | rfl <;> exact (congrArg Prod.snd done).symm

theorem later_of_queued? {line : List Char} {command : Command}
    (queued : queued? line = some command) :
    command.isEmergency = false ∧ command ≠ .status := by
  unfold queued? at queued
  split at queued
  · split at queued
    · cases queued
    · rename_i later
      cases queued
      cases command with
      | status => exact absurd rfl later
      | _ => exact ⟨Bool.eq_false_iff.2 later, nofun⟩
  · cases queued

theorem Passage.faulty {h₁ h₂ : List Event} {line : List Char} {fault : CommandFault}
    (passage : Passage s (h₁ ++ .reads line :: h₂) t)
    (decodes : Command.ofLine line = .error fault) :
    ∃ m, Passage s h₁ m ∧ Passage { m with
      lines := m.lines.tail
      responses := m.responses ++
        if Text.isBlankText line then [] else [.complaint fault.message] } h₂ t := by
  obtain ⟨m, m', before, move, after⟩ := passage.split_cons
  refine ⟨m, before, ?_⟩
  have complaint : fault.complaint?.toList =
      if Text.isBlankText line then [] else [.complaint fault.message] := by
    by_cases blank : Text.isBlankText line
    · rw [Command.ofLine_eq_empty_iff.2 blank] at decodes
      cases decodes
      rw [if_pos blank]
      rfl
    · rw [if_neg blank]
      cases fault with
      | empty => exact absurd (Command.ofLine_eq_empty_iff.1 decodes) blank
      | _ => rfl
  cases move with
  | faulty idle next same =>
    cases decodes.symm.trans same
    rw [← complaint, next]
    exact after
  | queues idle next same => cases decodes.symm.trans same
  | starts idle next same => cases decodes.symm.trans same

/-- What the reader shows after it has read an emergency stop begins with that stop. -/
theorem Passage.stops {duties : List Duty} {h₁ h₂ : List Event} {line : List Char}
    (alive : s.system.worker.isDead = false) (start : Progress .reader duties [] s)
    (passage : Passage s (h₁ ++ .reads line :: h₂) t)
    (decodes : Command.ofLine line = .ok (.directive .emergencyStop)) :
    ∃ script, System.StopScript readerPlace script ∧
      Plays (.dispatch (.begins readerPlace (.directive .emergencyStop)) ::
        script.map .dispatch ++ [.responds .reader (.note (Directive.emergencyStop.text ++
          ": motion halted - restart required"))]) (part .reader h₂) := by
  obtain ⟨es, script, plays⟩ := passage.plays_line alive start
  have work : (Duty.ofLine line).work? = some (.call (.directive .emergencyStop)) := by
    rw [Duty.ofLine, (queued?_of_ok decodes).1]
    rfl
  rcases script.cases with ⟨none, -⟩ | ⟨work', rest, some, script, same⟩
  · cases work.symm.trans none
  · cases work.symm.trans some
    obtain ⟨-, rfl⟩ := List.cons.inj same
    obtain ⟨stop, whole, rfl⟩ := stop_of_script script
    exact ⟨stop, whole, plays⟩

/-! ## From the start -/

section

variable {settings : Settings} {outputs : Roster} {lines : List (List Char)} {ended : Bool}
  (passage : Passage (begun settings outputs lines ended) h t)

include passage

/-- What the reader does itself changes nothing but by emergency stops. -/
theorem Passage.light : ∀ e ∈ part .reader h, e.IsLight := by
  obtain ⟨script, scripts, ⟨rest, shows⟩, -⟩ :=
    (passage.progress rfl (progress_begun settings outputs lines ended .reader)).exists_scripts
  have light := light_of_scripts (prompt_of_ahead _) (light_of_ahead _) scripts
  exact fun e mem => light e (shows ▸ List.mem_append_left _ mem)

theorem Passage.looks (x : Exchange Workshop) (acts : .acts .reader x ∈ h) :
    x.after = x.before := by
  have look := passage.light _ (List.mem_filter.2 ⟨acts, rfl⟩)
  obtain ⟨h₁, h₂, rfl⟩ := List.append_of_mem acts
  exact unchanged_of_look look passage.acts.1

/-- All requests that reach the worker are the producer's. -/
theorem Passage.errands (errand : Errand) (enters : errand ∈ entered (dispatched h)) :
    errand.caller = producerPlace := by
  obtain ⟨o, mem, isEnter⟩ := List.mem_filterMap.1 enters
  obtain ⟨e, mem, isDispatch⟩ := List.mem_filterMap.1 mem
  obtain rfl : e = .dispatch o := by cases e <;> cases isDispatch; rfl
  obtain rfl : o = .enters errand := by cases o <;> cases isEnter; rfl
  obtain ⟨h₁, h₂, rfl⟩ := List.append_of_mem mem
  obtain ⟨m, m', before, move, -⟩ := passage.split_cons
  have inside : errand.caller < m.system.callers.length := by
    cases move with
    | dispatch moved =>
      cases System.move_of_move? moved with
      | enters place => exact (List.getElem?_eq_some_iff.1 place).1
  rw [(before.brief (brief_begun settings outputs lines ended)).two] at inside
  by_cases reader : errand.caller = readerPlace
  · have own : Event.isOf .reader (.dispatch (.enters errand)) :=
      decide_eq_true (congrArg some reader)
    exact absurd rfl (passage.light _ (List.mem_filter.2 ⟨mem, own⟩) errand)
  · simp only [readerPlace, producerPlace] at reader ⊢
    omega

theorem Passage.free_of_still (still : t.IsStill) (thread : Thread) : IsFree thread t :=
  still.free (passage.alive rfl)
    (passage.progress rfl (progress_begun settings outputs lines ended thread))

theorem Passage.idle_of_still (still : t.IsStill) :
    t.system.worker.isIdle ∧ t.system.channel = [] ∧ t.system.waiting = [] := by
  obtain ⟨⟨p, idle⟩, empty, nothing⟩ :=
    System.idle_of_stuck (passage.alive rfl) still.ready (still.stuck .worker)
  exact ⟨by rw [idle]; rfl, empty, nothing⟩

/-- Where nobody but the courier can move, all lines are dealt with. -/
theorem Passage.rest (still : t.IsStill) : t.lines = [] ∧ t.queue = [] ∧ t.system.waiting = [] ∧
    (∀ thread, (t.task thread).isBusy = false ∧ t.ahead thread = []) ∧
    if ended then t.reader = .gone ∧ t.producer = .gone ∧
      (t.main = .closed ∨ t.main = .delivering ∧ t.system.plant.courier.isGone = false)
    else t.reader = .idle ∧ t.producer = .idle ∧ t.main = .waiting := by
  have orderly := passage.orderly (orderly_begun settings outputs lines ended)
  have free := passage.free_of_still still
  obtain ⟨idle, empty, nothing⟩ := passage.idle_of_still still
  obtain ⟨lines, queue⟩ := still.empty orderly free
  have closing := still.closing orderly free idle empty
  have same : t.ended = ended := passage.ended_eq
  rw [same] at closing
  refine ⟨lines, queue, nothing, fun thread => ⟨(free thread).task, ?_⟩, closing⟩
  have none : t.coming thread = [] := by
    cases thread <;> simp only [coming, lines, queue] <;> rfl
  rw [ahead, none, same]
  split at closing <;> rename_i atEnd
  · obtain ⟨reader, producer, -⟩ := closing
    rw [if_pos atEnd]
    cases thread with
    | reader => rw [show t.task .reader = _ from reader]; rfl
    | producer => rw [show t.task .producer = _ from producer]; rfl
  · rw [if_neg atEnd]
    rfl

theorem Passage.carriesOut : CarriesOut (begun settings outputs lines ended) h t := by
  have progress (thread : Thread) :=
    passage.progress rfl (progress_begun settings outputs lines ended thread)
  obtain ⟨read, queue, responses⟩ := passage.accounts
  obtain ⟨serial, fifo, -⟩ := passage.served rfl rfl
  obtain ⟨left, bounded, -⟩ := passage.within (within_begun settings outputs lines ended)
  have keptOut (command : Command) (queued : command ∈ taken h ++ t.queue) :
      command.isEmergency = false ∧ command ≠ .status := by
    obtain ⟨line, -, found⟩ := List.mem_filterMap.1 (queue ▸ queued)
    exact later_of_queued? found
  exact {
    scripts := fun thread => (progress thread).exists_scripts
    lines := read
    queue := queue
    keptOut := keptOut
    blank := fun line => Command.ofLine_eq_empty_iff
    faulty := fun h₁ h₂ line fault reads decodes => Passage.faulty (reads ▸ passage) decodes
    responses := responses
    stops := fun h₁ h₂ line reads decodes => Passage.stops rfl
      (progress_begun settings outputs lines ended .reader) (reads ▸ passage) decodes
    prompt := (progress .reader).reader_moves (prompt_of_ahead _)
    looks := passage.looks
    applies := fun h₁ h₂ command takes => by
      subst takes
      have later := keptOut command (by simp [taken, Event.taken?])
      exact passage.applies later.2 rfl (progress_begun settings outputs lines ended .producer)
    acts := fun h₁ h₂ thread x acts => (acts ▸ passage).acts
    serial := serial
    fifo := fifo
    errands := passage.errands
    bounded := Nat.le_trans (Nat.le_add_right _ left) bounded
    leaves := passage.leavesInOrder
    rest := passage.rest }

end

/-- Whatever the settings and the lines, and in whatever order the threads take their steps, every
line is dealt with once and in order.  When the input ends there, `finish` goes on with what is left
until the session is closed. -/
theorem run_carriesOut (settings : Settings) (outputs : Roster) (lines : List (List Char))
    (ended : Bool) (labels : List Label) :
    CarriesOut (begun settings outputs lines ended)
      (shown labels (begun settings outputs lines ended))
      (run labels (begun settings outputs lines ended)) ∧
    ∃ more, CarriesOut (begun settings outputs lines true)
      (shown labels (begun settings outputs lines ended) ++ more)
      (run labels (begun settings outputs lines ended)).finish ∧
      (∀ l, step? l (run labels (begun settings outputs lines ended)).finish = none) ∧
      (run labels (begun settings outputs lines ended)).finish.main = .closed := by
  have orderly := orderly_begun settings outputs lines ended
  have passage := passage_run labels orderly
  refine ⟨passage.carriesOut, ?_⟩
  have sofar : Passage (begun settings outputs lines true) _ _ := passage.with_end
  have orderly := sofar.orderly (orderly_begun settings outputs lines true)
  have brief := sofar.brief (brief_begun settings outputs lines true)
  obtain ⟨more, settles, stuck⟩ := settle_rests orderly brief
  have passage := sofar.trans (passage_run more orderly)
  have still : IsStill (run more _) := fun l _ => stuck l
  obtain ⟨idle, empty, -⟩ := passage.idle_of_still still
  rw [finish, settles]
  exact ⟨_, passage.carriesOut, stuck, closed_of_stuck
    (passage.orderly (orderly_begun settings outputs lines true)) stuck passage.ended_eq
    (passage.free_of_still still) idle empty⟩

/-- The lines of a job that ends, is begun again and moves. -/
def threeLines : List (List Char) := ["M30".toList, "NEW_PROGRAM".toList, "MOVE 250".toList]

/-- The reader is through with its lines and hangs up before the producer has done anything. -/
def hungUp : List Label := [.reader, .reader, .reader, .reader, .reader]

theorem hungUp_carriesOut :
    (run hungUp (begun {} .empty threeLines true)).reader.isGone ∧
    (run hungUp (begun {} .empty threeLines true)).queue =
      [.directive .programEndRepeat, .newProgram, .move 250] ∧
    (run hungUp (begun {} .empty threeLines true)).finish.responses =
      [.note "PROGRAM_END_REPEAT: program end with reset - ready for restart",
        .note "NEW_PROGRAM: program 2 running", .note "move admitted (250ms)"] ∧
    (run hungUp (begun {} .empty threeLines true)).finish.main = .closed ∧
    CarriesOut (begun {} .empty threeLines true) (shown hungUp (begun {} .empty threeLines true))
      (run hungUp (begun {} .empty threeLines true)) := by
  obtain ⟨carriesOut, more, -, -, closed⟩ := run_carriesOut {} .empty threeLines true hungUp
  exact ⟨by decide +kernel, by decide +kernel, by decide +kernel, closed, carriesOut⟩

end ProgramControl.Console.Session
