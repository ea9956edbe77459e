import ProgramControl.Proofs.Console.Rest
import ProgramControl.Proofs.Program.Watch

/-!
# The reader waits for nobody

What the reader carries out itself is short: an emergency stop, which has its result on the reader's
own thread, or three looks at the state.

* `confined`                 a watch that allows some actions and no others;
* `work_of_immediate`        the two pieces of work of the reader;
* `Progress.reader_moves`    it can always go on, until it has read all lines;
* `light_of_scripts`         it changes nothing but by emergency stops, and asks the worker for
                             nothing;
* `stop_of_script`           all that is shown of an emergency stop.
-/

namespace ProgramControl

open Course (Obeys)

variable {σ α : Type}

/-- Only these actions. -/
def confined (actions : List Action) : Watch Unit where
  allows _ action := action ∈ actions
  next _ _ _ := ()

theorem mem_of_confined {actions : List Action} {h : List (Exchange σ)}
    (allowed : (confined actions).Allows () h) : ∀ x ∈ h, x.action ∈ actions := by
  induction h with
  | nil => exact fun x mem => absurd mem List.not_mem_nil
  | cons x h ih => exact List.forall_mem_cons.2 ⟨allowed.1, ih allowed.2⟩

/-- Only the wait for standstill can make a thread of the workshop wait. -/
theorem isReady_of_confined {actions : List Action} {course : Course α} {post : Unit → α → Prop}
    (obeys : Obeys (confined actions) () course post) (never : .awaitStandstill ∉ actions)
    (w : Workshop) : course.IsReady Workshop.plant w := by
  cases course with
  | done a => trivial
  | act action next =>
    have allowed : action ∈ actions := obeys.1
    show Workshop.ready action w
    cases action with
    | awaitStandstill => exact absurd allowed never
    | _ => rfl

namespace Call

/-- An emergency stop is settled on the thread of its caller, which waits for nobody. -/
theorem stop_confined : Obeys (confined [.tripLatch, .haltMotion, .readPublished]) ()
    (submission (.directive .emergencyStop)) fun _ end_ => ∃ result, end_ = .settled result := by
  refine ⟨?_, fun _ => ⟨?_, fun _ => ⟨?_, fun _ => ⟨_, rfl⟩⟩⟩⟩ <;> simp [confined]

end Call

namespace Console

namespace Command

/-- The actions that look at the state and change nothing. -/
def looks : List Action := [.readPublished, .readLatch, .readOptionalStop]

theorem showState_confined : Obeys (confined looks) () showState fun _ _ => True := by
  refine ⟨?_, fun _ => ⟨?_, fun _ => ⟨?_, fun _ => trivial⟩⟩⟩ <;> simp [confined, looks]

theorem work_of_immediate {command : Command} (now : command.isImmediate) :
    command.work = .call (.directive .emergencyStop) ∨ command.work = .course showState := by
  cases command with
  | status => exact .inr rfl
  | directive d =>
    cases d with
    | emergencyStop => exact .inl rfl
    | _ => cases now
  | newProgram | move => cases now

end Command

namespace Session

variable {s t : Session} {e : Event} {h k : List Event} {duties : List Duty}

/-- What the reader does itself is an emergency stop or a look at the state. -/
theorem work_of_ofLine {line : List Char} {work : Work}
    (some : (Duty.ofLine line).work? = some work) :
    work = .call (.directive .emergencyStop) ∨ work = .course Command.showState := by
  obtain ⟨command, immediate, rfl⟩ := Option.map_eq_some_iff.1 some
  unfold immediate? at immediate
  split at immediate
  · split at immediate
    · rename_i now
      cases immediate
      exact Command.work_of_immediate now
    · cases immediate
  · cases immediate

/-- The duty calls for an emergency stop or a look at the state, if for anything. -/
def Duty.IsPrompt (duty : Duty) : Prop := ∀ work, duty.work? = some work →
  work = .call (.directive .emergencyStop) ∨ work = .course Command.showState

theorem prompt_of_ahead (s : Session) : ∀ duty ∈ s.ahead .reader, duty.IsPrompt := by
  intro duty mem work some
  rcases List.mem_append.1 mem with mem | mem
  · obtain ⟨line, -, rfl⟩ := List.mem_map.1 mem
    exact work_of_ofLine some
  · split at mem
    · cases some.symm.trans (work?_of_leave _ _ duty mem)
    · cases mem

/-- The reader can always go on, by its own step or in its own part of an emergency stop, until it
has read all lines. -/
theorem Progress.reader_moves (prompt : ∀ duty ∈ duties, duty.IsPrompt)
    (progress : Progress .reader duties h s) :
    s.reader = .gone ∨ s.reader = .idle ∧ s.lines = [] ∧ s.ended = false ∨
      (step? .reader s).isSome ∨ (step? (.dispatch (.caller readerPlace)) s).isSome := by
  cases progress with
  | between split scripts free =>
    have there : s.reader.isBusy = false := free.task
    cases reading : s.reader with
    | gone => exact .inl rfl
    | leaving => exact .inr (.inr (.inl (by simp only [step?, stepReader, reading]; rfl)))
    | calling | acting =>
      rw [reading] at there
      cases there
    | idle =>
      right
      cases next : s.lines with
      | cons line rest =>
        right; left
        simp only [step?, stepReader, reading, next, Option.isSome_some]
      | nil =>
        cases ended : s.ended with
        | false => exact .inl ⟨rfl, rfl, rfl⟩
        | true =>
          right; left
          simp only [step?, stepReader, reading, next, ended, if_true, Option.isSome_some]
  | @within finished opening work before es split scripts shows midway =>
    right; right
    have mem : (⟨opening, some work⟩ : Duty) ∈ duties := by
      rw [split]
      exact List.mem_append_right _ List.mem_cons_self
    rcases prompt _ mem work rfl with rfl | rfl
    · cases midway with
      | call task stands =>
        have ready (xs : List (Exchange Workshop)) (course : Course Submission)
            (own : (Call.submission (.directive .emergencyStop)).Reaches xs course) :
            course.IsReady Workshop.plant s.system.plant :=
          isReady_of_confined (Call.stop_confined.reaches own).2 (by decide) _
        rcases stands.moves System.neverBreaks_workshop ready with
          moves | ⟨results, result, answered⟩ | ⟨xs, results, own, -⟩
        · right
          rw [step?, Option.isSome_map, System.step?, Option.isSome_map]
          exact moves
        · left
          exact moves_of_answered .reader task answered
        · obtain ⟨result, never⟩ := (Call.stop_confined.reaches own).2
          cases never
    · cases midway with
      | course task rests reaches =>
        obtain ⟨-, obeys⟩ := Command.showState_confined.reaches reaches
        exact .inl (moves_of_acting .reader task
          (isReady_of_confined obeys (by decide) _))

/-! ## Scripts of the reader -/

/-- The event changes nothing on the reader's side, and asks the worker for nothing. -/
def Event.IsLight : Event → Prop
  | .acts _ x => x.action ∈ Command.looks
  | .dispatch o => ∀ errand, o ≠ .enters errand
  | _ => True

theorem light_of_ahead (s : Session) : ∀ duty ∈ s.ahead .reader, duty.opening.IsLight := by
  intro duty mem
  rcases List.mem_append.1 mem with mem | mem
  · obtain ⟨line, -, rfl⟩ := List.mem_map.1 mem
    trivial
  · split at mem
    · have light : ∀ duty ∈ leave .reader (s.task .reader), duty.opening.IsLight := by
        cases s.task .reader <;> simp [leave, Event.IsLight]
      exact light duty mem
    · cases mem

theorem light_of_script {work : Work} {es : List Event}
    (immediate : work = .call (.directive .emergencyStop) ∨ work = .course Command.showState)
    (script : WorkScript .reader work es) : ∀ e ∈ es, e.IsLight := by
  rcases immediate with rfl | rfl
  · cases script with
    | call script =>
      cases script with
      | refused other => exact absurd rfl other
      | served forWorker => exact absurd rfl forWorker.1
      | stop =>
        intro e mem
        simp only [List.map_cons, List.map_nil, List.cons_append, List.nil_append, List.mem_cons,
          List.not_mem_nil, or_false] at mem
        rcases mem with rfl | rfl | rfl | rfl | rfl | rfl
        all_goals first | trivial | exact nofun
  · cases script with
    | course reaches =>
      intro e mem
      rcases List.mem_append.1 mem with mem | mem
      · obtain ⟨x, inside, rfl⟩ := List.mem_map.1 mem
        exact mem_of_confined (Command.showState_confined.reaches reaches).1 x inside
      · obtain rfl := List.mem_singleton.1 mem
        trivial

theorem light_of_scripts {script : List Event} (prompt : ∀ duty ∈ duties, duty.IsPrompt)
    (openings : ∀ duty ∈ duties, duty.opening.IsLight) (scripts : Scripts .reader duties script) :
    ∀ e ∈ script, e.IsLight := by
  induction scripts with
  | nil => exact fun e mem => absurd mem List.not_mem_nil
  | @cons duty duties es more first rest ih =>
    obtain ⟨prompt, prompts⟩ := List.forall_mem_cons.1 prompt
    obtain ⟨opens, openings⟩ := List.forall_mem_cons.1 openings
    refine List.forall_mem_append.2 ⟨?_, ih prompts openings⟩
    rcases first.cases with ⟨-, rfl⟩ | ⟨work, es, some, script, rfl⟩
    · exact List.forall_mem_singleton.2 opens
    · exact List.forall_mem_cons.2 ⟨opens, light_of_script (prompt work some) script⟩

theorem stop_of_script {es : List Event}
    (script : WorkScript .reader (.call (.directive .emergencyStop)) es) :
    ∃ part, System.StopScript readerPlace part ∧
      es = .dispatch (.begins readerPlace (.directive .emergencyStop)) :: part.map .dispatch ++
        [.responds .reader (.note (Directive.emergencyStop.text ++
          ": motion halted - restart required"))] := by
  cases script with
  | call script =>
    cases script with
    | refused other => exact absurd rfl other
    | served forWorker => exact absurd rfl forWorker.1
    | stop outcome =>
      subst outcome
      exact ⟨_, ⟨_, _, _, _, _, _, _, _, rfl⟩, rfl⟩

/-- What the reader shows after it has read a line begins with the rest of the script of that
line. -/
theorem Passage.plays_line {line : List Char}
    (alive : s.system.worker.isDead = false) (start : Progress .reader duties [] s)
    (passage : Passage s (h ++ .reads line :: k) t) :
    ∃ es, (Duty.ofLine line).Script .reader (.reads line :: es) ∧ Plays es (part .reader k) := by
  refine passage.plays_duty alive start rfl rfl fun m m' move => ?_
  obtain ⟨idle, rest, next⟩ : m.reader = .idle ∧ ∃ rest, m.lines = line :: rest := by
    cases move with
    | faulty idle next | queues idle next | starts idle next => exact ⟨idle, _, next⟩
  refine ⟨congrArg Task.isBusy idle,
    rest.map .ofLine ++ if m.ended then leave .reader (m.task .reader) else [], ?_⟩
  rw [ahead, coming, next, List.map_cons, List.cons_append]

end Session

end Console

end ProgramControl
