import ProgramControl.Proofs.Program.Preemption
import ProgramControl.Rehearsal.Bench

/-!
# Courses that are played alone

One thread carries out a course while nobody else is at work, and the plant answers.  What the
collaborators do meanwhile is up to the plant: they may fail, latch shutdown, turn the optional
stop on or off, or break down.

Two courses are similar if they do the same whatever comes back, but for what they tell about
themselves.  A plant that takes no notice of what it is told cannot tell them apart.

* `Course.play`, `interpret_eq_play`   what comes of a course; the same as its interpretation;
* `Course.chronicle`                   the exchanges of a play, a history of the course;
* `Course.Similar`, `Similar.bind`     similar courses, and courses composed of similar parts;
* `Plant.IsHeedless`, `Similar.play`   similar courses come out alike;
* `Bench.isHeedless`                   the test bench takes no notice of what it is told, whatever
                                       its hooks do.
-/

namespace ProgramControl

variable {σ α β α' β' : Type}

/-- A report, or a look at the optional-stop flag. -/
def Action.isAside : Action → Bool
  | .report _ | .readOptionalStop => true
  | _ => false

/-! ## Playing a course -/

/-- What comes of a course that one thread carries out with nobody else at work. -/
structure Played (σ α : Type) where
  /-- none if a collaborator broke down -/
  result : Option α
  /-- the actions that were begun, in order -/
  actions : List Action
  last : σ

namespace Played

/-- What was done, in order: all but reports and looks at the optional-stop flag. -/
def deeds (x : Played σ α) : List Action := x.actions.filter (!·.isAside)

/-- The collaborators that were called, in order. -/
def calls (x : Played σ α) : List Action := x.actions.filter (·.isCall)

theorem calls_eq_deeds (x : Played σ α) : x.calls = x.deeds.filter (·.isCall) := by
  rw [calls, deeds, List.filter_filter]
  refine List.filter_congr fun action _ => ?_
  cases action <;> rfl

end Played

namespace Course

/-- Carry out a course on a plant from the state `s`. -/
def play (world : Plant σ) : Course α → σ → Played σ α
  | .done a, s => ⟨some a, [], s⟩
  | .act action next, s =>
    match world.perform action s with
    | (some answer, t) =>
      let rest := play world (next answer) t
      { rest with actions := action :: rest.actions }
    | (none, t) => ⟨none, [action], t⟩

theorem interpret_eq_play (world : Plant σ) (c : Course α) (s : σ) :
    (c.interpret (m := OptionT (StateM σ)) fun action =>
        OptionT.mk (world.perform action)).run.run s =
      ((c.play world s).result, (c.play world s).last) := by
  induction c generalizing s with
  | done a => rfl
  | act action next ih =>
    rw [interpret, OptionT.run_bind, Option.elimM, StateT.run_bind, OptionT.run_mk, play]
    show ((world.perform action s).1.elim (pure none) _ : StateM σ _).run
      (world.perform action s).2 = _
    rcases world.perform action s with ⟨answer | answer, t⟩
    · rfl
    · exact ih answer t

/-- The exchanges of a play.  An action that breaks down is not among them. -/
def chronicle (world : Plant σ) : Course α → σ → List (Exchange σ)
  | .done _, _ => []
  | .act action next, s =>
    match world.perform action s with
    | (some answer, t) => ⟨action, answer, s, t⟩ :: chronicle world (next answer) t
    | (none, _) => []

/-- Two courses that do the same whatever comes back, but for what they tell about themselves.
`f` takes what the first ends with to what the second ends with. -/
inductive Similar (f : α → β) : Course α → Course β → Prop
  | done (a : α) {b : β} (same : b = f a) : Similar f (.done a) (.done b)
  | act (action : Action) {next : action.Answer → Course α} {next' : action.Answer → Course β}
      (rest : ∀ answer, Similar f (next answer) (next' answer)) :
      Similar f (.act action next) (.act action next')
  | report (entry entry' : Entry) {next : Unit → Course α} {next' : Unit → Course β}
      (rest : Similar f (next ()) (next' ())) :
      Similar f (.act (.report entry) next) (.act (.report entry') next')

theorem Similar.bind {f : α → β} {g : α' → β'} {c : Course α} {c' : Course β}
    {k : α → Course α'} {k' : β → Course β'} (first : Similar f c c')
    (rest : ∀ a, Similar g (k a) (k' (f a))) : Similar g (c.bind k) (c'.bind k') := by
  induction first with
  | done a same => subst same; exact rest a
  | act action next ih => exact .act action ih
  | report entry entry' next ih => exact .report entry entry' ih

end Course

/-! ## Plants -/

/-- The plant takes no notice of what threads tell about themselves: states that differ in nothing
else are alike, and are alike after everything that is done to both. -/
structure Plant.IsHeedless (world : Plant σ) (alike : σ → σ → Prop) : Prop where
  equivalence : Equivalence alike
  report (entry : Entry) (s : σ) :
    ∃ t, world.perform (.report entry) s = (some (), t) ∧ alike s t
  perform (action : Action) {s t : σ} : alike s t →
    (world.perform action s).1 = (world.perform action t).1 ∧
      alike (world.perform action s).2 (world.perform action t).2

/-- A look at the latch or at the optional-stop flag finds what is there, and changes nothing. -/
structure Plant.ShowsFlags (world : Plant σ) (latched enabled : σ → Bool) : Prop where
  latch (s : σ) : world.perform .readLatch s = (some (latched s), s)
  flag (s : σ) : world.perform .readOptionalStop s = (some (enabled s), s)

namespace Course

variable {world : Plant σ} {alike : σ → σ → Prop}

theorem play_act {action : Action} {next : action.Answer → Course α} {s t : σ}
    {answer : action.Answer} (h : world.perform action s = (some answer, t)) :
    (Course.act action next).play world s =
      { (next answer).play world t with
        actions := action :: ((next answer).play world t).actions } := by
  rw [play, h]

theorem play_broken {action : Action} {next : action.Answer → Course α} {s t : σ}
    (h : world.perform action s = (none, t)) :
    (Course.act action next).play world s = ⟨none, [action], t⟩ := by
  rw [play, h]

theorem chronicle_act {action : Action} {next : action.Answer → Course α} {s t : σ}
    {answer : action.Answer} (h : world.perform action s = (some answer, t)) :
    (Course.act action next).chronicle world s =
      ⟨action, answer, s, t⟩ :: (next answer).chronicle world t := by
  rw [chronicle, h]

theorem chronicle_broken {action : Action} {next : action.Answer → Course α} {s t : σ}
    (h : world.perform action s = (none, t)) : (Course.act action next).chronicle world s = [] := by
  rw [chronicle, h]

/-- A play that comes to an end is a history, and the actions of the play are those of the
history. -/
theorem reaches_chronicle {c : Course α} {s : σ} {a : α} (ends : (c.play world s).result = some a) :
    c.Reaches (c.chronicle world s) (.done a) ∧
      (c.play world s).actions = (c.chronicle world s).map (·.action) := by
  induction c generalizing s with
  | done b =>
    cases ends
    exact ⟨.refl _, rfl⟩
  | act action next ih =>
    rcases h : world.perform action s with ⟨answer | answer, t⟩
    · rw [play_broken h] at ends
      cases ends
    · rw [play_act h] at ends ⊢
      obtain ⟨reaches, actions⟩ := ih answer ends
      rw [chronicle_act h]
      exact ⟨.act reaches, congrArg (List.cons action) actions⟩

/-- Courses that are similar come out alike on a plant that takes no notice of reports. -/
theorem Similar.play {f : α → β} {c : Course α} {c' : Course β} {s t : σ}
    (similar : Similar f c c') (law : world.IsHeedless alike) (same : alike s t) :
    (c'.play world t).result = (c.play world s).result.map f ∧
      (c'.play world t).deeds = (c.play world s).deeds ∧
      alike (c.play world s).last (c'.play world t).last := by
  induction similar generalizing s t with
  | done a b => subst b; exact ⟨rfl, rfl, same⟩
  | act action rest ih =>
    obtain ⟨answers, later⟩ := law.perform action same
    rcases first : world.perform action s with ⟨answer | answer, s'⟩ <;>
      rcases second : world.perform action t with ⟨answer' | answer', t'⟩ <;>
      simp only [first, second, reduceCtorEq, Option.some.injEq] at answers later
    · rw [play_broken first, play_broken second]
      exact ⟨rfl, rfl, later⟩
    · subst answers
      obtain ⟨result, deeds, last⟩ := ih answer later
      rw [play_act first, play_act second]
      refine ⟨result, ?_, last⟩
      rw [Played.deeds, Played.deeds, List.filter_cons, List.filter_cons]
      exact congrArg (fun rest => if !action.isAside then action :: rest else rest) deeds
  | report entry entry' rest ih =>
    obtain ⟨s', told, stays⟩ := law.report entry s
    obtain ⟨t', told', stays'⟩ := law.report entry' t
    rw [play_act told, play_act told']
    exact ih (law.equivalence.trans (law.equivalence.symm stays)
      (law.equivalence.trans same stays'))

end Course

end ProgramControl

/-! ## The bench -/

namespace ProgramControl.Rehearsal.Bench

/-- The bench without what was told. -/
def hushed (b : Bench) : Bench := { b with log := [] }

/-- Benches that differ in nothing but what was told. -/
def Alike (b c : Bench) : Prop := b.hushed = c.hushed

def withLog (b : Bench) (l : List Entry) : Bench := { b with log := l }

variable {b c : Bench}

theorem alike_withLog (b : Bench) (l : List Entry) : Alike b (b.withLog l) := rfl

theorem Alike.eq_withLog (same : Alike b c) : ∃ l, c = b.withLog l := by
  obtain ⟨⟨_, _, _, _, _, _, _⟩, _, _, _, _⟩ := b
  obtain ⟨⟨_, _, _, _, _, _, l⟩, _, _, _, _⟩ := c
  cases same
  exact ⟨l, rfl⟩

theorem Alike.act (same : Alike b c) (a : Act) : Alike (b.act a) (c.act a) := by
  obtain ⟨l, rfl⟩ := same.eq_withLog
  cases a <;> rfl

theorem Alike.carryOut {acts : List Act} {answer : Option Fault} {brokeDown : Bool}
    (same : Alike b c) :
    let e := Bench.carryOut acts ⟨b, answer, brokeDown⟩
    let e' := Bench.carryOut acts ⟨c, answer, brokeDown⟩
    Alike e.bench e'.bench ∧ e.answer = e'.answer ∧ e.brokeDown = e'.brokeDown := by
  induction acts generalizing b c answer with
  | nil => exact ⟨same, rfl, rfl⟩
  | cons a acts ih =>
    cases a with
    | breakDown => exact ⟨same, rfl, rfl⟩
    | _ => exact ih (same.act _)

theorem Alike.arrive (same : Alike b c) (station : String) :
    Alike (b.arrive station).bench (c.arrive station).bench ∧
      (b.arrive station).answer = (c.arrive station).answer ∧
      (b.arrive station).brokeDown = (c.arrive station).brokeDown := by
  obtain ⟨l, rfl⟩ := same.eq_withLog
  exact Alike.carryOut (b := { b with journal := _, hooks := _ }) (alike_withLog _ l)

/-- A part of the workshop does the same whatever was told before. -/
def Deaf {α : Type} (call : Workshop → α × Workshop) : Prop :=
  ∀ w l, ∃ l', call { w with log := l } = ((call w).1, { (call w).2 with log := l' })

theorem Alike.withWorkshop {α : Type} {call : Workshop → α × Workshop} (deaf : Deaf call)
    (same : Alike b c) : (b.withWorkshop call).1 = (c.withWorkshop call).1 ∧
      Alike (b.withWorkshop call).2 (c.withWorkshop call).2 := by
  obtain ⟨l, rfl⟩ := same.eq_withLog
  obtain ⟨l', told⟩ := deaf b.toWorkshop l
  have told : call (b.withLog l).toWorkshop = _ := told
  simp only [Bench.withWorkshop, told, true_and]
  rfl

theorem Alike.through {station : String} {call : Workshop → Except Fault Unit × Workshop}
    (deaf : Deaf call) (same : Alike b c) :
    (b.through station call).1 = (c.through station call).1 ∧
      Alike (b.through station call).2 (c.through station call).2 := by
  obtain ⟨arrived, answer, broke⟩ := same.arrive station
  unfold Bench.through
  simp only [answer, broke]
  by_cases down : (c.arrive station).brokeDown
  · rw [if_pos down, if_pos down]
    exact ⟨rfl, arrived⟩
  · rw [if_neg down, if_neg down]
    cases (c.arrive station).answer with
    | some fault => exact ⟨rfl, arrived⟩
    | none => exact (arrived.withWorkshop deaf).imp (congrArg some) id

theorem deaf_perform (action : Action) : Deaf (Workshop.perform action) := by
  intro w l
  cases action <;> exact ⟨_, rfl⟩

theorem Alike.tend (same : Alike b c) : Alike b.tend c.tend := by
  obtain ⟨l, rfl⟩ := same.eq_withLog
  unfold Bench.tend
  by_cases waits : b.attended ∧ ¬ b.motion.halted
  · have waits' : (b.withLog l).attended ∧ ¬ (b.withLog l).motion.halted := waits
    rw [if_pos waits, if_pos waits']
    rfl
  · have waits' : ¬ ((b.withLog l).attended ∧ ¬ (b.withLog l).motion.halted) := waits
    rw [if_neg waits, if_neg waits']
    rfl

theorem Alike.approachBarrier (same : Alike b c) :
    b.approachBarrier.1 = c.approachBarrier.1 ∧
      Alike b.approachBarrier.2 c.approachBarrier.2 := by
  obtain ⟨arrived, -, broke⟩ := same.arrive "barrier"
  unfold Bench.approachBarrier
  simp only [broke]
  by_cases down : (c.arrive "barrier").brokeDown
  · rw [if_pos down, if_pos down]
    exact ⟨rfl, arrived⟩
  · rw [if_neg down, if_neg down]
    exact ⟨rfl, (arrived.tend.withWorkshop (deaf_perform .approachBarrier)).2⟩

theorem Alike.perform (same : Alike b c) (action : Action) :
    (b.perform action).1 = (c.perform action).1 ∧
      Alike (b.perform action).2 (c.perform action).2 := by
  have ⟨l, eq⟩ := same.eq_withLog
  cases action with
  | approachBarrier => exact same.approachBarrier
  | engagePause => exact same.through (deaf_perform .engagePause)
  | resetModal => exact same.through (deaf_perform .resetModal)
  | shutOff output => exact same.through (deaf_perform (.shutOff output))
  | _ => rw [eq]; exact ⟨rfl, rfl⟩

theorem isHeedless : plant.IsHeedless Alike where
  equivalence := ⟨fun _ => rfl, Eq.symm, Eq.trans⟩
  report _ _ := ⟨_, rfl, rfl⟩
  perform action _ _ same := same.perform action

theorem showsFlags : plant.ShowsFlags (·.board.isLatched) (·.board.optionalStop) :=
  ⟨fun _ => rfl, fun _ => rfl⟩

/-- The bench plays a course when it carries it through. -/
theorem carryThrough_eq_play {α : Type} (c : Course α) (b : Bench) :
    carryThrough c b = ((c.play plant b).result, (c.play plant b).last) :=
  Course.interpret_eq_play plant c b

end ProgramControl.Rehearsal.Bench
