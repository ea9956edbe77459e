import ProgramControl.Proofs.Program.Play

/-!
# The optional stop

With the optional stop enabled, an optional pause is an unconditional one under another name: it
makes the same calls, leaves the machine the same and has the same answer.  With the optional stop
disabled it is nothing at all, and then it does not matter what is fitted to the machine.

* `Transition.Renamed`, `renamed_pause`   transitions that differ in the directive they name;
* `apply_pauseOptional`                   what an optional pause does before the flag is looked at,
                                          and after it;
* `Program.pauseOptional_play`            both pauses from one state of the machine.
-/

namespace ProgramControl

variable {σ α β α' β' : Type}

/-! ## Other names for a directive -/

/-- The refusal that another directive would have had for the same cause. -/
def Refusal.about (d : Directive) : Refusal → Refusal
  | .notConfigured _ collaborator => .notConfigured d collaborator
  | .preempted _ completed => .preempted d completed
  | .invalidTransition _ state => .invalidTransition d state
  | .programEnded _ => .programEnded d
  | .stepFailed _ step fault => .stepFailed d step fault
  | .alreadyShutdown => .alreadyShutdown
  | .programActive state => .programActive state
  | .closed => .closed

def Outcome.about (d : Directive) (message : String) (o : Outcome) : Outcome :=
  { o with directive := d, message }

namespace Transition

/-- What a transition ends with, under the name of another directive. -/
def renamed (d : Directive) (f : α → β) :
    Except Refusal α × Program → Except Refusal β × Program
  | (.ok a, p) => (.ok (f a), p)
  | (.error e, p) => (.error (e.about d), p)

/-- The second transition does what the first does, under the name of another directive. -/
def Renamed (d : Directive) (f : α → β) (t : Transition α) (u : Transition β) : Prop :=
  ∀ p, Course.Similar (renamed d f) (t.run.run p) (u.run.run p)

namespace Renamed

variable {d : Directive} {f : α → β} {g : α' → β'}

theorem bind {t : Transition α} {u : Transition β} {k : α → Transition α'}
    {k' : β → Transition β'} (first : Renamed d f t u)
    (rest : ∀ a, Renamed d g (k a) (k' (f a))) : Renamed d g (t >>= k) (u >>= k') := by
  intro p
  rw [run_bind, run_bind]
  refine (first p).bind fun end_ => ?_
  rcases end_ with ⟨e | a, q⟩
  · exact .done _ rfl
  · exact rest a q

theorem perform (action : Action) : Renamed d id (perform action) (perform action) :=
  fun _ => .act action fun _ => .done _ rfl

theorem report (entry entry' : Entry) :
    Renamed d id (Transition.perform (.report entry)) (Transition.perform (.report entry')) :=
  fun _ => .report entry entry' (.done _ rfl)

theorem throw {e e' : Refusal} (same : e' = e.about d) :
    Renamed d f (throw e : Transition α) (throw e' : Transition β) := by
  subst same
  exact fun p => .done (Except.error e, p) rfl

theorem pure {a : α} {b : β} (same : b = f a) : Renamed d f (Pure.pure a) (Pure.pure b) := by
  subst same
  exact fun p => .done (Except.ok a, p) rfl

theorem get : Renamed d id (get : Transition Program) get :=
  fun p => .done (Except.ok p, p) rfl

theorem set (q : Program) : Renamed d id (set q : Transition PUnit) (set q) :=
  fun _ => .done (Except.ok PUnit.unit, q) rfl

theorem throw_bind {γ : Type} {e e' : Refusal} (same : e' = e.about d) {k : γ → Transition α}
    {k' : γ → Transition β} :
    Renamed d f ((MonadExcept.throw e : Transition γ) >>= k)
      ((MonadExcept.throw e' : Transition γ) >>= k') := by
  subst same
  exact fun p => .done (Except.error e, p) rfl

theorem ite {c : Prop} [Decidable c] {t t' : Transition α} {u u' : Transition β}
    (yes : c → Renamed d f t u) (no : ¬c → Renamed d f t' u') :
    Renamed d f (if c then t else t') (if c then u else u') := by
  by_cases h : c
  · rw [if_pos h, if_pos h]; exact yes h
  · rw [if_neg h, if_neg h]; exact no h

theorem waitForStandstill : Renamed d id waitForStandstill waitForStandstill :=
  .bind (.perform .approachBarrier) fun _ => .perform .awaitStandstill

theorem enter (state : RunState) : Renamed d id (enter state) (enter state) := by
  refine .bind .get fun p => .ite (fun _ => ?_) fun _ => ?_
  · exact .bind (.report _ _) fun _ => .bind (.set _) fun _ => .perform (.publish state)
  · exact .bind (.set _) fun _ => .perform (.publish state)

theorem checkpoint (d' : Directive) (completed : StepSet) :
    Renamed d id (checkpoint d' completed) (checkpoint d completed) := by
  refine .bind (.perform _) fun found => .ite (fun _ => ?_) fun _ => .pure rfl
  exact .bind (.report _ _) fun _ => .throw rfl

theorem outcome (d' : Directive) (steps : StepSet) (message message' : String) :
    Renamed d (·.about d message) (outcome d' steps message') (outcome d steps message) :=
  .bind .get fun _ => .pure rfl

end Renamed

theorem renamed_pause (fitted : Equipment) (d d' : Directive) (message message' : String) :
    Renamed d (·.about d message) (pause fitted d' message') (pause fitted d message) := by
  unfold pause
  refine .ite (fun _ => .throw_bind rfl) fun _ => .ite (fun _ => .throw_bind rfl) fun _ => ?_
  refine .bind .waitForStandstill fun _ => .bind (.checkpoint _ _) fun _ => ?_
  refine .bind (.perform _) fun engaged => ?_
  rcases engaged with fault | ⟨⟩
  · exact .throw rfl
  · exact .bind (.enter _) fun _ => .outcome _ _ _ _

theorem pauseIfEnabled_run (fitted : Equipment) (d : Directive) (p : Program) :
    (pauseIfEnabled fitted d).run.run p = .act .readOptionalStop fun on =>
      if on then (pause fitted d
        s!"{d.text}: optional stop triggered - send RESUME to continue").run.run p
      else .act (.report (.debug s!"{d.text}: optional stop disabled, skipped")) fun _ =>
        .done (.ok ⟨d, p.state, .empty, s!"{d.text}: optional stop skipped (disabled)"⟩, p) := by
  refine congrArg (Course.act .readOptionalStop) (funext fun on => ?_)
  cases on <;> rfl

end Transition

/-! ## The two pauses -/

namespace Program

variable {fitted : Equipment} {p : Program}

/-- How every pause begins: it is refused if shutdown is latched or the program has ended. -/
def unlessOver (p : Program) (d : Directive) (next : Course (Except Refusal Outcome × Program)) :
    Course (Except Refusal Outcome × Program) :=
  .act .readLatch fun found =>
    if found then .done (.error .alreadyShutdown, p)
    else if p.state.isTerminal then .done (.error (.programEnded d), p)
    else next

theorem apply_pauseUnconditional :
    p.apply fitted .pauseUnconditional = p.unlessOver .pauseUnconditional
      ((Transition.pause fitted .pauseUnconditional
        s!"{Directive.pauseUnconditional.text}: program paused - send RESUME to continue").run.run
          p) := by
  refine congrArg (Course.act .readLatch) (funext fun found => ?_)
  cases found
  · obtain ⟨state, number⟩ := p
    cases state <;> rfl
  · rfl

theorem apply_pauseOptional :
    p.apply fitted .pauseOptional = p.unlessOver .pauseOptional
      ((Transition.pauseIfEnabled fitted .pauseOptional).run.run p) := by
  refine congrArg (Course.act .readLatch) (funext fun found => ?_)
  cases found
  · obtain ⟨state, number⟩ := p
    cases state <;> rfl
  · rfl

theorem similar_unlessOver {d : Directive} (d' : Directive) {f : Outcome → Outcome}
    {c c' : Course (Except Refusal Outcome × Program)}
    (rest : Course.Similar (Transition.renamed d f) c c') :
    Course.Similar (Transition.renamed d f) (p.unlessOver d' c) (p.unlessOver d c') := by
  refine .act _ fun found => ?_
  cases found
  · by_cases ended : p.state.isTerminal
    · rw [if_neg Bool.false_ne_true, if_neg Bool.false_ne_true, if_pos ended, if_pos ended]
      exact .done _ rfl
    · rw [if_neg Bool.false_ne_true, if_neg Bool.false_ne_true, if_neg ended, if_neg ended]
      exact rest
  · exact .done _ rfl

section

variable {world : Plant σ} {alike : σ → σ → Prop} {latched enabled : σ → Bool} {s : σ}

theorem play_look (shows : world.ShowsFlags latched enabled) (d : Directive)
    (next : Bool → Course (Except Refusal Outcome × Program)) :
    let x := (p.unlessOver d (.act .readOptionalStop next)).play world s
    let y := (p.unlessOver d (next (enabled s))).play world s
    x.result = y.result ∧ x.deeds = y.deeds ∧ x.last = y.last := by
  rw [unlessOver, unlessOver, Course.play_act (shows.latch s), Course.play_act (shows.latch s)]
  cases latched s
  · by_cases ended : p.state.isTerminal
    · simp only [if_neg Bool.false_ne_true, if_pos ended, and_self]
    · simp only [if_neg Bool.false_ne_true, if_neg ended, Course.play_act (shows.flag s), true_and,
        and_true]
      rfl
  · exact ⟨rfl, rfl, rfl⟩

/-- With the optional stop enabled, the optional pause is the unconditional one; with it disabled,
it is nothing, whatever is fitted to the machine. -/
theorem pauseOptional_play (law : world.IsHeedless alike)
    (shows : world.ShowsFlags latched enabled) (fitted : Equipment) (p : Program) (s : σ) :
    let optional := (p.apply fitted .pauseOptional).play world s
    let unconditional := (p.apply fitted .pauseUnconditional).play world s
    (enabled s → unconditional.deeds = optional.deeds ∧ unconditional.calls = optional.calls ∧
      alike optional.last unconditional.last ∧
      unconditional.result = optional.result.map (Transition.renamed .pauseUnconditional
        (·.about .pauseUnconditional
          "PAUSE_UNCONDITIONAL: program paused - send RESUME to continue"))) ∧
    (¬ enabled s → ¬ latched s → ¬ p.state.isTerminal →
      optional.deeds = [.readLatch] ∧ optional.calls = [] ∧ alike s optional.last ∧
      optional.result = some (.ok ⟨.pauseOptional, p.state, .empty,
        "PAUSE_OPTIONAL: optional stop skipped (disabled)"⟩, p)) := by
  intro optional unconditional
  refine ⟨fun on => ?_, fun off clear running => ?_⟩
  · -- the look finds the flag set, and what is left are two pauses of different names
    obtain ⟨result, deeds, last⟩ :
        optional.result = _ ∧ optional.deeds = _ ∧ optional.last = _ := by
      simp only [optional, apply_pauseOptional, Transition.pauseIfEnabled_run]
      exact play_look shows _ _
    rw [on, if_pos rfl] at result deeds last
    have similar := Transition.renamed_pause fitted .pauseUnconditional .pauseOptional
      s!"{Directive.pauseUnconditional.text}: program paused - send RESUME to continue"
      s!"{Directive.pauseOptional.text}: optional stop triggered - send RESUME to continue" p
    obtain ⟨result', deeds', last'⟩ :=
      (similar_unlessOver .pauseOptional similar).play law (law.equivalence.refl s)
    rw [← apply_pauseUnconditional, ← result, ← deeds, ← last] at *
    exact ⟨deeds', by rw [Played.calls_eq_deeds, Played.calls_eq_deeds, deeds'], last', result'⟩
  · rw [Bool.not_eq_true] at off clear running
    obtain ⟨t, told, stays⟩ := law.report
      (.debug s!"{Directive.pauseOptional.text}: optional stop disabled, skipped") s
    have plays : optional = ⟨some (.ok ⟨.pauseOptional, p.state, .empty,
        "PAUSE_OPTIONAL: optional stop skipped (disabled)"⟩, p), [.readLatch, .readOptionalStop,
        .report (.debug s!"{Directive.pauseOptional.text}: optional stop disabled, skipped")],
        t⟩ := by
      simp only [optional, apply_pauseOptional, Transition.pauseIfEnabled_run, unlessOver,
        Course.play_act (shows.latch s), clear, if_neg Bool.false_ne_true, running,
        Course.play_act (shows.flag s), off, Course.play_act told]
      rfl
    rw [plays]
    exact ⟨rfl, rfl, stays, rfl⟩

/-- The bench with the optional stop enabled.  When the pause mechanism is called, shutdown is
latched, the optional stop is disabled, and then the mechanism fails. -/
def jammedBench : Rehearsal.Bench :=
  { Rehearsal.Bench.setUp { optionalStop := true } with
    hooks := [("pause", [.trip, .optional false, .answer (.failed "jammed")])] }

open Rehearsal in
/-- Both pauses on the bench above, and an optional pause without a barrier and a pause mechanism
on a bench with the optional stop disabled. -/
theorem pauseOptional_play_jammed :
    let optional := (apply {} .pauseOptional {}).play Bench.plant jammedBench
    let unconditional := (apply {} .pauseUnconditional {}).play Bench.plant jammedBench
    let skipped := (apply { barrier := false, pause := false } .pauseOptional {}).play Bench.plant
      (Bench.setUp {})
    unconditional.calls = optional.calls ∧ Bench.Alike optional.last unconditional.last ∧
      unconditional.result = optional.result.map (Transition.renamed .pauseUnconditional
        (·.about .pauseUnconditional
          "PAUSE_UNCONDITIONAL: program paused - send RESUME to continue")) ∧
      optional.calls = [.approachBarrier, .awaitStandstill, .engagePause] ∧
      optional.last.board = { optionalStop := false, latch := .latched } ∧
      skipped.calls = [] ∧ Bench.Alike (Bench.setUp {}) skipped.last := by
  obtain ⟨-, calls, last, result⟩ :=
    (pauseOptional_play Bench.isHeedless Bench.showsFlags {} {} jammedBench).1 rfl
  obtain ⟨-, none, nothing, -⟩ :=
    (pauseOptional_play Bench.isHeedless Bench.showsFlags { barrier := false, pause := false } {}
      (Bench.setUp {})).2 (by decide) (by decide) (by decide)
  exact ⟨calls, last, result, rfl, rfl, none, nothing⟩

end

end Program

end ProgramControl
