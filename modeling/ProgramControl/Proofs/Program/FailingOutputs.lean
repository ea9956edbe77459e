import Mathlib.Data.Option.Basic
import ProgramControl.Proofs.Program.Completions
import ProgramControl.Proofs.Program.Play
import ProgramControl.Proofs.Program.Record

/-!
# Outputs that fail

Whether an output stops when it is told to, or fails, makes no difference to a program: it tells
about the failure and goes on.  So two plants on which everything goes the same way, but for the
outputs that fail, bring about the same.

* `Course.Abreast`, `Abreast.bind`   courses that do the same even if outputs answer them
                                     differently, and courses composed of such parts;
* `Transition.Undeterred`            transitions to which failing outputs make no difference;
* `Plant.Twins`, `Abreast.play`      two plants that differ in nothing but failing outputs;
* `Program.apply_undeterred`         every directive comes out the same on both, and only a latched
                                     shutdown keeps it from telling all outputs to stop.
-/

namespace ProgramControl

variable {σ α β : Type}

/-- The answers are the same, unless it is an output that gives them. -/
def Action.Agree (action : Action) (answer answer' : action.Answer) : Prop :=
  (∀ output, action ≠ .shutOff output) → answer = answer'

theorem Action.rel_agree {action : Action} (answer : Option action.Answer) :
    Option.Rel action.Agree answer answer := by
  cases answer with
  | none => exact .none
  | some answer => exact .some fun _ => rfl

theorem Action.Agree.notice {action : Action} {answer answer' : action.Answer}
    (agree : action.Agree answer answer') (s s' t t' : σ) :
    (Exchange.mk action answer' t t').notice? = (Exchange.mk action answer s s').notice? := by
  cases action with
  | submit program completion => obtain rfl := agree nofun; rfl
  | _ => rfl

theorem notices_cons (x : Exchange σ) (h : List (Exchange σ)) :
    notices (x :: h) = x.notice?.toList ++ notices h := by
  rw [notices, List.filterMap_cons]
  cases x.notice? <;> rfl

/-! ## Courses and transitions -/

namespace Course

/-- Two courses that do the same even if outputs answer them differently, but for what they tell
about themselves. -/
inductive Abreast : Course α → Course α → Prop
  | done (a : α) : Abreast (.done a) (.done a)
  | act (action : Action) {next next' : action.Answer → Course α}
      (rest : ∀ answer answer', action.Agree answer answer' →
        Abreast (next answer) (next' answer')) :
      Abreast (.act action next) (.act action next')
  | reportFirst (entry : Entry) {next : Unit → Course α} {c : Course α}
      (rest : Abreast (next ()) c) : Abreast (.act (.report entry) next) c
  | reportSecond (entry : Entry) {next : Unit → Course α} {c : Course α}
      (rest : Abreast c (next ())) : Abreast c (.act (.report entry) next)

theorem Abreast.bind {c c' : Course α} {k k' : α → Course β} (first : Abreast c c')
    (rest : ∀ a, Abreast (k a) (k' a)) : Abreast (c.bind k) (c'.bind k') := by
  induction first with
  | done a => exact rest a
  | act action _ ih => exact .act action ih
  | reportFirst entry _ ih => exact .reportFirst entry ih
  | reportSecond entry _ ih => exact .reportSecond entry ih

end Course

namespace Transition

/-- Whether an output stops or fails makes no difference to the transition. -/
def Undeterred (t : Transition α) : Prop := ∀ p, Course.Abreast (t.run.run p) (t.run.run p)

namespace Undeterred

theorem bind {t : Transition α} {k : α → Transition β} (first : Undeterred t)
    (rest : ∀ a, Undeterred (k a)) : Undeterred (t >>= k) := by
  intro p
  rw [run_bind]
  refine (first p).bind fun end_ => ?_
  rcases end_ with ⟨e | a, q⟩
  · exact .done _
  · exact rest a q

theorem perform {action : Action} (other : ∀ output, action ≠ .shutOff output) :
    Undeterred (perform action) := by
  refine fun p => .act action fun answer answer' agree => ?_
  rw [agree other]
  exact .done _

theorem pure (a : α) : Undeterred (Pure.pure a) := fun _ => .done _

theorem throw (e : Refusal) : Undeterred (throw e : Transition α) := fun _ => .done _

theorem throw_bind {γ : Type} (e : Refusal) (k : γ → Transition α) :
    Undeterred ((MonadExcept.throw e : Transition γ) >>= k) := fun _ => .done _

theorem get : Undeterred get := fun _ => .done _

theorem set (q : Program) : Undeterred (set q) := fun _ => .done _

theorem ite {c : Prop} [Decidable c] {t u : Transition α} (yes : c → Undeterred t)
    (no : ¬c → Undeterred u) : Undeterred (if c then t else u) := by
  by_cases h : c
  · rw [if_pos h]; exact yes h
  · rw [if_neg h]; exact no h

theorem refuseIfLatched : Undeterred refuseIfLatched :=
  .bind (.perform nofun) fun _ => .ite (fun _ => .throw _) fun _ => .pure _

theorem waitForStandstill : Undeterred waitForStandstill :=
  .bind (.perform nofun) fun _ => .perform nofun

theorem preempted (d : Directive) (completed : StepSet) :
    Undeterred (preempted d completed : Transition α) :=
  .bind (.perform nofun) fun _ => .throw _

theorem checkpoint (d : Directive) (completed : StepSet) : Undeterred (checkpoint d completed) :=
  .bind (.perform nofun) fun _ => .ite (fun _ => .preempted _ _) fun _ => .pure _

theorem enter (state : RunState) : Undeterred (enter state) := by
  refine .bind .get fun p => .ite (fun _ => ?_) fun _ => ?_
  · exact .bind (.perform nofun) fun _ => .bind (.set _) fun _ => .perform nofun
  · exact .bind (.set _) fun _ => .perform nofun

theorem outcome (d : Directive) (steps : StepSet) (message : String) :
    Undeterred (outcome d steps message) :=
  .bind .get fun _ => .pure _

theorem pause (fitted : Equipment) (d : Directive) (message : String) :
    Undeterred (pause fitted d message) := by
  unfold Transition.pause
  refine .ite (fun _ => .throw_bind _ _) fun _ => .ite (fun _ => .throw_bind _ _) fun _ => ?_
  refine .bind .waitForStandstill fun _ => .bind (.checkpoint _ _) fun _ => ?_
  refine .bind (.perform nofun) fun engaged => ?_
  rcases engaged with fault | ⟨⟩
  · exact .throw _
  · exact .bind (.enter _) fun _ => .outcome _ _ _

theorem resume (d : Directive) : Undeterred (resume d) := by
  refine .bind .get fun p => .ite (fun _ => .throw_bind _ _) fun _ => ?_
  exact .bind (.enter _) fun _ => .outcome _ _ _

/-- The only place where an output answers: a failure is told, and that is all. -/
theorem shutOff (d : Directive) (output : String) : Undeterred (shutOff d output) := by
  refine .bind (.perform nofun) fun found => .ite (fun _ => .pure _) fun _ => ?_
  refine fun p => .act (.shutOff output) fun answer answer' _ => ?_
  rcases answer with fault | ⟨⟩ <;> rcases answer' with fault' | ⟨⟩
  · exact .reportFirst _ (.reportSecond _ (.done _))
  · exact .reportFirst _ (.done _)
  · exact .reportSecond _ (.done _)
  · exact .done _

theorem walk {visit : String → Transition Flow} (visits : ∀ n, Undeterred (visit n))
    (names : List String) : Undeterred (Roster.walk visit names) := by
  induction names with
  | nil => exact .pure _
  | cons n names ih =>
    refine .bind (visits n) fun flow => ?_
    cases flow with
    | go => exact ih
    | stop => exact .pure _

theorem shutOffAll (fitted : Equipment) (d : Directive) (completed : StepSet) :
    Undeterred (shutOffAll fitted d completed) := by
  refine .bind (.walk (.shutOff d) _) fun flow => ?_
  cases flow with
  | go => exact .pure _
  | stop => exact .preempted _ _

theorem submitCompletion (repeatRequested : Bool) :
    Undeterred (submitCompletion repeatRequested) := by
  refine .bind .get fun p => .bind (.perform nofun) fun answer => ?_
  rcases answer with fault | e <;> exact .bind (.perform nofun) fun _ => .pure _

theorem finish (fitted : Equipment) (d : Directive) (repeatRequested : Bool) :
    Undeterred (finish fitted d repeatRequested) := by
  unfold Transition.finish
  refine .ite (fun _ => .throw_bind _ _) fun _ => ?_
  refine .bind .waitForStandstill fun _ => .bind (.checkpoint _ _) fun _ => ?_
  refine .bind (.perform nofun) fun answer => ?_
  rcases answer with fault | ⟨⟩
  · exact .throw _
  · refine .bind (.shutOffAll _ _ _) fun _ => .bind (.checkpoint _ _) fun _ => ?_
    exact .bind (.enter _) fun _ => .bind (.submitCompletion _) fun _ => .outcome _ _ _

theorem pauseIfEnabled (fitted : Equipment) (d : Directive) :
    Undeterred (pauseIfEnabled fitted d) := by
  refine .bind (.perform nofun) fun enabled => .ite (fun _ => .pause _ _ _) fun _ => ?_
  exact .bind (.perform nofun) fun _ => .outcome _ _ _

theorem apply (fitted : Equipment) (d : Directive) : Undeterred (apply fitted d) := by
  refine .bind .refuseIfLatched fun _ => .bind .get fun p => ?_
  refine .ite (fun _ => .throw_bind _ _) fun _ => ?_
  refine .ite (fun _ => .throw_bind _ _) fun _ => ?_
  cases d with
  | pauseUnconditional => exact .pause _ _ _
  | pauseOptional => exact .pauseIfEnabled _ _
  | resumeObserved => exact .resume _
  | programEnd => exact .finish _ _ _
  | programEndRepeat => exact .finish _ _ _
  | emergencyStop => exact .throw _
  | setOptionalStop enabled => exact .throw _

end Undeterred

end Transition

/-! ## Plants -/

/-- Everything goes the same way on two plants, but for the outputs that fail: in states that are
alike both answer alike, and the states afterwards are alike again.  Reports are taken, and leave
no trace. -/
structure Plant.Twins (world world' : Plant σ) (alike : σ → σ → Prop) : Prop where
  perform (action : Action) {s t : σ} : alike s t →
    Option.Rel action.Agree (world.perform action s).1 (world'.perform action t).1 ∧
      alike (world.perform action s).2 (world'.perform action t).2
  reportFirst (entry : Entry) {s t : σ} : alike s t →
    ∃ s', world.perform (.report entry) s = (some (), s') ∧ alike s' t
  reportSecond (entry : Entry) {s t : σ} : alike s t →
    ∃ t', world'.perform (.report entry) t = (some (), t') ∧ alike s t'

namespace Course

variable {world world' : Plant σ} {alike : σ → σ → Prop}

/-- Courses that keep abreast come out the same on two plants that differ in nothing but failing
outputs. -/
theorem Abreast.play {c c' : Course α} {s t : σ} (abreast : Abreast c c')
    (law : world.Twins world' alike) (same : alike s t) :
    (c'.play world' t).result = (c.play world s).result ∧
      (c'.play world' t).deeds = (c.play world s).deeds ∧
      notices (c'.chronicle world' t) = notices (c.chronicle world s) ∧
      alike (c.play world s).last (c'.play world' t).last := by
  induction abreast generalizing s t with
  | done a => exact ⟨rfl, rfl, rfl, same⟩
  | act action rest ih =>
    obtain ⟨answers, later⟩ := law.perform action same
    rcases first : world.perform action s with ⟨answer | answer, s'⟩ <;>
      rcases second : world'.perform action t with ⟨answer' | answer', t'⟩ <;>
      rw [first, second] at answers later
    · rw [play_broken first, play_broken second, chronicle_broken first, chronicle_broken second]
      exact ⟨rfl, rfl, rfl, later⟩
    · cases answers
    · cases answers
    · obtain ⟨agree⟩ := answers
      obtain ⟨result, deeds, submitted, last⟩ := ih answer answer' agree later
      rw [play_act first, play_act second, chronicle_act first, chronicle_act second]
      refine ⟨result, ?_, ?_, last⟩
      · rw [Played.deeds, Played.deeds, List.filter_cons, List.filter_cons]
        exact congrArg (fun rest => if !action.isAside then action :: rest else rest) deeds
      · rw [notices_cons, notices_cons, agree.notice s s' t t']
        exact congrArg _ submitted
  | reportFirst entry rest ih =>
    obtain ⟨s', told, stays⟩ := law.reportFirst entry same
    rw [play_act told, chronicle_act told]
    exact ih stays
  | reportSecond entry rest ih =>
    obtain ⟨t', told, stays⟩ := law.reportSecond entry same
    rw [play_act told, chronicle_act told]
    exact ih stays

end Course

/-- The plant with some of its outputs out of order: they do what they did, and then they fail. -/
def Plant.spoilt (world : Plant σ) (fault? : String → Option Fault) : Plant σ where
  ready := world.ready
  perform
    | .shutOff output, s =>
      let (answer, t) := world.perform (.shutOff output) s
      (answer.map fun answer => (fault? output).elim answer .error, t)
    | action, s => world.perform action s

theorem Plant.IsHeedless.twins_spoilt {world : Plant σ} {alike : σ → σ → Prop}
    (law : world.IsHeedless alike) (fault? : String → Option Fault) :
    world.Twins (world.spoilt fault?) alike where
  perform action s t same := by
    obtain ⟨answers, later⟩ := law.perform action same
    cases action with
    | shutOff output =>
      refine ⟨?_, later⟩
      show Option.Rel _ _ ((world.perform (.shutOff output) t).1.map _)
      rw [answers]
      cases (world.perform (.shutOff output) t).1 with
      | none => exact .none
      | some answer => exact .some fun other => absurd rfl (other output)
    | _ => exact ⟨answers ▸ Action.rel_agree _, later⟩
  reportFirst entry s t same := by
    obtain ⟨s', told, stays⟩ := law.report entry s
    exact ⟨s', told, law.equivalence.trans (law.equivalence.symm stays) same⟩
  reportSecond entry s t same := by
    obtain ⟨t', told, stays⟩ := law.report entry t
    exact ⟨t', told, law.equivalence.trans same stays⟩

/-- The outputs were told to stop as long as no look found shutdown latched. -/
theorem Proceeds.stops {fitted : Equipment} {d : Directive} {r : List (Exchange Unit)} {seen : Bool}
    {result : Except Refusal Outcome} (proceeds : Proceeds fitted d r seen result)
    (reset : done .resetModal (.ok ()) ∈ r) {output : String}
    (named : output ∈ fitted.outputs.names) (left : .shutOff output ∉ callsIn r) : seen := by
  cases proceeds with
  | refused => cases reset
  | rests => cases reset
  | stoppedAtBarrier => rfl
  | pauseFailed => simp [stood] at reset
  | paused => simp [stood] at reset
  | resetFailed => simp [stood] at reset
  | stoppedAtOutput => rfl
  | stoppedAtEnd => rfl
  | ended names =>
    exact absurd (mem_callsIn.2 ⟨rfl, (turn_toured idle_submit).2 (names ▸ named)⟩) left

/-! ## Directives -/

namespace Program

variable {world world' : Plant σ} {alike : σ → σ → Prop} {s t : σ}

/-- Failing outputs make no difference to a directive: the same calls and other deeds, the same
answer, the same program afterwards and the same envelope.  Once the modal state is reset all
outputs are told to stop, unless the last look found shutdown latched. -/
theorem apply_undeterred (law : world.Twins world' alike) (same : alike s t) (fitted : Equipment)
    (d : Directive) (p : Program) :
    let x := (p.apply fitted d).play world s
    let y := (p.apply fitted d).play world' t
    let h := (p.apply fitted d).chronicle world s
    let k := (p.apply fitted d).chronicle world' t
    (y.calls = x.calls ∧ y.deeds = x.deeds ∧ y.result = x.result ∧ notices k = notices h ∧
      alike x.last y.last) ∧
    (x.result.isSome → done .resetModal (.ok ()) ∈ recordOf h →
      ∀ output ∈ fitted.outputs.names, .shutOff output ∉ x.calls →
        (h.filterMap Exchange.found?).getLast? = some true) := by
  intro x y h k
  have abreast : Course.Abreast (p.apply fitted d) (p.apply fitted d) :=
    Transition.Undeterred.apply fitted d p
  obtain ⟨result, deeds, submitted, last⟩ := abreast.play law same
  refine ⟨⟨?_, deeds, result, submitted, last⟩, fun ends reset output named left => ?_⟩
  · rw [Played.calls_eq_deeds, Played.calls_eq_deeds]
    exact congrArg _ deeds
  · obtain ⟨⟨r, q⟩, ends⟩ := Option.isSome_iff_exists.1 ends
    obtain ⟨reaches, actions⟩ := Course.reaches_chronicle ends
    have calls : x.calls = callsIn (recordOf h) := by
      rw [callsIn_recordOf, ← actions]
      rfl
    have seen := (apply_proceeds reaches).stops reset named (calls ▸ left)
    cases looks : (h.filterMap Exchange.found?).getLast? with
    | none =>
      rw [looks] at seen
      cases seen
    | some found =>
      rw [looks] at seen
      exact congrArg some seen

/-- The bench with three outputs.  While the second is told to stop, shutdown is latched. -/
def latchingBench : Rehearsal.Bench :=
  { Rehearsal.Bench.setUp { outputs := ["spindle", "coolant", "lamp"] } with
    hooks := [("aux:coolant", [.trip])] }

open Rehearsal in
/-- An end on the bench above, once with all outputs in order and once with a spindle that
fails. -/
theorem apply_undeterred_spindle :
    let fitted : Equipment := { outputs := ⟨["spindle", "coolant", "lamp"], by decide, by decide⟩ }
    let broken := Bench.plant.spoilt fun output =>
      if output = "spindle" then some (.failed "stuck") else none
    let x := (apply fitted .programEnd {}).play Bench.plant latchingBench
    let y := (apply fitted .programEnd {}).play broken latchingBench
    y.calls = x.calls ∧ y.result = x.result ∧ Bench.Alike x.last y.last ∧
      x.calls = [.approachBarrier, .awaitStandstill, .resetModal, .shutOff "spindle",
        .shutOff "coolant"] ∧
      y.last.log.length = x.last.log.length + 1 ∧
      (((apply fitted .programEnd {}).chronicle Bench.plant latchingBench).filterMap
        Exchange.found?).getLast? = some true := by
  intro fitted broken x y
  obtain ⟨⟨calls, -, result, -, last⟩, cut⟩ := apply_undeterred
    (Bench.isHeedless.twins_spoilt _) (Bench.isHeedless.equivalence.refl latchingBench) fitted
    .programEnd {}
  exact ⟨calls, result, last, rfl, rfl,
    cut rfl (.tail _ (.tail _ (.head _))) "lamp" (by decide) (by decide)⟩

end Program

end ProgramControl
