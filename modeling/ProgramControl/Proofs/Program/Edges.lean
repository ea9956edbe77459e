import ProgramControl.Proofs.Program.Completions
import ProgramControl.Proofs.Program.Interruption

/-!
# The ways a program moves

A call that is refused leaves the program as it was, with all that others can see of it; a call that
succeeds moves the program along one of a few edges.  Either way the run state that was published
last is the one that the program is in.

* `Edge`                      the ways a call may move a program;
* `Call.concludes_of_reaches` a call moves along an edge or not at all, and publishes where it is;
* `Turn.Lawful`               what a call leaves of all that others can see;
* `Program.Runs.lawful`       every call of a run is lawful.
-/

namespace ProgramControl

variable {σ : Type}

/-- The ways a call may move a program.  The list holds what the call has found where it looked at
the optional-stop flag. -/
inductive Edge : Call → List Bool → Program → Program → Prop where
  | pause {p : Program} (active : p.state = .running ∨ p.state = .paused) :
      Edge (.directive .pauseUnconditional) [] p { p with state := .paused }
  | pauseEnabled {p : Program} (active : p.state = .running ∨ p.state = .paused) :
      Edge (.directive .pauseOptional) [true] p { p with state := .paused }
  | pauseDisabled {p : Program} (active : p.state = .running ∨ p.state = .paused) :
      Edge (.directive .pauseOptional) [false] p p
  | resume {p : Program} (paused : p.state = .paused) :
      Edge (.directive .resumeObserved) [] p { p with state := .running }
  | finish {p : Program} (active : p.state = .running ∨ p.state = .paused) :
      Edge (.directive .programEnd) [] p { p with state := .ended }
  | finishRepeat {p : Program} (active : p.state = .running ∨ p.state = .paused) :
      Edge (.directive .programEndRepeat) [] p { p with state := .ended }
  | begin {p : Program} (ended : p.state = .ended) :
      Edge .beginProgram [] p ⟨.running, p.number + 1⟩

theorem RunState.active_of_not_terminal {s : RunState} (h : ¬ s.isTerminal) :
    s = .running ∨ s = .paused := by
  cases s with
  | running => exact .inl rfl
  | paused => exact .inr rfl
  | ended => exact absurd rfl h

/-! ## One call -/

/-- What a call leaves behind it on its way. -/
structure Trail where
  /-- a collaborator was called -/
  called : Bool := false
  /-- what was found where the call looked at the optional-stop flag -/
  flags : List Bool := []
  /-- the run state published last -/
  shown : RunState

def track : Watch Trail where
  allows _ _ := True
  next g action answer :=
    match action, answer with
    | .readOptionalStop, flag => { g with flags := g.flags ++ [flag] }
    | .publish state, _ => { g with shown := state }
    | action, _ => { g with called := g.called || action.isCall }

theorem track_reports (entry : Entry) : track.Ignores (.report entry) := by
  refine fun g => ⟨trivial, fun _ => ?_⟩
  show { g with called := g.called || false } = g
  rw [Bool.or_false]

/-- The call was refused and the program is as it was, or it succeeded and the program has moved
along an edge. -/
structure Concludes (call : Call) (p : Program) {α : Type} (g : Trail) (r : Except Refusal α)
    (q : Program) : Prop where
  shown : g.shown = q.state
  refused : ∀ e, r = .error e → q = p
  unconfigured : ∀ d name, r = .error (.notConfigured d name) → g.called = false
  moved : ∀ a, r = .ok a → Edge call g.flags p q

namespace Transition

variable {fitted : Equipment} {p : Program} {d : Directive} {call : Call} {g : Trail} {α : Type}

theorem concludes_refused {e : Refusal} (shown : g.shown = p.state)
    (unconfigured : ∀ d name, e = .notConfigured d name → g.called = false) :
    Concludes call p g (.error e : Except Refusal α) p :=
  ⟨shown, fun _ _ => rfl, fun d name same => unconfigured d name (Except.error.inj same), nofun⟩

theorem concludes_moved {a : α} {q : Program} (shown : g.shown = q.state)
    (edge : Edge call g.flags p q) : Concludes call p g (.ok a) q :=
  ⟨shown, nofun, nofun, fun _ _ => edge⟩

theorem concludes_pause (message : String) (untouched : g.called = false)
    (shown : g.shown = p.state) (edge : Edge call g.flags p { p with state := .paused }) :
    Obeys track g p (pause fitted d message) (Concludes call p) := by
  simp only [pause, obeys_bind, obeys_ite, obeys_throw, then_ok, then_error,
    obeys_waitForStandstill, obeys_checkpoint track_reports, obeys_perform]
  refine ⟨fun _ => concludes_refused shown fun _ _ _ => untouched, fun _ =>
    ⟨fun _ => concludes_refused shown fun _ _ _ => untouched, fun _ => ?_⟩⟩
  refine ⟨trivial, trivial, trivial, concludes_refused shown (by simp), trivial, ?_⟩
  rintro (fault | ⟨⟩)
  · exact concludes_refused shown (by simp)
  · rw [obeys_bind, obeys_enter_publish track_reports]
    exact ⟨trivial, concludes_moved rfl edge⟩

theorem concludes_pauseIfEnabled (active : p.state = .running ∨ p.state = .paused) :
    Obeys track { shown := p.state } p (pauseIfEnabled fitted d)
      (Concludes (.directive .pauseOptional) p) := by
  simp only [pauseIfEnabled, obeys_bind, obeys_perform, then_ok, obeys_ite,
    obeys_report track_reports, obeys_outcome]
  refine ⟨trivial, fun flag => ⟨fun on => ?_, fun off => ?_⟩⟩
  · subst on
    exact concludes_pause _ rfl rfl (.pauseEnabled active)
  · obtain rfl := Bool.eq_false_iff.2 off
    exact concludes_moved rfl (.pauseDisabled active)

theorem concludes_resume (shown : g.shown = p.state) (unlooked : g.flags = []) :
    Obeys track g p (resume d) (Concludes (.directive .resumeObserved) p) := by
  simp only [resume, obeys_bind, obeys_get, obeys_ite, obeys_throw, then_ok,
    obeys_enter_publish track_reports, obeys_outcome]
  refine ⟨fun _ => concludes_refused shown (by simp), fun paused => ?_⟩
  refine ⟨trivial, concludes_moved rfl ?_⟩
  show Edge _ g.flags p _
  rw [unlooked]
  exact .resume (Decidable.not_not.1 paused)

/-- The completion is submitted after the end is published, and its answer moves nothing. -/
theorem track_submitCompletion (repeatRequested : Bool) :
    Obeys track g p (submitCompletion repeatRequested) fun g' r q =>
      q = p ∧ g'.shown = g.shown ∧ g'.flags = g.flags ∧ ∃ emitted, r = .ok emitted := by
  simp only [submitCompletion, obeys_bind, obeys_get, then_ok, obeys_perform]
  refine ⟨trivial, ?_⟩
  rintro (fault | e) <;> rw [obeys_bind, obeys_report track_reports] <;>
    exact ⟨rfl, rfl, rfl, _, rfl⟩

theorem concludes_finish (repeatRequested : Bool)
    (edge : Edge call [] p { p with state := .ended }) :
    Obeys track { shown := p.state } p (finish fitted d repeatRequested) (Concludes call p) := by
  simp only [finish, obeys_bind, obeys_ite, obeys_throw, then_ok, then_error,
    obeys_waitForStandstill, obeys_checkpoint track_reports, obeys_perform]
  refine ⟨fun _ => concludes_refused rfl fun _ _ _ => rfl, fun _ => ?_⟩
  refine ⟨trivial, trivial, trivial, concludes_refused rfl (by simp), trivial, ?_⟩
  rintro (fault | ⟨⟩)
  · exact concludes_refused rfl (by simp)
  · simp only [obeys_bind]
    -- the outputs publish nothing and look at no flag
    let still (g : Trail) : Prop := g.shown = p.state ∧ g.flags = []
    refine (obeys_shutOffAll track_reports d _ still still ?_ ⟨rfl, rfl⟩).mono ?_
    · exact fun n g keeps => ⟨trivial, keeps, trivial, fun _ => keeps⟩
    · rintro g r q ⟨rfl, ⟨rfl, shown, unlooked⟩ | ⟨rfl, shown, -⟩⟩
      · simp only [then_ok, obeys_checkpoint track_reports, then_error, obeys_bind,
          obeys_enter_publish track_reports]
        refine ⟨trivial, concludes_refused shown (by simp), trivial,
          (track_submitCompletion repeatRequested).mono ?_⟩
        rintro g' r q' ⟨rfl, shown', unlooked', emitted, rfl⟩
        refine concludes_moved shown' ?_
        rw [unlooked']
        show Edge call g.flags q _
        rw [unlooked]
        exact edge
      · exact concludes_refused shown (by simp)

theorem concludes_apply :
    Obeys track { shown := p.state } p (apply fitted d) (Concludes (.directive d) p) := by
  simp only [apply, obeys_bind, obeys_refuseIfLatched, then_ok, then_error, obeys_get, obeys_ite,
    obeys_throw]
  refine ⟨trivial, concludes_refused rfl (by simp), fun _ => concludes_refused rfl (by simp),
    fun _ => ?_⟩
  refine ⟨fun _ => concludes_refused rfl (by simp), fun going => ?_⟩
  have active := RunState.active_of_not_terminal going
  cases d with
  | pauseUnconditional => exact concludes_pause _ rfl rfl (.pause active)
  | pauseOptional => exact concludes_pauseIfEnabled active
  | resumeObserved => exact concludes_resume rfl rfl
  | programEnd => exact concludes_finish _ (.finish active)
  | programEndRepeat => exact concludes_finish _ (.finishRepeat active)
  | emergencyStop => exact concludes_refused rfl (by simp)
  | setOptionalStop enabled => exact concludes_refused rfl (by simp)

theorem concludes_beginProgram :
    Obeys track { shown := p.state } p beginProgram (Concludes .beginProgram p) := by
  simp only [beginProgram, obeys_bind, obeys_refuseIfLatched, then_ok, then_error, obeys_get,
    obeys_ite, obeys_throw, obeys_set, obeys_enter_publish track_reports,
    obeys_report track_reports, obeys_pure]
  refine ⟨trivial, concludes_refused rfl (by simp), fun _ => concludes_refused rfl (by simp),
    fun closed => ?_⟩
  have ended : p.state = .ended := RunState.isTerminal_iff.1 (Decidable.not_not.1 closed)
  exact ⟨trivial, concludes_moved rfl (.begin ended)⟩

end Transition

/-! ## Histories -/

namespace Exchange

/-- What was found where the exchange looked at the optional-stop flag. -/
def flag? : Exchange σ → Option Bool
  | ⟨.readOptionalStop, flag, _, _⟩ => some flag
  | _ => none

/-- An envelope is queued by a submission that is accepted, and by nothing else. -/
def KeepsQueued (queued : σ → List Envelope) (x : Exchange σ) : Prop :=
  match x.notice? with
  | some n => queued x.after = queued x.before ++ n.answer.toOption.toList
  | none => queued x.after = queued x.before

/-- During a history every envelope that is ever queued comes from this thread. -/
def Queueing (queued : σ → List Envelope) : σ → List (Exchange σ) → Prop :=
  Keeps (KeepsQueued queued) fun s s' => queued s' = queued s

theorem queued_last {queued : σ → List Envelope} {s : σ} {h : List (Exchange σ)}
    (keeps : Queueing queued s h) (silent : notices h = []) : queued (last s h) = queued s := by
  induction h generalizing s with
  | nil => rfl
  | cons x h ih =>
    obtain ⟨others, law, rest⟩ := keeps
    cases notice : x.notice? with
    | some n =>
      rw [notices, List.filterMap_cons_some notice] at silent
      cases silent
    | none =>
      rw [notices, List.filterMap_cons_none notice] at silent
      unfold KeepsQueued at law
      simp only [notice] at law
      rw [last, ih rest silent, law, others]

end Exchange

open Exchange

/-- The flags that the looks of a history found. -/
def flags (h : List (Exchange σ)) : List Bool := h.filterMap Exchange.flag?

theorem track_next (g : Trail) (x : Exchange σ) :
    (track.next g x.action x.answer).flags = g.flags ++ x.flag?.toList ∧
      (track.next g x.action x.answer).called = (g.called || x.action.isCall) := by
  obtain ⟨action, answer, before, after⟩ := x
  cases action with
  | readOptionalStop => exact ⟨rfl, (Bool.or_false _).symm⟩
  | publish state => exact ⟨(List.append_nil _).symm, (Bool.or_false _).symm⟩
  | _ => exact ⟨(List.append_nil _).symm, rfl⟩

theorem track_after (g : Trail) (h : List (Exchange σ)) :
    (track.after g h).flags = g.flags ++ flags h ∧
      (track.after g h).called = (g.called || h.any (·.action.isCall)) := by
  induction h generalizing g with
  | nil => exact ⟨(List.append_nil _).symm, (Bool.or_false _).symm⟩
  | cons x h ih =>
    obtain ⟨found, called⟩ := track_next g x
    obtain ⟨found', called'⟩ := ih (track.next g x.action x.answer)
    have all : flags (x :: h) = x.flag?.toList ++ flags h := by
      rw [flags, List.filterMap_cons]
      cases x.flag? <;> rfl
    rw [Watch.after_cons, found', called', found, called, all, List.append_assoc, List.any_cons,
      Bool.or_assoc]
    exact ⟨rfl, rfl⟩

theorem track_shown {published : σ → RunState} {s : σ} {h : List (Exchange σ)} {g : Trail}
    (keeps : Mirroring published s h) (shown : g.shown = published s) :
    (track.after g h).shown = published (last s h) := by
  induction h generalizing s g with
  | nil => exact shown
  | cons x h ih =>
    obtain ⟨others, law, rest⟩ := keeps
    have here : g.shown = published x.before := shown.trans others.symm
    refine ih rest ?_
    obtain ⟨action, answer, before, after⟩ := x
    cases action with
    | publish state => exact law.symm
    | readOptionalStop => exact here.trans law.symm
    | _ => exact here.trans law.symm

/-- A call that was served concludes in one of the two ways. -/
theorem Call.concludes_of_reaches {call : Call} {fitted : Equipment} {p q : Program}
    {result : Result} {h : List (Exchange σ)}
    (served : (call.service fitted p).Reaches h (.done (result, q))) :
    Concludes call p (track.after { shown := p.state } h) result q := by
  have obeys : Course.Obeys track { shown := p.state } (call.service fitted p)
      fun g end_ => Concludes call p g end_.1 end_.2 := by
    have lift {α : Type} {g : Trail} {r : Except Refusal α} {q : Program} (f : α → Reply)
        (ends : Concludes call p g r q) : Concludes call p g (r.map f) q := by
      obtain ⟨shown, refused, unconfigured, moved⟩ := ends
      cases r with
      | ok a => exact ⟨shown, nofun, nofun, fun _ _ => moved a rfl⟩
      | error e =>
        exact ⟨shown, fun _ _ => refused e rfl,
          fun d name same => unconfigured d name (by cases same; rfl), nofun⟩
    cases call with
    | directive d =>
      refine (Course.obeys_bind ..).2 (Course.Obeys.mono Transition.concludes_apply ?_)
      exact fun g end_ ends => lift .outcome ends
    | beginProgram =>
      refine (Course.obeys_bind ..).2 (Course.Obeys.mono Transition.concludes_beginProgram ?_)
      exact fun g end_ ends => lift .program ends
  exact (obeys.reaches served).2

/-! ## Runs -/

theorem Edge.isProgramDirective {d : Directive} {found : List Bool} {p q : Program}
    (edge : Edge (.directive d) found p q) : d.isProgramDirective = true := by
  cases edge <;> rfl

/-- What a call leaves of what others can see: the run state published, the sequence numbers and
the envelopes.  The shared state was `s` before the call and is `s'` after it. -/
structure Turn.Lawful (published : σ → RunState) (queue : σ → Queue) (queued : σ → List Envelope)
    (s s' : σ) (u : Turn σ) : Prop where
  /-- a refusal leaves everything as it was -/
  refused : ∀ e, u.result = .error e → u.after = u.before ∧ published s' = published s ∧
    (queue s').issued = (queue s).issued ∧ queued s' = queued s
  /-- nobody is called if something is missing -/
  unconfigured : ∀ d name, u.result = .error (.notConfigured d name) →
    ∀ x ∈ u.history, x.action.isCall = false ∧ x.notice? = none
  moved : ∀ reply, u.result = .ok reply → Edge u.call (flags u.history) u.before u.after
  /-- the emergency stop and the switch of the optional stop are no business of a program -/
  elsewhere : ∀ d, u.call = .directive d → d.isProgramDirective = false →
    ∃ e, u.result = .error e
  mirrored : published s' = u.after.state

section

variable {published : σ → RunState} {queue : σ → Queue} {queued : σ → List Envelope} {s : σ}
  {fitted : Equipment} {p q : Program} {turns : List (Turn σ)}

theorem Call.lawful_of_reaches {call : Call} {result : Result} {h : List (Exchange σ)}
    (served : (call.service fitted p).Reaches h (.done (result, q)))
    (mirrors : Mirroring published s h) (sole : SoleUser queue s h)
    (queues : Queueing queued s h) (shown : published s = p.state) :
    Turn.Lawful published queue queued s (last s h) ⟨call, p, h, result, q⟩ := by
  have ends := Call.concludes_of_reaches served
  have mirrored : published (last s h) = q.state := by
    rw [← track_shown (g := { shown := p.state }) mirrors shown.symm]
    exact ends.shown
  obtain ⟨found, called⟩ := track_after { shown := p.state } h
  have silent : ∀ e, result = .error e → notices h = [] := by
    intro e refused
    obtain rfl := ends.refused e refused
    exact ((Call.account_of_reaches served).of_not_ends fun ⟨active, ended⟩ => active ended).1
  have moved : ∀ reply, result = .ok reply → Edge call (flags h) p q := by
    intro reply ok
    have edge := ends.moved reply ok
    rwa [found] at edge
  refine ⟨fun e refused => ?_, fun d name refused x mem => ⟨?_, ?_⟩, moved, ?_, mirrored⟩
  · obtain ⟨-, issued, -⟩ := submissions_eq sole
    rw [silent e refused] at issued
    have same := ends.refused e refused
    exact ⟨same, mirrored.trans ((congrArg Program.state same).trans shown.symm), issued,
      queued_last queues (silent e refused)⟩
  · have untouched := ends.unconfigured d name refused
    rw [called, Bool.false_or] at untouched
    exact Bool.eq_false_iff.2 (List.any_eq_false.1 untouched x mem)
  · exact List.filterMap_eq_nil_iff.1 (silent _ refused) x mem
  · rintro d rfl foreign
    cases result with
    | error e => exact ⟨e, rfl⟩
    | ok reply => cases (moved reply rfl).isProgramDirective.symm.trans foreign

/-- **A program moves along an edge or not at all.**  Whatever is fitted, whatever the collaborators
do and whenever shutdown is latched: a call that is refused leaves the program, the published run
state, the sequence numbers and the envelopes as they were; a call that succeeds has moved the
program along one of the edges; and after each call the published run state is that of the
program. -/
theorem Program.Runs.lawful (run : Program.Runs fitted p turns q) (shown : published s = p.state)
    (mirrors : Mirroring published s (Program.exchanges turns))
    (sole : SoleUser queue s (Program.exchanges turns))
    (queues : Queueing queued s (Program.exchanges turns)) :
    ∀ earlier u later, turns = earlier ++ u :: later →
      u.Lawful published queue queued (last s (Program.exchanges earlier))
        (last s (Program.exchanges (earlier ++ [u]))) := by
  induction run generalizing s with
  | nil =>
    intro earlier u later split
    cases earlier <;> cases split
  | @cons call p p' q h result turns served rest ih =>
    rw [Program.exchanges_cons] at mirrors sole queues
    obtain ⟨mirrors, mirrors'⟩ := keeps_append.1 mirrors
    obtain ⟨sole, sole'⟩ := keeps_append.1 sole
    obtain ⟨queues, queues'⟩ := keeps_append.1 queues
    have first := Call.lawful_of_reaches served mirrors sole queues shown
    intro earlier u later split
    cases earlier with
    | nil =>
      obtain ⟨rfl, -⟩ := List.cons.inj split
      rw [List.nil_append, Program.exchanges_cons, last_append]
      exact first
    | cons u' earlier =>
      obtain ⟨rfl, others⟩ := List.cons.inj split
      rw [List.cons_append, Program.exchanges_cons, Program.exchanges_cons, last_append,
        last_append]
      exact ih first.mirrored mirrors' sole' queues' earlier u later others

end

/-- On a machine without a pause mechanism a pause is refused, and then the program ends. -/
def Turn.pauseMissing : Turn (Board × Queue) where
  call := .directive .pauseUnconditional
  before := {}
  history := [⟨.readLatch, false, ({}, { depth := 1 }), ({}, { depth := 1 })⟩]
  result := .error (.notConfigured .pauseUnconditional "pause mechanism")
  after := {}

def Turn.endAfterwards : Turn (Board × Queue) where
  call := .directive .programEnd
  before := {}
  history :=
    let b : Board := {}
    let q : Queue := { depth := 1 }
    let s := (b, q)
    let s' := (b.publish .ended, q)
    let s'' := (b.publish .ended, (q.notify 1 ⟨false⟩).2)
    [⟨.readLatch, false, s, s⟩, ⟨.approachBarrier, (), s, s⟩, ⟨.awaitStandstill, (), s, s⟩,
      ⟨.readLatch, false, s, s⟩, ⟨.resetModal, .ok (), s, s⟩, ⟨.readLatch, false, s, s⟩,
      ⟨.report (.info s!"program {1}: {RunState.running.name} → {RunState.ended.name}"), (), s, s⟩,
      ⟨.publish .ended, (), s, s'⟩, ⟨.submit 1 ⟨false⟩, .ok ⟨1, 1, ⟨false⟩⟩, s', s''⟩,
      ⟨.report (.info s!"program {1} ended (repeat={false}), completion #{1}"), (), s'', s''⟩]
  result := .ok (.outcome ⟨.programEnd, .ended, StepSet.all.diff .pauseEngaged,
    s!"{Directive.programEnd.text}: program end - ready for new program"⟩)
  after := ⟨.ended, 1⟩

theorem lawful_endAfterwards :
    let s : Board × Queue := ({}, { depth := 1 })
    let published := fun s : Board × Queue => s.1.published
    let queued := fun s : Board × Queue => s.2.contents
    Turn.pauseMissing.Lawful published Prod.snd queued s s ∧
      ∃ s', queued s' = [⟨1, 1, ⟨false⟩⟩] ∧ published s' = .ended ∧
        Turn.endAfterwards.Lawful published Prod.snd queued s s' := by
  intro s published queued
  have run : Program.Runs { pause := false } {} [Turn.pauseMissing, Turn.endAfterwards]
      ⟨.ended, 1⟩ := by
    refine .cons (.act (.refl _)) (.cons ?_ (.nil _))
    exact .act (.act (.act (.act (.act (.act (.act (.act (.act (.act (.refl _))))))))))
  have mirrors : Mirroring published s
      (Program.exchanges [Turn.pauseMissing, Turn.endAfterwards]) := by
    simp [Mirroring, Keeps, Program.exchanges, Turn.pauseMissing, Turn.endAfterwards, MirrorStays,
      KeepsMirror, published, s, Board.publish]
  have sole : SoleUser Prod.snd s (Program.exchanges [Turn.pauseMissing, Turn.endAfterwards]) := by
    refine ⟨rfl, rfl, rfl, rfl, rfl, rfl, rfl, rfl, rfl, rfl, rfl, rfl, rfl, rfl, rfl, rfl, rfl,
      rfl, ?_⟩
    exact ⟨rfl, ⟨{ depth := 1 }, rfl, rfl, rfl⟩, rfl, rfl, trivial⟩
  have queues : Queueing queued s (Program.exchanges [Turn.pauseMissing, Turn.endAfterwards]) := by
    exact ⟨rfl, rfl, rfl, rfl, rfl, rfl, rfl, rfl, rfl, rfl, rfl, rfl, rfl, rfl, rfl, rfl, rfl,
      rfl, rfl, rfl, rfl, rfl, trivial⟩
  have lawful := @Program.Runs.lawful _ published Prod.snd queued s _ _ _ _ run rfl mirrors sole
    queues
  exact ⟨lawful [] Turn.pauseMissing [Turn.endAfterwards] rfl, _, rfl, rfl,
    lawful [Turn.pauseMissing] Turn.endAfterwards [] rfl⟩

end ProgramControl
