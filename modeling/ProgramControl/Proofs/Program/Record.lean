import ProgramControl.Proofs.Program.Preemption

/-!
# What a directive has done

The record of a directive holds the collaborators it has called and the completion it has
submitted, each with its answer.  There are only a few records that a directive can leave, and each
of them goes with one result (`Proceeds`).  The steps in the result are what the record shows, no
more and no less.

* `recordOf`                the calls and submissions of a history, with their answers;
* `Equipment.plan`          the calls that a directive makes if nothing stops it;
* `Transition.records_apply`   every directive proceeds in one of the ways listed;
* `Tells`                   a set of steps says what a record shows;
* `Program.apply_tells`     the steps of an outcome and of a preempted directive do, and a failure
                            that is reported is the answer of the last call.
-/

namespace ProgramControl

variable {σ : Type}

/-! ## Records -/

/-- The action is put on record: a call of a collaborator, or a submission. -/
def Action.isRecorded (action : Action) : Bool := action.starts || action.isCall

/-- An entry of a record. -/
abbrev done (action : Action) (answer : action.Answer) : Exchange Unit := ⟨action, answer, (), ()⟩

/-- The calls and the submissions of a history, with their answers. -/
def recordOf (h : List (Exchange σ)) : List (Exchange Unit) :=
  (h.filter (·.action.isRecorded)).map fun x => done x.action x.answer

/-- The collaborators that were called, in order. -/
def callsIn (r : List (Exchange Unit)) : List Action :=
  (r.map (·.action)).filter (·.isCall)

/-- The calls that a directive makes if nothing stops it. -/
def Equipment.plan (fitted : Equipment) : Directive → List Action
  | .pauseUnconditional | .pauseOptional => [.approachBarrier, .awaitStandstill, .engagePause]
  | .programEnd | .programEndRepeat =>
    .approachBarrier :: .awaitStandstill :: .resetModal :: fitted.outputs.names.map .shutOff
  | .resumeObserved | .emergencyStop | .setOptionalStop _ => []

/-! ## The ways a directive proceeds -/

/-- The barrier was waited for. -/
def stood : List (Exchange Unit) := [done .approachBarrier (), done .awaitStandstill ()]

/-- Outputs were told to stop and gave these answers. -/
def shut (told : List (String × Except Fault Unit)) : List (Exchange Unit) :=
  told.map fun n => done (.shutOff n.1) n.2

/-- The modal state was reset, and then outputs were told to stop and gave these answers. -/
def toured (told : List (String × Except Fault Unit)) : List (Exchange Unit) :=
  stood ++ done .resetModal (.ok ()) :: shut told

/-- The refusal comes before anything is done. -/
def Refusal.isEarly : Refusal → Bool
  | .preempted .. | .stepFailed .. => false
  | _ => true

/-- The records that a directive may leave, whether the last look at the latch found it latched,
and the result that goes with them. -/
inductive Proceeds (fitted : Equipment) (d : Directive) :
    List (Exchange Unit) → Bool → Except Refusal Outcome → Prop where
  | refused {seen : Bool} {e : Refusal} (early : e.isEarly) : Proceeds fitted d [] seen (.error e)
  | rests {state : RunState} {message : String} :
      Proceeds fitted d [] false (.ok ⟨d, state, .empty, message⟩)
  | stoppedAtBarrier : Proceeds fitted d stood true (.error (.preempted d .motionQuiesced))
  | pauseFailed {fault : Fault} :
      Proceeds fitted d (stood ++ [done .engagePause (.error fault)]) false
        (.error (.stepFailed d "pause" fault))
  | paused {state : RunState} {message : String} :
      Proceeds fitted d (stood ++ [done .engagePause (.ok ())]) false
        (.ok ⟨d, state, StepSet.motionQuiesced.insert .pauseEngaged, message⟩)
  | resetFailed {fault : Fault} :
      Proceeds fitted d (stood ++ [done .resetModal (.error fault)]) false
        (.error (.stepFailed d "modal reset" fault))
  | stoppedAtOutput {told : List (String × Except Fault Unit)} {rest : List String}
      (left : rest ≠ []) (names : fitted.outputs.names = told.map Prod.fst ++ rest) :
      Proceeds fitted d (toured told) true
        (.error (.preempted d (StepSet.motionQuiesced.insert .modalReset)))
  | stoppedAtEnd {told : List (String × Except Fault Unit)}
      (names : fitted.outputs.names = told.map Prod.fst) :
      Proceeds fitted d (toured told) true
        (.error (.preempted d
          ((StepSet.motionQuiesced.insert .modalReset).insert .auxiliaryOff)))
  | ended {told : List (String × Except Fault Unit)} {program : Nat} {completion : Completion}
      {answer : Except QueueFault Envelope} {state : RunState} {message : String}
      (names : fitted.outputs.names = told.map Prod.fst) :
      Proceeds fitted d (toured told ++ [done (.submit program completion) answer]) false
        (.ok ⟨d, state,
          let steps := (StepSet.motionQuiesced.insert .modalReset).insert .auxiliaryOff
          if answer.isOk then steps.insert .completionEmitted else steps, message⟩)

/-! ## Keeping the record -/

/-- What is on record, and whether the last look at the latch found it latched. -/
structure Minutes where
  record : List (Exchange Unit) := []
  seen : Bool := false

/-- A watch that keeps the record, and allows no call that is not next in the plan. -/
def scribe (plan : List Action) : Watch Minutes where
  allows g action := action.isCall → callsIn g.record ++ [action] <+: plan
  next g action answer :=
    match action with
    | .readLatch => { g with seen := answer }
    | action =>
      if action.isRecorded then { g with record := g.record ++ [done action answer] } else g

variable {plan : List Action} {fitted : Equipment} {p : Program} {d : Directive} {seen : Bool}

theorem scribe_allows {action : Action} (idle : action.isCall = false) (g : Minutes) :
    (scribe plan).allows g action :=
  fun call => absurd (idle.symm.trans call) Bool.false_ne_true

theorem quiet_scribe : (scribe plan).IsQuiet where
  report _ _ := ⟨scribe_allows rfl _, fun _ => rfl⟩
  publish _ _ := ⟨scribe_allows rfl _, fun _ => rfl⟩

theorem callsIn_append (r r' : List (Exchange Unit)) :
    callsIn (r ++ r') = callsIn r ++ callsIn r' := by
  rw [callsIn, List.map_append, List.filter_append]
  rfl

theorem callsIn_shut (told : List (String × Except Fault Unit)) :
    callsIn (shut told) = (told.map Prod.fst).map .shutOff := by
  induction told with
  | nil => rfl
  | cons n told ih => exact congrArg (List.cons _) ih

namespace Transition

theorem records_pause (message : String)
    (pauses : fitted.plan d = [.approachBarrier, .awaitStandstill, .engagePause]) :
    Obeys (scribe (fitted.plan d)) {} p (pause fitted d message) fun g r _ =>
      Proceeds fitted d g.record g.seen r := by
  simp only [pause, obeys_bind, obeys_ite, obeys_throw, then_ok, then_error,
    obeys_waitForStandstill, obeys_checkpoint quiet_scribe.report, obeys_perform, pauses]
  refine ⟨fun _ => .refused rfl, fun _ => ⟨fun _ => .refused rfl, fun _ => ?_⟩⟩
  refine ⟨fun _ => ⟨_, rfl⟩, fun _ => ⟨_, rfl⟩, scribe_allows rfl _, .stoppedAtBarrier,
    fun _ => ⟨_, rfl⟩, ?_⟩
  rintro (fault | ⟨⟩)
  · exact .pauseFailed
  · rw [obeys_bind, obeys_enter quiet_scribe]
    exact .paused

theorem records_pauseIfEnabled
    (pauses : fitted.plan d = [.approachBarrier, .awaitStandstill, .engagePause]) :
    Obeys (scribe (fitted.plan d)) {} p (pauseIfEnabled fitted d) fun g r _ =>
      Proceeds fitted d g.record g.seen r := by
  simp only [pauseIfEnabled, obeys_bind, obeys_perform, then_ok, obeys_ite,
    obeys_report quiet_scribe.report, obeys_outcome]
  exact ⟨scribe_allows rfl _, fun _ => ⟨fun _ => records_pause _ pauses, fun _ => .rests⟩⟩

theorem records_resume :
    Obeys (scribe plan) {} p (resume d) fun g r _ => Proceeds fitted d g.record g.seen r := by
  simp only [resume, obeys_bind, obeys_get, obeys_ite, obeys_throw, then_ok,
    obeys_enter quiet_scribe, obeys_outcome]
  exact ⟨fun _ => .refused rfl, fun _ => .rests⟩

theorem records_submitCompletion (repeatRequested : Bool) (g : Minutes) :
    Obeys (scribe plan) g p (submitCompletion repeatRequested) fun g' r _ => ∃ answer,
      r = .ok answer.isOk ∧ g' =
        { g with record := g.record ++ [done (.submit p.number ⟨repeatRequested⟩) answer] } := by
  simp only [submitCompletion, obeys_bind, obeys_get, then_ok, obeys_perform]
  refine ⟨scribe_allows rfl _, ?_⟩
  rintro (fault | e) <;> rw [obeys_bind, obeys_report quiet_scribe.report] <;>
    exact ⟨_, rfl, rfl⟩

theorem toured_concat (told : List (String × Except Fault Unit))
    (n : String × Except Fault Unit) :
    toured (told ++ [n]) = toured told ++ [done (.shutOff n.1) n.2] := by
  rw [toured, shut, List.map_append, toured, List.append_assoc]
  rfl

theorem records_shutOffAll (d' : Directive) (completed : StepSet)
    (ends : fitted.plan d =
      .approachBarrier :: .awaitStandstill :: .resetModal :: fitted.outputs.names.map .shutOff) :
    Obeys (scribe (fitted.plan d)) ⟨toured [], false⟩ p (shutOffAll fitted d' completed)
      fun g r q => q = p ∧ ∃ told rest, fitted.outputs.names = told.map Prod.fst ++ rest ∧
        (r = .ok () ∧ rest = [] ∧ g = ⟨toured told, false⟩ ∨
          r = .error (.preempted d' completed) ∧ rest ≠ [] ∧ g = ⟨toured told, true⟩) := by
  refine (obeys_shutOffAll_along quiet_scribe.report d' completed
    (fun rest g => ∃ told, fitted.outputs.names = told.map Prod.fst ++ rest ∧
      g = ⟨toured told, false⟩)
    (fun g => ∃ told rest, fitted.outputs.names = told.map Prod.fst ++ rest ∧ rest ≠ [] ∧
      g = ⟨toured told, true⟩) ?_ ⟨[], rfl, rfl⟩).mono ?_
  · rintro n rest g ⟨told, names, rfl⟩
    refine ⟨scribe_allows rfl _, ⟨told, _, names, List.cons_ne_nil _ _, rfl⟩, fun _ => ?_,
      fun answer => ?_⟩
    · show callsIn (stood ++ ([done .resetModal (.ok ())] ++ shut told)) ++ [.shutOff n] <+: _
      rw [ends, names, callsIn_append, callsIn_append, callsIn_shut]
      exact ⟨rest.map .shutOff, by simp [callsIn, stood, Action.isCall]⟩
    · exact ⟨told ++ [(n, answer)], by simp [names],
        congrArg (Minutes.mk · false) (toured_concat told (n, answer)).symm⟩
  · rintro g r q ⟨rfl, ⟨rfl, told, names, rfl⟩ | ⟨rfl, told, rest, names, left, rfl⟩⟩
    · exact ⟨rfl, told, [], names, .inl ⟨rfl, rfl, rfl⟩⟩
    · exact ⟨rfl, told, rest, names, .inr ⟨rfl, left, rfl⟩⟩

theorem records_finish (repeatRequested : Bool)
    (ends : fitted.plan d =
      .approachBarrier :: .awaitStandstill :: .resetModal :: fitted.outputs.names.map .shutOff) :
    Obeys (scribe (fitted.plan d)) {} p (finish fitted d repeatRequested) fun g r _ =>
      Proceeds fitted d g.record g.seen r := by
  simp only [finish, obeys_bind, obeys_ite, obeys_throw, then_ok, then_error,
    obeys_waitForStandstill, obeys_checkpoint quiet_scribe.report, obeys_perform]
  refine ⟨fun _ => .refused rfl, fun _ => ?_⟩
  rw [ends]
  refine ⟨fun _ => ⟨_, rfl⟩, fun _ => ⟨_, rfl⟩, scribe_allows rfl _, .stoppedAtBarrier,
    fun _ => ⟨_, rfl⟩, ?_⟩
  rw [← ends]
  rintro (fault | ⟨⟩)
  · exact .resetFailed
  · simp only [obeys_bind]
    refine (records_shutOffAll d _ ends).mono ?_
    rintro g r q ⟨rfl, told, rest, names, ⟨rfl, rfl, rfl⟩ | ⟨rfl, left, rfl⟩⟩
    · rw [List.append_nil] at names
      simp only [then_ok, obeys_checkpoint quiet_scribe.report, then_error, obeys_bind,
        obeys_enter quiet_scribe]
      refine ⟨scribe_allows rfl _, .stoppedAtEnd names,
        (records_submitCompletion repeatRequested _).mono ?_⟩
      rintro g r q' ⟨answer, rfl, rfl⟩
      exact .ended names
    · exact .stoppedAtOutput left names

theorem records_apply :
    Obeys (scribe (fitted.plan d)) {} p (apply fitted d) fun g r _ =>
      Proceeds fitted d g.record g.seen r := by
  simp only [apply, obeys_bind, obeys_refuseIfLatched, then_ok, then_error, obeys_get, obeys_ite,
    obeys_throw]
  refine ⟨scribe_allows rfl _, .refused rfl, fun _ => .refused rfl,
    fun _ => ⟨fun _ => .refused rfl, fun _ => ?_⟩⟩
  cases d with
  | pauseUnconditional => exact records_pause _ rfl
  | pauseOptional => exact records_pauseIfEnabled rfl
  | resumeObserved => exact records_resume
  | programEnd => exact records_finish _ rfl
  | programEndRepeat => exact records_finish _ rfl
  | emergencyStop => exact .refused rfl
  | setOptionalStop enabled => exact .refused rfl

end Transition

/-! ## Histories -/

theorem recordOf_cons (x : Exchange σ) (h : List (Exchange σ)) :
    recordOf (x :: h) =
      (if x.action.isRecorded then [done x.action x.answer] else []) ++ recordOf h := by
  rw [recordOf, recordOf, List.filter_cons]
  cases x.action.isRecorded <;> rfl

/-- The calls on record are the calls of the history. -/
theorem callsIn_recordOf (h : List (Exchange σ)) :
    callsIn (recordOf h) = (h.map (·.action)).filter (·.isCall) := by
  induction h with
  | nil => rfl
  | cons x h ih =>
    rw [recordOf_cons, callsIn_append, ih, List.map_cons, List.filter_cons]
    by_cases call : x.action.isCall
    · simp [callsIn, Action.isRecorded, call]
    · by_cases recorded : x.action.isRecorded <;> simp [callsIn, recorded, call]

theorem mem_callsIn {r : List (Exchange Unit)} {action : Action} :
    action ∈ callsIn r ↔ action.isCall ∧ ∃ answer, done action answer ∈ r := by
  rw [callsIn, List.mem_filter, and_comm]
  refine and_congr_right fun _ => ⟨fun named => ?_, fun ⟨answer, entered⟩ => ?_⟩
  · obtain ⟨x, entered, rfl⟩ := List.mem_map.1 named
    exact ⟨x.answer, entered⟩
  · exact List.mem_map.2 ⟨_, entered, rfl⟩

theorem scribe_next (g : Minutes) (x : Exchange σ) :
    (scribe plan).next g x.action x.answer =
      ⟨g.record ++ (if x.action.isRecorded then [done x.action x.answer] else []),
        x.found?.getD g.seen⟩ := by
  obtain ⟨action, answer, before, after⟩ := x
  cases action <;> first | rfl | exact congrArg (Minutes.mk · _) (List.append_nil _).symm

theorem scribe_after (g : Minutes) (h : List (Exchange σ)) :
    (scribe plan).after g h =
      ⟨g.record ++ recordOf h, (h.filterMap Exchange.found?).getLast?.getD g.seen⟩ := by
  induction h generalizing g with
  | nil => exact congrArg (Minutes.mk · _) (List.append_nil _).symm
  | cons x h ih =>
    rw [Watch.after_cons, ih, recordOf_cons, scribe_next, ← List.append_assoc, List.filterMap_cons]
    refine congrArg (Minutes.mk _) ?_
    cases x.found? with
    | none => rfl
    | some found => rw [List.getLast?_cons]; rfl

/-- What is on record goes by the plan. -/
theorem callsIn_planned {g : Minutes} {h : List (Exchange σ)} (allowed : (scribe plan).Allows g h)
    (start : callsIn g.record <+: plan) : callsIn (g.record ++ recordOf h) <+: plan := by
  induction h generalizing g with
  | nil => rwa [recordOf, List.filter_nil, List.map_nil, List.append_nil]
  | cons x h ih =>
    obtain ⟨first, rest⟩ := allowed
    rw [recordOf_cons, ← List.append_assoc]
    rw [scribe_next] at rest
    refine ih rest ?_
    show callsIn (g.record ++ _) <+: plan
    rw [callsIn_append]
    by_cases call : x.action.isCall
    · have recorded : x.action.isRecorded := by rw [Action.isRecorded, call, Bool.or_true]
      rw [if_pos recorded]
      have one : callsIn [done x.action x.answer] = [x.action] := by simp [callsIn, call]
      rw [one]
      exact first call
    · have none : callsIn (if x.action.isRecorded then [done x.action x.answer] else []) = [] := by
        split <;> simp [callsIn, call]
      rw [none, List.append_nil]
      exact start

/-! ## What the steps say -/

/-- A set of steps says what a record shows, and nothing else. -/
structure Tells (fitted : Equipment) (r : List (Exchange Unit)) (steps : StepSet) : Prop where
  motion : steps.contains .motionQuiesced ↔ done .approachBarrier () ∈ r
  pause : steps.contains .pauseEngaged ↔ done .engagePause (.ok ()) ∈ r
  reset : steps.contains .modalReset ↔ done .resetModal (.ok ()) ∈ r
  /-- the outputs had their turn, each of them, whatever they answered -/
  outputs : steps.contains .auxiliaryOff ↔ done .resetModal (.ok ()) ∈ r ∧
    ∀ output ∈ fitted.outputs.names, ∃ answer, done (.shutOff output) answer ∈ r
  completion : steps.contains .completionEmitted ↔
    ∃ program completion e, done (.submit program completion) (.ok e) ∈ r
  known : steps.truncate = steps

theorem mem_shut {told : List (String × Except Fault Unit)} {output : String} :
    (∃ answer, done (.shutOff output) answer ∈ shut told) ↔ output ∈ told.map Prod.fst := by
  constructor
  · rintro ⟨answer, entered⟩
    obtain ⟨n, mem, same⟩ := List.mem_map.1 entered
    cases same
    exact List.mem_map.2 ⟨n, mem, rfl⟩
  · intro named
    obtain ⟨n, mem, rfl⟩ := List.mem_map.1 named
    exact ⟨n.2, List.mem_map.2 ⟨n, mem, rfl⟩⟩

theorem action_of_mem_shut {told : List (String × Except Fault Unit)} {x : Exchange Unit}
    (mem : x ∈ shut told) : ∃ output, x.action = .shutOff output := by
  obtain ⟨n, -, rfl⟩ := List.mem_map.1 mem
  exact ⟨n.1, rfl⟩

theorem tells_empty : Tells fitted [] .empty := by
  refine ⟨iff_of_false (by decide) ?_, iff_of_false (by decide) ?_, iff_of_false (by decide) ?_,
    iff_of_false (by decide) ?_, iff_of_false (by decide) ?_, by decide⟩ <;> simp

theorem tells_stood : Tells fitted stood .motionQuiesced := by
  refine ⟨iff_of_true (by decide) ?_, iff_of_false (by decide) ?_, iff_of_false (by decide) ?_,
    iff_of_false (by decide) ?_, iff_of_false (by decide) ?_, by decide⟩ <;> simp [stood]

theorem tells_paused : Tells fitted (stood ++ [done .engagePause (.ok ())])
    (StepSet.motionQuiesced.insert .pauseEngaged) := by
  refine ⟨iff_of_true (by decide) ?_, iff_of_true (by decide) ?_, iff_of_false (by decide) ?_,
    iff_of_false (by decide) ?_, iff_of_false (by decide) ?_, by decide⟩ <;> simp [stood]

theorem mem_toured {told : List (String × Except Fault Unit)} {last : List (Exchange Unit)}
    {x : Exchange Unit} : x ∈ toured told ++ last ↔
      x ∈ stood ∨ x = done .resetModal (.ok ()) ∨ x ∈ shut told ∨ x ∈ last := by
  simp only [toured, List.mem_append, List.mem_cons, or_assoc]

theorem turn_toured {told : List (String × Except Fault Unit)} {last : List (Exchange Unit)}
    (idle : ∀ x ∈ last, ¬ x.action.isCall) {output : String} :
    (∃ answer, done (.shutOff output) answer ∈ toured told ++ last) ↔
      output ∈ told.map Prod.fst := by
  rw [← mem_shut]
  refine exists_congr fun answer => ⟨fun entered => ?_, fun entered => ?_⟩
  · rcases mem_toured.1 entered with early | other | here | late
    · simp [stood] at early
    · cases other
    · exact here
    · exact absurd rfl (idle _ late)
  · exact mem_toured.2 (.inr (.inr (.inl entered)))

theorem idle_submit {program : Nat} {completion : Completion}
    {answer : Except QueueFault Envelope} :
    ∀ x ∈ [done (.submit program completion) answer], ¬ x.action.isCall := by
  intro x entered
  rw [List.mem_singleton.1 entered]
  exact Bool.false_ne_true

/-- An end whose modal state was reset: some outputs have been told to stop, and perhaps the
completion has been submitted. -/
theorem tells_toured {told : List (String × Except Fault Unit)} {rest : List String}
    {last : List (Exchange Unit)} {steps : StepSet}
    (names : fitted.outputs.names = told.map Prod.fst ++ rest)
    (idle : ∀ x ∈ last, ¬ x.action.isCall)
    (motion : steps.contains .motionQuiesced) (pause : ¬ steps.contains .pauseEngaged)
    (reset : steps.contains .modalReset) (outputs : steps.contains .auxiliaryOff ↔ rest = [])
    (completion : steps.contains .completionEmitted ↔
      ∃ program completion e, done (.submit program completion) (.ok e) ∈ last)
    (known : steps.truncate = steps) : Tells fitted (toured told ++ last) steps := by
  have resetDone : done .resetModal (.ok ()) ∈ toured told ++ last :=
    mem_toured.2 (.inr (.inl rfl))
  refine ⟨iff_of_true motion (mem_toured.2 (.inl (List.mem_cons_self ..))),
    iff_of_false pause fun paused => ?_, iff_of_true reset resetDone, outputs.trans ?_,
    completion.trans ?_, known⟩
  · rcases mem_toured.1 paused with early | other | shut | late
    · simp [stood] at early
    · cases other
    · obtain ⟨output, same⟩ := action_of_mem_shut shut
      cases same
    · exact idle _ late rfl
  · -- no output stands on the roster twice, so those that are left have had no turn
    have nodup := fitted.outputs.nodup
    rw [names] at nodup
    rw [and_iff_right resetDone, names]
    constructor
    · rintro rfl output named
      rw [List.append_nil] at named
      exact (turn_toured idle).2 named
    · refine fun turns => List.eq_nil_iff_forall_not_mem.2 fun output left => ?_
      have turn := (turn_toured idle).1 (turns output (List.mem_append_right _ left))
      exact (List.nodup_append.1 nodup).2.2 output turn output left rfl
  · refine exists_congr fun program => exists_congr fun completion => exists_congr fun e =>
      ⟨fun submitted => mem_toured.2 (.inr (.inr (.inr submitted))), fun submitted => ?_⟩
    rcases mem_toured.1 submitted with early | other | shut | late
    · simp [stood] at early
    · cases other
    · obtain ⟨output, same⟩ := action_of_mem_shut shut
      cases same
    · exact late

/-- The steps of an outcome, and those that a preempted directive completed, are what the record
shows. -/
theorem Proceeds.tells {r : List (Exchange Unit)} {result : Except Refusal Outcome}
    (proceeds : Proceeds fitted d r seen result) :
    (∀ o, result = .ok o → Tells fitted r o.steps) ∧
      ∀ d' completed, result = .error (.preempted d' completed) →
        d' = d ∧ Tells fitted r completed := by
  cases proceeds with
  | refused early =>
    refine ⟨nofun, ?_⟩
    rintro d' completed ⟨⟩
    cases early
  | rests =>
    refine ⟨?_, nofun⟩
    rintro o ⟨⟩
    exact tells_empty
  | stoppedAtBarrier =>
    refine ⟨nofun, ?_⟩
    rintro d' completed ⟨⟩
    exact ⟨rfl, tells_stood⟩
  | pauseFailed => exact ⟨nofun, nofun⟩
  | paused =>
    refine ⟨?_, nofun⟩
    rintro o ⟨⟩
    exact tells_paused
  | resetFailed => exact ⟨nofun, nofun⟩
  | stoppedAtOutput left names =>
    refine ⟨nofun, ?_⟩
    rintro d' completed ⟨⟩
    refine ⟨rfl, ?_⟩
    rw [← List.append_nil (toured _)]
    refine tells_toured names nofun (by decide) (by decide) (by decide) ?_ ?_ (by decide)
    · exact iff_of_false (by decide) left
    · exact iff_of_false (by decide) nofun
  | stoppedAtEnd names =>
    refine ⟨nofun, ?_⟩
    rintro d' completed ⟨⟩
    refine ⟨rfl, ?_⟩
    rw [← List.append_nil (toured _)]
    refine tells_toured (names.trans (List.append_nil _).symm) nofun (by decide) (by decide)
      (by decide) ?_ ?_ (by decide)
    · exact iff_of_true (by decide) rfl
    · exact iff_of_false (by decide) nofun
  | @ended _ _ _ answer _ _ names =>
    refine ⟨?_, nofun⟩
    rintro o ⟨⟩
    rw [← List.append_nil (List.map _ _)] at names
    rcases answer with fault | e
    · show Tells fitted _ ((StepSet.motionQuiesced.insert .modalReset).insert .auxiliaryOff)
      refine tells_toured names idle_submit (by decide) (by decide) (by decide)
        (iff_of_true (by decide) rfl) (iff_of_false (by decide) ?_) (by decide)
      rintro ⟨program, completion, e, submitted⟩
      cases List.mem_singleton.1 submitted
    · show Tells fitted _ (((StepSet.motionQuiesced.insert .modalReset).insert
        .auxiliaryOff).insert .completionEmitted)
      exact tells_toured names idle_submit (by decide) (by decide) (by decide)
        (iff_of_true (by decide) rfl)
        (iff_of_true (by decide) ⟨_, _, e, List.mem_singleton_self _⟩) (by decide)

/-- No failure of the pause mechanism or of the modal state is on record. -/
def Unfailing (r : List (Exchange Unit)) : Prop :=
  ∀ fault, done .engagePause (.error fault) ∉ r ∧ done .resetModal (.error fault) ∉ r

theorem unfailing_toured {told : List (String × Except Fault Unit)} {last : List (Exchange Unit)}
    (idle : ∀ x ∈ last, ¬ x.action.isCall) : Unfailing (toured told ++ last) := by
  refine fun fault => ⟨fun failed => ?_, fun failed => ?_⟩ <;>
    rcases mem_toured.1 failed with early | other | shut | late
  case refine_1.inl | refine_2.inl => simp [stood] at early
  case refine_1.inr.inl | refine_2.inr.inl => cases other
  case refine_1.inr.inr.inl | refine_2.inr.inr.inl =>
    obtain ⟨output, same⟩ := action_of_mem_shut shut
    cases same
  case refine_1.inr.inr.inr | refine_2.inr.inr.inr => exact idle _ late rfl

/-- A failure is reported if it was the answer to the last thing that was done, and that was to
engage the pause or to reset the modal state. -/
theorem Proceeds.fails {r : List (Exchange Unit)} {result : Except Refusal Outcome}
    (proceeds : Proceeds fitted d r seen result) (d' : Directive) (step : String) (fault : Fault) :
    result = .error (.stepFailed d' step fault) ↔ d' = d ∧
      (step = "pause" ∧ r.getLast? = some (done .engagePause (.error fault)) ∨
        step = "modal reset" ∧ r.getLast? = some (done .resetModal (.error fault))) := by
  have silent (other : result ≠ .error (.stepFailed d' step fault)) (unfailing : Unfailing r) :
      result = .error (.stepFailed d' step fault) ↔ d' = d ∧
        (step = "pause" ∧ r.getLast? = some (done .engagePause (.error fault)) ∨
          step = "modal reset" ∧ r.getLast? = some (done .resetModal (.error fault))) := by
    refine iff_of_false other ?_
    rintro ⟨-, ⟨-, last⟩ | ⟨-, last⟩⟩
    · exact (unfailing fault).1 (List.mem_of_getLast? last)
    · exact (unfailing fault).2 (List.mem_of_getLast? last)
  cases proceeds with
  | refused early =>
    refine silent ?_ (fun _ => ⟨List.not_mem_nil, List.not_mem_nil⟩)
    rintro ⟨⟩
    cases early
  | rests => exact silent nofun fun _ => ⟨List.not_mem_nil, List.not_mem_nil⟩
  | stoppedAtBarrier => exact silent nofun fun _ => by simp [stood]
  | pauseFailed => simp [stood, eq_comm]
  | paused => exact silent nofun fun _ => by simp [stood]
  | resetFailed => simp [stood, eq_comm]
  | stoppedAtOutput =>
    refine silent nofun ?_
    rw [← List.append_nil (toured _)]
    exact unfailing_toured nofun
  | stoppedAtEnd =>
    refine silent nofun ?_
    rw [← List.append_nil (toured _)]
    exact unfailing_toured nofun
  | ended => exact silent nofun (unfailing_toured idle_submit)

/-! ## Directives -/

/-- A directive that comes to its end has proceeded in one of the ways listed. -/
theorem Program.apply_proceeds {h : List (Exchange σ)} {result : Except Refusal Outcome}
    {q : Program} (reaches : (p.apply fitted d).Reaches h (.done (result, q))) :
    Proceeds fitted d (recordOf h) ((h.filterMap Exchange.found?).getLast?.getD false) result := by
  obtain ⟨-, proceeds⟩ := Transition.records_apply.reaches reaches
  rw [scribe_after] at proceeds
  exact proceeds

/-- What a directive calls goes by its plan.  The steps that it reports, whether it was carried out
or preempted, are those that were taken, and a failure that it reports is that of its last call. -/
theorem Program.apply_tells {h : List (Exchange σ)} {c : Course (Except Refusal Outcome × Program)}
    (reaches : (p.apply fitted d).Reaches h c) :
    callsIn (recordOf h) <+: fitted.plan d ∧ ∀ result q, c = .done (result, q) →
      (∀ o, result = .ok o → Tells fitted (recordOf h) o.steps) ∧
      (∀ d' completed, result = .error (.preempted d' completed) →
        d' = d ∧ Tells fitted (recordOf h) completed) ∧
      ∀ d' step fault, result = .error (.stepFailed d' step fault) ↔ d' = d ∧
        (step = "pause" ∧ (recordOf h).getLast? = some (done .engagePause (.error fault)) ∨
          step = "modal reset" ∧
            (recordOf h).getLast? = some (done .resetModal (.error fault))) := by
  obtain ⟨allowed, -⟩ := Transition.records_apply.reaches reaches
  refine ⟨callsIn_planned allowed List.nil_prefix, ?_⟩
  rintro result q rfl
  have proceeds := apply_proceeds reaches
  exact ⟨proceeds.tells.1, proceeds.tells.2, proceeds.fails⟩

/-- An end with two outputs; the second is jammed, and shutdown is latched while it is told to
stop. -/
def Turn.stoppedInLastOutput : Turn Bool where
  call := .directive .programEnd
  before := {}
  history :=
    let d := Directive.programEnd
    let output := "coolant"
    let fault := Fault.unavailable "jammed"
    let completed := (StepSet.motionQuiesced.insert .modalReset).insert .auxiliaryOff
    [⟨.readLatch, false, false, false⟩, ⟨.approachBarrier, (), false, false⟩,
      ⟨.awaitStandstill, (), false, false⟩, ⟨.readLatch, false, false, false⟩,
      ⟨.resetModal, .ok (), false, false⟩, ⟨.readLatch, false, false, false⟩,
      ⟨.shutOff "spindle", .ok (), false, false⟩, ⟨.readLatch, false, false, false⟩,
      ⟨.shutOff output, .error fault, false, true⟩,
      ⟨.report (.warn
        s!"{d.text}: auxiliary output '{output}' shutdown failed: {fault.message}"),
        (), true, true⟩,
      ⟨.readLatch, true, true, true⟩,
      ⟨.report (.warn s!"{d.text}: preempted by emergency stop after {completed.text}"),
        (), true, true⟩]
  result := .error (.preempted .programEnd
    ((StepSet.motionQuiesced.insert .modalReset).insert .auxiliaryOff))
  after := {}

/-- The end above has called all that it would have called, and says so. -/
theorem Program.apply_tells_lastOutput :
    let fitted : Equipment := { outputs := ⟨["spindle", "coolant"], by decide, by decide⟩ }
    let r := recordOf Turn.stoppedInLastOutput.history
    callsIn r = fitted.plan .programEnd ∧
      Tells fitted r ((StepSet.motionQuiesced.insert .modalReset).insert .auxiliaryOff) := by
  intro fitted r
  have reaches : (Program.apply fitted .programEnd {}).Reaches Turn.stoppedInLastOutput.history
      (.done (.error (.preempted .programEnd
        ((StepSet.motionQuiesced.insert .modalReset).insert .auxiliaryOff)), {})) :=
    .act (.act (.act (.act (.act (.act (.act (.act (.act (.act (.act (.act (.refl _))))))))))))
  obtain ⟨-, told⟩ := Program.apply_tells reaches
  exact ⟨rfl, ((told _ _ rfl).2.1 _ _ rfl).2⟩

end ProgramControl
