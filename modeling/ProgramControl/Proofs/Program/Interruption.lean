import ProgramControl.Proofs.Program.Preemption

/-!
# Directives that shutdown interrupts

A directive is in flight, and one of the collaborators it called is at work, when shutdown is
latched.  The program is not moved any more: the directive ends in a refusal, and both the program
and what is published of it stay as they were.

After each call but one the transition looks at the latch before it does anything else, and what
it sees ends it.  A modal reset or a pause that fails ends it at once, and then the refusal tells
of the failure and not of the latch.  The one call is a pause that succeeds: nothing is said about
it here.

* `vigil`, `Transition.stands_apply`   a transition that owes a look at the latch publishes nothing
                                       until it has looked;
* `bound_of_latched`                   while shutdown is latched the debt can only be paid by
                                       seeing the latch;
* `Call.unmoved_of_interrupted`        what a directive leaves behind that was interrupted.
-/

namespace ProgramControl

variable {σ : Type}

namespace Exchange

/-- The failure of a collaborator that ends a transition, with the name of the step. -/
def failure? : Exchange σ → Option (String × Fault)
  | ⟨.engagePause, .error fault, _, _⟩ => some ("pause", fault)
  | ⟨.resetModal, .error fault, _, _⟩ => some ("modal reset", fault)
  | _ => none

/-- The job is held from here on. -/
def engages : Exchange σ → Bool
  | ⟨.engagePause, .ok (), _, _⟩ => true
  | _ => false

def publishes (x : Exchange σ) : Bool :=
  match x.action with
  | .publish _ => true
  | _ => false

/-- The mirror shows what was published last. -/
def KeepsMirror (published : σ → RunState) (x : Exchange σ) : Prop :=
  match x.action with
  | .publish state => published x.after = state
  | _ => published x.after = published x.before

/-- Nobody else publishes. -/
def MirrorStays (published : σ → RunState) (s s' : σ) : Prop := published s' = published s

def Mirroring (published : σ → RunState) : σ → List (Exchange σ) → Prop :=
  Keeps (KeepsMirror published) (MirrorStays published)

theorem published_last {published : σ → RunState} {s : σ} {h : List (Exchange σ)}
    (keeps : Mirroring published s h) (silent : ∀ x ∈ h, x.publishes = false) :
    published (last s h) = published s := by
  induction h generalizing s with
  | nil => rfl
  | cons x h ih =>
    obtain ⟨others, law, rest⟩ := keeps
    have h1 : published (last s (x :: h)) = published x.after :=
      ih rest fun y mem => silent y (List.mem_cons_of_mem _ mem)
    have h2 : published x.after = published x.before := by
      have quiet := silent x List.mem_cons_self
      obtain ⟨action, answer, before, after⟩ := x
      cases action with
      | publish state => cases quiet
      | _ => exact law
    rw [h1, h2]
    exact others

end Exchange

/-! ## Looks that are owed -/

/-- How a transition stands to the latch. -/
inductive Standing where
  /-- the latch was not looked at yet -/
  | arriving
  /-- the latch was seen before anything was done -/
  | refused
  /-- nobody was called since the latch was found clear, but perhaps a pause that succeeded -/
  | clear
  /-- a call came back, and the latch was not looked at since -/
  | called
  /-- the latch was seen -/
  | seen
  /-- a failure ends the transition -/
  | failed (step : String) (fault : Fault)
  /-- the next run state is published -/
  | committed
  deriving DecidableEq

namespace Standing

/-- No run state is published from here on, unless a look finds the latch clear. -/
def isBound : Standing → Bool
  | .called | .seen | .failed .. => true
  | .arriving | .refused | .clear | .committed => false

def failure? : Standing → Option (String × Fault)
  | .failed step fault => some (step, fault)
  | _ => none

/-- A look finds the latch set. -/
def sees : Standing → Standing
  | .arriving => .refused
  | _ => .seen

end Standing

/-- A watch over the looks that a transition owes. -/
def vigil : Watch Standing where
  allows now action :=
    match action with
    | .readLatch => now = .arriving ∨ now = .clear ∨ now = .called
    | .approachBarrier | .engagePause | .resetModal | .shutOff _ | .publish _ => now = .clear
    | .awaitStandstill => now = .called
    | .submit .. => now = .committed
    | _ => True
  next now action answer :=
    match action, answer with
    | .readLatch, found => if found then now.sees else .clear
    | .approachBarrier, _ | .awaitStandstill, _ | .shutOff _, _ | .resetModal, .ok () => .called
    | .resetModal, .error fault => .failed "modal reset" fault
    | .engagePause, .error fault => .failed "pause" fault
    | .publish _, _ => .committed
    | _, _ => now

theorem vigil_reports (entry : Entry) : vigil.Ignores (.report entry) :=
  fun _ => ⟨trivial, fun _ => rfl⟩

/-- How a directive on the program `p` may end. -/
def Stands (d : Directive) (p : Program) :
    Standing → Except Refusal Outcome → Program → Prop
  | .refused, _, _ | .clear, _, _ | .committed, _, _ => True
  | .arriving, _, _ | .called, _, _ => False
  | .seen, r, q => q = p ∧ ∃ completed, r = .error (.preempted d completed)
  | .failed step fault, r, q => q = p ∧ r = .error (.stepFailed d step fault)

theorem stands_preempted (d : Directive) (p : Program) (completed : StepSet) :
    Stands d p .seen (.error (.preempted d completed)) p :=
  ⟨rfl, _, rfl⟩

namespace Transition

variable {fitted : Equipment} {p : Program} {d : Directive}

theorem stands_pause (message : String) :
    Obeys vigil .clear p (pause fitted d message) (Stands d p) := by
  simp only [pause, obeys_bind, obeys_ite, obeys_throw, then_ok, then_error,
    obeys_waitForStandstill, obeys_checkpoint vigil_reports, obeys_perform]
  refine ⟨fun _ => trivial, fun _ => ⟨fun _ => trivial, fun _ => ?_⟩⟩
  refine ⟨rfl, rfl, .inr (.inr rfl), stands_preempted .., rfl, ?_⟩
  rintro (fault | ⟨⟩)
  · exact ⟨rfl, rfl⟩
  · rw [obeys_bind, obeys_enter_publish vigil_reports]
    exact ⟨rfl, trivial⟩

theorem stands_resume : Obeys vigil .clear p (resume d) (Stands d p) := by
  simp only [resume, obeys_bind, obeys_get, obeys_ite, obeys_throw, then_ok,
    obeys_enter_publish vigil_reports, obeys_outcome]
  exact ⟨fun _ => trivial, fun _ => ⟨rfl, trivial⟩⟩

theorem stands_pauseIfEnabled :
    Obeys vigil .clear p (pauseIfEnabled fitted d) (Stands d p) := by
  simp only [pauseIfEnabled, obeys_bind, obeys_perform, then_ok, obeys_ite,
    obeys_report vigil_reports, obeys_outcome]
  exact ⟨trivial, fun _ => ⟨fun _ => stands_pause _, fun _ => trivial⟩⟩

theorem submits_committed (repeatRequested : Bool) {q : Program} :
    Obeys vigil .committed q (submitCompletion repeatRequested) fun now _ _ =>
      now = .committed := by
  simp only [submitCompletion, obeys_bind, obeys_get, then_ok, obeys_perform]
  refine ⟨rfl, ?_⟩
  rintro (fault | e) <;> rw [obeys_bind, obeys_report vigil_reports] <;> rfl

theorem stands_finish (repeatRequested : Bool) :
    Obeys vigil .clear p (finish fitted d repeatRequested) (Stands d p) := by
  simp only [finish, obeys_bind, obeys_ite, obeys_throw, then_ok, then_error,
    obeys_waitForStandstill, obeys_checkpoint vigil_reports, obeys_perform]
  refine ⟨fun _ => trivial, fun _ => ?_⟩
  refine ⟨rfl, rfl, .inr (.inr rfl), stands_preempted .., rfl, ?_⟩
  rintro (fault | ⟨⟩)
  · exact ⟨rfl, rfl⟩
  · simp only [obeys_bind]
    -- each output leaves a look owed to the next one, the last to the checkpoint
    refine (obeys_shutOffAll vigil_reports d _ (· = .called) (· = .seen) ?_ rfl).mono ?_
    · rintro n now rfl
      exact ⟨.inr (.inr rfl), rfl, rfl, fun _ => rfl⟩
    · rintro now r q ⟨rfl, ⟨rfl, rfl⟩ | ⟨rfl, rfl⟩⟩
      · simp only [then_ok, obeys_checkpoint vigil_reports, then_error, obeys_bind,
          obeys_enter_publish vigil_reports]
        refine ⟨.inr (.inr rfl), stands_preempted .., rfl,
          (submits_committed repeatRequested).mono ?_⟩
        rintro now (e | emitted) q rfl <;> trivial
      · exact stands_preempted ..

/-- A directive that owes a look when it ends has not committed itself. -/
theorem stands_apply : Obeys vigil .arriving p (apply fitted d) (Stands d p) := by
  simp only [apply, obeys_bind, obeys_refuseIfLatched, then_ok, then_error, obeys_get, obeys_ite,
    obeys_throw]
  refine ⟨.inl rfl, trivial, fun _ => trivial, fun _ => ⟨fun _ => trivial, fun _ => ?_⟩⟩
  cases d with
  | pauseUnconditional => exact stands_pause _
  | pauseOptional => exact stands_pauseIfEnabled
  | resumeObserved => exact stands_resume
  | programEnd => exact stands_finish _
  | programEndRepeat => exact stands_finish _
  | emergencyStop => trivial
  | setOptionalStop enabled => trivial

end Transition

/-! ## Histories -/

open Exchange

section

variable {latched : σ → Bool} {s : σ} {h : List (Exchange σ)} {x : Exchange σ} {now : Standing}

theorem vigil_next_committed (allowed : vigil.allows .committed x.action) :
    vigil.next .committed x.action x.answer = .committed := by
  obtain ⟨action, answer, before, after⟩ := x
  cases action with
  | readLatch => rcases allowed with arriving | clear | called <;> contradiction
  | approachBarrier => cases allowed
  | awaitStandstill => cases allowed
  | engagePause => cases allowed
  | resetModal => cases allowed
  | shutOff output => cases allowed
  | _ => rfl

theorem vigil_after_committed (allowed : vigil.Allows .committed h) :
    vigil.after .committed h = .committed := by
  induction h with
  | nil => rfl
  | cons x h ih =>
    obtain ⟨first, rest⟩ := allowed
    rw [vigil_next_committed first] at rest
    rw [Watch.after_cons, vigil_next_committed first]
    exact ih rest

/-- Who has not committed himself in the end has published nothing. -/
theorem not_publishes_of_after (allowed : vigil.Allows now h)
    (uncommitted : vigil.after now h ≠ .committed) : ∀ y ∈ h, y.publishes = false := by
  induction h generalizing now with
  | nil => nofun
  | cons x h ih =>
    obtain ⟨first, rest⟩ := allowed
    rw [Watch.after_cons] at uncommitted
    refine List.forall_mem_cons.2 ⟨?_, ih rest uncommitted⟩
    obtain ⟨action, answer, before, after⟩ := x
    cases action with
    | publish state => exact absurd (vigil_after_committed rest) uncommitted
    | _ => rfl

/-- While shutdown is latched, a transition that owes a look or has its end decided stays so. -/
theorem bound_of_latched (bound : now.isBound) (allowed : vigil.Allows now h)
    (keeps : Latching latched s h) (l : latched s) :
    (vigil.after now h).isBound ∧ (vigil.after now h).failure? = now.failure? := by
  induction h generalizing s now with
  | nil => exact ⟨bound, rfl⟩
  | cons x h ih =>
    obtain ⟨first, rest⟩ := allowed
    obtain ⟨others, law, later⟩ := keeps
    have l' : latched x.before := others l
    have step : (vigil.next now x.action x.answer).isBound ∧
        (vigil.next now x.action x.answer).failure? = now.failure? := by
      obtain ⟨action, answer, before, after⟩ := x
      cases action with
      | readLatch =>
        obtain rfl : answer = true := (law.2 answer rfl).1 l'
        rcases first with rfl | rfl | rfl
        · cases bound
        · cases bound
        · exact ⟨rfl, rfl⟩
      | awaitStandstill => cases first; exact ⟨rfl, rfl⟩
      | approachBarrier => cases first; cases bound
      | engagePause => cases first; cases bound
      | resetModal => cases first; cases bound
      | shutOff output => cases first; cases bound
      | publish state => cases first; cases bound
      | submit program completion => cases first; cases bound
      | _ => exact ⟨bound, rfl⟩
    obtain ⟨bound', same⟩ := ih step.1 rest later (law.1 l')
    exact ⟨bound', same.trans step.2⟩

/-- After a call that leaves the job free, a look is owed or the end is decided. -/
theorem bound_of_isCall (now : Standing) (call : x.action.isCall) (free : x.engages = false) :
    (vigil.next now x.action x.answer).isBound ∧
      (vigil.next now x.action x.answer).failure? = x.failure? := by
  obtain ⟨action, answer, before, after⟩ := x
  cases action with
  | engagePause =>
    cases answer with
    | error fault => exact ⟨rfl, rfl⟩
    | ok engaged => cases free
  | resetModal => cases answer <;> exact ⟨rfl, rfl⟩
  | approachBarrier => exact ⟨rfl, rfl⟩
  | awaitStandstill => exact ⟨rfl, rfl⟩
  | shutOff output => exact ⟨rfl, rfl⟩
  | _ => cases call

theorem Stands.unmoved {d : Directive} {p q : Program} {r : Except Refusal Outcome}
    (stands : Stands d p now r q) (bound : now.isBound) :
    q = p ∧ ∃ e, r = .error e ∧
      match now.failure? with
      | some (step, fault) => e = .stepFailed d step fault
      | none => ∃ completed, e = .preempted d completed := by
  cases now with
  | arriving | refused | clear | committed => cases bound
  | called => cases stands
  | seen =>
    obtain ⟨unmoved, completed, refused⟩ := stands
    exact ⟨unmoved, _, refused, completed, rfl⟩
  | failed step fault => exact ⟨stands.1, _, stands.2, rfl⟩

end

/-- A directive is bound to leave the program as it was once shutdown is latched while one of its
calls is on its way, unless this is a pause that succeeds.  It is preempted; but if the call itself
was a pause or a modal reset and failed, it tells of that failure. -/
theorem Call.unmoved_of_interrupted {latched : σ → Bool} {published : σ → RunState} {s : σ}
    {h : List (Exchange σ)} {x : Exchange σ} {d : Directive} {fitted : Equipment} {p q : Program}
    {result : Result} (served : ((Call.directive d).service fitted p).Reaches h (.done (result, q)))
    (keeps : Latching latched s h) (mirrors : Mirroring published s h) (mem : x ∈ h)
    (call : x.action.isCall) (l : latched x.after) (free : x.engages = false) :
    q = p ∧ published (last s h) = published s ∧ ∃ e, result = .error e ∧
      match x.failure? with
      | some (step, fault) => e = .stepFailed d step fault
      | none => e.requiresRestart ∧ ∃ completed, e = .preempted d completed := by
  have obeys : Course.Obeys vigil .arriving ((Call.directive d).service fitted p)
      fun now end_ => ∃ r, end_.1 = r.map .outcome ∧ Stands d p now r end_.2 := by
    refine (Course.obeys_bind ..).2 (Course.Obeys.mono Transition.stands_apply ?_)
    intro now end_ stands
    exact ⟨end_.1, rfl, stands⟩
  obtain ⟨allowed, r, rfl, stands⟩ := obeys.reaches served
  obtain ⟨before, later, split⟩ := List.append_of_mem mem
  have ends : (vigil.after .arriving h).isBound ∧
      (vigil.after .arriving h).failure? = x.failure? := by
    rw [split] at allowed keeps ⊢
    obtain ⟨-, -, rest⟩ := (vigil.allows_append ..).1 allowed
    obtain ⟨-, -, -, kept⟩ := keeps_append.1 keeps
    have owed := bound_of_isCall (vigil.after .arriving before) call free
    obtain ⟨bound, same⟩ := bound_of_latched owed.1 rest kept l
    rw [Watch.after, List.foldl_append, List.foldl_cons]
    exact ⟨bound, same.trans owed.2⟩
  obtain ⟨unmoved, e, refused, tells⟩ := stands.unmoved ends.1
  have silent : ∀ y ∈ h, y.publishes = false := by
    refine not_publishes_of_after allowed fun committed => ?_
    rw [committed] at ends
    cases ends.1
  refine ⟨unmoved, published_last mirrors silent, e, ?_, ?_⟩
  · rw [refused]
    rfl
  · rw [ends.2] at tells
    cases failed : x.failure? with
    | none =>
      rw [failed] at tells
      obtain ⟨completed, rfl⟩ := tells
      exact ⟨rfl, completed, rfl⟩
    | some failure =>
      rw [failed] at tells
      exact tells

/-- An end with two outputs; the first is jammed, and shutdown is latched while it is told to
stop. -/
def Turn.stoppedInOutput : Turn Board where
  call := .directive .programEnd
  before := {}
  history :=
    let d := Directive.programEnd
    let output := "spindle"
    let fault := Fault.unavailable "jammed"
    let completed := StepSet.motionQuiesced.insert .modalReset
    let free : Board := {}
    let latched := free.trip.2
    [⟨.readLatch, false, free, free⟩, ⟨.approachBarrier, (), free, free⟩,
      ⟨.awaitStandstill, (), free, free⟩, ⟨.readLatch, false, free, free⟩,
      ⟨.resetModal, .ok (), free, free⟩, ⟨.readLatch, false, free, free⟩,
      ⟨.shutOff output, .error fault, free, latched⟩,
      ⟨.report (.warn
        s!"{d.text}: auxiliary output '{output}' shutdown failed: {fault.message}"),
        (), latched, latched⟩,
      ⟨.readLatch, true, latched, latched⟩,
      ⟨.report (.warn s!"{d.text}: preempted by emergency stop after {completed.text}"),
        (), latched, latched⟩]
  result := .error (.preempted .programEnd (StepSet.motionQuiesced.insert .modalReset))
  after := {}

theorem unmoved_stoppedInOutput :
    Turn.stoppedInOutput.after = Turn.stoppedInOutput.before ∧
      (last {} Turn.stoppedInOutput.history).published = RunState.running ∧
      ∃ e, Turn.stoppedInOutput.result = .error e ∧ e.requiresRestart ∧
        ∃ completed, e = .preempted .programEnd completed := by
  have served : ((Call.directive .programEnd).service
      { outputs := ⟨["spindle", "coolant"], by decide, by decide⟩ } {}).Reaches
      Turn.stoppedInOutput.history (.done (Turn.stoppedInOutput.result, {})) :=
    .act (.act (.act (.act (.act (.act (.act (.act (.act (.act (.refl _))))))))))
  have keeps : Latching Board.isLatched {} Turn.stoppedInOutput.history := by
    simp [Latching, Keeps, Turn.stoppedInOutput, LatchStays, KeepsLatch, found?, Board.isLatched,
      Latch.isLatched, Board.trip]
  have mirrors : Mirroring Board.published {} Turn.stoppedInOutput.history := by
    simp [Mirroring, Keeps, Turn.stoppedInOutput, MirrorStays, KeepsMirror, Board.trip]
  exact Call.unmoved_of_interrupted served keeps mirrors
    (x := ⟨.shutOff "spindle", .error (.unavailable "jammed"), {}, (Board.trip {}).2⟩)
    (by simp [Turn.stoppedInOutput]) rfl rfl rfl

/-- An end whose modal reset fails; while it tries, shutdown is latched. -/
def Turn.stoppedInReset : Turn Board where
  call := .directive .programEnd
  before := {}
  history :=
    let free : Board := {}
    [⟨.readLatch, false, free, free⟩, ⟨.approachBarrier, (), free, free⟩,
      ⟨.awaitStandstill, (), free, free⟩, ⟨.readLatch, false, free, free⟩,
      ⟨.resetModal, .error (.failed "locked"), free, free.trip.2⟩]
  result := .error (.stepFailed .programEnd "modal reset" (.failed "locked"))
  after := {}

/-- The failure of a modal reset is what the submitter is told, even if shutdown was latched
meanwhile: the refusal does not ask for a restart. -/
theorem failing_reset_hides_the_latch :
    let t := Turn.stoppedInReset
    (t.call.service {} t.before).Reaches t.history (.done (t.result, t.after)) ∧
      Latching Board.isLatched {} t.history ∧ Mirroring Board.published {} t.history ∧
      (∃ x ∈ t.history, x.action.isCall ∧ ¬ x.before.isLatched ∧ x.after.isLatched) ∧
      ¬ ∃ e, t.result = .error e ∧ e.requiresRestart := by
  refine ⟨.act (.act (.act (.act (.act (.refl _))))), ?_, ?_, ?_, ?_⟩
  · simp [Latching, Keeps, Turn.stoppedInReset, LatchStays, KeepsLatch, found?, Board.isLatched,
      Latch.isLatched]
  · simp [Mirroring, Keeps, Turn.stoppedInReset, MirrorStays, KeepsMirror, Board.trip]
  · exact ⟨⟨.resetModal, .error (.failed "locked"), {}, (Board.trip {}).2⟩,
      by simp [Turn.stoppedInReset], rfl, by decide, rfl⟩
  · rintro ⟨e, refused, restart⟩
    cases refused
    cases restart

end ProgramControl
