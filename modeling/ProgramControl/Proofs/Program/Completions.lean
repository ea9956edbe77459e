import ProgramControl.Completion.Queue
import ProgramControl.Proofs.Program.Watch

/-!
# Completions of a run

A program is the only one to submit to its completion queue.  Then every end of a program submits
one completion and nothing else does, so two numbers that are kept apart agree: the number of the
program in hand, and the sequence number given out by the queue.

* `Notice`, `notices`        what was submitted, and what came back;
* `Account`                  what one call may do to the program and about completions;
* `Call.obeys_notebook`      every call does one of these;
* `submissions_eq`           the queue numbers what is submitted in order;
* `Program.Runs.completions` submissions, ends of programs and program numbers of a run agree.
-/

namespace ProgramControl

variable {σ : Type}

/-- A completion that was submitted, for which program, and the answer. -/
structure Notice where
  program : Nat
  completion : Completion
  answer : Except QueueFault Envelope

namespace Exchange

def notice? : Exchange σ → Option Notice
  | ⟨.submit program completion, answer, _, _⟩ => some ⟨program, completion, answer⟩
  | _ => none

/-- The envelope of a submission, with the answer to it. -/
def submission? (queue : σ → Queue) (x : Exchange σ) :
    Option (Envelope × Except QueueFault Envelope) :=
  x.notice?.map fun n => ((queue x.before).nextEnvelope n.program n.completion, n.answer)

end Exchange

def notices (h : List (Exchange σ)) : List Notice := h.filterMap Exchange.notice?

def submissions (queue : σ → Queue) (h : List (Exchange σ)) :
    List (Envelope × Except QueueFault Envelope) := h.filterMap (Exchange.submission? queue)

theorem RunState.isTerminal_iff {s : RunState} : s.isTerminal ↔ s = .ended := by
  cases s <;> decide

theorem notices_append (h k : List (Exchange σ)) : notices (h ++ k) = notices h ++ notices k :=
  List.filterMap_append

/-! ## Calls -/

/-- A watch that writes down what is submitted. -/
def notebook : Watch (List Notice) where
  allows _ _ := True
  next written action answer :=
    match action, answer with
    | .submit program completion, answer => written ++ [⟨program, completion, answer⟩]
    | _, _ => written

theorem quiet_notebook : notebook.IsQuiet where
  report _ _ := ⟨trivial, fun _ => rfl⟩
  publish _ _ := ⟨trivial, fun _ => rfl⟩

theorem notebook_after (written : List Notice) (h : List (Exchange σ)) :
    notebook.after written h = written ++ notices h := by
  induction h generalizing written with
  | nil => exact (List.append_nil written).symm
  | cons x h ih =>
    rw [Watch.after_cons, ih]
    obtain ⟨action, answer, -, -⟩ := x
    cases action <;> first | rfl | exact List.append_assoc ..

namespace Program

/-- The program in hand has not ended. -/
def inHand (p : Program) : Nat := if p.state = .ended then 0 else 1

end Program

/-- The completion asks for the job to be repeated. -/
def Call.wantsRepeat : Call → Bool
  | .directive .programEndRepeat => true
  | _ => false

/-- The outcome says that a completion is on its way. -/
def Result.emitted : Result → Bool
  | .ok (.outcome o) => o.steps.contains .completionEmitted
  | _ => false

/-- What a call on the program `p` may do to it and about completions. -/
inductive Account (call : Call) (p : Program) : List Notice → Result → Program → Prop where
  /-- the program goes on, or stays ended -/
  | same {result : Result} {q : Program} (number : q.number = p.number)
      (ended : q.state = .ended ↔ p.state = .ended) (unsaid : result.emitted = false) :
      Account call p [] result q
  | began {result : Result} (ended : p.state = .ended) (unsaid : result.emitted = false) :
      Account call p [] result ⟨.running, p.number + 1⟩
  /-- the program ends, and its completion is submitted -/
  | ended {answer : Except QueueFault Envelope} {o : Outcome} (active : p.state ≠ .ended)
      (said : o.steps.contains .completionEmitted ↔ ∃ e, answer = .ok e) :
      Account call p [⟨p.number, ⟨call.wantsRepeat⟩, answer⟩] (.ok (.outcome o)) ⟨.ended, p.number⟩

namespace Transition

variable {fitted : Equipment} {p : Program} {written : List Notice} {d : Directive}

/-- What a directive adds to the notebook accounts for its result. -/
def Accounted (written : List Notice) (d : Directive) (p : Program) (g : List Notice)
    (r : Except Refusal Outcome) (q : Program) : Prop :=
  ∃ ns, g = written ++ ns ∧ Account (.directive d) p ns (r.map .outcome) q

theorem accounted_refused (e : Refusal) : Accounted written d p written (.error e) p :=
  ⟨[], (List.append_nil written).symm, .same rfl Iff.rfl rfl⟩

theorem accounted_moved {steps : StepSet} {state shown : RunState} {message : String}
    (active : p.state ≠ .ended) (goes : state ≠ .ended)
    (unsaid : steps.contains .completionEmitted = false) :
    Accounted written d p written (.ok ⟨d, shown, steps, message⟩) { p with state } :=
  ⟨[], (List.append_nil written).symm,
    .same rfl ⟨fun e => absurd e goes, fun e => absurd e active⟩ unsaid⟩

theorem notes_pause (active : p.state ≠ .ended) (message : String) :
    Obeys notebook written p (pause fitted d message) (Accounted written d p) := by
  simp only [pause, obeys_bind, obeys_ite, obeys_throw, then_ok, then_error,
    obeys_waitForStandstill, obeys_checkpoint quiet_notebook.report, obeys_perform]
  refine ⟨fun _ => accounted_refused _, fun _ => ⟨fun _ => accounted_refused _, fun _ => ?_⟩⟩
  refine ⟨trivial, trivial, trivial, accounted_refused _, trivial, ?_⟩
  rintro (fault | ⟨⟩)
  · exact accounted_refused _
  · rw [obeys_bind, obeys_enter quiet_notebook]
    exact accounted_moved active (by decide) (by decide)

theorem notes_resume (active : p.state ≠ .ended) :
    Obeys notebook written p (resume d) (Accounted written d p) := by
  simp only [resume, obeys_bind, obeys_get, obeys_ite, obeys_throw, then_ok,
    obeys_enter quiet_notebook, obeys_outcome]
  exact ⟨fun _ => accounted_refused _, fun _ => accounted_moved active (by decide) (by decide)⟩

theorem notes_pauseIfEnabled (active : p.state ≠ .ended) :
    Obeys notebook written p (pauseIfEnabled fitted d) (Accounted written d p) := by
  simp only [pauseIfEnabled, obeys_bind, obeys_perform, then_ok, obeys_ite,
    obeys_report quiet_notebook.report, obeys_outcome]
  exact ⟨trivial, fun _ => ⟨fun _ => notes_pause active _,
    fun _ => accounted_moved active active (by decide)⟩⟩

theorem notes_submitCompletion (repeatRequested : Bool) :
    Obeys notebook written p (submitCompletion repeatRequested) fun g r q =>
      q = p ∧ ∃ answer, g = written ++ [⟨p.number, ⟨repeatRequested⟩, answer⟩] ∧
        ∃ emitted, r = .ok emitted ∧ (emitted ↔ ∃ e, answer = .ok e) := by
  simp only [submitCompletion, obeys_bind, obeys_get, then_ok, obeys_perform]
  refine ⟨trivial, ?_⟩
  rintro (fault | e) <;> rw [obeys_bind, obeys_report quiet_notebook.report]
  · refine ⟨rfl, _, rfl, false, rfl, fun said => absurd said Bool.false_ne_true, ?_⟩
    rintro ⟨e, accepted⟩
    cases accepted
  · exact ⟨rfl, _, rfl, true, rfl, fun _ => ⟨e, rfl⟩, fun _ => rfl⟩

theorem emitted_iff (emitted : Bool) :
    let steps := (StepSet.motionQuiesced.insert .modalReset).insert .auxiliaryOff
    (if emitted then steps.insert .completionEmitted else steps).contains .completionEmitted ↔
      emitted := by
  revert emitted
  decide

theorem notes_finish (active : p.state ≠ .ended) (repeatRequested : Bool)
    (wants : (Call.directive d).wantsRepeat = repeatRequested) :
    Obeys notebook written p (finish fitted d repeatRequested) (Accounted written d p) := by
  simp only [finish, obeys_bind, obeys_ite, obeys_throw, then_ok, then_error,
    obeys_waitForStandstill, obeys_checkpoint quiet_notebook.report, obeys_perform]
  refine ⟨fun _ => accounted_refused _, fun _ => ?_⟩
  refine ⟨trivial, trivial, trivial, accounted_refused _, trivial, ?_⟩
  rintro (fault | ⟨⟩)
  · exact accounted_refused _
  · simp only [obeys_bind]
    refine (obeys_shutOffAll quiet_notebook.report d _ (· = written) (· = written) ?_ rfl).mono ?_
    · rintro n g rfl
      exact ⟨trivial, rfl, trivial, fun _ => rfl⟩
    · rintro g r q ⟨rfl, ⟨rfl, rfl⟩ | ⟨rfl, rfl⟩⟩
      · simp only [then_ok, obeys_checkpoint quiet_notebook.report, then_error, obeys_bind,
          obeys_enter quiet_notebook]
        refine ⟨trivial, accounted_refused _, (notes_submitCompletion repeatRequested).mono ?_⟩
        rintro g r q ⟨rfl, answer, rfl, emitted, rfl, said⟩
        refine ⟨_, rfl, ?_⟩
        rw [← wants]
        refine .ended active ?_
        exact (emitted_iff emitted).trans said
      · exact accounted_refused _

theorem notes_apply :
    Obeys notebook written p (apply fitted d) (Accounted written d p) := by
  simp only [apply, obeys_bind, obeys_refuseIfLatched, then_ok, then_error, obeys_get, obeys_ite,
    obeys_throw]
  refine ⟨trivial, accounted_refused _, fun _ => accounted_refused _, fun _ => ?_⟩
  refine ⟨fun _ => accounted_refused _, fun active => ?_⟩
  have active : p.state ≠ .ended := fun ended => active (RunState.isTerminal_iff.2 ended)
  cases d with
  | pauseUnconditional => exact notes_pause active _
  | pauseOptional => exact notes_pauseIfEnabled active
  | resumeObserved => exact notes_resume active
  | programEnd => exact notes_finish active _ rfl
  | programEndRepeat => exact notes_finish active _ rfl
  | emergencyStop => exact accounted_refused _
  | setOptionalStop enabled => exact accounted_refused _

theorem notes_beginProgram :
    Obeys notebook written p beginProgram fun g r q =>
      ∃ ns, g = written ++ ns ∧ Account .beginProgram p ns (r.map .program) q := by
  simp only [beginProgram, obeys_bind, obeys_refuseIfLatched, then_ok, then_error, obeys_get,
    obeys_ite, obeys_throw, obeys_set, obeys_enter quiet_notebook,
    obeys_report quiet_notebook.report, obeys_pure]
  have nothing := (List.append_nil written).symm
  refine ⟨trivial, ⟨[], nothing, .same rfl Iff.rfl rfl⟩,
    fun _ => ⟨[], nothing, .same rfl Iff.rfl rfl⟩, fun ended => ?_⟩
  exact ⟨[], nothing, .began (RunState.isTerminal_iff.1 (Decidable.not_not.1 ended)) rfl⟩

end Transition

theorem Call.obeys_notebook (call : Call) (fitted : Equipment) (p : Program)
    (written : List Notice) :
    Course.Obeys notebook written (call.service fitted p) fun g end_ =>
      ∃ ns, g = written ++ ns ∧ Account call p ns end_.1 end_.2 := by
  cases call with
  | directive d => exact (Course.obeys_bind ..).2 Transition.notes_apply
  | beginProgram => exact (Course.obeys_bind ..).2 Transition.notes_beginProgram

/-- A call that was served accounts for what it submitted. -/
theorem Call.account_of_reaches {call : Call} {fitted : Equipment} {p q : Program} {result : Result}
    {h : List (Exchange σ)} (served : (call.service fitted p).Reaches h (.done (result, q))) :
    Account call p (notices h) result q := by
  obtain ⟨ns, same, account⟩ := ((call.obeys_notebook fitted p []).reaches served).2
  rw [notebook_after] at same
  exact List.append_cancel_left same ▸ account

/-! ## Sequence numbers -/

namespace Queue

variable (q : Queue) (program : Nat) (completion : Completion)

theorem issued_notify : (q.notify program completion).2.issued = q.issued + 1 := by
  unfold notify offer hold
  grind

theorem answer_notify : (q.notify program completion).1 = .ok (q.nextEnvelope program completion) ∨
    (q.notify program completion).1 = .error .closed := by
  unfold notify offer
  grind

end Queue

namespace Exchange

/-- Only a submission gives out a sequence number.  It finds the queue as it was at some moment of
the exchange; the other end of the queue may be active all the time, or gone. -/
def KeepsIssued (queue : σ → Queue) (x : Exchange σ) : Prop :=
  match x.notice? with
  | some n => ∃ q : Queue, q.issued = (queue x.before).issued ∧
      n.answer = (q.notify n.program n.completion).1 ∧
      (queue x.after).issued = (q.notify n.program n.completion).2.issued
  | none => (queue x.after).issued = (queue x.before).issued

/-- Nobody else submits. -/
def IssuedStays (queue : σ → Queue) (s s' : σ) : Prop := (queue s').issued = (queue s).issued

/-- During a history all sequence numbers are given out to this thread. -/
def SoleUser (queue : σ → Queue) : σ → List (Exchange σ) → Prop :=
  Keeps (KeepsIssued queue) (IssuedStays queue)

end Exchange

open Exchange

section

variable {queue : σ → Queue} {s : σ} {h : List (Exchange σ)}

/-- What is submitted is numbered in order, and an accepted submission comes back with its
envelope. -/
theorem submissions_eq (keeps : SoleUser queue s h) :
    submissions queue h = (notices h).mapIdx (fun k n =>
        (⟨(queue s).issued + (k + 1), n.program, n.completion⟩, n.answer)) ∧
      (queue (last s h)).issued = (queue s).issued + (notices h).length ∧
      ∀ e answer, (e, answer) ∈ submissions queue h → answer = .ok e ∨ answer = .error .closed := by
  induction h generalizing s with
  | nil => exact ⟨rfl, rfl, fun e answer mem => absurd mem List.not_mem_nil⟩
  | cons x h ih =>
    obtain ⟨others, law, rest⟩ := keeps
    obtain ⟨numbers, issued, answers⟩ := ih rest
    unfold IssuedStays at others
    unfold KeepsIssued at law
    cases notice : x.notice? with
    | none =>
      have nothing : x.submission? queue = none := by rw [submission?, notice]; rfl
      simp only [notice] at law
      rw [law, others] at numbers issued
      rw [submissions, List.filterMap_cons_none nothing, notices, List.filterMap_cons_none notice]
      exact ⟨numbers, issued, answers⟩
    | some n =>
      have first : x.submission? queue =
          some ((queue x.before).nextEnvelope n.program n.completion, n.answer) := by
        rw [submission?, notice]; rfl
      simp only [notice] at law
      obtain ⟨q, same, answer, after⟩ := law
      rw [Queue.issued_notify, same, others] at after
      rw [after] at numbers issued
      rw [submissions, List.filterMap_cons_some first, notices, List.filterMap_cons_some notice]
      refine ⟨?_, ?_, ?_⟩
      · rw [List.mapIdx_cons]
        refine congr (congrArg List.cons ?_) ?_
        · rw [Queue.nextEnvelope, others]
        · refine numbers.trans (congrArg (List.mapIdx · _) ?_)
          funext k m
          rw [Nat.add_assoc, Nat.add_comm 1]
      · rw [last, issued, List.length_cons, notices]
        omega
      · intro e answer' mem
        rcases List.mem_cons.1 mem with same' | mem
        · cases same'
          rw [answer, Queue.nextEnvelope, ← same]
          exact q.answer_notify n.program n.completion
        · exact answers e answer' mem

end

/-! ## Runs -/

/-- The call ended the program. -/
def Turn.endsProgram (t : Turn σ) : Bool := t.before.state ≠ .ended ∧ t.after.state = .ended

namespace Account

variable {call : Call} {p q : Program} {ns : List Notice} {result : Result}

theorem of_ends (account : Account call p ns result q)
    (ends : p.state ≠ .ended ∧ q.state = .ended) :
    q.number = p.number ∧ ∃ answer o, ns = [⟨p.number, ⟨call.wantsRepeat⟩, answer⟩] ∧
      result = .ok (.outcome o) ∧
      (o.steps.contains .completionEmitted ↔ ∃ e, answer = .ok e) := by
  cases account with
  | same number ended => exact absurd (ended.1 ends.2) ends.1
  | began => cases ends.2
  | ended active said => exact ⟨rfl, _, _, rfl, rfl, said⟩

theorem of_not_ends (account : Account call p ns result q)
    (stays : ¬ (p.state ≠ .ended ∧ q.state = .ended)) :
    ns = [] ∧ result.emitted = false ∧ q.number + p.inHand = p.number + q.inHand := by
  cases account with
  | same number ended unsaid =>
    refine ⟨rfl, unsaid, ?_⟩
    simp only [number, Program.inHand, ended]
  | began ended unsaid =>
    refine ⟨rfl, unsaid, ?_⟩
    rw [Program.inHand, if_pos ended]
    rfl
  | ended active => exact absurd ⟨active, rfl⟩ stays

end Account

/-- A call that ends the program submits one completion and says whether it was accepted; any other
call submits none and does not say so. -/
def Turn.Reports (queue : σ → Queue) (t : Turn σ) : Prop :=
  if t.endsProgram then
    ∃ e answer o, submissions queue t.history = [(e, answer)] ∧ t.result = .ok (.outcome o) ∧
      (answer = .ok e ∨ answer = .error .closed) ∧
      (o.steps.contains .completionEmitted ↔ answer = .ok e)
  else submissions queue t.history = [] ∧ t.result.emitted = false

namespace Program.Runs

variable {fitted : Equipment} {p q : Program} {turns : List (Turn σ)} {queue : σ → Queue} {s : σ}

/-- Notices, ends of programs and program numbers of a run that starts after `k` ends. -/
theorem notices_eq (run : Runs fitted p turns q) {k : Nat} (start : p.number = k + p.inHand) :
    (notices (exchanges turns)).map (fun n => (n.program, n.completion)) =
        (turns.filter (·.endsProgram)).mapIdx (fun i t => (k + (i + 1), ⟨t.call.wantsRepeat⟩)) ∧
      q.number = k + (notices (exchanges turns)).length + q.inHand := by
  induction run generalizing k with
  | nil => exact ⟨rfl, start⟩
  | @cons call p p' q h result turns served rest ih =>
    have account := Call.account_of_reaches served
    rw [exchanges_cons, notices_append, List.filter_cons]
    by_cases ends : (⟨call, p, h, result, p'⟩ : Turn σ).endsProgram
    · obtain ⟨active, ended⟩ := of_decide_eq_true ends
      obtain ⟨same, answer, o, one, -, -⟩ := account.of_ends ⟨active, ended⟩
      rw [inHand, if_neg active] at start
      obtain ⟨numbers, number⟩ := ih (k := k + 1) (by rw [same, start, inHand, if_pos ended])
      rw [if_pos ends, one, List.mapIdx_cons, List.singleton_append, List.map_cons, numbers, number,
        start, List.length_cons]
      refine ⟨congrArg (List.cons _) (congrArg (List.mapIdx · _) ?_), by omega⟩
      funext i t
      rw [Nat.add_right_comm, Nat.add_assoc]
    · obtain ⟨nothing, -, number⟩ := account.of_not_ends fun h => ends (decide_eq_true h)
      rw [if_neg ends, nothing, List.nil_append]
      exact ih (by omega)

theorem reports (run : Runs fitted p turns q) (keeps : SoleUser queue s (exchanges turns)) :
    ∀ t ∈ turns, t.Reports queue := by
  induction run generalizing s with
  | nil => exact fun t mem => absurd mem List.not_mem_nil
  | @cons call p p' q h result turns served rest ih =>
    rw [exchanges_cons] at keeps
    obtain ⟨now, later⟩ := keeps_append.1 keeps
    refine List.forall_mem_cons.2 ⟨?_, ih later⟩
    obtain ⟨numbers, -, answers⟩ := submissions_eq now
    have account := Call.account_of_reaches served
    unfold Turn.Reports
    split
    · rename_i ends
      obtain ⟨-, answer, o, one, told, said⟩ := account.of_ends (of_decide_eq_true ends)
      rw [one] at numbers
      have accepted := answers _ answer (by rw [numbers]; exact List.mem_singleton.2 rfl)
      refine ⟨_, answer, o, numbers, told, accepted, said.trans ⟨?_, fun ok => ⟨_, ok⟩⟩⟩
      rintro ⟨e, rfl⟩
      exact accepted.resolve_right nofun
    · rename_i stays
      obtain ⟨nothing, unsaid, -⟩ := account.of_not_ends fun h => stays (decide_eq_true h)
      rw [nothing] at numbers
      exact ⟨numbers, unsaid⟩

/-- On a machine that is the only user of its queue, every call that ends the program submits one
completion, in the order of the programs and with the next sequence number, and nothing else is
submitted.  The program number counts the submissions, plus one while a program is in hand. -/
theorem completions (run : Runs fitted {} turns p) (keeps : SoleUser queue s (exchanges turns)) :
    (submissions queue (exchanges turns)).map Prod.fst =
        (turns.filter (·.endsProgram)).mapIdx (fun k t =>
          ⟨(queue s).issued + (k + 1), k + 1, ⟨t.call.wantsRepeat⟩⟩) ∧
      (∀ t ∈ turns, t.Reports queue) ∧
      p.number = (submissions queue (exchanges turns)).length +
        if p.state = .ended then 0 else 1 := by
  obtain ⟨numbers, number⟩ := run.notices_eq (k := 0) rfl
  obtain ⟨numbered, -, -⟩ := submissions_eq keeps
  refine ⟨?_, run.reports keeps, ?_⟩
  · rw [numbered]
    refine List.ext_getElem? fun i => ?_
    have same := congrArg (fun l => (l[i]?).map fun n : Nat × Completion =>
      (⟨(queue s).issued + (i + 1), n.1, n.2⟩ : Envelope)) numbers
    simp only [List.getElem?_map, List.getElem?_mapIdx, Option.map_map] at same ⊢
    refine same.trans (congrArg (Option.map · _) (funext fun t => ?_))
    simp only [Function.comp, Nat.zero_add]
  · rw [number, numbered, List.length_mapIdx, Nat.zero_add]
    rfl

end Program.Runs

/-- The first program ends, on a bare machine. -/
def Turn.firstEnd : Turn Queue where
  call := .directive .programEnd
  before := {}
  history :=
    let q : Queue := { depth := 1 }
    let q' := (q.notify 1 ⟨false⟩).2
    [⟨.readLatch, false, q, q⟩, ⟨.approachBarrier, (), q, q⟩, ⟨.awaitStandstill, (), q, q⟩,
      ⟨.readLatch, false, q, q⟩, ⟨.resetModal, .ok (), q, q⟩, ⟨.readLatch, false, q, q⟩,
      ⟨.report (.info s!"program {1}: {RunState.running.name} → {RunState.ended.name}"), (), q, q⟩,
      ⟨.publish .ended, (), q, q⟩, ⟨.submit 1 ⟨false⟩, .ok ⟨1, 1, ⟨false⟩⟩, q, q'⟩,
      ⟨.report (.info s!"program {1} ended (repeat={false}), completion #{1}"), (), q', q'⟩]
  result := .ok (.outcome ⟨.programEnd, .ended, StepSet.all.diff .pauseEngaged,
    s!"{Directive.programEnd.text}: program end - ready for new program"⟩)
  after := ⟨.ended, 1⟩

theorem completions_firstEnd :
    (submissions id Turn.firstEnd.history).map Prod.fst = [⟨1, 1, ⟨false⟩⟩] ∧
    Turn.firstEnd.Reports id := by
  have run : Program.Runs {} {} [Turn.firstEnd] ⟨.ended, 1⟩ := by
    refine .cons ?_ (.nil _)
    exact .act (.act (.act (.act (.act (.act (.act (.act (.act (.act (.refl _))))))))))
  have keeps : SoleUser id { depth := 1 } (Program.exchanges [Turn.firstEnd]) := by
    refine ⟨rfl, rfl, rfl, rfl, rfl, rfl, rfl, rfl, rfl, rfl, rfl, rfl, rfl, rfl, rfl, rfl, ?_⟩
    exact ⟨rfl, ⟨{ depth := 1 }, rfl, rfl, rfl⟩, rfl, rfl, trivial⟩
  obtain ⟨numbers, reports, -⟩ := run.completions keeps
  exact ⟨numbers, reports _ (List.mem_singleton.2 rfl)⟩

end ProgramControl
