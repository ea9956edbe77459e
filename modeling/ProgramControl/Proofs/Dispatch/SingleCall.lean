import ProgramControl.Proofs.Dispatch.Stop

/-!
# One call from its begin to its result

A caller goes through a call in a fixed order.  An emergency stop trips the latch and halts motion
on the caller's own thread.  Any other call looks at the latch first, and is refused if it finds the
latch set.  If the latch is clear, the optional stop is switched on the caller's own thread, and
everything else enters the channel and has for its result what the worker replies.

* `CallScript`       all that is shown of one call, with its result;
* `InCall`           where a caller stands in a call, with what was shown of it so far;
* `InCall.step`      a step of the call goes on in the script;
* `InCall.frame`     no other step touches it;
* `Passage.plays_call`   so as far as a passage shows a call, it shows its script;
* `InCall.moves`     somebody can go on with it, unless the plant makes the caller wait.
-/

namespace ProgramControl

variable {σ : Type}

/-- The worker has to do it. -/
def Call.IsForWorker (call : Call) : Prop :=
  call ≠ .directive .emergencyStop ∧ ∀ on, call ≠ .directive (.setOptionalStop on)

/-- All that is shown of a call of the caller `i`, up to its result. -/
inductive CallScript (i : Nat) : Call → List (Occurrence σ) → Result → Prop where
  /-- an emergency stop always has an outcome -/
  | stop {first : Bool} {state : RunState} {p₁ p₂ p₃ p₄ p₅ p₆ : σ} {result : Result}
      (outcome : result = .ok (.outcome ⟨.emergencyStop, state, .empty,
        Directive.emergencyStop.text ++ ": motion halted - restart required"⟩)) :
      CallScript i (.directive .emergencyStop)
        [.begins i (.directive .emergencyStop), .onCaller i ⟨.tripLatch, first, p₁, p₂⟩,
          .onCaller i ⟨.haltMotion, (), p₃, p₄⟩, .onCaller i ⟨.readPublished, state, p₅, p₆⟩,
          .settles i (.directive .emergencyStop) result] result
  /-- the call finds the latch set -/
  | refused {call : Call} {p₁ p₂ : σ} (other : call ≠ .directive .emergencyStop) :
      CallScript i call [.begins i call, .onCaller i ⟨.readLatch, true, p₁, p₂⟩,
        .settles i call (.error .alreadyShutdown)] (.error .alreadyShutdown)
  /-- the latch is clear, and the call does not concern the worker -/
  | switched {on previous : Bool} {state : RunState} {p₁ p₂ p₃ p₄ p₅ p₆ : σ} {result : Result}
      (outcome : result = .ok (.outcome ⟨.setOptionalStop on, state, .empty,
        "SET_OPTIONAL_STOP: optional stop " ++ if on then "enabled" else "disabled"⟩)) :
      CallScript i (.directive (.setOptionalStop on))
        [.begins i (.directive (.setOptionalStop on)), .onCaller i ⟨.readLatch, false, p₁, p₂⟩,
          .onCaller i ⟨.setOptionalStop on, previous, p₃, p₄⟩,
          .onCaller i ⟨.readPublished, state, p₅, p₆⟩,
          .settles i (.directive (.setOptionalStop on)) result] result
  /-- the latch is clear, the call enters the channel, and what the worker replies to it is its
  result -/
  | served {call : Call} {p₁ p₂ : σ} {result : Result} {p : Program}
      (forWorker : call.IsForWorker) :
      CallScript i call [.begins i call, .onCaller i ⟨.readLatch, false, p₁, p₂⟩, .defers i call,
        .enters ⟨i, call⟩, .replies ⟨i, call⟩ result p] result

/-- What is shown of the calls of one caller, on whichever thread. -/
def callsOf (i : Nat) (h : List (Occurrence σ)) : List (Occurrence σ) :=
  h.filter (·.caller? = some i)

theorem callsOf_concat (i : Nat) (h : List (Occurrence σ)) (o : Occurrence σ) :
    callsOf i (h ++ [o]) = callsOf i h ++ if o.caller? = some i then [o] else [] := by
  rw [callsOf, List.filter_append, List.filter_cons]
  by_cases own : o.caller? = some i
  · rw [if_pos own, if_pos (decide_eq_true own)]
    rfl
  · rw [if_neg own, if_neg fun same => own (of_decide_eq_true same)]
    rfl

namespace Call

/-- Every call but the emergency stop looks at the latch first. -/
theorem submission_looks {call : Call} (other : call ≠ .directive .emergencyStop) :
    ∃ next, call.submission = .act .readLatch next ∧
      next true = .done (.settled (.error .alreadyShutdown)) ∧
      (call.IsForWorker → next false = .done .forWorker) := by
  cases call with
  | beginProgram => exact ⟨_, rfl, rfl, fun _ => rfl⟩
  | directive d =>
    cases d with
    | emergencyStop => exact absurd rfl other
    | setOptionalStop on => exact ⟨_, rfl, rfl, fun forWorker => absurd rfl (forWorker.2 on)⟩
    | _ => exact ⟨_, rfl, rfl, fun _ => rfl⟩

variable {call : Call} {xs : List (Exchange σ)}

/-- What a call that concerns the worker does on its caller's own thread. -/
theorem looks_of_reaches {submission : Submission} (forWorker : call.IsForWorker)
    (own : call.submission.Reaches xs (.done submission)) :
    ∃ found p₁ p₂, xs = [⟨.readLatch, found, p₁, p₂⟩] ∧
      submission = if found then .settled (.error .alreadyShutdown) else .forWorker := by
  obtain ⟨next, looks, set, clear⟩ := submission_looks forWorker.1
  rw [looks] at own
  cases own with
  | @act _ _ found p₁ p₂ _ _ own =>
    cases found with
    | true =>
      rw [set] at own
      obtain ⟨rfl, same⟩ := Course.reaches_done own
      cases same
      exact ⟨true, p₁, p₂, rfl, rfl⟩
    | false =>
      rw [clear forWorker] at own
      obtain ⟨rfl, same⟩ := Course.reaches_done own
      cases same
      exact ⟨false, p₁, p₂, rfl, rfl⟩

theorem isForWorker_or (call : Call) : call = .directive .emergencyStop ∨
    (∃ on, call = .directive (.setOptionalStop on)) ∨ call.IsForWorker := by
  cases call with
  | beginProgram => exact .inr (.inr ⟨nofun, nofun⟩)
  | directive d =>
    cases d with
    | emergencyStop => exact .inl rfl
    | setOptionalStop on => exact .inr (.inl ⟨on, rfl⟩)
    | _ => exact .inr (.inr ⟨nofun, nofun⟩)

/-- A call that has its result on its caller's own thread shows a script. -/
theorem script_of_settled (i : Nat) {result : Result}
    (own : call.submission.Reaches xs (.done (.settled result))) :
    CallScript i call (.begins i call :: xs.map (.onCaller i) ++ [.settles i call result])
      result := by
  rcases call.isForWorker_or with rfl | ⟨on, rfl⟩ | forWorker
  · cases own with
    | act own =>
    cases own with
    | act own =>
    cases own with
    | act own =>
      obtain ⟨rfl, same⟩ := Course.reaches_done own
      cases same
      exact .stop rfl
  · cases own with
    | @act _ _ found _ _ _ _ own =>
      cases found with
      | true =>
        obtain ⟨rfl, same⟩ := Course.reaches_done own
        cases same
        exact .refused nofun
      | false =>
        cases own with
        | act own =>
        cases own with
        | act own =>
          obtain ⟨rfl, same⟩ := Course.reaches_done own
          cases same
          exact .switched rfl
  · obtain ⟨found, p₁, p₂, rfl, same⟩ := looks_of_reaches forWorker own
    cases found with
    | true =>
      cases same
      exact .refused forWorker.1
    | false => cases same

/-- Only a call that concerns the worker is left to it, and only if it finds the latch clear. -/
theorem own_of_deferred (own : call.submission.Reaches xs (.done .forWorker)) :
    call.IsForWorker ∧ ∃ p₁ p₂, xs = [⟨.readLatch, false, p₁, p₂⟩] := by
  rcases call.isForWorker_or with rfl | ⟨on, rfl⟩ | forWorker
  · cases own with
    | act own =>
    cases own with
    | act own =>
    cases own with
    | act own => cases (Course.reaches_done own).2
  · cases own with
    | @act _ _ found _ _ _ _ own =>
      cases found with
      | true => cases (Course.reaches_done own).2
      | false =>
        cases own with
        | act own =>
        cases own with
        | act own => cases (Course.reaches_done own).2
  · obtain ⟨found, p₁, p₂, rfl, same⟩ := looks_of_reaches forWorker own
    cases found with
    | true => cases same
    | false => exact ⟨forWorker, p₁, p₂, rfl⟩

theorem script_of_deferred (i : Nat) {result : Result} {p : Program}
    (own : call.submission.Reaches xs (.done .forWorker)) :
    CallScript i call (.begins i call :: xs.map (.onCaller i) ++
      [.defers i call, .enters ⟨i, call⟩, .replies ⟨i, call⟩ result p]) result := by
  obtain ⟨forWorker, p₁, p₂, rfl⟩ := own_of_deferred own
  exact .served forWorker

end Call

theorem Action.nonempty_answer (action : Action) : Nonempty action.Answer := by
  cases action with
  | readLatch | readOptionalStop | tripLatch | setOptionalStop | readHalted => exact ⟨true⟩
  | readPublished => exact ⟨.running⟩
  | engagePause | resetModal | shutOff => exact ⟨.ok ()⟩
  | submit => exact ⟨.error .closed⟩
  | publish | haltMotion | countMove | approachBarrier | awaitStandstill | report => exact ⟨()⟩

theorem Course.exists_history {α : Type} (s : σ) (course : Course α) :
    ∃ (h : List (Exchange σ)) (a : α), course.Reaches h (.done a) := by
  induction course with
  | done a => exact ⟨[], a, .refl _⟩
  | act action next ih =>
    obtain ⟨answer⟩ := action.nonempty_answer
    obtain ⟨h, a, reaches⟩ := ih answer
    exact ⟨⟨action, answer, s, s⟩ :: h, a, .act reaches⟩

/-- The script of a call goes on from any place in the caller's own part. -/
theorem CallScript.exists_of_reaches (i : Nat) (s : σ) {call : Call} {xs : List (Exchange σ)}
    {course : Course Submission} (own : call.submission.Reaches xs course) :
    ∃ rest result, CallScript i call (.begins i call :: xs.map (.onCaller i) ++ rest) result := by
  obtain ⟨ys, submission, more⟩ := course.exists_history s
  have whole := own.trans more
  cases submission with
  | settled result =>
    refine ⟨ys.map (.onCaller i) ++ [.settles i call result], result, ?_⟩
    rw [← List.append_assoc, List.cons_append, ← List.map_append]
    exact Call.script_of_settled i whole
  | forWorker =>
    refine ⟨ys.map (.onCaller i) ++ [.defers i call, .enters ⟨i, call⟩,
      .replies ⟨i, call⟩ (.error .closed) {}], .error .closed, ?_⟩
    rw [← List.append_assoc, List.cons_append, ← List.map_append]
    exact Call.script_of_deferred i whole

namespace System

/-- The caller `i` is `c`, and `waits` are its requests that wait. -/
structure CallerIs (i : Nat) (c : Caller) (waits : List Errand) (s : System σ) : Prop where
  place : s.callers[i]? = some c
  waits : s.pending i = waits

/-- The caller `i` has nothing to do. -/
def Rests (i : Nat) (s : System σ) : Prop :=
  ∃ results, CallerIs i { todo := [], results } [] s

/-- Where the caller `i` stands in a call, after it has shown so much of it.  The calls `todo` come
after it. -/
inductive InCall (i : Nat) (call : Call) (todo : List Call) (s : System σ) :
    List (Occurrence σ) → Prop where
  | ahead {results : List Result} (stands : CallerIs i { todo := call :: todo, results } [] s) :
      InCall i call todo s []
  | submitting {results : List Result} {xs : List (Exchange σ)} {course : Course Submission}
      (stands : CallerIs i { todo, stage := .calling call course, results } [] s)
      (own : call.submission.Reaches xs course) :
      InCall i call todo s (.begins i call :: xs.map (.onCaller i))
  | sending {results : List Result} {xs : List (Exchange σ)}
      (stands : CallerIs i { todo, stage := .sending call, results } [] s)
      (own : call.submission.Reaches xs (.done .forWorker)) :
      InCall i call todo s (.begins i call :: xs.map (.onCaller i) ++ [.defers i call])
  | awaiting {results : List Result} {xs : List (Exchange σ)}
      (stands : CallerIs i { todo, stage := .awaiting, results } [⟨i, call⟩] s)
      (own : call.submission.Reaches xs (.done .forWorker)) :
      InCall i call todo s
        (.begins i call :: xs.map (.onCaller i) ++ [.defers i call, .enters ⟨i, call⟩])
  | answered {results : List Result} {result : Result} {os : List (Occurrence σ)}
      (stands : CallerIs i { todo, results := results ++ [result] } [] s)
      (script : CallScript i call os result) : InCall i call todo s os

variable {world : Plant σ} {outsiders : σ → σ → Prop} {s t : System σ} {o : Occurrence σ}
  {os k : List (Occurrence σ)} {i : Nat} {c c' : Caller} {call : Call} {todo : List Call}
  {waits : List Errand}

/-! ## Steps of others -/

theorem CallerIs.frame (steady : world.NeverBreaks) (move : Move world s o t)
    (other : o.caller? ≠ some i) (stands : CallerIs i c waits s) : CallerIs i c waits t :=
  ⟨(callers_of_move steady move other).trans stands.place,
    (pending_of_move steady move other).trans stands.waits⟩

/-- What leaves callers and their requests alone keeps everyone in place. -/
theorem CallerIs.congr (callers : t.callers[i]? = s.callers[i]?) (waiting : t.waiting = s.waiting)
    (stands : CallerIs i c waits s) : CallerIs i c waits t :=
  ⟨callers.trans stands.place, by rw [pending, waiting]; exact stands.waits⟩

theorem Rests.map (keeps : ∀ c waits, CallerIs i c waits s → CallerIs i c waits t)
    (rests : Rests i s) : Rests i t := by
  obtain ⟨results, stands⟩ := rests
  exact ⟨results, keeps _ _ stands⟩

theorem InCall.map (keeps : ∀ c waits, CallerIs i c waits s → CallerIs i c waits t)
    (at_ : InCall i call todo s os) : InCall i call todo t os := by
  cases at_ with
  | ahead stands => exact .ahead (keeps _ _ stands)
  | submitting stands own => exact .submitting (keeps _ _ stands) own
  | sending stands own => exact .sending (keeps _ _ stands) own
  | awaiting stands own => exact .awaiting (keeps _ _ stands) own
  | answered stands script => exact .answered (keeps _ _ stands) script

theorem InCall.frame (steady : world.NeverBreaks) (move : Move world s o t)
    (other : o.caller? ≠ some i) (at_ : InCall i call todo s os) : InCall i call todo t os :=
  at_.map fun _ _ => CallerIs.frame steady move other

/-! ## Steps of the call -/

theorem CallerIs.replied (steady : world.NeverBreaks) {errand : Errand} {result : Result}
    {p : Program} (move : Move world s (.replies errand result p) t)
    (stands : CallerIs errand.caller c waits s) : waits = errand :: t.pending errand.caller := by
  have next := waiting_of_move steady move
  rw [← stands.waits, pending, next, List.filter_cons, if_pos (decide_eq_true rfl)]
  rfl

theorem CallerIs.set (stands : CallerIs i c waits s) (c' : Caller) :
    CallerIs i c' waits (s.setCaller i c') := by
  obtain ⟨inside, -⟩ := List.getElem?_eq_some_iff.1 stands.place
  exact ⟨List.getElem?_set_self inside, stands.waits⟩

theorem CallerIs.assign (stands : CallerIs i c waits s) (call : Call) :
    CallerIs i { c with todo := c.todo ++ [call] } waits
      { s with callers := s.callers.modify i fun c => { c with todo := c.todo ++ [call] } } := by
  refine ⟨(List.getElem?_modify_eq ..).trans ?_, stands.waits⟩
  rw [stands.place]
  rfl

section

variable (steady : world.NeverBreaks) (move : Move world s o t) (own : o.caller? = some i)
  {results : List Result}

include steady move own

theorem CallerIs.begins (stands : CallerIs i { todo, results } [] s) :
    ∃ call rest, todo = call :: rest ∧ o = .begins i call ∧
      CallerIs i { todo := rest, stage := .calling call call.submission, results } [] t := by
  cases move with
  | begins place stage next =>
    cases own
    cases stands.place.symm.trans place
    exact ⟨_, _, next, rfl, stands.set _⟩
  | onCaller place stage | defers place stage | settles place stage | closed place stage
  | enters place stage =>
    cases own
    cases stands.place.symm.trans place
    cases stage
  | replies busy =>
    cases own
    cases stands.replied steady (.replies busy)
  | takes | onWorker | breaks | onVisitor => cases own

/-- In its own part of a call it acts, or the part is done. -/
theorem CallerIs.goes {course : Course Submission}
    (stands : CallerIs i { todo, stage := .calling call course, results } [] s) :
    match course with
    | .act action next => ∃ answer before after, o = .onCaller i ⟨action, answer, before, after⟩ ∧
        CallerIs i { todo, stage := .calling call (next answer), results } [] t
    | .done (.settled result) => o = .settles i call result ∧
        CallerIs i { todo, results := results ++ [result] } [] t
    | .done .forWorker => o = .defers i call ∧
        CallerIs i { todo, stage := .sending call, results } [] t := by
  cases move with
  | onCaller place stage =>
    cases own
    cases stands.place.symm.trans place
    cases stage
    exact ⟨_, _, _, rfl, (stands.set _).place, stands.waits⟩
  | defers place stage | settles place stage =>
    cases own
    cases stands.place.symm.trans place
    cases stage
    exact ⟨rfl, stands.set _⟩
  | begins place stage | closed place stage | enters place stage =>
    cases own
    cases stands.place.symm.trans place
    cases stage
  | replies busy =>
    cases own
    cases stands.replied steady (.replies busy)
  | takes | onWorker | breaks | onVisitor => cases own

theorem CallerIs.enters (alive : s.worker.isDead = false)
    (stands : CallerIs i { todo, stage := .sending call, results } [] s) :
    o = .enters ⟨i, call⟩ ∧
      CallerIs i { todo, stage := .awaiting, results } [⟨i, call⟩] t := by
  have next := waiting_of_move steady move
  cases move with
  | enters place stage =>
    cases own
    cases stands.place.symm.trans place
    cases stage
    refine ⟨rfl, (stands.set _).place, ?_⟩
    rw [pending, next, List.filter_append, ← pending, stands.waits, List.filter_cons,
      if_pos (decide_eq_true rfl)]
    rfl
  | closed place stage dead =>
    rw [alive] at dead
    cases dead
  | begins place stage | onCaller place stage | defers place stage | settles place stage =>
    cases own
    cases stands.place.symm.trans place
    cases stage
  | replies busy =>
    cases own
    cases stands.replied steady (.replies busy)
  | takes | onWorker | breaks | onVisitor => cases own

theorem CallerIs.hears
    (stands : CallerIs i { todo, stage := .awaiting, results } [⟨i, call⟩] s) :
    ∃ result p, o = .replies ⟨i, call⟩ result p ∧
      CallerIs i { todo, results := results ++ [result] } [] t := by
  cases move with
  | replies busy =>
    cases own
    obtain ⟨same, none⟩ := List.cons.inj (stands.replied steady (.replies busy))
    refine ⟨_, _, congrArg (Occurrence.replies · _ _) same.symm, ?_, none.symm⟩
    refine (List.getElem?_modify_eq ..).trans ?_
    rw [stands.place]
    rfl
  | begins place stage | onCaller place stage | defers place stage | settles place stage
  | closed place stage | enters place stage =>
    cases own
    cases stands.place.symm.trans place
    cases stage
  | takes | onWorker | breaks | onVisitor => cases own

end

theorem Rests.no_step (steady : world.NeverBreaks) (move : Move world s o t)
    (rests : Rests i s) : o.caller? ≠ some i := by
  intro own
  obtain ⟨results, stands⟩ := rests
  obtain ⟨call, rest, none, -⟩ := stands.begins steady move own
  cases none

/-- A step in a call of the caller goes on in the script of that call, unless the call has its
result already. -/
theorem InCall.step (steady : world.NeverBreaks) (alive : s.worker.isDead = false)
    (move : Move world s o t) (own : o.caller? = some i) (at_ : InCall i call todo s os) :
    InCall i call todo t (os ++ [o]) ∨ ∃ results result,
      CallerIs i { todo, results := results ++ [result] } [] s ∧ CallScript i call os result := by
  cases at_ with
  | ahead stands =>
    obtain ⟨call, rest, same, rfl, next⟩ := stands.begins steady move own
    cases same
    exact .inl (.submitting next (.refl _))
  | @submitting results xs course stands reaches =>
    have next := stands.goes steady move own
    cases course with
    | act action rest =>
      obtain ⟨answer, before, after, rfl, next⟩ := next
      have acted : (Course.act action rest).Reaches [⟨action, answer, before, after⟩]
        (rest answer) := .act (.refl _)
      have shows := InCall.submitting next (reaches.trans acted)
      rw [List.map_append] at shows
      exact .inl shows
    | done submission =>
      cases submission with
      | settled result =>
        obtain ⟨rfl, next⟩ := next
        exact .inl (.answered next (Call.script_of_settled i reaches))
      | forWorker =>
        obtain ⟨rfl, next⟩ := next
        exact .inl (.sending next reaches)
  | sending stands reaches =>
    obtain ⟨rfl, next⟩ := stands.enters steady move own alive
    rw [List.append_assoc]
    exact .inl (.awaiting next reaches)
  | awaiting stands reaches =>
    obtain ⟨result, p, rfl, next⟩ := stands.hears steady move own
    rw [List.append_assoc]
    exact .inl (.answered next (Call.script_of_deferred i reaches))
  | answered stands script => exact .inr ⟨_, _, stands, script⟩

/-- A caller that has no other call ahead shows nothing after its result. -/
theorem InCall.step_last (steady : world.NeverBreaks) (alive : s.worker.isDead = false)
    (move : Move world s o t) (own : o.caller? = some i) (at_ : InCall i call [] s os) :
    InCall i call [] t (os ++ [o]) := by
  rcases at_.step steady alive move own with next | ⟨results, result, stands, -⟩
  · exact next
  · exact absurd own (Rests.no_step steady move ⟨_, stands⟩)

theorem InCall.exists_script (at_ : InCall i call todo s os) :
    ∃ rest result, CallScript i call (os ++ rest) result := by
  cases at_ with
  | ahead =>
    obtain ⟨rest, result, script⟩ :=
      CallScript.exists_of_reaches i s.plant (.refl call.submission)
    exact ⟨_, result, script⟩
  | submitting _ own => exact CallScript.exists_of_reaches i s.plant own
  | sending _ own =>
    refine ⟨[.enters ⟨i, call⟩, .replies ⟨i, call⟩ (.error .closed) {}], .error .closed, ?_⟩
    rw [List.append_assoc]
    exact Call.script_of_deferred i own
  | awaiting _ own =>
    refine ⟨[.replies ⟨i, call⟩ (.error .closed) {}], .error .closed, ?_⟩
    rw [List.append_assoc]
    exact Call.script_of_deferred i own
  | answered _ script => exact ⟨[], _, by rwa [List.append_nil]⟩

/-- Either the caller goes on, unless the plant makes it wait, or it has its result, or the rest is
for the worker. -/
theorem InCall.moves (steady : world.NeverBreaks)
    (ready : ∀ (xs : List (Exchange σ)) (course : Course Submission),
      call.submission.Reaches xs course → course.IsReady world s.plant)
    (at_ : InCall i call todo s os) :
    (move? world (.caller i) s).isSome ∨
    (∃ results result, CallerIs i { todo, results := results ++ [result] } [] s) ∨
    ∃ (xs : List (Exchange σ)) (results : List Result),
      call.submission.Reaches xs (.done .forWorker) ∧
      (CallerIs i { todo, stage := .sending call, results } [] s ∨
        CallerIs i { todo, stage := .awaiting, results } [⟨i, call⟩] s) := by
  cases at_ with
  | ahead stands =>
    left
    show (s.moveCaller world i).isSome
    unfold moveCaller
    simp only [stands.place, Option.isSome_some]
  | submitting stands own =>
    exact .inl (moves_of_callerAt steady ⟨_, stands.place, rfl⟩ (ready _ _ own))
  | sending stands own => exact .inr (.inr ⟨_, _, own, .inl stands⟩)
  | awaiting stands own => exact .inr (.inr ⟨_, _, own, .inr stands⟩)
  | answered stands => exact .inr (.inl ⟨_, _, stands⟩)

/-- If the plant makes nobody wait, a caller in a call comes to rest only with its result. -/
theorem InCall.answered_of_stuck (steady : world.NeverBreaks) (alive : s.worker.isDead = false)
    (ready : ∀ action, world.ready action s.plant) (stuck : ∀ l, move? world l s = none)
    (at_ : InCall i call todo s os) :
    ∃ results result, CallerIs i { todo, results := results ++ [result] } [] s := by
  obtain ⟨⟨p, idle⟩, empty, nothing⟩ := idle_of_stuck alive ready (stuck .worker)
  have rests (moves : (move? world (.caller i) s).isSome) : False := by
    rw [stuck] at moves
    cases moves
  rcases at_.moves steady fun _ course _ => isReady_of_ready ready course with
    moves | answered | ⟨xs, results, -, stands | stands⟩
  · exact (rests moves).elim
  · exact answered
  · refine (rests ?_).elim
    show (s.moveCaller world i).isSome
    unfold moveCaller
    simp [stands.place, idle, Worker.isDead, hasRoom, empty, Worker.isIdle]
  · have waits := stands.waits
    rw [pending, nothing] at waits
    cases waits

theorem alive_of_move (steady : world.NeverBreaks) (move : Move world s o t)
    (alive : s.worker.isDead = false) : t.worker.isDead = false := by
  cases move with
  | takes | onWorker | replies => rfl
  | breaks busy done => exact (steady.elim done).elim
  | _ => exact alive

/-! ## Calls in a passage -/

/-- A passage goes on with the call that a caller is in, through its script and perhaps beyond. -/
theorem Passage.goes_on (steady : world.NeverBreaks) (alive : s.worker.isDead = false)
    (at_ : InCall i call todo s os) (passage : Passage world outsiders s k t) :
    t.worker.isDead = false ∧ (InCall i call todo t (os ++ callsOf i k) ∨
      ∃ script result, CallScript i call script result ∧ script <+: os ++ callsOf i k) := by
  induction passage with
  | refl => exact ⟨alive, .inl (by rwa [callsOf, List.filter_nil, List.append_nil])⟩
  | outside _ _ ih =>
    obtain ⟨alive, at_ | ended⟩ := ih
    · refine ⟨alive, .inl (at_.map fun c waits stands => ?_)⟩
      exact ⟨stands.place, stands.waits⟩
    · exact ⟨alive, .inr ended⟩
  | @step m u l o k passage moved ih =>
    obtain ⟨alive, ih⟩ := ih
    have move := move_of_move? moved
    refine ⟨alive_of_move steady move alive, ?_⟩
    rw [callsOf_concat, ← List.append_assoc]
    rcases ih with at_ | ⟨script, result, whole, shown⟩
    · by_cases own : o.caller? = some i
      · rw [if_pos own]
        rcases at_.step steady alive move own with next | ⟨-, result, -, script⟩
        · exact .inl next
        · exact .inr ⟨_, result, script, List.prefix_append ..⟩
      · rw [if_neg own, List.append_nil]
        exact .inl (at_.frame steady move own)
    · exact .inr ⟨script, result, whole, shown.trans (List.prefix_append ..)⟩

/-- As far as a passage shows a call, it shows its script. -/
theorem Passage.plays_call (steady : world.NeverBreaks) (alive : s.worker.isDead = false)
    (at_ : InCall i call todo s os) (passage : Passage world outsiders s k t) :
    ∃ script result, CallScript i call script result ∧ Plays script (os ++ callsOf i k) := by
  obtain ⟨-, at_ | ⟨script, result, whole, shown⟩⟩ := passage.goes_on steady alive at_
  · obtain ⟨rest, result, script⟩ := at_.exists_script
    exact ⟨_, result, script, .inl (List.prefix_append ..)⟩
  · exact ⟨script, result, whole, .inr shown⟩

end System

end ProgramControl
