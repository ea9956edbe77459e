import ProgramControl.Proofs.Program.Watch

/-!
# Preemption

Once shutdown is latched, a program starts next to nothing any more.  What it starts are the calls
of its collaborators and the submission of a completion, and before each of them it looks at the
latch.  Between the look and the start another thread may latch shutdown, so one start can come
too late; after it the program looks again.

* `Exchange.KeepsLatch`      what the latch promises: it is never cleared, and looks are truthful;
* `lookout`, `obeys_lookout` no call of a program starts anything without a look of its own;
* `CutShort`                 what this leaves of a history in which shutdown is latched;
* `Program.Runs.cutShort`    the histories of all runs of calls are cut short in this way, and
                             every call that begins later is refused at its first step.
-/

namespace ProgramControl

variable {σ : Type}

namespace Action

/-- The action starts a collaborator or submits a completion. -/
def starts : Action → Bool
  | .approachBarrier | .engagePause | .resetModal | .shutOff _ | .submit .. => true
  | _ => false

/-- A collaborator is at work between the action and its answer. -/
def isCall : Action → Bool
  | .approachBarrier | .awaitStandstill | .engagePause | .resetModal | .shutOff _ => true
  | _ => false

end Action

/-! ## The latch -/

namespace Exchange

/-- The latch stays latched during an exchange, and a look at it finds what it was at some moment
of the exchange. -/
def KeepsLatch (latched : σ → Bool) (x : Exchange σ) : Prop :=
  (latched x.before → latched x.after) ∧
    ∀ found, x.found? = some found → (latched x.before → found) ∧ (found → latched x.after)

/-- Other threads may latch shutdown but not clear the latch. -/
def LatchStays (latched : σ → Bool) (s s' : σ) : Prop := latched s → latched s'

/-- During a history the latch is what its name says. -/
def Latching (latched : σ → Bool) : σ → List (Exchange σ) → Prop :=
  Keeps (KeepsLatch latched) (LatchStays latched)

variable {latched : σ → Bool} {s : σ} {h k : List (Exchange σ)} {x : Exchange σ}

end Exchange

/-! ## Looking before starting -/

/-- A watch that is set while the last look found the latch clear and nothing was called since.
Only then may anything be started. -/
def lookout : Watch Bool where
  allows clear action := action.starts → clear
  next clear action answer :=
    match action with
    | .readLatch => !answer
    | action => clear && !(action.starts || action.isCall)

theorem lookout_allows {action : Action} (harmless : action.starts = false) (clear : Bool) :
    lookout.allows clear action :=
  fun starts => absurd (harmless.symm.trans starts) Bool.false_ne_true

theorem quiet_lookout : lookout.IsQuiet where
  report _ clear := ⟨lookout_allows rfl clear, fun _ => Bool.and_true clear⟩
  publish _ clear := ⟨lookout_allows rfl clear, fun _ => Bool.and_true clear⟩

namespace Transition

variable {fitted : Equipment} {p : Program} {clear : Bool}

/-- Each output is told to stop only after a look of its own. -/
theorem looks_shutOffAll (d : Directive) (completed : StepSet) :
    Obeys lookout clear p (shutOffAll fitted d completed) fun _ _ _ => True := by
  refine (obeys_shutOffAll quiet_lookout.report d completed (fun _ => True) (fun _ => True) ?_
    trivial).mono fun _ _ _ _ => trivial
  intro n g _
  exact ⟨lookout_allows rfl g, trivial, fun _ => rfl, fun _ => trivial⟩

/-- A transition looks again before each call but the first; its caller has looked for that. -/
theorem looks_pause (d : Directive) (message : String) :
    Obeys lookout true p (pause fitted d message) fun _ _ _ => True := by
  simp only [pause, obeys_bind, obeys_ite, obeys_throw, then_ok, then_error,
    obeys_waitForStandstill, obeys_checkpoint quiet_lookout.report, obeys_perform]
  refine ⟨fun _ => trivial, fun _ => ⟨fun _ => trivial, fun _ => ?_⟩⟩
  refine ⟨fun _ => rfl, lookout_allows rfl _, lookout_allows rfl _, trivial, fun _ => rfl, ?_⟩
  rintro (fault | ⟨⟩)
  · trivial
  · rw [obeys_bind, obeys_enter quiet_lookout]
    trivial

theorem looks_submitCompletion (repeatRequested : Bool) :
    Obeys lookout true p (submitCompletion repeatRequested) fun _ _ _ => True := by
  simp only [submitCompletion, obeys_bind, obeys_get, then_ok, obeys_perform]
  refine ⟨fun _ => rfl, ?_⟩
  rintro (fault | e) <;> rw [obeys_bind, obeys_report quiet_lookout.report] <;> trivial

theorem looks_finish (d : Directive) (repeatRequested : Bool) :
    Obeys lookout true p (finish fitted d repeatRequested) fun _ _ _ => True := by
  simp only [finish, obeys_bind, obeys_ite, obeys_throw, then_ok, then_error,
    obeys_waitForStandstill, obeys_checkpoint quiet_lookout.report, obeys_perform]
  refine ⟨fun _ => trivial, fun _ => ?_⟩
  refine ⟨fun _ => rfl, lookout_allows rfl _, lookout_allows rfl _, trivial, fun _ => rfl, ?_⟩
  rintro (fault | ⟨⟩)
  · trivial
  · simp only [obeys_bind]
    refine (looks_shutOffAll d _).mono ?_
    rintro g (e | ⟨⟩) q -
    · trivial
    · simp only [then_ok, obeys_checkpoint quiet_lookout.report, then_error, obeys_bind,
        obeys_enter quiet_lookout]
      refine ⟨lookout_allows rfl g, trivial, (looks_submitCompletion repeatRequested).mono ?_⟩
      rintro g (e | emitted) q - <;> trivial

theorem looks_resume (d : Directive) :
    Obeys lookout true p (resume d) fun _ _ _ => True := by
  simp only [resume, obeys_bind, obeys_get, obeys_ite, obeys_throw, then_ok, then_error,
    obeys_enter quiet_lookout, obeys_outcome, implies_true, and_true]

theorem looks_pauseIfEnabled (d : Directive) :
    Obeys lookout true p (pauseIfEnabled fitted d) fun _ _ _ => True := by
  simp only [pauseIfEnabled, obeys_bind, obeys_perform, then_ok, obeys_ite,
    obeys_report quiet_lookout.report, obeys_outcome, implies_true, and_true]
  exact ⟨lookout_allows rfl true, fun _ _ => looks_pause ..⟩

theorem looks_apply (d : Directive) :
    Obeys lookout clear p (apply fitted d) fun _ _ _ => True := by
  simp only [apply, obeys_bind, obeys_refuseIfLatched, then_ok, then_error, obeys_get, obeys_ite,
    obeys_throw]
  refine ⟨lookout_allows rfl clear, trivial, fun _ => trivial, fun _ => ?_⟩
  refine ⟨fun _ => trivial, fun _ => ?_⟩
  cases d with
  | pauseUnconditional => exact looks_pause ..
  | pauseOptional => exact looks_pauseIfEnabled ..
  | resumeObserved => exact looks_resume ..
  | programEnd => exact looks_finish ..
  | programEndRepeat => exact looks_finish ..
  | emergencyStop => trivial
  | setOptionalStop enabled => trivial

theorem looks_beginProgram : Obeys lookout clear p beginProgram fun _ _ _ => True := by
  simp only [beginProgram, obeys_bind, obeys_refuseIfLatched, then_ok, then_error, obeys_get,
    obeys_ite, obeys_throw, obeys_set, obeys_enter quiet_lookout,
    obeys_report quiet_lookout.report, obeys_pure, implies_true, and_true]
  exact lookout_allows rfl clear

end Transition

/-- Whatever the last call left to the lookout, the next one looks before it starts anything. -/
theorem Call.obeys_lookout (call : Call) (fitted : Equipment) (p : Program) (clear : Bool) :
    Course.Obeys lookout clear (call.service fitted p) fun _ _ => True := by
  cases call with
  | directive d => exact (Course.obeys_bind ..).2 (Transition.looks_apply d)
  | beginProgram => exact (Course.obeys_bind ..).2 Transition.looks_beginProgram

theorem Call.service_looks (call : Call) (fitted : Equipment) (p : Program) :
    ∃ next, call.service fitted p = .act .readLatch next ∧
      next true = .done (.error .alreadyShutdown, p) := by
  cases call <;> exact ⟨_, rfl, rfl⟩

theorem Program.Runs.obeys_lookout {fitted : Equipment} {p q : Program} {turns : List (Turn σ)}
    (run : Program.Runs fitted p turns q) (clear : Bool) :
    lookout.Allows clear (Program.exchanges turns) := by
  induction run generalizing clear with
  | nil => trivial
  | @cons call p _ _ h _ _ served _ ih =>
    obtain ⟨allowed, -⟩ := (call.obeys_lookout fitted p clear).reaches served
    exact (lookout.allows_append ..).2 ⟨allowed, ih _⟩

/-! ## Histories -/

section

open Exchange

variable {latched : σ → Bool} {s : σ} {h : List (Exchange σ)} {x : Exchange σ} {clear : Bool}

theorem lookout_next (x : Exchange σ) : lookout.next clear x.action x.answer =
    match x.found? with
    | some found => !found
    | none => clear && !(x.action.starts || x.action.isCall) := by
  obtain ⟨action, answer, -, -⟩ := x
  cases action <;> rfl

/-- What is started, and a collaborator at work, use the last look up. -/
theorem lookout_next_eq_false {action : Action} (answer : action.Answer)
    (busy : action.starts || action.isCall) : lookout.next clear action answer = false := by
  cases action <;> first | exact Bool.and_false clear | exact absurd busy Bool.false_ne_true

/-- While shutdown is latched and the lookout is not set, nothing starts. -/
theorem nothing_starts (allowed : lookout.Allows false h) (keeps : Latching latched s h)
    (l : latched s) : ∀ x ∈ h, ¬ x.action.starts := by
  induction h generalizing s with
  | nil => nofun
  | cons x h ih =>
    obtain ⟨now, later⟩ := allowed
    obtain ⟨others, law, rest⟩ := keeps
    have still : lookout.next false x.action x.answer = false := by
      rw [lookout_next]
      cases look : x.found? with
      | none => rfl
      | some found =>
        rw [(law.2 found look).1 (others l)]
        rfl
    rw [still] at later
    exact List.forall_mem_cons.2
      ⟨fun starts => Bool.false_ne_true (now starts), ih later rest (law.1 (others l))⟩

/-- After shutdown was latched one start at most is too late to be held back. -/
theorem one_starts (allowed : lookout.Allows clear h) (keeps : Latching latched s h)
    (l : latched s) : (h.filter (·.action.starts)).length ≤ 1 := by
  induction h generalizing s clear with
  | nil => exact Nat.zero_le 1
  | cons x h ih =>
    obtain ⟨-, later⟩ := allowed
    obtain ⟨others, law, rest⟩ := keeps
    have l' := law.1 (others l)
    by_cases starts : x.action.starts
    · rw [lookout_next_eq_false x.answer (by rw [starts, Bool.true_or])] at later
      rw [List.filter_cons, if_pos starts,
        List.filter_eq_nil_iff.2 (nothing_starts later rest l')]
      exact Nat.le_refl 1
    · rw [List.filter_cons, if_neg starts]
      exact ih later rest l'

/-- The lookout was set by a look that found the latch clear; no other look and no call came
after it. -/
theorem looked_of_clear (set : lookout.after clear h = true) :
    (clear = true ∧ ∀ y ∈ h, y.found? = none ∧ ¬ y.action.starts ∧ ¬ y.action.isCall) ∨
      ∃ h₀ look h₁, h = h₀ ++ look :: h₁ ∧ look.found? = some false ∧
        ∀ y ∈ h₁, y.found? = none ∧ ¬ y.action.starts ∧ ¬ y.action.isCall := by
  induction h generalizing clear with
  | nil => exact .inl ⟨set, nofun⟩
  | cons x h ih =>
    rw [Watch.after_cons] at set
    rcases ih set with ⟨start, quiet⟩ | ⟨h₀, look, h₁, rfl, clearly, quiet⟩
    · rw [lookout_next] at start
      cases look : x.found? with
      | none =>
        simp only [look, Bool.and_eq_true, Bool.not_eq_true', Bool.or_eq_false_iff] at start
        obtain ⟨start, no, idle⟩ := start
        refine .inl ⟨start, List.forall_mem_cons.2 ⟨⟨look, ?_, ?_⟩, quiet⟩⟩
        · rw [no]; nofun
        · rw [idle]; nofun
      | some found =>
        simp only [look, Bool.not_eq_true'] at start
        exact .inr ⟨[], x, h, rfl, start ▸ look, quiet⟩
    · exact .inr ⟨x :: h₀, look, h₁, rfl, clearly, quiet⟩

/-- What a latched shutdown leaves of a history. -/
structure CutShort (latched : σ → Bool) (h : List (Exchange σ)) : Prop where
  /-- Wherever shutdown is latched, one thing at most is started from there on. -/
  one : ∀ past x future, h = past ++ x :: future → latched x.before →
    ((x :: future).filter (·.action.starts)).length ≤ 1
  /-- What is started then was looked for in time: the last look before it found the latch clear,
  and nothing was started and nobody was called between the two. -/
  looked : ∀ past x future, h = past ++ x :: future → latched x.before → x.action.starts →
    ∃ h₀ look h₁, past = h₀ ++ look :: h₁ ∧ look.found? = some false ∧ ¬ latched look.before ∧
      ∀ y ∈ h₁, y.found? = none ∧ ¬ y.action.starts ∧ ¬ y.action.isCall
  /-- Nothing at all is started after a collaborator under whom shutdown was latched. -/
  none : ∀ past x future, h = past ++ x :: future → x.action.isCall → latched x.after →
    ∀ y ∈ future, ¬ y.action.starts

theorem cutShort_of_allows (allowed : lookout.Allows false h) (keeps : Latching latched s h) :
    CutShort latched h where
  one past x future split l := by
    subst split
    obtain ⟨-, allowed⟩ := (lookout.allows_append ..).1 allowed
    obtain ⟨-, others, rest⟩ := keeps_append.1 keeps
    exact one_starts allowed (s := x.before) ⟨id, rest⟩ l
  looked past x future split l starts := by
    subst split
    obtain ⟨-, allowed, -⟩ := (lookout.allows_append ..).1 allowed
    obtain ⟨before, -⟩ := keeps_append.1 keeps
    rcases looked_of_clear (allowed starts) with ⟨set, -⟩ | ⟨h₀, look, h₁, rfl, clearly, quiet⟩
    · cases set
    · obtain ⟨-, -, law, -⟩ := keeps_append.1 before
      exact ⟨h₀, look, h₁, rfl, clearly, fun l => Bool.false_ne_true ((law.2 _ clearly).1 l),
        quiet⟩
  none past x future split call l := by
    subst split
    obtain ⟨-, -, allowed⟩ := (lookout.allows_append ..).1 allowed
    obtain ⟨-, -, -, rest⟩ := keeps_append.1 keeps
    rw [lookout_next_eq_false x.answer (by rw [call, Bool.or_true])] at allowed
    exact nothing_starts allowed rest l

end

/-! ## Runs -/

section

open Exchange

variable {latched : σ → Bool} {s : σ} {h : List (Exchange σ)} {fitted : Equipment} {p q : Program}
  {call : Call} {turns : List (Turn σ)}

/-- A call that begins while shutdown is latched is refused at its first step. -/
theorem Call.refused_of_latched {x : Exchange σ} {c : Course (Result × Program)}
    (reaches : (call.service fitted p).Reaches (x :: h) c) (keeps : KeepsLatch latched x) :
    x.action = .readLatch ∧
      (latched x.before → h = [] ∧ c = .done (.error .alreadyShutdown, p)) := by
  obtain ⟨next, looks, refused⟩ := call.service_looks fitted p
  rw [looks] at reaches
  cases reaches with
  | @act _ _ found _ _ _ _ rest =>
    refine ⟨rfl, fun l => ?_⟩
    obtain rfl : found = true := (keeps.2 found rfl).1 l
    rw [refused] at rest
    exact Course.reaches_done rest

/-- The call looks at the latch first.  If shutdown was latched by then, this is all it does: it is
refused and the program stays as it was. -/
def Turn.LooksFirst (latched : σ → Bool) (t : Turn σ) : Prop :=
  ∃ x h, t.history = x :: h ∧ x.action = .readLatch ∧
    (latched x.before → h = [] ∧ t.result = .error .alreadyShutdown ∧ t.after = t.before)

theorem Program.Runs.looksFirst (run : Program.Runs fitted p turns q)
    (keeps : Latching latched s (Program.exchanges turns)) :
    ∀ t ∈ turns, t.LooksFirst latched := by
  induction run generalizing s with
  | nil => exact fun t mem => absurd mem List.not_mem_nil
  | @cons call p p' q h result turns served rest ih =>
    rw [Program.exchanges_cons] at keeps
    obtain ⟨first, later⟩ := keeps_append.1 keeps
    refine List.forall_mem_cons.2 ⟨?_, ih later⟩
    cases h with
    | nil =>
      obtain ⟨next, looks, -⟩ := call.service_looks fitted p
      rw [looks] at served
      cases served
    | cons x h =>
      obtain ⟨look, refused⟩ := Call.refused_of_latched served first.2.1
      refine ⟨x, h, rfl, look, fun l => ?_⟩
      obtain ⟨nil, done⟩ := refused l
      cases done
      exact ⟨nil, rfl, rfl⟩

/-- Calls are served one after the other, the last one perhaps not to its end, while other threads
may latch shutdown at any moment.  What is started once shutdown is latched is cut short, and calls
that begin then do nothing but look at the latch. -/
theorem Program.Runs.cutShort {c : Course (Result × Program)} (run : Program.Runs fitted p turns q)
    (current : (call.service fitted q).Reaches h c)
    (keeps : Latching latched s (Program.exchanges turns ++ h)) :
    CutShort latched (Program.exchanges turns ++ h) ∧
      (∀ t ∈ turns, t.LooksFirst latched) ∧
      ∀ x h', h = x :: h' → x.action = .readLatch ∧
        (latched x.before → h' = [] ∧ c = .done (.error .alreadyShutdown, q)) := by
  obtain ⟨before, now⟩ := keeps_append.1 keeps
  have allowed := (lookout.allows_append false (Program.exchanges turns) h).2
    ⟨run.obeys_lookout false, ((call.obeys_lookout fitted q _).reaches current).1⟩
  refine ⟨cutShort_of_allows allowed keeps, run.looksFirst before, ?_⟩
  rintro x h' rfl
  exact Call.refused_of_latched current now.2.1

/-- A pause whose mechanism fails; while it tries, another thread latches shutdown. -/
def Turn.stoppedInPause : Turn Bool where
  call := .directive .pauseUnconditional
  before := {}
  history := [
    ⟨.readLatch, false, false, false⟩, ⟨.approachBarrier, (), false, false⟩,
    ⟨.awaitStandstill, (), false, false⟩, ⟨.readLatch, false, false, false⟩,
    ⟨.engagePause, .error (.failed "jammed"), false, true⟩]
  result := .error (.stepFailed .pauseUnconditional "pause" (.failed "jammed"))
  after := {}

/-- The pause above, and then a call that begins with shutdown latched. -/
theorem cutShort_stoppedInPause :
    CutShort id (Program.exchanges [Turn.stoppedInPause] ++ [⟨.readLatch, true, true, true⟩]) := by
  have run : Program.Runs {} {} [Turn.stoppedInPause] {} :=
    .cons (.act (.act (.act (.act (.act (.refl _)))))) (.nil _)
  have current : (Call.beginProgram.service {} {}).Reaches [⟨.readLatch, true, true, true⟩]
      (.done (.error .alreadyShutdown, {})) := .act (.refl _)
  have keeps : Latching id false
      (Program.exchanges [Turn.stoppedInPause] ++ [⟨.readLatch, true, true, true⟩]) := by
    simp [Latching, Keeps, Program.exchanges, Turn.stoppedInPause, LatchStays, KeepsLatch, found?]
  exact (run.cutShort current keeps).1

end

end ProgramControl
