import ProgramControl.Proofs.Program.History

/-!
# How long a call takes

Whatever comes back to it, a call comes to its end after a bounded number of actions.

* `Course.Within n c`        whatever comes back, the course `c` takes at most `n` actions;
* `Transition.within_bind`   parts of a transition share what is allowed to the whole;
* `Transition.within_walk`   a walk over a list, with so much for each name;
* `Call.within_service`      three actions for each output and thirteen more, on the worker;
* `Call.within_submission`   three actions at most, on the caller's own thread.
-/

namespace ProgramControl

variable {α β : Type}

namespace Course

/-- Whatever comes back, the course takes at most `n` actions. -/
inductive Within : Nat → Course α → Prop where
  | done (n : Nat) (a : α) : Within n (.done a)
  | act {n : Nat} {action : Action} {next : action.Answer → Course α}
      (rest : ∀ answer, Within n (next answer)) : Within (n + 1) (.act action next)

theorem Within.mono {n m : Nat} {c : Course α} (within : Within n c) (le : n ≤ m) :
    Within m c := by
  induction within generalizing m with
  | done n a => exact .done m a
  | @act n action next rest ih =>
    obtain ⟨m, rfl⟩ : ∃ k, m = k + 1 := ⟨m - 1, by omega⟩
    exact .act fun answer => ih answer (by omega)

theorem Within.bind {n m : Nat} {c : Course α} {f : α → Course β} (first : Within n c)
    (second : ∀ a, Within m (f a)) : Within (n + m) (c.bind f) := by
  induction first with
  | done n a => exact (second a).mono (by omega)
  | @act n action next rest ih =>
    have shift : n + 1 + m = n + m + 1 := by omega
    rw [shift]
    exact .act ih

end Course

namespace Transition

/-- Whatever comes back, and whatever program it begins with, the transition takes at most `n`
actions. -/
def Within (n : Nat) (t : Transition α) : Prop := ∀ p, Course.Within n (t.run.run p)

variable {n m : Nat} {t u : Transition α}

theorem Within.mono (within : Within n t) (le : n ≤ m) : Within m t := fun p => (within p).mono le

theorem within_pure (n : Nat) (a : α) : Within n (pure a : Transition α) := fun _ => .done n _

theorem within_throw (n : Nat) (e : Refusal) : Within n (throw e : Transition α) :=
  fun _ => .done n _

theorem within_refuse (n : Nat) (e : Refusal) (f : α → Transition β) :
    Within n ((throw e : Transition α) >>= f) := fun _ => .done n _

theorem within_perform (action : Action) : Within 1 (perform action) :=
  fun _ => .act fun _ => .done 0 _

theorem within_ite {c : Prop} [Decidable c] (yes : Within n t) (no : Within n u) :
    Within n (if c then t else u) := by
  split
  · exact yes
  · exact no

theorem within_bind {f : α → Transition β} (first : Within m t) (le : m ≤ n)
    (rest : ∀ a, Within (n - m) (f a)) : Within n (t >>= f) := by
  intro p
  have whole : m + (n - m) = n := by omega
  rw [run_bind, ← whole]
  refine (first p).bind fun end_ => ?_
  obtain ⟨r, q⟩ := end_
  cases r with
  | ok a => exact rest a q
  | error e => exact .done _ _

theorem within_get {f : Program → Transition α} (rest : ∀ p, Within n (f p)) :
    Within n (get >>= f) := fun p => rest p p

theorem within_set {q : Program} {f : PUnit → Transition α} (rest : Within n (f ⟨⟩)) :
    Within n (set q >>= f) := fun _ => rest q

theorem within_walk {visit : String → Transition Flow} (visits : ∀ name, Within m (visit name))
    (names : List String) : Within (m * names.length) (Roster.walk visit names) := by
  induction names with
  | nil => exact within_pure _ _
  | cons name names ih =>
    have share : m * (names.length + 1) = m * names.length + m := Nat.mul_succ ..
    rw [Roster.walk, List.length_cons, share]
    refine within_bind (visits name) (by omega) fun flow => ?_
    cases flow with
    | go => exact ih.mono (by omega)
    | stop => exact within_pure _ _

/-! ## The parts of a transition -/

theorem within_preempted (d : Directive) (completed : StepSet) :
    Within 1 (preempted d completed : Transition α) :=
  within_bind (within_perform _) (by omega) fun _ => within_throw _ _

theorem within_checkpoint (d : Directive) (completed : StepSet) :
    Within 2 (checkpoint d completed) :=
  within_bind (within_perform _) (by omega) fun _ =>
    within_ite (within_preempted _ _) (within_pure _ _)

theorem within_enter (state : RunState) : Within 2 (enter state) := by
  unfold enter
  have entered (p : Program) : Within 1 (do
      set { p with state }
      perform (.publish state)) := within_set (within_perform _)
  refine within_get fun p => within_ite ?_ ((entered p).mono (by omega))
  exact within_bind (within_perform _) (by omega) fun _ => entered p

theorem within_waitForStandstill : Within 2 waitForStandstill :=
  within_bind (within_perform _) (by omega) fun _ => within_perform _

theorem within_outcome (n : Nat) (d : Directive) (steps : StepSet) (message : String) :
    Within n (outcome d steps message) := within_get fun _ => within_pure _ _

theorem within_shutOff (d : Directive) (output : String) : Within 3 (shutOff d output) := by
  unfold shutOff
  refine within_bind (within_perform _) (by omega) fun latched =>
    within_ite (within_pure _ _) (within_bind (within_perform _) (by omega) fun answer => ?_)
  cases answer with
  | ok => exact within_pure _ _
  | error fault => exact within_bind (within_perform _) (by omega) fun _ => within_pure _ _

theorem within_submitCompletion (repeatRequested : Bool) :
    Within 2 (submitCompletion repeatRequested) := by
  unfold submitCompletion
  refine within_get fun p => within_bind (within_perform _) (by omega) fun answer => ?_
  cases answer with
  | ok e => exact within_bind (within_perform _) (by omega) fun _ => within_pure _ _
  | error fault => exact within_bind (within_perform _) (by omega) fun _ => within_pure _ _

/-! ## The transitions -/

section

variable (fitted : Equipment)

theorem within_shutOffAll (d : Directive) (completed : StepSet) :
    Within (3 * fitted.outputs.names.length + 1) (shutOffAll fitted d completed) := by
  unfold shutOffAll
  refine within_bind (within_walk (within_shutOff d) _) (by omega) fun flow => ?_
  cases flow with
  | go => exact within_pure _ _
  | stop => exact (within_preempted _ _).mono (by omega)

theorem within_pause (d : Directive) (message : String) : Within 7 (pause fitted d message) := by
  unfold pause
  refine within_ite (within_refuse _ _ _) (within_ite (within_refuse _ _ _) ?_)
  refine within_bind within_waitForStandstill (by omega) fun _ => ?_
  refine within_bind (within_checkpoint _ _) (by omega) fun _ => ?_
  refine within_bind (within_perform _) (by omega) fun answer => ?_
  cases answer with
  | error fault => exact within_throw _ _
  | ok => exact within_bind (within_enter _) (by omega) fun _ => within_outcome _ _ _ _

theorem within_resume (d : Directive) : Within 2 (resume d) := by
  unfold resume
  refine within_get fun p => within_ite (within_refuse _ _ _) ?_
  exact within_bind (within_enter _) (by omega) fun _ => within_outcome _ _ _ _

theorem within_pauseIfEnabled (d : Directive) : Within 8 (pauseIfEnabled fitted d) := by
  unfold pauseIfEnabled
  refine within_bind (within_perform _) (by omega) fun enabled => within_ite ?_ ?_
  · exact within_pause _ _ _
  · exact within_bind (within_perform _) (by omega) fun _ => within_outcome _ _ _ _

theorem within_finish (d : Directive) (repeatRequested : Bool) :
    Within (3 * fitted.outputs.names.length + 12) (finish fitted d repeatRequested) := by
  unfold finish
  refine within_ite (within_refuse _ _ _) ?_
  refine within_bind within_waitForStandstill (by omega) fun _ => ?_
  refine within_bind (within_checkpoint _ _) (by omega) fun _ => ?_
  refine within_bind (within_perform _) (by omega) fun answer => ?_
  cases answer with
  | error fault => exact within_throw _ _
  | ok =>
    refine within_bind (within_shutOffAll _ _ _) (by omega) fun _ => ?_
    refine within_bind (within_checkpoint _ _) (by omega) fun _ => ?_
    refine within_bind (within_enter _) (by omega) fun _ => ?_
    exact within_bind (within_submitCompletion _) (by omega) fun _ => within_outcome _ _ _ _

theorem within_refuseIfLatched : Within 1 refuseIfLatched :=
  within_bind (within_perform _) (by omega) fun _ => within_ite (within_throw _ _) (within_pure _ _)

theorem within_apply (d : Directive) :
    Within (3 * fitted.outputs.names.length + 13) (apply fitted d) := by
  unfold apply
  refine within_bind within_refuseIfLatched (by omega) fun _ => within_get fun p => ?_
  refine within_ite (within_refuse _ _ _) (within_ite (within_refuse _ _ _) ?_)
  cases d with
  | pauseUnconditional => exact (within_pause _ _ _).mono (by omega)
  | pauseOptional => exact (within_pauseIfEnabled _ _).mono (by omega)
  | resumeObserved => exact (within_resume _).mono (by omega)
  | programEnd | programEndRepeat => exact (within_finish _ _ _).mono (by omega)
  | emergencyStop | setOptionalStop => exact within_throw _ _

theorem within_beginProgram : Within 4 beginProgram := by
  unfold beginProgram
  refine within_bind within_refuseIfLatched (by omega) fun _ => within_get fun p => ?_
  refine within_ite (within_refuse _ _ _) (within_set ?_)
  refine within_bind (within_enter _) (by omega) fun _ => ?_
  exact within_bind (within_perform _) (by omega) fun _ => within_pure _ _

end

end Transition

namespace Call

theorem within_service (fitted : Equipment) (p : Program) (call : Call) :
    Course.Within (3 * fitted.outputs.names.length + 13) (call.service fitted p) := by
  cases call with
  | directive d =>
    exact Course.Within.bind (m := 0) (Transition.within_apply fitted d p) fun _ => .done 0 _
  | beginProgram =>
    have begins : Course.Within 4 (Call.beginProgram.service fitted p) :=
      Course.Within.bind (m := 0) (Transition.within_beginProgram p) fun _ => .done 0 _
    exact begins.mono (by omega)

theorem within_emergencyStop : Course.Within 2 emergencyStop :=
  .act fun _ => .act fun _ => .done 0 _

theorem within_submission (call : Call) : Course.Within 3 call.submission := by
  have looks (next : Course Submission) (within : Course.Within 2 next) :
      Course.Within 3 (unlessLatched next) := by
    refine .act fun latched => ?_
    cases latched with
    | true => exact .done 2 _
    | false => exact within
  cases call with
  | beginProgram => exact looks _ (.done 2 _)
  | directive d =>
    cases d with
    | emergencyStop => exact .act fun _ => .act fun _ => .act fun _ => .done 0 _
    | setOptionalStop enabled => exact looks _ (.act fun _ => .act fun _ => .done 0 _)
    | _ => exact looks _ (.done 2 _)

end Call

end ProgramControl
