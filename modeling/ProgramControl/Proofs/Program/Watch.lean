import ProgramControl.Proofs.Program.History

/-!
# Watching a course

A watch follows a course from outside.  It has a state of its own, which every answer moves on, and
it says which actions are allowed in which state.  A course obeys a watch if it does nothing else,
whatever comes back.

* `Course.Obeys`            obedience, with what must hold at the end;
* `Course.Obeys.reaches`    a history of an obedient course is allowed, exchange by exchange;
* `Transition.Obeys`        the same for transitions, with one rule for each way to build one.
-/

namespace ProgramControl

structure Watch (γ : Type) where
  allows : γ → Action → Prop
  next : γ → (action : Action) → action.Answer → γ

variable {σ γ α β : Type}

namespace Watch

/-- The state of the watch after a history. -/
def after (w : Watch γ) (g : γ) (h : List (Exchange σ)) : γ :=
  h.foldl (fun g x => w.next g x.action x.answer) g

/-- Every action of a history was allowed when it was its turn. -/
def Allows (w : Watch γ) : γ → List (Exchange σ) → Prop
  | _, [] => True
  | g, x :: h => w.allows g x.action ∧ Allows w (w.next g x.action x.answer) h

theorem after_cons (w : Watch γ) (g : γ) (x : Exchange σ) (h : List (Exchange σ)) :
    w.after g (x :: h) = w.after (w.next g x.action x.answer) h := rfl

theorem allows_append (w : Watch γ) (g : γ) (h k : List (Exchange σ)) :
    w.Allows g (h ++ k) ↔ w.Allows g h ∧ w.Allows (w.after g h) k := by
  induction h generalizing g with
  | nil => simp only [List.nil_append, Allows, true_and]; rfl
  | cons x h ih => simp only [List.cons_append, Allows, ih, and_assoc]; rfl

/-- The watch takes no notice of an action. -/
def Ignores (w : Watch γ) (action : Action) : Prop :=
  ∀ g, w.allows g action ∧ ∀ answer, w.next g action answer = g

/-- The watch takes no notice of what a program tells about itself. -/
structure IsQuiet (w : Watch γ) : Prop where
  report (entry : Entry) : w.Ignores (.report entry)
  publish (state : RunState) : w.Ignores (.publish state)

end Watch

namespace Course

/-- Whatever comes back, the course does only what the watch allows, and at the end `post` holds
of the watch and the result. -/
def Obeys (w : Watch γ) : γ → Course α → (γ → α → Prop) → Prop
  | g, .done a, post => post g a
  | g, .act action next, post =>
    w.allows g action ∧ ∀ answer, Obeys w (w.next g action answer) (next answer) post

variable {w : Watch γ} {g : γ}

theorem Obeys.mono {post post' : γ → α → Prop} {c : Course α} (h : Obeys w g c post)
    (imp : ∀ g a, post g a → post' g a) : Obeys w g c post' := by
  induction c generalizing g with
  | done a => exact imp g a h
  | act action next ih => exact ⟨h.1, fun answer => ih answer (h.2 answer)⟩

theorem obeys_bind (c : Course α) (f : α → Course β) (post : γ → β → Prop) :
    Obeys w g (c.bind f) post ↔ Obeys w g c fun g a => Obeys w g (f a) post := by
  induction c generalizing g with
  | done a => rfl
  | act action next ih => simp only [bind, Obeys, ih]

theorem Obeys.reaches {post : γ → α → Prop} {c d : Course α} {h : List (Exchange σ)}
    (obeys : Obeys w g c post) (r : c.Reaches h d) :
    w.Allows g h ∧ Obeys w (w.after g h) d post := by
  induction r generalizing g with
  | refl c => exact ⟨trivial, obeys⟩
  | @act action next answer _ _ _ _ rest ih =>
    obtain ⟨allowed, left⟩ := ih (obeys.2 answer)
    exact ⟨⟨obeys.1, allowed⟩, left⟩

end Course

namespace Transition

/-- A transition on the program `p` obeys a watch; `post` is about the watch, the result and the
program afterwards. -/
def Obeys (w : Watch γ) (g : γ) (p : Program) (t : Transition α)
    (post : γ → Except Refusal α → Program → Prop) : Prop :=
  Course.Obeys w g (t.run.run p) fun g end_ => post g end_.1 end_.2

variable {w : Watch γ} {g : γ} {p : Program} {post : γ → Except Refusal α → Program → Prop}

theorem Obeys.mono {post' : γ → Except Refusal α → Program → Prop} {t : Transition α}
    (h : Obeys w g p t post) (imp : ∀ g r q, post g r q → post' g r q) : Obeys w g p t post' :=
  Course.Obeys.mono h fun g a => imp g a.1 a.2

/-- How the rest of a transition starts after its first part. -/
def Then (w : Watch γ) (f : α → Transition β) (post : γ → Except Refusal β → Program → Prop) :
    γ → Except Refusal α → Program → Prop
  | g, .ok a, p => Obeys w g p (f a) post
  | g, .error e, p => post g (.error e) p

@[simp] theorem then_ok (f : α → Transition β) (post : γ → Except Refusal β → Program → Prop)
    (a : α) : Then w f post g (.ok a) p = Obeys w g p (f a) post := rfl

@[simp] theorem then_error (f : α → Transition β) (post : γ → Except Refusal β → Program → Prop)
    (e : Refusal) : Then w f post g (.error e) p = post g (.error e) p := rfl

@[simp] theorem obeys_pure (a : α) : Obeys w g p (pure a) post ↔ post g (.ok a) p := Iff.rfl

@[simp] theorem obeys_throw (e : Refusal) :
    Obeys w g p (throw e : Transition α) post ↔ post g (.error e) p := Iff.rfl

@[simp] theorem obeys_bind (t : Transition α) (f : α → Transition β)
    (post : γ → Except Refusal β → Program → Prop) :
    Obeys w g p (t >>= f) post ↔ Obeys w g p t (Then w f post) := by
  unfold Obeys
  rw [run_bind, Course.obeys_bind]
  refine iff_of_eq (congrArg (Course.Obeys w g _) ?_)
  funext g end_
  obtain ⟨r, q⟩ := end_
  cases r <;> rfl

@[simp] theorem obeys_perform (action : Action)
    (post : γ → Except Refusal action.Answer → Program → Prop) :
    @Obeys γ (no_index action.Answer) w g p (perform action) post ↔
      w.allows g action ∧ ∀ answer, post (w.next g action answer) (.ok answer) p := Iff.rfl

theorem obeys_ignored {action : Action} (ignored : w.Ignores action)
    (post : γ → Except Refusal action.Answer → Program → Prop) :
    Obeys w g p (perform action) post ↔ ∀ answer, post g (.ok answer) p := by
  obtain ⟨allowed, same⟩ := ignored g
  rw [obeys_perform]
  simp only [allowed, same, true_and]

@[simp] theorem obeys_get (post : γ → Except Refusal Program → Program → Prop) :
    Obeys w g p get post ↔ post g (.ok p) p := Iff.rfl

@[simp] theorem obeys_set (q : Program) (post : γ → Except Refusal PUnit → Program → Prop) :
    Obeys w g p (set q) post ↔ post g (.ok ⟨⟩) q := Iff.rfl

@[simp] theorem obeys_ite {c : Prop} [Decidable c] (t u : Transition α) :
    Obeys w g p (if c then t else u) post ↔
      (c → Obeys w g p t post) ∧ (¬c → Obeys w g p u post) := by
  by_cases h : c <;> simp only [h, if_true, if_false, true_imp_iff, false_imp_iff, not_true,
    not_false_iff, and_true, true_and]

/-- A walk over a list keeps to `inv`, which may speak of the names still to come, until a visit
stops it, which leaves `halted`. -/
theorem obeys_walk_along {visit : String → Transition Flow} (inv : List String → γ → Prop)
    (halted : γ → Prop)
    (visits : ∀ n rest g, inv (n :: rest) g → Obeys w g p (visit n) fun g r q =>
      q = p ∧ (r = .ok .go ∧ inv rest g ∨ r = .ok .stop ∧ halted g))
    (names : List String) (start : inv names g) :
    Obeys w g p (Roster.walk visit names) fun g r q =>
      q = p ∧ (r = .ok .go ∧ inv [] g ∨ r = .ok .stop ∧ halted g) := by
  induction names generalizing g with
  | nil => exact ⟨rfl, .inl ⟨rfl, start⟩⟩
  | cons n names ih =>
    rw [Roster.walk, obeys_bind]
    refine (visits n names g start).mono fun g r q h => ?_
    rcases h with ⟨rfl, ⟨rfl, keeps⟩ | ⟨rfl, stops⟩⟩
    · exact ih keeps
    · exact ⟨rfl, .inr ⟨rfl, stops⟩⟩

/-! ## The parts of a transition -/

@[simp] theorem obeys_outcome (d : Directive) (steps : StepSet) (message : String)
    (post : γ → Except Refusal Outcome → Program → Prop) :
    Obeys w g p (outcome d steps message) post ↔ post g (.ok ⟨d, p.state, steps, message⟩) p :=
  Iff.rfl

@[simp] theorem obeys_refuseIfLatched (post : γ → Except Refusal Unit → Program → Prop) :
    Obeys w g p refuseIfLatched post ↔ w.allows g .readLatch ∧
      post (w.next g .readLatch true) (.error .alreadyShutdown) p ∧
      post (w.next g .readLatch false) (.ok ()) p := by
  rw [refuseIfLatched, obeys_bind, obeys_perform, Bool.forall_bool, and_comm (a := Then ..)]
  rfl

@[simp] theorem obeys_waitForStandstill (post : γ → Except Refusal Unit → Program → Prop) :
    Obeys w g p waitForStandstill post ↔ w.allows g .approachBarrier ∧
      w.allows (w.next g .approachBarrier ()) .awaitStandstill ∧
      post (w.next (w.next g .approachBarrier ()) .awaitStandstill ()) (.ok ()) p := by
  rw [waitForStandstill, obeys_bind, obeys_perform]
  exact and_congr_right fun _ => ⟨fun h => ⟨(h ()).1, (h ()).2 ()⟩, fun h _ => ⟨h.1, fun _ => h.2⟩⟩

section
variable (reports : ∀ entry, w.Ignores (.report entry))
include reports

theorem obeys_report (entry : Entry) (post : γ → Except Refusal Unit → Program → Prop) :
    Obeys w g p (perform (.report entry)) post ↔ post g (.ok ()) p :=
  (obeys_ignored (reports entry) post).trans ⟨fun h => h (), fun h _ => h⟩

/-- All that a watch sees of entering a run state is that the state is published. -/
theorem obeys_enter_publish (state : RunState) (post : γ → Except Refusal Unit → Program → Prop) :
    Obeys w g p (enter state) post ↔ w.allows g (.publish state) ∧
      post (w.next g (.publish state) ()) (.ok ()) { p with state } := by
  have publishes : Obeys w g { p with state } (perform (.publish state)) post ↔
      w.allows g (.publish state) ∧
        post (w.next g (.publish state) ()) (.ok ()) { p with state } := by
    rw [obeys_perform]
    exact and_congr_right fun _ => ⟨fun h => h (), fun h _ => h⟩
  rw [enter, obeys_bind, obeys_get, then_ok]
  by_cases same : p.state = state
  · simp only [same, ne_eq, not_true, if_false, obeys_bind, obeys_set, then_ok]
    exact publishes
  · simp only [same, ne_eq, not_false_iff, if_true, obeys_bind, obeys_set, then_ok,
      obeys_report reports]
    exact publishes

theorem obeys_preempted (d : Directive) (completed : StepSet) :
    Obeys w g p (preempted d completed) post ↔ post g (.error (.preempted d completed)) p := by
  rw [preempted, obeys_bind, obeys_report reports]
  rfl

theorem obeys_checkpoint (d : Directive) (completed : StepSet)
    (post : γ → Except Refusal Unit → Program → Prop) :
    Obeys w g p (checkpoint d completed) post ↔ w.allows g .readLatch ∧
      post (w.next g .readLatch true) (.error (.preempted d completed)) p ∧
      post (w.next g .readLatch false) (.ok ()) p := by
  rw [checkpoint, obeys_bind, obeys_perform, Bool.forall_bool, and_comm (a := Then ..), then_ok,
    then_ok, if_pos rfl, obeys_preempted reports]
  rfl

/-- An output is told to stop only after a look at the latch. -/
theorem obeys_shutOff (d : Directive) (output : String)
    (post : γ → Except Refusal Flow → Program → Prop) :
    Obeys w g p (shutOff d output) post ↔ w.allows g .readLatch ∧
      post (w.next g .readLatch true) (.ok .stop) p ∧
      w.allows (w.next g .readLatch false) (.shutOff output) ∧
      ∀ answer, post (w.next (w.next g .readLatch false) (.shutOff output) answer) (.ok .go) p := by
  rw [shutOff, obeys_bind, obeys_perform, Bool.forall_bool, and_comm (a := Then ..), then_ok,
    then_ok, if_pos rfl, obeys_pure, if_neg Bool.false_ne_true, obeys_bind, obeys_perform]
  refine and_congr_right fun _ => and_congr_right fun _ => and_congr_right fun _ =>
    forall_congr' fun answer => ?_
  cases answer with
  | ok => rfl
  | error fault => rw [then_ok, obeys_bind, obeys_report reports]; rfl

theorem obeys_shutOffAll_along {fitted : Equipment} (d : Directive) (completed : StepSet)
    (inv : List String → γ → Prop) (halted : γ → Prop)
    (visits : ∀ n rest g, inv (n :: rest) g →
      w.allows g .readLatch ∧ halted (w.next g .readLatch true) ∧
      w.allows (w.next g .readLatch false) (.shutOff n) ∧
      ∀ answer, inv rest (w.next (w.next g .readLatch false) (.shutOff n) answer))
    (start : inv fitted.outputs.names g) :
    Obeys w g p (shutOffAll fitted d completed) fun g r q => q = p ∧
      (r = .ok () ∧ inv [] g ∨ r = .error (.preempted d completed) ∧ halted g) := by
  rw [shutOffAll, obeys_bind]
  refine (obeys_walk_along inv halted ?_ fitted.outputs.names start).mono ?_
  · intro n rest g keeps
    obtain ⟨looks, stops, tells, goes⟩ := visits n rest g keeps
    rw [obeys_shutOff reports]
    exact ⟨looks, ⟨rfl, .inr ⟨rfl, stops⟩⟩, tells, fun answer => ⟨rfl, .inl ⟨rfl, goes answer⟩⟩⟩
  · rintro g r q ⟨rfl, ⟨rfl, keeps⟩ | ⟨rfl, stops⟩⟩
    · exact ⟨rfl, .inl ⟨rfl, keeps⟩⟩
    · rw [then_ok, obeys_preempted reports]
      exact ⟨rfl, .inr ⟨rfl, stops⟩⟩

theorem obeys_shutOffAll {fitted : Equipment} (d : Directive) (completed : StepSet)
    (inv halted : γ → Prop)
    (visits : ∀ n g, inv g → w.allows g .readLatch ∧ halted (w.next g .readLatch true) ∧
      w.allows (w.next g .readLatch false) (.shutOff n) ∧
      ∀ answer, inv (w.next (w.next g .readLatch false) (.shutOff n) answer))
    (start : inv g) :
    Obeys w g p (shutOffAll fitted d completed) fun g r q => q = p ∧
      (r = .ok () ∧ inv g ∨ r = .error (.preempted d completed) ∧ halted g) :=
  obeys_shutOffAll_along reports d completed (fun _ => inv) halted (fun n _ g => visits n g) start

end

theorem obeys_enter (quiet : w.IsQuiet) (state : RunState)
    (post : γ → Except Refusal Unit → Program → Prop) :
    Obeys w g p (enter state) post ↔ post g (.ok ()) { p with state } := by
  obtain ⟨allowed, same⟩ := quiet.publish state g
  rw [obeys_enter_publish quiet.report, same ()]
  exact and_iff_right allowed

end Transition

end ProgramControl
