import ProgramControl.Proofs.Dispatch.Passage
import ProgramControl.Proofs.Program.Length

/-!
# Coming to rest

Threads of a dispatch system cannot go on for ever.  Every step spends one unit of a budget: a call
that was not begun yet stands for `stepsPerCall` units, a call in the channel for `errandSteps`, and
a course that is under way for as many as it has actions left.

* `Shares`                    a list whose members share a budget;
* `System.Within n`           the threads of the system have `n` steps left at most;
* `within_of_move`            a step takes one of them;
* `Passage.length_le`         so a passage of a fresh system has so many steps for each call;
* `Brief.within`              and what is left of them can be counted at any time.
-/

namespace ProgramControl

variable {α σ : Type}

/-- Each member of the list has a share of the budget that is enough for it. -/
inductive Shares (enough : Nat → α → Prop) : Nat → List α → Prop where
  | nil (n : Nat) : Shares enough n []
  | cons {n m : Nat} {a : α} {l : List α} (first : enough n a) (rest : Shares enough m l) :
      Shares enough (n + m) (a :: l)

namespace Shares

variable {enough : Nat → α → Prop} {n : Nat} {l : List α} {a : α}

/-- The share of one member, for which another member may come. -/
theorem exchange (shares : Shares enough n l) {i : Nat} (place : l[i]? = some a) :
    ∃ k m, n = k + m ∧ enough k a ∧
      ∀ k' a', enough k' a' → Shares enough (k' + m) (l.set i a') := by
  induction shares generalizing i with
  | nil => cases place
  | @cons n m b l first rest ih =>
    cases i with
    | zero =>
      cases place
      exact ⟨n, m, rfl, first, fun k' a' other => .cons other rest⟩
    | succ i =>
      obtain ⟨k, m', rfl, share, others⟩ := ih place
      refine ⟨k, n + m', by omega, share, fun k' a' other => ?_⟩
      have same : k' + (n + m') = n + (k' + m') := by omega
      rw [same]
      exact .cons first (others k' a' other)

theorem map {f : α → α} (keeps : ∀ k a, enough k a → enough k (f a))
    (shares : Shares enough n l) : Shares enough n (l.map f) := by
  induction shares with
  | nil n => exact .nil n
  | cons first _ ih => exact .cons (keeps _ _ first) ih

theorem modify {f : α → α} (keeps : ∀ k a, enough k a → enough k (f a))
    (shares : Shares enough n l) (i : Nat) : Shares enough n (l.modify i f) := by
  induction shares generalizing i with
  | nil n => cases i <;> exact .nil n
  | cons first rest ih =>
    cases i with
    | zero => exact .cons (keeps _ _ first) rest
    | succ i => exact .cons first (ih i)

end Shares

/-- Enough for what the worker does about a call that is in the channel. -/
def errandSteps : Nat := 63

/-- What is enough for a caller, apart from its call in the channel. -/
def Caller.Within (n : Nat) (c : Caller) : Prop :=
  match c.stage with
  | .free | .awaiting => System.stepsPerCall * c.todo.length ≤ n
  | .sending _ => System.stepsPerCall * c.todo.length + errandSteps + 1 ≤ n
  | .calling _ course =>
    ∃ m, course.Within m ∧ System.stepsPerCall * c.todo.length + errandSteps + 2 + m ≤ n

/-- What is enough for the worker to finish the call in hand. -/
def Worker.Within (n : Nat) : Worker → Prop
  | .busy _ course => ∃ m, course.Within m ∧ m + 1 ≤ n
  | _ => True

theorem Caller.Within.receive {n : Nat} {c : Caller} {result : Result} (within : c.Within n) :
    (c.receive result).Within n := by
  show System.stepsPerCall * c.todo.length ≤ n
  unfold Caller.Within at within
  split at within
  · exact within
  · exact within
  · omega
  · obtain ⟨m, -, le⟩ := within
    omega

namespace System

/-- The threads of the system have so many steps left at most. -/
def Within (n : Nat) (s : System σ) : Prop :=
  ∃ callers worker visitors, Shares (fun n c => c.Within n) callers s.callers ∧
    s.worker.Within worker ∧ Shares Course.Within visitors s.visitors ∧
    callers + errandSteps * s.channel.length + worker + visitors ≤ n

variable {world : Plant σ} {outsiders : σ → σ → Prop} {s t : System σ} {o : Occurrence σ}
  {h : List (Occurrence σ)} {n : Nat}

/-- A step of a caller takes one from its share, or from what it leaves to the worker. -/
theorem within_setCaller {i : Nat} {c c' : Caller} (place : s.callers[i]? = some c)
    (within : s.Within n) (channel : List Errand) (plant : σ)
    (spends : ∀ k, c.Within k → ∃ k', c'.Within k' ∧
      k' + errandSteps * channel.length + 1 ≤ k + errandSteps * s.channel.length) :
    ∃ m, m + 1 ≤ n ∧ System.Within m { s.setCaller i c' with channel, plant } := by
  obtain ⟨callers, worker, visitors, shares, busy, visits, le⟩ := within
  obtain ⟨k, rest, rfl, share, others⟩ := shares.exchange place
  obtain ⟨k', share', le'⟩ := spends k share
  refine ⟨n - 1, by omega, k' + rest, worker, visitors, others k' c' share', busy, visits, ?_⟩
  show k' + rest + errandSteps * channel.length + worker + visitors ≤ n - 1
  omega

/-- What one step preserves: it takes one from the budget. -/
theorem within_of_move (move : Move world s o t) (within : s.Within n) :
    ∃ m, m + 1 ≤ n ∧ t.Within m := by
  cases move with
  | @begins i c call todo place stage next =>
    refine within_setCaller place within s.channel s.plant fun k share => ?_
    rw [Caller.Within, stage, next, List.length_cons, Nat.mul_succ] at share
    refine ⟨stepsPerCall * todo.length + errandSteps + 2 + 3,
      ⟨3, call.within_submission, Nat.le_refl _⟩, ?_⟩
    simp only [stepsPerCall, errandSteps] at share ⊢
    omega
  | @onCaller i c call action next answer plant place stage done =>
    refine within_setCaller place within s.channel plant fun k share => ?_
    rw [Caller.Within, stage] at share
    obtain ⟨m, course, le⟩ := share
    cases course with
    | @act m _ _ rest =>
      refine ⟨stepsPerCall * c.todo.length + errandSteps + 2 + m,
        ⟨m, rest answer, Nat.le_refl _⟩, ?_⟩
      omega
  | @defers i c call place stage =>
    refine within_setCaller place within s.channel s.plant fun k share => ?_
    rw [Caller.Within, stage] at share
    obtain ⟨m, -, le⟩ := share
    exact ⟨stepsPerCall * c.todo.length + errandSteps + 1, Nat.le_refl _, by omega⟩
  | @settles i c call result place stage =>
    refine within_setCaller place within s.channel s.plant fun k share => ?_
    rw [Caller.Within, stage] at share
    obtain ⟨m, -, le⟩ := share
    exact ⟨stepsPerCall * c.todo.length, Nat.le_refl _, by omega⟩
  | @closed i c call place stage dead =>
    refine within_setCaller place within s.channel s.plant fun k share => ?_
    rw [Caller.Within, stage] at share
    exact ⟨stepsPerCall * c.todo.length, Nat.le_refl _, by omega⟩
  | @enters i c call place stage room =>
    refine within_setCaller place within (s.channel ++ [⟨i, call⟩]) s.plant fun k share => ?_
    rw [Caller.Within, stage] at share
    refine ⟨stepsPerCall * c.todo.length, Nat.le_refl _, ?_⟩
    rw [List.length_append, List.length_singleton, Nat.mul_add]
    omega
  | @takes p errand channel idle first =>
    obtain ⟨callers, worker, visitors, shares, busy, visits, le⟩ := within
    have outputs := s.fitted.outputs.length_le
    rw [first, List.length_cons, Nat.mul_add] at le
    refine ⟨n - 1, by simp only [errandSteps] at le; omega, callers, worker + 62, visitors, shares,
      ⟨_, errand.call.within_service s.fitted p, by omega⟩, visits, ?_⟩
    show callers + errandSteps * channel.length + (worker + 62) + visitors ≤ n - 1
    simp only [errandSteps] at le ⊢
    omega
  | @onWorker errand action next answer plant busy done =>
    obtain ⟨callers, worker, visitors, shares, share, visits, le⟩ := within
    rw [busy] at share
    obtain ⟨m, course, spent⟩ := share
    cases course with
    | @act m _ _ rest =>
      refine ⟨n - 1, by omega, callers, worker - 1, visitors, shares,
        ⟨m, rest answer, by omega⟩, visits, ?_⟩
      show callers + errandSteps * s.channel.length + (worker - 1) + visitors ≤ n - 1
      omega
  | @replies errand result p busy =>
    obtain ⟨callers, worker, visitors, shares, share, visits, le⟩ := within
    rw [busy] at share
    obtain ⟨m, -, spent⟩ := share
    refine ⟨n - 1, by omega, callers, worker - 1, visitors,
      shares.modify (fun _ _ within => within.receive) _, trivial, visits, ?_⟩
    show callers + errandSteps * s.channel.length + (worker - 1) + visitors ≤ n - 1
    omega
  | @breaks errand action next plant busy done =>
    obtain ⟨callers, worker, visitors, shares, share, visits, le⟩ := within
    rw [busy] at share
    obtain ⟨m, -, spent⟩ := share
    refine ⟨n - 1, by omega, callers, worker - 1, visitors, shares.map ?_, trivial, visits, ?_⟩
    · intro k c within
      split
      · exact within.receive
      · exact within
    · show callers + errandSteps * 0 + (worker - 1) + visitors ≤ n - 1
      omega
  | @onVisitor i action next answer plant place done =>
    obtain ⟨callers, worker, visitors, shares, busy, visits, le⟩ := within
    obtain ⟨k, rest, rfl, share, others⟩ := visits.exchange place
    cases share with
    | @act m _ _ left =>
      refine ⟨n - 1, by omega, callers, worker, m + rest, shares, busy,
        others m _ (left answer), ?_⟩
      show callers + errandSteps * s.channel.length + worker + (m + rest) ≤ n - 1
      omega

theorem Passage.within (passage : Passage world outsiders s h t) (within : s.Within n) :
    ∃ m, h.length + m ≤ n ∧ t.Within m := by
  induction passage with
  | refl => exact ⟨n, by rw [List.length_nil]; omega, within⟩
  | @step m u l o h passage moved ih =>
    obtain ⟨k, le, left⟩ := ih
    obtain ⟨k', spent, left'⟩ := within_of_move (move_of_move? moved) left
    exact ⟨k', by rw [List.length_append, List.length_singleton]; omega, left'⟩
  | outside _ _ ih => exact ih

/-! ## Counting what is left -/

end System

/-- What the caller does itself in a call is short. -/
def Caller.Brief (c : Caller) : Prop :=
  ∀ call course, c.stage = .calling call course → course.Within 3

theorem Caller.Brief.of_stage {c : Caller} (other : ∀ call course, c.stage ≠ .calling call course) :
    c.Brief :=
  fun call course stage => absurd stage (other call course)

theorem Caller.Brief.within {c : Caller} (brief : c.Brief) :
    c.Within (System.stepsPerCall * (c.todo.length + if c.isFree then 0 else 1)) := by
  unfold Caller.Within Caller.isFree
  cases stage : c.stage with
  | free => exact Nat.le_refl _
  | awaiting => exact Nat.mul_le_mul_left _ (Nat.le_add_right ..)
  | sending call =>
    simp only [System.stepsPerCall, errandSteps, Bool.false_eq_true, if_false]
    omega
  | calling call course =>
    refine ⟨3, brief call course stage, ?_⟩
    simp only [System.stepsPerCall, errandSteps, Bool.false_eq_true, if_false]
    omega

theorem Caller.Brief.receive {c : Caller} {result : Result} : (c.receive result).Brief :=
  .of_stage nofun

theorem Shares.of_brief {cs : List Caller} (brief : ∀ c ∈ cs, c.Brief) :
    Shares (fun n c => c.Within n) (System.stepsPerCall *
      cs.foldr (fun c n => c.todo.length + (if c.isFree then 0 else 1) + n) 0) cs := by
  induction cs with
  | nil => exact .nil _
  | cons c cs ih =>
    obtain ⟨first, others⟩ := List.forall_mem_cons.1 brief
    rw [List.foldr_cons, Nat.mul_add]
    exact .cons first.within (ih others)

theorem Shares.of_visits {vs : List (Course Bool)} (visits : ∀ v ∈ vs, v.Within 2) :
    Shares Course.Within (2 * vs.length) vs := by
  induction vs with
  | nil => exact .nil _
  | cons v vs ih =>
    obtain ⟨first, others⟩ := List.forall_mem_cons.1 visits
    rw [List.length_cons, Nat.mul_succ, Nat.add_comm]
    exact .cons first (ih others)

namespace System

variable {world : Plant σ} {outsiders : σ → σ → Prop} {s t : System σ} {o : Occurrence σ}
  {h : List (Occurrence σ)}

/-- Whatever is under way is the rest of a call. -/
structure Brief (s : System σ) : Prop where
  callers : ∀ c ∈ s.callers, c.Brief
  worker : s.worker.Within errandSteps
  visitors : ∀ v ∈ s.visitors, v.Within 2

theorem IsFresh.brief (fresh : s.IsFresh) : s.Brief where
  callers c mem := .of_stage fun call course stage => by
    cases (fresh.callers c mem).1.symm.trans stage
  worker := by
    rw [fresh.worker]
    trivial
  visitors v mem := fresh.visitors v mem ▸ Call.within_emergencyStop

theorem Brief.set (brief : s.Brief) (i : Nat) {c : Caller} (short : c.Brief) :
    ∀ c' ∈ s.callers.set i c, c'.Brief := by
  intro c' mem
  rcases List.mem_or_eq_of_mem_set mem with old | rfl
  · exact brief.callers c' old
  · exact short

theorem Brief.modify (brief : s.Brief) (i : Nat) {f : Caller → Caller}
    (keeps : ∀ c, c.Brief → (f c).Brief) : ∀ c' ∈ s.callers.modify i f, c'.Brief := by
  intro c' mem
  obtain ⟨j, place⟩ := List.getElem?_of_mem mem
  rw [List.getElem?_modify] at place
  obtain ⟨c, there, rfl⟩ := Option.map_eq_some_iff.1 place
  have short := brief.callers c (List.mem_of_getElem? there)
  split
  · exact keeps c short
  · exact short

theorem brief_of_move (move : Move world s o t) (brief : s.Brief) : t.Brief := by
  have worker := brief.worker
  cases move with
  | @begins i c call todo =>
    exact ⟨brief.set i fun _ _ stage => by cases stage; exact call.within_submission, worker,
      brief.visitors⟩
  | @onCaller i c call action next answer plant place stage =>
    refine ⟨brief.set i fun _ _ stage' => ?_, worker, brief.visitors⟩
    cases stage'
    have course := brief.callers c (List.mem_of_getElem? place) _ _ stage
    cases course with
    | act rest => exact (rest answer).mono (by decide)
  | defers | enters => exact ⟨brief.set _ (.of_stage nofun), worker, brief.visitors⟩
  | settles | closed => exact ⟨brief.set _ .receive, worker, brief.visitors⟩
  | @takes p errand =>
    have outputs := s.fitted.outputs.length_le
    exact ⟨brief.callers, ⟨_, errand.call.within_service s.fitted p, by rw [errandSteps]; omega⟩,
      brief.visitors⟩
  | @onWorker errand action next answer plant busy =>
    rw [busy] at worker
    obtain ⟨m, course, le⟩ := worker
    cases course with
    | act rest => exact ⟨brief.callers, ⟨_, rest answer, by omega⟩, brief.visitors⟩
  | replies =>
    exact ⟨brief.modify _ fun _ _ => .receive, trivial, brief.visitors⟩
  | breaks =>
    refine ⟨fun c mem => ?_, trivial, brief.visitors⟩
    obtain ⟨c', inside, rfl⟩ := List.mem_map.1 mem
    split
    · exact .receive
    · exact brief.callers c' inside
  | @onVisitor i action next answer plant place =>
    refine ⟨brief.callers, worker, fun v mem => ?_⟩
    rcases List.mem_or_eq_of_mem_set mem with old | rfl
    · exact brief.visitors v old
    · have course := brief.visitors _ (List.mem_of_getElem? place)
      cases course with
      | act rest => exact (rest answer).mono (by decide)

/-- What is enough for the calls that are open, those in the channel and the one in hand. -/
theorem Brief.within (brief : s.Brief) :
    s.Within (stepsPerCall * (s.openCalls + s.channel.length + 1) + 2 * s.visitors.length) := by
  refine ⟨_, _, _, Shares.of_brief brief.callers, brief.worker, Shares.of_visits brief.visitors, ?_⟩
  simp only [openCalls, stepsPerCall, errandSteps]
  omega

/-! ## Fresh systems -/

theorem IsFresh.within (fresh : s.IsFresh) : s.Within s.budget := by
  refine ⟨_, 0, _, Shares.of_brief fresh.brief.callers, ?_,
    Shares.of_visits fresh.brief.visitors, ?_⟩
  · rw [fresh.worker]
    trivial
  · rw [fresh.channel]
    exact Nat.le_refl _

/-- A passage has at most so many steps for each call and each visitor. -/
theorem Passage.length_le (fresh : s.IsFresh) (passage : Passage world outsiders s h t) :
    h.length ≤ s.budget := by
  obtain ⟨m, le, -⟩ := passage.within fresh.within
  omega

end System

end ProgramControl
