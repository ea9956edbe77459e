import ProgramControl.Dispatch.Unwinding
import ProgramControl.Proofs.Dispatch.Stop

/-!
# Passages of a system whose worker may break down

What one step of any thread does, while the worker is whole and while it unwinds, and what steps
lead to one after the other.

* `Frail.Move`, `move_of_move?`   the step of a thread, with one case for each kind;
* `Frail.Passage`                 steps of threads and changes by outsiders;
* `Frail.passage_run`             every run is one;
* `Passage.split_cons`            a passage can be cut before and after any of its steps;
* `Passage.whole_iff`             a worker is whole until something breaks down;
* `Passage.stays_latched`         a latched shutdown stays latched, whatever breaks down.
-/

namespace ProgramControl

variable {σ : Type}

namespace System

variable {world : Plant σ} {s t : System σ} {o : Occurrence σ}

theorem thread_of_moveCaller {i : Nat} (moved : s.moveCaller world i = some (o, t)) :
    o.thread = .caller i := by
  unfold moveCaller at moved
  split at moved
  · cases moved
  · split at moved
    · split at moved
      · cases moved
      · cases moved
        rfl
    · cases moved
      rfl
    · cases moved
      rfl
    · split at moved
      · split at moved
        · cases moved
          rfl
        · cases moved
      · cases moved
    · split at moved
      · cases moved
        rfl
      · split at moved
        · cases moved
          rfl
        · cases moved
    · cases moved

theorem thread_of_moveWorker (moved : s.moveWorker world = some (o, t)) : o.thread = .worker := by
  unfold moveWorker at moved
  split at moved
  · split at moved
    · cases moved
    · cases moved
      rfl
  · cases moved
    rfl
  · split at moved
    · split at moved
      · cases moved
        rfl
      · cases moved
        rfl
    · cases moved
  · cases moved

theorem thread_of_moveVisitor {i : Nat} (moved : s.moveVisitor world i = some (o, t)) :
    o.thread = .visitor i := by
  unfold moveVisitor at moved
  split at moved
  · split at moved
    · split at moved
      · cases moved
        rfl
      · cases moved
    · cases moved
  · cases moved

end System

namespace Happening

/-- The thread whose step it was. -/
def thread : Happening σ → Label
  | .shows o => o.thread
  | .drops _ | .closes => .worker
  | .hangsUp i => .caller i

def exchange? : Happening σ → Option (Exchange σ)
  | .shows o => o.exchange?
  | _ => none

def entered? : Happening σ → Option Errand
  | .shows o => o.entered?
  | _ => none

def occurrence? : Happening σ → Option (Occurrence σ)
  | .shows o => some o
  | _ => none

/-- The request whose reply is let go, given or not. -/
def released? : Happening σ → Option Errand
  | .shows (.replies errand _ _) | .drops errand => some errand
  | _ => none

end Happening

namespace Frail

/-- The steps of one thread. -/
def steps (l : Label) (h : List (Happening σ)) : List (Happening σ) := h.filter (·.thread = l)

theorem steps_append (l : Label) (h k : List (Happening σ)) :
    steps l (h ++ k) = steps l h ++ steps l k := List.filter_append ..

theorem steps_own {l : Label} {o : Happening σ} (own : o.thread = l) : steps l [o] = [o] :=
  List.filter_cons_of_pos (decide_eq_true own)

theorem steps_other {l : Label} {o : Happening σ} (other : o.thread ≠ l) : steps l [o] = [] :=
  List.filter_cons_of_neg fun same => other (of_decide_eq_true same)

/-- What is shown of the dispatch system. -/
def occurrences (h : List (Happening σ)) : List (Occurrence σ) := h.filterMap (·.occurrence?)

def entered (h : List (Happening σ)) : List Errand := h.filterMap (·.entered?)

def released (h : List (Happening σ)) : List Errand := h.filterMap (·.released?)

theorem occurrences_concat (h : List (Happening σ)) (o : Happening σ) :
    occurrences (h ++ [o]) = occurrences h ++ o.occurrence?.toList :=
  filterMap_concat _ h o

/-- Nothing has happened yet. -/
structure IsFresh (f : Frail σ) : Prop where
  system : f.system.IsFresh
  whole : f.unwinding = .whole

/-- The step of some thread, by what it shows. -/
inductive Move (world : Plant σ) : Frail σ → Happening σ → Frail σ → Prop where
  /-- a step of the dispatch system; its worker takes one only while it is whole -/
  | shows {f : Frail σ} {o : Occurrence σ} {t : System σ} (move : System.Move world f.system o t)
      (whole : o.thread = .worker → f.unwinding = .whole) (lasts : o ≠ .breaks) :
      Move world f (.shows o) { f with system := t }
  | breaks {f : Frail σ} {errand : Errand} {action : Action}
      {next : action.Answer → Course (Result × Program)} {plant : σ}
      (whole : f.unwinding = .whole) (busy : f.system.worker = .busy errand (.act action next))
      (done : world.perform action f.system.plant = (none, plant)) :
      Move world f (.shows .breaks) { system := { f.system with plant }, unwinding := .owing }
  | owed {f : Frail σ} {errand : Errand} {course : Course (Result × Program)}
      (owing : f.unwinding = .owing) (busy : f.system.worker = .busy errand course) :
      Move world f (.drops errand) { f with unwinding := .receiving }
  | closes {f : Frail σ} (receiving : f.unwinding = .receiving) :
      Move world f .closes { system := { f.system with worker := .dead }, unwinding := .closed }
  | drops {f : Frail σ} {errand : Errand} {channel : List Errand}
      (closed : f.unwinding = .closed) (first : f.system.channel = errand :: channel) :
      Move world f (.drops errand) { f with system := { f.system with channel } }
  | hangsUp {f : Frail σ} {i : Nat} {c : Caller} (place : f.system.callers[i]? = some c)
      (stage : c.stage = .awaiting) (gone : ∀ errand ∈ f.held, errand.caller ≠ i) :
      Move world f (.hangsUp i) { f with system := f.system.deliver i (.error .closed) }

variable {world : Plant σ} {outsiders : σ → σ → Prop} {f g k : Frail σ} {o : Happening σ}
  {h h' : List (Happening σ)}

theorem isAwaiting_iff {c : Caller} : c.isAwaiting ↔ c.stage = .awaiting := by
  unfold Caller.isAwaiting
  split
  · next stage => exact iff_of_true rfl stage
  · next other => exact iff_of_false Bool.false_ne_true other

theorem isForsaken_iff {i : Nat} : f.isForsaken i ↔ ∃ c, f.system.callers[i]? = some c ∧
    c.stage = .awaiting ∧ ∀ errand ∈ f.held, errand.caller ≠ i := by
  unfold isForsaken
  rw [Bool.and_eq_true, Option.any_eq_true, List.all_eq_true]
  simp only [isAwaiting_iff, bne_iff_ne]
  constructor
  · rintro ⟨⟨c, place, stage⟩, gone⟩
    exact ⟨c, place, stage, gone⟩
  · rintro ⟨c, place, stage, gone⟩
    exact ⟨⟨c, place, stage⟩, gone⟩

theorem owed?_owing {errand : Errand} (owing : f.unwinding = .owing) :
    f.owed? = some errand ↔ ∃ course, f.system.worker = .busy errand course := by
  unfold owed?
  rw [owing]
  cases f.system.worker with
  | busy errand' course =>
    constructor
    · rintro ⟨⟩
      exact ⟨course, rfl⟩
    · rintro ⟨course', same⟩
      cases same
      rfl
  | _ => exact iff_of_false nofun nofun

theorem move_of_move? {l : Label} (moved : move? world l f = some (o, g)) :
    Move world f o g ∧ o.thread = l := by
  cases l with
  | caller i =>
    have moved : f.moveCaller world i = some (o, g) := moved
    unfold moveCaller at moved
    split at moved
    · next forsaken =>
      cases moved
      obtain ⟨c, place, stage, gone⟩ := isForsaken_iff.1 forsaken
      exact ⟨.hangsUp place stage gone, rfl⟩
    · obtain ⟨⟨o, t⟩, moved', same⟩ := Option.map_eq_some_iff.1 moved
      cases same
      have thread := System.thread_of_moveCaller moved'
      refine ⟨.shows (System.move_of_moveCaller moved') ?_ ?_, thread⟩
      · exact fun worker => nomatch worker.symm.trans thread
      · rintro rfl
        cases thread
  | worker =>
    have moved : f.moveWorker world = some (o, g) := moved
    unfold moveWorker at moved
    split at moved
    · next whole =>
      split at moved
      · next moved' =>
        cases moved
        cases System.move_of_moveWorker moved' with
        | breaks busy done => exact ⟨.breaks whole busy done, rfl⟩
      · next lasts moved' =>
        cases moved
        refine ⟨.shows (System.move_of_moveWorker moved') (fun _ => whole) ?_,
          System.thread_of_moveWorker moved'⟩
        rintro rfl
        exact lasts rfl
      · cases moved
    · next owing =>
      obtain ⟨errand, owed, same⟩ := Option.map_eq_some_iff.1 moved
      cases same
      obtain ⟨course, busy⟩ := (owed?_owing owing).1 owed
      exact ⟨.owed owing busy, rfl⟩
    · next receiving =>
      cases moved
      exact ⟨.closes receiving, rfl⟩
    · next closed =>
      split at moved
      · cases moved
      · next first =>
        cases moved
        exact ⟨.drops closed first, rfl⟩
  | visitor i =>
    have moved : f.moveVisitor world i = some (o, g) := moved
    unfold moveVisitor at moved
    obtain ⟨⟨o, t⟩, moved', same⟩ := Option.map_eq_some_iff.1 moved
    cases same
    have thread := System.thread_of_moveVisitor moved'
    refine ⟨.shows (System.move_of_moveVisitor moved') ?_ ?_, thread⟩
    · exact fun worker => nomatch worker.symm.trans thread
    · rintro rfl
      cases thread

/-- Steps of threads in any order, and changes of the plant by outsiders between them. -/
inductive Passage (world : Plant σ) (outsiders : σ → σ → Prop) :
    Frail σ → List (Happening σ) → Frail σ → Prop where
  | refl (f : Frail σ) : Passage world outsiders f [] f
  | step {f g k : Frail σ} {l : Label} {o : Happening σ} {h : List (Happening σ)}
      (passage : Passage world outsiders f h g) (moved : move? world l g = some (o, k)) :
      Passage world outsiders f (h ++ [o]) k
  | outside {f g : Frail σ} {plant : σ} {h : List (Happening σ)}
      (passage : Passage world outsiders f h g) (change : outsiders g.system.plant plant) :
      Passage world outsiders f h { g with system := { g.system with plant } }

namespace Passage

theorem trans (passage : Passage world outsiders f h g) (more : Passage world outsiders g h' k) :
    Passage world outsiders f (h ++ h') k := by
  induction more with
  | refl => rwa [List.append_nil]
  | step _ moved ih =>
    rw [← List.append_assoc]
    exact ih.step moved
  | outside _ change ih => exact ih.outside change

theorem split_cons (passage : Passage world outsiders f (h ++ o :: h') k) :
    ∃ g g', Passage world outsiders f h g ∧ Move world g o g' ∧
      Passage world outsiders f (h ++ [o]) g' ∧ Passage world outsiders g' h' k := by
  generalize whole : h ++ o :: h' = all at passage
  induction passage generalizing h' with
  | refl => exact absurd whole (List.append_ne_nil_of_right_ne_nil h (List.cons_ne_nil o h'))
  | @step g k l last all passage moved ih =>
    rcases List.eq_nil_or_concat h' with rfl | ⟨h', last', rfl⟩
    · obtain ⟨rfl, same⟩ := List.append_inj' whole rfl
      cases same
      exact ⟨g, k, passage, (move_of_move? moved).1, passage.step moved, .refl k⟩
    · rw [List.concat_eq_append, ← List.cons_append, ← List.append_assoc] at whole
      obtain ⟨same, latest⟩ := List.append_inj' whole rfl
      cases latest
      obtain ⟨m, m', before, move, until_, after⟩ := ih same
      exact ⟨m, m', before, move, until_, List.concat_eq_append ▸ after.step moved⟩
  | outside passage change ih =>
    obtain ⟨m, m', before, move, until_, after⟩ := ih whole
    exact ⟨m, m', before, move, until_, after.outside change⟩

end Passage

/-- What a run shows. -/
def shown (world : Plant σ) : List Label → Frail σ → List (Happening σ)
  | [], _ => []
  | l :: labels, f =>
    match move? world l f with
    | some (o, f) => o :: shown world labels f
    | none => shown world labels f

theorem passage_run (world : Plant σ) (outsiders : σ → σ → Prop) (labels : List Label)
    (f : Frail σ) : Passage world outsiders f (shown world labels f) (run world labels f) := by
  induction labels generalizing f with
  | nil => exact .refl f
  | cons l labels ih =>
    have rest := ih (step world l f)
    rw [run, List.foldl_cons, ← run, shown]
    cases moved : move? world l f with
    | none =>
      have same : step world l f = f := by rw [step, moved]; rfl
      rw [same] at rest ⊢
      exact rest
    | some next =>
      obtain ⟨o, g⟩ := next
      have same : step world l f = g := by rw [step, moved]; rfl
      rw [same] at rest ⊢
      exact ((Passage.refl f).step moved).trans rest

/-! ## The worker and the latch -/

theorem whole_of_move (move : Move world f o g) (whole : g.unwinding = .whole) :
    f.unwinding = .whole ∧ o ≠ .shows .breaks := by
  cases move with
  | shows move _ lasts => exact ⟨whole, fun same => lasts (by cases same; rfl)⟩
  | hangsUp => exact ⟨whole, nofun⟩
  | breaks => cases whole
  | owed => cases whole
  | closes => cases whole
  | drops closed => cases closed.symm.trans whole

theorem breaks_of_move (move : Move world f o g) (whole : f.unwinding = .whole)
    (broken : g.unwinding ≠ .whole) : o = .shows .breaks := by
  cases move with
  | breaks => rfl
  | shows | hangsUp => exact absurd whole broken
  | owed owing => cases whole.symm.trans owing
  | closes receiving => cases whole.symm.trans receiving
  | drops closed => cases whole.symm.trans closed

/-- A worker is whole until something breaks down. -/
theorem Passage.whole_iff (whole : f.unwinding = .whole)
    (passage : Passage world outsiders f h g) : g.unwinding = .whole ↔ .shows .breaks ∉ h := by
  induction passage with
  | refl => exact iff_of_true whole List.not_mem_nil
  | outside _ _ ih => exact ih
  | step _ moved ih =>
    have move := (move_of_move? moved).1
    rw [List.mem_append, List.mem_singleton, not_or, ← ih]
    constructor
    · intro still
      obtain ⟨before, other⟩ := whole_of_move move still
      exact ⟨before, fun same => other same.symm⟩
    · rintro ⟨before, other⟩
      exact Classical.byContradiction fun broken => other (breaks_of_move move before broken).symm

theorem Passage.whole_of_whole (passage : Passage world outsiders f h g)
    (whole : g.unwinding = .whole) : f.unwinding = .whole := by
  induction passage with
  | refl => exact whole
  | step _ moved ih => exact ih (whole_of_move (move_of_move? moved).1 whole).1
  | outside _ _ ih => exact ih whole

theorem exchange_of_move (move : Move world f o g) {x : Exchange σ}
    (exchange : o.exchange? = some x) :
    x.CarriedOut world ∧ x.before = f.system.plant ∧ x.after = g.system.plant := by
  cases move with
  | shows move => exact System.exchange_of_move move exchange
  | _ => cases exchange

variable {latched : σ → Bool} (latches : world.Latches latched)
  (outside : ∀ s s', outsiders s s' → latched s → latched s')

include latches

theorem latched_of_move (move : Move world f o g) (l : latched f.system.plant) :
    latched g.system.plant := by
  cases move with
  | shows move => exact System.latched_of_move latches move l
  | breaks _ _ done => exact latches.kept done l
  | _ => exact l

include outside

theorem Passage.stays_latched (passage : Passage world outsiders f h g)
    (l : latched f.system.plant) : latched g.system.plant := by
  induction passage with
  | refl => exact l
  | step _ moved ih => exact latched_of_move latches (move_of_move? moved).1 ih
  | outside _ change ih => exact outside _ _ change ih

theorem Passage.exchange_latched (passage : Passage world outsiders f h g)
    (l : latched f.system.plant) :
    ∀ o ∈ h, ∀ x, o.exchange? = some x → latched x.before := by
  intro o mem x exchange
  obtain ⟨h₁, h₂, rfl⟩ := List.append_of_mem mem
  obtain ⟨m, m', before, move, -, -⟩ := passage.split_cons
  rw [(exchange_of_move move exchange).2.1]
  exact before.stays_latched latches outside l

end Frail

end ProgramControl
