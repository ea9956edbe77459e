import ProgramControl.Proofs.Program.History

/-!
# Passages of a dispatch system

A passage leads from one state of a dispatch system to another by steps of its threads, in any
order, while outsiders change the plant at any moment between two steps.  It shows what its steps
show, in order.

* `Plant.NeverBreaks`, `Latches`, `IsPrompt`  what a plant may promise;
* `Move`, `move_of_move?`                the step of a thread, with one case for each kind;
* `Passage`                              steps of threads and changes by outsiders;
* `passage_run`                          every run is one;
* `Passage.split`, `Passage.split_cons`  a passage can be cut at any place, and before and after
                                         any of its steps.
-/

namespace ProgramControl

variable {σ : Type}

namespace Plant

/-- Every action that begins comes to an answer. -/
def NeverBreaks (world : Plant σ) : Prop :=
  ∀ action s, ∃ answer s', world.perform action s = (some answer, s')

theorem NeverBreaks.elim {world : Plant σ} (steady : world.NeverBreaks) {action : Action}
    {s s' : σ} (broke : world.perform action s = (none, s')) : False := by
  obtain ⟨answer, t, answered⟩ := steady action s
  rw [answered] at broke
  cases broke

/-- The plant has a shutdown latch: looks are truthful, the one trip that finds it clear is told so,
and it is never cleared. -/
structure Latches (world : Plant σ) (latched : σ → Bool) : Prop where
  look (s : σ) : world.perform .readLatch s = (some (latched s), s)
  trip (s : σ) : (world.perform .tripLatch s).1 = some (!latched s)
  tripped (s : σ) : latched (world.perform .tripLatch s).2
  stays (action : Action) (s : σ) : latched s → latched (world.perform action s).2

theorem Latches.kept {world : Plant σ} {latched : σ → Bool} (latches : world.Latches latched)
    {action : Action} {answer : Option action.Answer} {s s' : σ}
    (done : world.perform action s = (answer, s')) (l : latched s) : latched s' := by
  have stays := latches.stays action s l
  rw [done] at stays
  exact stays

/-- What an emergency stop does, and a look at the latch, wait for nobody. -/
def IsPrompt (world : Plant σ) : Prop :=
  ∀ action ∈ [Action.readLatch, .tripLatch, .haltMotion, .readPublished],
    ∀ s, world.ready action s

end Plant

/-- The plant does not make the course wait. -/
def Course.IsReady {α : Type} (world : Plant σ) (s : σ) : Course α → Prop
  | .act action _ => world.ready action s
  | .done _ => True

namespace Occurrence

/-- The caller whose call the step is a part of, on whichever thread. -/
def caller? : Occurrence σ → Option Nat
  | .begins i _ | .onCaller i _ | .defers i _ | .settles i _ _ => some i
  | .enters errand | .replies errand _ _ => some errand.caller
  | _ => none

/-- The action that was carried out, on whichever thread. -/
def exchange? : Occurrence σ → Option (Exchange σ)
  | .onCaller _ x | .onWorker x | .onVisitor _ x => some x
  | _ => none

end Occurrence

/-- The errand that the worker has in hand. -/
def Worker.errand? : Worker → Option Errand
  | .busy errand _ => some errand
  | _ => none

namespace System

/-- Requests that entered the channel and are not answered yet, the oldest first. -/
def waiting (s : System σ) : List Errand := s.worker.errand?.toList ++ s.channel

/-- Nothing has happened yet; visitors are about to stop the machine. -/
structure IsFresh (s : System σ) : Prop where
  worker : s.worker = .idle {}
  channel : s.channel = []
  callers : ∀ c ∈ s.callers, c.stage = .free ∧ c.results = []
  visitors : ∀ v ∈ s.visitors, v = Call.emergencyStop

/-- The step of some thread, by what it shows. -/
inductive Move (world : Plant σ) : System σ → Occurrence σ → System σ → Prop where
  | begins {s : System σ} {i : Nat} {c : Caller} {call : Call} {todo : List Call}
      (place : s.callers[i]? = some c) (stage : c.stage = .free) (next : c.todo = call :: todo) :
      Move world s (.begins i call)
        (s.setCaller i { c with todo, stage := .calling call call.submission })
  | onCaller {s : System σ} {i : Nat} {c : Caller} {call : Call} {action : Action}
      {next : action.Answer → Course Submission} {answer : action.Answer} {plant : σ}
      (place : s.callers[i]? = some c) (stage : c.stage = .calling call (.act action next))
      (done : world.perform action s.plant = (some answer, plant)) :
      Move world s (.onCaller i ⟨action, answer, s.plant, plant⟩)
        { s.setCaller i { c with stage := .calling call (next answer) } with plant }
  | defers {s : System σ} {i : Nat} {c : Caller} {call : Call}
      (place : s.callers[i]? = some c) (stage : c.stage = .calling call (.done .forWorker)) :
      Move world s (.defers i call) (s.setCaller i { c with stage := .sending call })
  | settles {s : System σ} {i : Nat} {c : Caller} {call : Call} {result : Result}
      (place : s.callers[i]? = some c)
      (stage : c.stage = .calling call (.done (.settled result))) :
      Move world s (.settles i call result) (s.setCaller i (c.receive result))
  | closed {s : System σ} {i : Nat} {c : Caller} {call : Call}
      (place : s.callers[i]? = some c) (stage : c.stage = .sending call)
      (dead : s.worker.isDead) :
      Move world s (.settles i call (.error .closed)) (s.setCaller i (c.receive (.error .closed)))
  | enters {s : System σ} {i : Nat} {c : Caller} {call : Call}
      (place : s.callers[i]? = some c) (stage : c.stage = .sending call) (room : s.hasRoom) :
      Move world s (.enters ⟨i, call⟩)
        { s.setCaller i { c with stage := .awaiting } with channel := s.channel ++ [⟨i, call⟩] }
  | takes {s : System σ} {p : Program} {errand : Errand} {channel : List Errand}
      (idle : s.worker = .idle p) (first : s.channel = errand :: channel) :
      Move world s (.takes errand p)
        { s with channel, worker := .busy errand (errand.call.service s.fitted p) }
  | onWorker {s : System σ} {errand : Errand} {action : Action}
      {next : action.Answer → Course (Result × Program)} {answer : action.Answer} {plant : σ}
      (busy : s.worker = .busy errand (.act action next))
      (done : world.perform action s.plant = (some answer, plant)) :
      Move world s (.onWorker ⟨action, answer, s.plant, plant⟩)
        { s with plant, worker := .busy errand (next answer) }
  | replies {s : System σ} {errand : Errand} {result : Result} {p : Program}
      (busy : s.worker = .busy errand (.done (result, p))) :
      Move world s (.replies errand result p)
        { s.deliver errand.caller result with worker := .idle p }
  | breaks {s : System σ} {errand : Errand} {action : Action}
      {next : action.Answer → Course (Result × Program)} {plant : σ}
      (busy : s.worker = .busy errand (.act action next))
      (done : world.perform action s.plant = (none, plant)) :
      Move world s .breaks { s.bury with plant }
  | onVisitor {s : System σ} {i : Nat} {action : Action} {next : action.Answer → Course Bool}
      {answer : action.Answer} {plant : σ} (place : s.visitors[i]? = some (.act action next))
      (done : world.perform action s.plant = (some answer, plant)) :
      Move world s (.onVisitor i ⟨action, answer, s.plant, plant⟩)
        { s with plant, visitors := s.visitors.set i (next answer) }

variable {world : Plant σ} {s t u : System σ} {o : Occurrence σ} {h k : List (Occurrence σ)}

theorem move_of_moveCaller {i : Nat} (moved : s.moveCaller world i = some (o, t)) :
    Move world s o t := by
  unfold moveCaller at moved
  split at moved
  · cases moved
  · rename_i c place
    split at moved
    · rename_i stage
      split at moved
      · cases moved
      · rename_i call todo next
        cases moved
        exact .begins place stage next
    · rename_i stage
      cases moved
      exact .settles place stage
    · rename_i stage
      cases moved
      exact .defers place stage
    · rename_i stage
      split at moved
      · split at moved
        · rename_i done
          cases moved
          exact .onCaller place stage done
        · cases moved
      · cases moved
    · rename_i stage
      split at moved
      · rename_i dead
        cases moved
        exact .closed place stage dead
      · split at moved
        · rename_i room
          cases moved
          exact .enters place stage room
        · cases moved
    · cases moved

theorem move_of_moveWorker (moved : s.moveWorker world = some (o, t)) : Move world s o t := by
  unfold moveWorker at moved
  split at moved
  · rename_i p idle
    split at moved
    · cases moved
    · rename_i errand channel first
      cases moved
      exact .takes idle first
  · rename_i busy
    cases moved
    exact .replies busy
  · rename_i busy
    split at moved
    · split at moved
      · rename_i done
        cases moved
        exact .onWorker busy done
      · rename_i done
        cases moved
        exact .breaks busy done
    · cases moved
  · cases moved

theorem move_of_moveVisitor {i : Nat} (moved : s.moveVisitor world i = some (o, t)) :
    Move world s o t := by
  unfold moveVisitor at moved
  split at moved
  · rename_i place
    split at moved
    · split at moved
      · rename_i done
        cases moved
        exact .onVisitor place done
      · cases moved
    · cases moved
  · cases moved

theorem move_of_move? {l : Label} (moved : move? world l s = some (o, t)) : Move world s o t := by
  cases l with
  | caller i => exact move_of_moveCaller moved
  | worker => exact move_of_moveWorker moved
  | visitor i => exact move_of_moveVisitor moved

/-- Steps of threads in any order, and changes of the plant by outsiders between them. -/
inductive Passage (world : Plant σ) (outsiders : σ → σ → Prop) :
    System σ → List (Occurrence σ) → System σ → Prop where
  | refl (s : System σ) : Passage world outsiders s [] s
  | step {s t u : System σ} {l : Label} {o : Occurrence σ} {h : List (Occurrence σ)}
      (passage : Passage world outsiders s h t) (moved : move? world l t = some (o, u)) :
      Passage world outsiders s (h ++ [o]) u
  | outside {s t : System σ} {plant : σ} {h : List (Occurrence σ)}
      (passage : Passage world outsiders s h t) (change : outsiders t.plant plant) :
      Passage world outsiders s h { t with plant }

namespace Passage

variable {outsiders : σ → σ → Prop}

theorem trans (passage : Passage world outsiders s h t) (more : Passage world outsiders t k u) :
    Passage world outsiders s (h ++ k) u := by
  induction more with
  | refl => rwa [List.append_nil]
  | step _ moved ih =>
    rw [← List.append_assoc]
    exact ih.step moved
  | outside _ change ih => exact ih.outside change

theorem split (passage : Passage world outsiders s (h ++ k) u) :
    ∃ t, Passage world outsiders s h t ∧ Passage world outsiders t k u := by
  generalize whole : h ++ k = hk at passage
  induction passage generalizing k with
  | refl =>
    obtain ⟨rfl, rfl⟩ := List.append_eq_nil_iff.1 whole
    exact ⟨_, .refl _, .refl _⟩
  | @step t u l o hk passage moved ih =>
    rcases List.eq_nil_or_concat k with rfl | ⟨k, o', rfl⟩
    · rw [List.append_nil] at whole
      exact ⟨u, whole ▸ passage.step moved, .refl u⟩
    · rw [List.concat_eq_append, ← List.append_assoc] at whole
      obtain ⟨same, last⟩ := List.append_inj' whole rfl
      cases last
      obtain ⟨m, first, second⟩ := ih same
      exact ⟨m, first, List.concat_eq_append ▸ second.step moved⟩
  | outside passage change ih =>
    obtain ⟨t, first, second⟩ := ih whole
    exact ⟨t, first, second.outside change⟩

/-- A passage with one step is that step, with what outsiders did before and after it. -/
theorem split_singleton (passage : Passage world outsiders s [o] u) :
    ∃ t t', Passage world outsiders s [] t ∧ Move world t o t' ∧
      Passage world outsiders s [o] t' ∧ Passage world outsiders t' [] u := by
  generalize whole : [o] = h at passage
  induction passage with
  | refl => cases whole
  | @step t u l o' h passage moved ih =>
    rw [← List.nil_append [o]] at whole
    obtain ⟨rfl, last⟩ := List.append_inj' whole rfl
    cases last
    exact ⟨t, u, passage, move_of_move? moved, passage.step moved, .refl u⟩
  | outside passage change ih =>
    obtain ⟨t, t', before, move, until_, after⟩ := ih whole
    exact ⟨t, t', before, move, until_, after.outside change⟩

theorem split_cons (passage : Passage world outsiders s (h ++ o :: k) u) :
    ∃ t t', Passage world outsiders s h t ∧ Move world t o t' ∧
      Passage world outsiders s (h ++ [o]) t' ∧ Passage world outsiders t' k u := by
  obtain ⟨m, first, rest⟩ := passage.split
  obtain ⟨m', one, rest⟩ := split (h := [o]) rest
  obtain ⟨t, t', before, move, until_, after⟩ := one.split_singleton
  exact ⟨t, t', List.append_nil h ▸ first.trans before, move, first.trans until_, after.trans rest⟩

end Passage

/-- What a run shows. -/
def shown (world : Plant σ) : List Label → System σ → List (Occurrence σ)
  | [], _ => []
  | l :: labels, s =>
    match move? world l s with
    | some (o, s) => o :: shown world labels s
    | none => shown world labels s

theorem passage_run (world : Plant σ) (outsiders : σ → σ → Prop) (labels : List Label)
    (s : System σ) : Passage world outsiders s (shown world labels s) (run world labels s) := by
  induction labels generalizing s with
  | nil => exact .refl s
  | cons l labels ih =>
    have rest := ih (step world l s)
    rw [run, List.foldl_cons, ← run, shown]
    cases moved : move? world l s with
    | none =>
      have same : step world l s = s := by rw [step, step?, moved]; rfl
      rw [same] at rest ⊢
      exact rest
    | some next =>
      obtain ⟨o, t⟩ := next
      have same : step world l s = t := by rw [step, step?, moved]; rfl
      rw [same] at rest ⊢
      exact ((Passage.refl s).step moved).trans rest

end System

end ProgramControl
