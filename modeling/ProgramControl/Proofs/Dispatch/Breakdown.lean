import ProgramControl.Proofs.Dispatch.Replies
import ProgramControl.Proofs.Dispatch.SingleCall
import ProgramControl.Proofs.Program.Edges

/-!
# How far the program had come

Up to the moment at which a collaborator breaks down, the plant is as good as one where nothing
ever does.  So the worker has served its requests in sequence until then, and the run state that it
published last is the one in which the last request left the program: about the one in hand nothing
was published yet.

* `Plant.steadied`            a plant that has an answer also where another breaks down;
* `Call.silent_before_call`   nothing is published before a collaborator is called;
* `Passage.serial`            until then the worker serves its requests in sequence;
* `Passage.mirroring`         the published run state is what the worker published last;
* `Passage.breakdown`         what had happened when a collaborator broke down.
-/

namespace ProgramControl

variable {σ : Type}

namespace Plant

/-- The same plant, but where something breaks down there is an answer all the same. -/
noncomputable def steadied (world : Plant σ) : Plant σ where
  ready := world.ready
  perform action s :=
    let (answer?, s') := world.perform action s
    (some (answer?.getD (Classical.choice action.nonempty_answer)), s')

theorem neverBreaks_steadied (world : Plant σ) : world.steadied.NeverBreaks :=
  fun _ _ => ⟨_, _, rfl⟩

theorem steadied_of_perform {world : Plant σ} {action : Action} {answer : action.Answer} {s s' : σ}
    (done : world.perform action s = (some answer, s')) :
    world.steadied.perform action s = (some answer, s') := by
  simp only [steadied, done, Option.getD_some]

end Plant

theorem System.Move.steadied {world : Plant σ} {s t : System σ} {o : Occurrence σ}
    (move : System.Move world s o t) (lasts : o ≠ .breaks) :
    System.Move world.steadied s o t := by
  cases move with
  | begins place stage next => exact .begins place stage next
  | onCaller place stage done => exact .onCaller place stage (Plant.steadied_of_perform done)
  | defers place stage => exact .defers place stage
  | settles place stage => exact .settles place stage
  | closed place stage dead => exact .closed place stage dead
  | enters place stage room => exact .enters place stage room
  | takes idle first => exact .takes idle first
  | onWorker busy done => exact .onWorker busy (Plant.steadied_of_perform done)
  | replies busy => exact .replies busy
  | breaks => exact absurd rfl lasts
  | onVisitor place done => exact .onVisitor place (Plant.steadied_of_perform done)

/-! ## What is published -/

/-- A call calls no collaborator any more once it has published the next run state. -/
theorem Call.obeys_vigil (call : Call) (fitted : Equipment) (p : Program) :
    (call.service fitted p).Obeys vigil .arriving fun _ _ => True := by
  cases call with
  | directive d =>
    exact (Course.obeys_bind ..).2 (Course.Obeys.mono Transition.stands_apply fun _ _ _ => trivial)
  | beginProgram =>
    have begins : Transition.Obeys vigil .arriving p Transition.beginProgram fun _ _ _ => True := by
      simp only [Transition.beginProgram, Transition.obeys_bind, Transition.obeys_refuseIfLatched,
        Transition.then_ok, Transition.then_error, Transition.obeys_get, Transition.obeys_ite,
        Transition.obeys_throw, Transition.obeys_set, Transition.obeys_enter_publish vigil_reports,
        Transition.obeys_report vigil_reports, Transition.obeys_pure]
      exact ⟨.inl rfl, trivial, fun _ => trivial, fun _ => ⟨rfl, trivial⟩⟩
    exact (Course.obeys_bind ..).2 (Course.Obeys.mono begins fun _ _ _ => trivial)

theorem Call.silent_before_call {call : Call} {fitted : Equipment} {p : Program}
    {current : List (Exchange σ)} {action : Action}
    {next : action.Answer → Course (Result × Program)}
    (reaches : (call.service fitted p).Reaches current (.act action next))
    (isCall : action.isCall) : ∀ x ∈ current, x.publishes = false := by
  obtain ⟨allowed, now, -⟩ := (call.obeys_vigil fitted p).reaches reaches
  refine not_publishes_of_after allowed fun committed => ?_
  rw [committed] at now
  cases action with
  | approachBarrier | awaitStandstill | engagePause | resetModal | shutOff => cases now
  | _ => cases isCall

/-- After calls that were served, the run state published is that of the program. -/
theorem Program.Runs.mirrored {published : σ → RunState} {s : σ} {fitted : Equipment}
    {p q : Program} {turns : List (Turn σ)} (run : Program.Runs fitted p turns q)
    (mirrors : Exchange.Mirroring published s (Program.exchanges turns))
    (shown : published s = p.state) :
    published (Exchange.last s (Program.exchanges turns)) = q.state := by
  induction run generalizing s with
  | nil => exact shown
  | cons served _ ih =>
    rw [Program.exchanges_cons] at mirrors ⊢
    obtain ⟨first, others⟩ := Exchange.keeps_append.1 mirrors
    rw [Exchange.last_append]
    refine ih others ?_
    rw [← track_shown (g := { shown := _ }) first shown.symm]
    exact (Call.concludes_of_reaches served).shown

theorem keepsMirror_of_carriedOut {world : Plant σ} {published : σ → RunState} {x : Exchange σ}
    (mirrors : world.Mirrors published) (done : x.CarriedOut world) : x.KeepsMirror published := by
  obtain ⟨action, answer, before, after⟩ := x
  have same : (world.perform action before).2 = after := congrArg Prod.snd done
  cases action with
  | publish state => exact same ▸ mirrors.publish state before
  | _ => exact same ▸ mirrors.stays _ before nofun

namespace Frail

variable {world : Plant σ} {outsiders : σ → σ → Prop} {latched : σ → Bool}
  {published : σ → RunState} {f g k : Frail σ} {o : Happening σ} {h h' : List (Happening σ)}

theorem fitted_of_move (move : Move world f o g) : g.system.fitted = f.system.fitted := by
  cases move with
  | shows move => exact System.fitted_of_move move
  | _ => rfl

/-! ## Until something breaks down -/

/-- What one step preserves, while nothing has broken down: the run of the program goes on. -/
theorem serial_of_move (move : Move world f o g) (whole : g.unwinding = .whole)
    (serial : System.Serial f.system.fitted (occurrences h) f.system.worker) :
    System.Serial g.system.fitted (occurrences (h ++ [o])) g.system.worker := by
  rw [occurrences_concat, fitted_of_move move]
  cases move with
  | shows move _ lasts => exact serial.step world.neverBreaks_steadied (move.steadied lasts)
  | hangsUp => exact (List.append_nil _).symm ▸ serial
  | breaks => cases whole
  | owed => cases whole
  | closes => cases whole
  | drops closed => cases closed.symm.trans whole

theorem Passage.serial (fresh : f.IsFresh) (passage : Passage world outsiders f h g)
    (whole : g.unwinding = .whole) :
    System.Serial g.system.fitted (occurrences h) g.system.worker := by
  induction passage with
  | refl => exact fresh.system.worker ▸ .start _
  | outside _ _ ih => exact ih whole
  | step _ moved ih =>
    have move := (move_of_move? moved).1
    exact serial_of_move move whole (ih (whole_of_move move whole).1)

/-! ## The published run state -/

theorem worked_concat (x : Exchange σ) :
    worked (occurrences (h ++ [.shows (.onWorker x)])) = worked (occurrences h) ++ [x] := by
  rw [occurrences_concat]
  exact filterMap_concat ..

theorem worked_concat_of_other (other : ∀ x, o ≠ .shows (.onWorker x)) :
    worked (occurrences (h ++ [o])) = worked (occurrences h) := by
  rw [occurrences_concat]
  cases o with
  | shows o =>
    cases o with
    | onWorker x => exact absurd rfl (other x)
    | _ => exact (filterMap_concat ..).trans (List.append_nil _)
  | _ => exact congrArg worked (List.append_nil _)

section

variable (calm : ∀ action s, (world.perform action s).1 = none → action.isCall)
  (mirrors : world.Mirrors published)

include calm mirrors

/-- The published run state changes by what the worker does, and by nothing else. -/
theorem published_of_move (underway : AllUnderway world h f) (visiting : AllVisiting world h f)
    (move : Move world f o g) (other : ∀ x, o ≠ .shows (.onWorker x)) :
    published g.system.plant = published f.system.plant := by
  have stays {x : Exchange σ} (exchange : o.exchange? = some x) (thread : o.thread ≠ .worker) :
      published g.system.plant = published f.system.plant := by
    have own := own_of_move underway visiting move exchange thread
    obtain ⟨done, before, after⟩ := exchange_of_move move exchange
    rw [← before, ← after, ← mirrors.stays x.action x.before, done]
    rintro state publishes
    rw [publishes] at own
    cases own
  cases move with
  | shows move _ lasts =>
    cases move with
    | onCaller => exact stays rfl nofun
    | onVisitor => exact stays rfl nofun
    | onWorker => exact absurd rfl (other _)
    | breaks => exact absurd rfl lasts
    | _ => rfl
  | @breaks errand action next plant whole busy done =>
    have call := calm action f.system.plant (by rw [done])
    have same := mirrors.stays action f.system.plant fun state publishes => by
      rw [publishes] at call
      cases call
    rw [done] at same
    exact same
  | _ => rfl

/-- The published run state is the one that the worker published last. -/
theorem Passage.mirroring (latches : world.Latches latched)
    (outside : ∀ s s', outsiders s s' → published s' = published s) (fresh : f.IsFresh)
    (passage : Passage world outsiders f h g) :
    Exchange.Mirroring published f.system.plant (worked (occurrences h)) ∧
      published g.system.plant =
        published (Exchange.last f.system.plant (worked (occurrences h))) := by
  induction passage with
  | refl => exact ⟨trivial, rfl⟩
  | outside _ change ih => exact ⟨ih.1, (outside _ _ change).trans ih.2⟩
  | @step m k l o h passage moved ih =>
    have move := (move_of_move? moved).1
    obtain ⟨keeps, shows⟩ := ih
    by_cases worked : ∃ x, o = .shows (.onWorker x)
    · obtain ⟨x, rfl⟩ := worked
      obtain ⟨done, before, after⟩ := exchange_of_move move rfl
      rw [worked_concat, Exchange.last_append]
      refine ⟨Exchange.keeps_append.2 ⟨keeps, ?_, keepsMirror_of_carriedOut mirrors done, trivial⟩,
        congrArg published after.symm⟩
      exact (congrArg published before).trans shows
    · have other (x : Exchange σ) (same : o = .shows (.onWorker x)) : False := worked ⟨x, same⟩
      rw [worked_concat_of_other other, published_of_move calm mirrors
        (passage.underway latches mirrors fresh) (passage.visiting fresh) move other]
      exact ⟨keeps, shows⟩

end

/-! ## The moment of the breakdown -/

/-- What had happened in `h`, from the state `f` on, when a collaborator broke down under the worker
in the state `g`: the worker had served its requests in sequence, the last of them had left the
program as `p`, and it had the call of `errand` in hand, with no run state published since. -/
structure Breakdown (world : Plant σ) (outsiders : σ → σ → Prop) (published : σ → RunState)
    (f : Frail σ) (h : List (Happening σ)) (g : Frail σ) (errand : Errand) (p : Program) :
    Prop where
  /-- until then the system was one whose worker does not unwind -/
  dispatches : System.Passage world outsiders f.system (occurrences h) g.system
  shows : h = (occurrences h).map .shows
  /-- `current` is what was done about the call in hand, up to the call of the collaborator -/
  sequential : ∃ (turns : List (Turn σ)) (current : List (Exchange σ)) (action : Action)
      (next : action.Answer → Course (Result × Program)),
    Program.Runs g.system.fitted {} turns p ∧
    (replied (occurrences h)).map (fun r => (r.1.call, r.2)) =
      turns.map (fun t => (t.call, t.result)) ∧
    worked (occurrences h) = Program.exchanges turns ++ current ∧
    (errand.call.service g.system.fitted p).Reaches current (.act action next) ∧ action.isCall
  /-- the requests that are held, and whose callers wait with them -/
  held : g.held = errand :: g.system.channel
  attended : Attended h g
  committed : published g.system.plant = p.state

/-- A breakdown comes while the worker is whole, and the run state published is that of the program
as the last request left it. -/
theorem Passage.breakdown (calm : ∀ action s, (world.perform action s).1 = none → action.isCall)
    (latches : world.Latches latched) (mirrors : world.Mirrors published)
    (outside : ∀ s s', outsiders s s' → published s' = published s) (fresh : f.IsFresh)
    (running : published f.system.plant = .running) (passage : Passage world outsiders f h g)
    (move : Move world g (.shows .breaks) k) :
    ∃ errand p, Breakdown world outsiders published f h g errand p := by
  cases move with
  | shows _ _ lasts => exact absurd rfl lasts
  | @breaks errand action next plant whole busy done =>
    obtain ⟨turns, p, current, run, replies, exchanges, stands⟩ := passage.serial fresh whole
    rw [busy] at stands
    have call := calm action g.system.plant (by rw [done])
    obtain ⟨dispatches, shows⟩ := passage.dispatches fresh whole
    have committed : published g.system.plant = p.state := by
      obtain ⟨keeps, last⟩ := passage.mirroring calm mirrors latches outside fresh
      rw [exchanges] at keeps last
      obtain ⟨served, rest⟩ := Exchange.keeps_append.1 keeps
      rw [last, Exchange.last_append,
        Exchange.published_last rest (Call.silent_before_call stands call)]
      exact run.mirrored served running
    exact ⟨errand, p, {
      dispatches, shows, committed
      sequential := ⟨turns, current, action, next, run, replies, exchanges, stands, call⟩
      held := by rw [Frail.held, owed?, whole, busy]; rfl
      attended := passage.attended fresh }⟩

end Frail

end ProgramControl
