import ProgramControl.Proofs.Dispatch.Linearization
import ProgramControl.Proofs.Program.Barrier

/-!
# Standstill

The barrier lets the worker pass when no move is outstanding, and also when motion is halted.  A
transition that passed it for the second reason must not go on.  What keeps it from going on is the
order of two steps in an emergency stop: the latch is tripped first and motion is halted after that.
So motion that is halted means a latch that is set, and the look after the wait finds it.

* `Plant.Stands`              what the plant promises about motion;
* `tripFirst`                 callers and visitors trip the latch before they halt motion;
* `Passage.orderly`           halted motion means a latch that is set;
* `Passage.at_work`           what a worker has done since it took its errand;
* `Passage.preempted_at_gate` what it does when the barrier let it pass with moves outstanding;
* `Passage.standsStill`       no transition takes effect on a machine that is still moving.
-/

namespace ProgramControl

variable {σ : Type}

/-- The barrier lets a thread pass when no move is outstanding or motion is halted, nothing but a
halt halts motion, and reports are taken at once. -/
structure Plant.Stands (world : Plant σ) (motion : σ → Motion) : Prop where
  barrier (s : σ) : world.ready .awaitStandstill s = (motion s).mayReturn
  halts (action : Action) (s : σ) (other : action ≠ .haltMotion) :
    (motion (world.perform action s).2).halted = (motion s).halted
  reports (entry : Entry) (s : σ) : world.ready (.report entry) s = true ∧
    ∃ s', world.perform (.report entry) s = (some (), s')

/-! ## Halts come after trips -/

/-- A watch that is set when the thread has tripped the latch.  Only then may it halt motion, and it
never holds the job or resets the modal state. -/
def tripFirst : Watch Bool where
  allows tripped action :=
    match action with
    | .haltMotion => tripped = true
    | .engagePause | .resetModal => False
    | _ => True
  next tripped action _ :=
    match action with
    | .tripLatch => true
    | _ => tripped

namespace Call

theorem emergencyStop_trips :
    Course.Obeys tripFirst false emergencyStop fun _ _ => True :=
  ⟨trivial, fun _ => ⟨rfl, fun _ => trivial⟩⟩

theorem submission_trips (call : Call) :
    Course.Obeys tripFirst false call.submission fun _ _ => True := by
  have looks (next : Course Submission)
      (obeys : Course.Obeys tripFirst false next fun _ _ => True) :
      Course.Obeys tripFirst false (unlessLatched next) fun _ _ => True := by
    refine ⟨trivial, fun found => ?_⟩
    cases found with
    | true => trivial
    | false => exact obeys
  cases call with
  | beginProgram => exact looks _ trivial
  | directive d =>
    cases d with
    | emergencyStop => exact ⟨trivial, fun _ => ⟨rfl, fun _ => ⟨trivial, fun _ => trivial⟩⟩⟩
    | setOptionalStop enabled =>
      exact looks _ ⟨trivial, fun _ => ⟨trivial, fun _ => trivial⟩⟩
    | _ => exact looks _ trivial

end Call

/-- The latch is set, or the course is going to trip it before it halts motion. -/
def Course.Heeds {α : Type} (set : Prop) (c : Course α) : Prop :=
  ∃ tripped : Bool, (tripped = true → set) ∧ c.Obeys tripFirst tripped fun _ _ => True

theorem Course.Heeds.mono {α : Type} {set set' : Prop} {c : Course α} (heeds : c.Heeds set)
    (imp : set → set') : c.Heeds set' := by
  obtain ⟨tripped, means, obeys⟩ := heeds
  exact ⟨tripped, fun h => imp (means h), obeys⟩

theorem Course.heeds_of_obeys {α : Type} {set : Prop} {c : Course α}
    (obeys : c.Obeys tripFirst false fun _ _ => True) : c.Heeds set :=
  ⟨false, nofun, obeys⟩

namespace System

variable {world : Plant σ} {outsiders : σ → σ → Prop} {latched : σ → Bool} {motion : σ → Motion}
  {s t u : System σ} {o : Occurrence σ} {h k : List (Occurrence σ)}

/-- Halted motion means a latch that is set, and no thread is going to change that. -/
structure Orderly (latched : σ → Bool) (motion : σ → Motion) (s : System σ) : Prop where
  halted : (motion s.plant).halted → latched s.plant
  callers : ∀ c ∈ s.callers, ∀ call course, c.stage = .calling call course →
    course.Heeds (latched s.plant)
  visitors : ∀ v ∈ s.visitors, v.Heeds (latched s.plant)
  worker : ∀ errand course, s.worker = .busy errand course →
    ∃ now post, course.Obeys gate now post

theorem IsFresh.orderly (fresh : s.IsFresh) (moving : (motion s.plant).halted = false) :
    Orderly latched motion s where
  halted set := absurd (moving.symm.trans set) Bool.false_ne_true
  callers c mem call course stage := by cases (fresh.callers c mem).1.symm.trans stage
  visitors v mem := by
    rw [fresh.visitors v mem]
    exact Course.heeds_of_obeys Call.emergencyStop_trips
  worker errand course busy := by cases fresh.worker.symm.trans busy

theorem Orderly.withPlant {plant : σ} (orderly : Orderly latched motion s)
    (halted : (motion plant).halted → latched plant) (stays : latched s.plant → latched plant) :
    Orderly latched motion { s with plant } where
  halted := halted
  callers c mem call course stage := (orderly.callers c mem call course stage).mono stays
  visitors v mem := (orderly.visitors v mem).mono stays
  worker := orderly.worker

theorem Orderly.withCallers {callers : List Caller} (orderly : Orderly latched motion s)
    (each : ∀ c ∈ callers, c ∈ s.callers ∨
      ∀ call course, c.stage = .calling call course → course.Heeds (latched s.plant)) :
    Orderly latched motion { s with callers } where
  halted := orderly.halted
  callers c mem := by
    rcases each c mem with mem | heeds
    · exact orderly.callers c mem
    · exact heeds
  visitors := orderly.visitors
  worker := orderly.worker

theorem Orderly.setCaller {i : Nat} {c : Caller} (orderly : Orderly latched motion s)
    (heeds : ∀ call course, c.stage = .calling call course → course.Heeds (latched s.plant)) :
    Orderly latched motion (s.setCaller i c) := by
  refine orderly.withCallers fun c' mem => ?_
  rcases List.mem_or_eq_of_mem_set mem with mem | rfl
  · exact .inl mem
  · exact .inr heeds

theorem Orderly.deliver {i : Nat} {result : Result} (orderly : Orderly latched motion s) :
    Orderly latched motion (s.deliver i result) := by
  refine orderly.withCallers fun c mem => ?_
  obtain ⟨j, inside, rfl⟩ := List.getElem_of_mem mem
  rw [List.getElem_modify]
  split
  · exact .inr nofun
  · exact .inl (List.getElem_mem _)

theorem Orderly.withWorker {worker : Worker} (orderly : Orderly latched motion s)
    (obeys : ∀ errand course, worker = .busy errand course →
      ∃ now post, course.Obeys gate now post) :
    Orderly latched motion { s with worker } :=
  ⟨orderly.halted, orderly.callers, orderly.visitors, obeys⟩

theorem Orderly.withVisitor {i : Nat} {v : Course Bool} (orderly : Orderly latched motion s)
    (heeds : v.Heeds (latched s.plant)) :
    Orderly latched motion { s with visitors := s.visitors.set i v } := by
  refine ⟨orderly.halted, orderly.callers, fun v' mem => ?_, orderly.worker⟩
  rcases List.mem_or_eq_of_mem_set mem with mem | rfl
  · exact orderly.visitors v' mem
  · exact heeds

theorem Orderly.bury (orderly : Orderly latched motion s) : Orderly latched motion s.bury := by
  refine ⟨orderly.halted, fun c mem => ?_, orderly.visitors, nofun⟩
  obtain ⟨c', mem', rfl⟩ := List.mem_map.1 mem
  split
  · exact nofun
  · exact orderly.callers c' mem'

/-- What one action keeps, when the thread heeds the latch. -/
theorem heeds_of_done {α : Type} (latches : world.Latches latched) (stands : world.Stands motion)
    {action : Action} {next : action.Answer → Course α} {answer : action.Answer} {p p' : σ}
    (halted : (motion p).halted → latched p) (heeds : (Course.act action next).Heeds (latched p))
    (done : world.perform action p = (some answer, p')) :
    ((motion p').halted → latched p') ∧ (next answer).Heeds (latched p') := by
  obtain ⟨tripped, means, allowed, obeys⟩ := heeds
  have stays : latched p → latched p' := latches.kept done
  constructor
  · intro set
    by_cases halt : action = .haltMotion
    · subst halt
      exact stays (means allowed)
    · have same := stands.halts action p halt
      rw [done] at same
      exact stays (halted (same.symm.trans set))
  · refine ⟨_, fun set => ?_, obeys answer⟩
    by_cases trip : action = .tripLatch
    · subst trip
      have tripped := latches.tripped p
      rw [done] at tripped
      exact tripped
    · refine stays (means ?_)
      cases action with
      | tripLatch => exact absurd rfl trip
      | _ => exact set

/-- The worker never halts motion, whatever comes of its action. -/
theorem halted_of_gate {α : Type} (latches : world.Latches latched) (stands : world.Stands motion)
    {action : Action} {next : action.Answer → Course α} {now : Gate} {post : Gate → α → Prop}
    {answer : Option action.Answer} {p p' : σ} (halted : (motion p).halted → latched p)
    (obeys : (Course.act action next).Obeys gate now post)
    (done : world.perform action p = (answer, p')) (set : (motion p').halted) : latched p' := by
  have other : action ≠ .haltMotion := by
    rintro rfl
    exact obeys.1
  have same := stands.halts action p other
  rw [done] at same
  exact latches.kept done (halted (same.symm.trans set))

theorem Orderly.move (latches : world.Latches latched) (stands : world.Stands motion)
    (orderly : Orderly latched motion s) (move : Move world s o t) : Orderly latched motion t := by
  cases move with
  | begins place stage next =>
    refine orderly.setCaller fun call course same => ?_
    cases same
    exact Course.heeds_of_obeys (Call.submission_trips _)
  | onCaller place stage done =>
    have heeds := orderly.callers _ (List.mem_of_getElem? place) _ _ stage
    obtain ⟨halted, heeds'⟩ := heeds_of_done latches stands orderly.halted heeds done
    refine (orderly.withPlant halted (latches.kept done)).setCaller fun call course same => ?_
    cases same
    exact heeds'
  | defers | settles | closed => exact orderly.setCaller nofun
  | @enters i c call =>
    have sent : Orderly latched motion (s.setCaller i { c with stage := .awaiting }) :=
      orderly.setCaller nofun
    exact ⟨sent.halted, sent.callers, sent.visitors, sent.worker⟩
  | takes =>
    refine ⟨orderly.halted, orderly.callers, orderly.visitors, fun errand course busy => ?_⟩
    cases busy
    exact ⟨_, _, Call.obeys_gate ..⟩
  | onWorker busy done =>
    obtain ⟨now, post, obeys⟩ := orderly.worker _ _ busy
    have halted := halted_of_gate latches stands orderly.halted obeys done
    refine (orderly.withPlant halted (latches.kept done)).withWorker fun errand course busy => ?_
    cases busy
    exact ⟨_, _, obeys.2 _⟩
  | replies => exact orderly.deliver.withWorker nofun
  | breaks busy done =>
    obtain ⟨now, post, obeys⟩ := orderly.worker _ _ busy
    have halted := halted_of_gate latches stands orderly.halted obeys done
    exact orderly.bury.withPlant halted (latches.kept done)
  | onVisitor place done =>
    have heeds := orderly.visitors _ (List.mem_of_getElem? place)
    obtain ⟨halted, heeds'⟩ := heeds_of_done latches stands orderly.halted heeds done
    exact (orderly.withPlant halted (latches.kept done)).withVisitor heeds'

/-- What outsiders may do to motion: admit moves and complete them at any moment. -/
def Undisturbed (latched : σ → Bool) (motion : σ → Motion) (outsiders : σ → σ → Prop) : Prop :=
  ∀ s s', outsiders s s' → (latched s → latched s') ∧ (motion s').halted = (motion s).halted

theorem Passage.orderly (latches : world.Latches latched) (stands : world.Stands motion)
    (outside : Undisturbed latched motion outsiders) (start : Orderly latched motion s)
    (passage : Passage world outsiders s h t) : Orderly latched motion t := by
  induction passage with
  | refl => exact start
  | step _ moved ih => exact ih.move latches stands (move_of_move? moved)
  | outside _ change ih =>
    obtain ⟨stays, same⟩ := outside _ _ change
    exact ih.withPlant (fun set => stays (ih.halted (same.symm.trans set))) stays

/-! ## The worker at its errand -/

theorem ready_of_move? {l : Label} (moved : move? world l s = some (o, t)) {x : Exchange σ}
    (exchange : o.exchange? = some x) : world.ready x.action x.before = true := by
  cases l with
  | caller i =>
    have moved : s.moveCaller world i = some (o, t) := moved
    unfold moveCaller at moved
    split at moved
    · cases moved
    · split at moved
      · split at moved
        · cases moved
        · cases moved
          cases exchange
      · cases moved
        cases exchange
      · cases moved
        cases exchange
      · split at moved
        · next ready =>
          split at moved
          · cases moved
            cases exchange
            exact ready
          · cases moved
        · cases moved
      · split at moved
        · cases moved
          cases exchange
        · split at moved
          · cases moved
            cases exchange
          · cases moved
      · cases moved
  | worker =>
    have moved : s.moveWorker world = some (o, t) := moved
    unfold moveWorker at moved
    split at moved
    · split at moved
      · cases moved
      · cases moved
        cases exchange
    · cases moved
      cases exchange
    · split at moved
      · next ready =>
        split at moved
        · cases moved
          cases exchange
          exact ready
        · cases moved
          cases exchange
      · cases moved
    · cases moved
  | visitor i =>
    have moved : s.moveVisitor world i = some (o, t) := moved
    unfold moveVisitor at moved
    split at moved
    · split at moved
      · next ready =>
        split at moved
        · cases moved
          cases exchange
          exact ready
        · cases moved
      · cases moved
    · cases moved

theorem Passage.ready (passage : Passage world outsiders s h t) :
    ∀ o ∈ h, ∀ x, o.exchange? = some x → world.ready x.action x.before = true := by
  induction passage with
  | refl => exact fun o mem => absurd mem List.not_mem_nil
  | outside _ _ ih => exact ih
  | step _ moved ih =>
    intro o' mem x exchange
    rcases List.mem_append.1 mem with old | new
    · exact ih o' old x exchange
    · obtain rfl := List.mem_singleton.1 new
      exact ready_of_move? moved exchange

theorem worker_of_move (move : Move world s o t) (other : o.thread ≠ .worker) :
    t.worker = s.worker := by
  cases move with
  | takes | onWorker | replies | breaks => exact absurd rfl other
  | _ => rfl

/-- A worker that is busy has taken its errand, and since then it has done nothing but work at
it. -/
theorem Passage.at_work (idle : s.worker = .idle {}) (passage : Passage world outsiders s h t)
    {errand : Errand} {course : Course (Result × Program)} (busy : t.worker = .busy errand course) :
    ∃ h₁ p h₂ done, h = h₁ ++ .takes errand p :: h₂ ∧ steps .worker h₂ = done.map .onWorker ∧
      (errand.call.service s.fitted p).Reaches done course := by
  induction passage generalizing errand course with
  | refl => cases idle.symm.trans busy
  | outside _ _ ih => exact ih busy
  | @step m u l o h passage moved ih =>
    have move := move_of_move? moved
    by_cases own : o.thread = .worker
    · cases move with
      | @takes p errand' channel idle' first =>
        cases busy
        refine ⟨h, p, [], [], rfl, rfl, ?_⟩
        rw [passage.fitted_eq]
        exact .refl _
      | @onWorker errand' action next answer plant busy' done =>
        cases busy
        obtain ⟨h₁, p, h₂, sofar, rfl, works, reaches⟩ := ih busy'
        refine ⟨h₁, p, h₂ ++ [_], sofar ++ [⟨action, answer, m.plant, plant⟩],
          List.append_assoc .., ?_, reaches.trans (.act (.refl _))⟩
        rw [steps_concat, if_pos own, works, List.map_append]
        rfl
      | replies => cases busy
      | breaks => cases busy
      | _ => cases own
    · rw [worker_of_move move own] at busy
      obtain ⟨h₁, p, h₂, sofar, rfl, works, reaches⟩ := ih busy
      refine ⟨h₁, p, h₂ ++ [o], sofar, List.append_assoc .., ?_, reaches⟩
      rw [steps_concat, if_neg own, works, List.append_nil]

section

variable {works : List (Exchange σ)}

theorem onWorker_mem_iff (all : steps .worker h = works.map .onWorker) (x : Exchange σ) :
    .onWorker x ∈ h ↔ x ∈ works := by
  have own : .onWorker x ∈ steps .worker h ↔ Occurrence.onWorker x ∈ h :=
    List.mem_filter.trans (and_iff_left (decide_eq_true rfl))
  rw [← own, all, List.mem_map]
  constructor
  · rintro ⟨y, mem, same⟩
    cases same
    exact mem
  · exact fun mem => ⟨x, mem, rfl⟩

theorem exists_onWorker (all : steps .worker h = works.map .onWorker) :
    ∀ o ∈ h, o.thread = .worker → ∃ x, o = .onWorker x := by
  intro o mem own
  have mem : o ∈ steps .worker h := List.mem_filter.2 ⟨mem, decide_eq_true own⟩
  rw [all] at mem
  obtain ⟨x, -, rfl⟩ := List.mem_map.1 mem
  exact ⟨x, rfl⟩

end

/-- An action among the steps of the worker has its place in the whole. -/
theorem split_of_steps {a b : List (Exchange σ)} {y : Exchange σ}
    (works : steps .worker h = (a ++ y :: b).map .onWorker) :
    ∃ h₁ h₂, h = h₁ ++ .onWorker y :: h₂ ∧ steps .worker h₂ = b.map .onWorker := by
  rw [List.map_append, List.map_cons] at works
  obtain ⟨h₁, h₂, rfl, -, rest⟩ := List.filter_eq_append_iff.1 works
  obtain ⟨h₃, h₄, rfl, -, -, rest⟩ := List.filter_eq_cons_iff.1 rest
  exact ⟨h₁ ++ h₃, h₄, (List.append_assoc ..).symm, rest⟩

/-! ## At the gate -/

/-- Between the wait and the look after it, and from then on if the latch was seen, a course does
nothing but look and report. -/
theorem gate_limits {now : Gate} {action : Action} (here : now = .waited ∨ now = .seen)
    (allowed : gate.allows now action) :
    action = .readLatch ∧ now = .waited ∨ ∃ entry, action = .report entry := by
  cases action with
  | readLatch => exact .inl ⟨rfl, here.resolve_right allowed⟩
  | report entry => exact .inr ⟨entry, rfl⟩
  | haltMotion => exact allowed.elim
  | engagePause => rcases here with rfl | rfl <;> cases allowed
  | resetModal => rcases here with rfl | rfl <;> cases allowed
  | _ => rcases here with rfl | rfl <;> rcases allowed with same | same <;> cases same

/-- With shutdown latched, what is done there does not lead behind the gate. -/
theorem gate_stays (latches : world.Latches latched) {now : Gate} {action : Action}
    {answer : action.Answer} {p p' : σ} (here : now = .waited ∨ now = .seen)
    (allowed : gate.allows now action) (done : world.perform action p = (some answer, p'))
    (set : latched p) :
    ((⟨action, answer, p, p'⟩ : Exchange σ).found? = some true ∨
        ∃ entry, action = .report entry) ∧
      (gate.next now action answer = .waited ∨ gate.next now action answer = .seen) := by
  rcases gate_limits here allowed with ⟨rfl, rfl⟩ | ⟨entry, rfl⟩
  · have look := (latches.look p).symm.trans done
    rw [set] at look
    obtain rfl : true = answer := Option.some.inj (Prod.mk.inj look).1
    exact ⟨.inl rfl, .inr rfl⟩
  · exact ⟨.inr ⟨entry, rfl⟩, here⟩

theorem directive_of_gate {call : Call} {p : Program} {now : Gate}
    {course : Course (Result × Program)} (here : now = .waited ∨ now = .seen)
    (obeys : course.Obeys gate now (call.Passes p)) : ∃ d, call = .directive d := by
  induction course generalizing now with
  | done end_ =>
    rcases here with rfl | rfl
    · exact obeys.elim
    · obtain ⟨d, same, -⟩ := obeys
      exact ⟨d, same⟩
  | act action next ih =>
    rcases gate_limits here obeys.1 with ⟨rfl, rfl⟩ | ⟨entry, rfl⟩
    · exact ih true (.inr rfl) (obeys.2 true)
    · exact ih () here (obeys.2 ())

/-- The worker has replied that the directive was preempted after the wait, with the program as it
was, or it is still at the gate. -/
theorem Passage.at_gate (latches : world.Latches latched) (stands : world.Stands motion)
    (outside : ∀ s s', outsiders s s' → latched s → latched s')
    {errand : Errand} {p : Program} {course : Course (Result × Program)}
    (busy : s.worker = .busy errand course)
    (obeys : course.Obeys gate .waited (errand.call.Passes p)) (set : latched s.plant)
    (passage : Passage world outsiders s h t) :
    ∃ done : List (Exchange σ),
      (∀ x ∈ done, x.found? = some true ∨ ∃ entry, x.action = .report entry) ∧
      ((∃ now course, steps .worker h = done.map .onWorker ∧ t.worker = .busy errand course ∧
          (now = .waited ∨ now = .seen) ∧ course.Obeys gate now (errand.call.Passes p)) ∨
        ∃ d more, errand.call = .directive d ∧ steps .worker h = done.map .onWorker ++
          .replies errand (.error (.preempted d .motionQuiesced)) p :: more) := by
  induction passage with
  | refl =>
    exact ⟨[], fun _ mem => absurd mem List.not_mem_nil, .inl ⟨_, _, rfl, busy, .inl rfl, obeys⟩⟩
  | outside _ _ ih => exact ih
  | @step m u l o h passage moved ih =>
    have move := move_of_move? moved
    have set := passage.stays_latched latches outside set
    obtain ⟨done, limits,
      ⟨now, course, works, busy, here, obeys⟩ | ⟨d, more, isDirective, works⟩⟩ := ih
    · by_cases own : o.thread = .worker
      · cases move with
        | @onWorker errand' action next answer plant busy' answered =>
          cases busy.symm.trans busy'
          obtain ⟨limited, here⟩ := gate_stays latches here obeys.1 answered set
          refine ⟨done ++ [⟨action, answer, m.plant, plant⟩], fun x mem => ?_, .inl
            ⟨_, next answer, ?_, rfl, here, obeys.2 answer⟩⟩
          · rcases List.mem_append.1 mem with mem | mem
            · exact limits x mem
            · rw [List.mem_singleton.1 mem]
              exact limited
          · rw [steps_concat, if_pos own, works, List.map_append]
            rfl
        | @replies errand' result q busy' =>
          cases busy.symm.trans busy'
          rcases here with rfl | rfl
          · exact obeys.elim
          · obtain ⟨d, isDirective, ends⟩ := obeys
            cases ends
            refine ⟨done, limits, .inr ⟨d, [], isDirective, ?_⟩⟩
            rw [steps_concat, if_pos own, works]
        | breaks busy' broke =>
          cases busy.symm.trans busy'
          rcases gate_limits here obeys.1 with ⟨rfl, -⟩ | ⟨entry, rfl⟩
          · cases (latches.look m.plant).symm.trans broke
          · obtain ⟨-, plant, answered⟩ := stands.reports entry m.plant
            cases answered.symm.trans broke
        | takes idle => cases busy.symm.trans idle
        | _ => cases own
      · refine ⟨done, limits, .inl ⟨now, course, ?_, ?_, here, obeys⟩⟩
        · rw [steps_concat, if_neg own, works, List.append_nil]
        · rw [worker_of_move move own, busy]
    · refine ⟨done, limits, .inr ⟨d, more ++ if o.thread = .worker then [o] else [], isDirective,
        ?_⟩⟩
      rw [steps_concat, works, List.append_assoc]
      rfl

/-! ## The main statement -/

/-- The passage `h` ends within an errand, which found the program as `p`; `k` is the part since
the worker took it. -/
def WithinErrand (errand : Errand) (p : Program) (h k : List (Occurrence σ)) : Prop :=
  (∃ earlier, h = earlier ++ .takes errand p :: k) ∧
    ∀ o ∈ k, o.thread = .worker → ∃ x, o = .onWorker x

/-- The job is held, and the modal state reset, by the worker within an errand.  The last wait of
this errand ended when no move was outstanding, and after it the latch was found clear. -/
structure EngagesAtRest (motion : σ → Motion) (h : List (Occurrence σ)) (o : Occurrence σ)
    (x : Exchange σ) : Prop where
  own : o = .onWorker x
  waited : ∃ errand p k₁ y k₂, WithinErrand errand p h (k₁ ++ .onWorker y :: k₂) ∧
    y.action = .awaitStandstill ∧ (motion y.before).outstanding = 0 ∧
    (∀ z, .onWorker z ∈ k₂ → z.action ≠ .awaitStandstill) ∧
    ∃ z, .onWorker z ∈ k₂ ∧ z.found? = some false

/-- The worker, within an errand, has passed the barrier with moves outstanding, and `k` came after
that.  The worker finds the latch set, reports, and replies that the directive was preempted after
the wait, with the program as the errand found it; and nothing makes it wait on the way. -/
def PreemptedAtGate (world : Plant σ) (h k : List (Occurrence σ)) (t : System σ) : Prop :=
  ∃ errand p sofar d, ∃ done : List (Exchange σ),
    WithinErrand errand p h sofar ∧ errand.call = .directive d ∧
    (∀ x ∈ done, x.found? = some true ∨ ∃ entry, x.action = .report entry) ∧
    Plays (done.map .onWorker ++ [.replies errand (.error (.preempted d .motionQuiesced)) p])
      (steps .worker k) ∧
    ((steps .worker k).length ≤ done.length → (move? world .worker t).isSome)

section

variable (latches : world.Latches latched) (stands : world.Stands motion)
  (outside : Undisturbed latched motion outsiders) (fresh : s.IsFresh)
  (moving : (motion s.plant).halted = false)

include latches stands outside fresh moving

/-- A wait that ended with moves outstanding was ended by a halt, so the latch is set. -/
theorem Passage.latched_of_released {y : Exchange σ}
    (passage : Passage world outsiders s (h ++ .onWorker y :: k) t)
    (waits : y.action = .awaitStandstill) (outstanding : (motion y.before).outstanding ≠ 0) :
    ∃ m m', Passage world outsiders s h m ∧ Move world m (.onWorker y) m' ∧
      Passage world outsiders m' k t ∧ latched m'.plant := by
  obtain ⟨m, m', before, move, -, after⟩ := passage.split_cons
  have orderly := before.orderly latches stands outside (fresh.orderly moving)
  have ready := passage.ready _ (List.mem_append_right _ List.mem_cons_self) y rfl
  rw [waits, stands.barrier, Motion.mayReturn, Bool.or_eq_true, beq_iff_eq] at ready
  obtain ⟨-, here, -⟩ := exchange_of_move move (x := y) rfl
  have set : latched m.plant := orderly.halted (here ▸ ready.resolve_left outstanding)
  exact ⟨m, m', before, move, after, latched_of_move latches move set⟩

theorem Passage.engages_at_rest {x : Exchange σ}
    (passage : Passage world outsiders s (h ++ o :: k) t) (carriedOut : o.exchange? = some x)
    (engages : x.action = .engagePause ∨ x.action = .resetModal) : EngagesAtRest motion h o x := by
  obtain ⟨m, m', before, move, -, -⟩ := passage.split_cons
  have orderly := before.orderly latches stands outside (fresh.orderly moving)
  have foreign {α : Type} {action : Action} {next : action.Answer → Course α}
      (heeds : (Course.act action next).Heeds (latched m.plant))
      (engages : action = .engagePause ∨ action = .resetModal) : False := by
    obtain ⟨tripped, -, allowed, -⟩ := heeds
    rcases engages with rfl | rfl <;> exact allowed
  cases move with
  | onCaller place stage =>
    cases carriedOut
    exact (foreign (orderly.callers _ (List.mem_of_getElem? place) _ _ stage) engages).elim
  | onVisitor place =>
    cases carriedOut
    exact (foreign (orderly.visitors _ (List.mem_of_getElem? place)) engages).elim
  | @onWorker errand action next answer plant busy done =>
    cases carriedOut
    obtain ⟨earlier, p, sofar, works, rfl, all, reaches⟩ := before.at_work fresh.worker busy
    obtain ⟨-, allowed, -⟩ := (Call.obeys_gate ..).reaches reaches
    have passed : gate.after .shut works = .passed := by
      rcases engages with same | same <;> cases same <;> exact allowed
    rcases gate_opened works with shut | ⟨a, y, b, rfl, waits, last, looks⟩
    · cases shut.symm.trans passed
    · obtain ⟨k₁, k₂, rfl, since⟩ := split_of_steps all
      obtain ⟨z, mem, clear⟩ := looks passed
      have mem := (onWorker_mem_iff since z).2 mem
      refine ⟨rfl, errand, p, k₁, y, k₂, ⟨⟨earlier, rfl⟩, exists_onWorker all⟩, waits, ?_,
        fun z mem => last z ((onWorker_mem_iff since z).1 mem), z, mem, clear⟩
      by_contra outstanding
      -- then the latch was set before the look that found it clear
      rw [← List.cons_append, ← List.append_assoc] at before
      obtain ⟨-, m'', -, -, after, set⟩ := before.latched_of_released latches stands outside fresh
        moving waits outstanding
      have stays (s s' : σ) (change : outsiders s s') := (outside s s' change).1
      exact after.found_latched latches stays set _ mem z rfl clear
  | _ => cases carriedOut

theorem Passage.preempted_at_gate (prompt : world.IsPrompt) {y : Exchange σ}
    (passage : Passage world outsiders s (h ++ .onWorker y :: k) t)
    (waits : y.action = .awaitStandstill) (outstanding : (motion y.before).outstanding ≠ 0) :
    PreemptedAtGate world h k t := by
  obtain ⟨m, m', before, move, after, set⟩ := passage.latched_of_released latches stands outside
    fresh moving waits outstanding
  have stays (s s' : σ) (change : outsiders s s') := (outside s s' change).1
  cases move with
  | @onWorker errand action next answer plant busy done =>
    obtain rfl : action = .awaitStandstill := waits
    obtain ⟨earlier, p, sofar, works, rfl, all, reaches⟩ := before.at_work fresh.worker busy
    obtain ⟨-, -, obeys⟩ := (Call.obeys_gate ..).reaches reaches
    have obeys : (next answer).Obeys gate .waited (errand.call.Passes p) := obeys answer
    obtain ⟨d, isDirective⟩ := directive_of_gate (.inl rfl) obeys
    have within : WithinErrand errand p (earlier ++ .takes errand p :: sofar) sofar :=
      ⟨⟨earlier, rfl⟩, exists_onWorker all⟩
    obtain ⟨done, limits, ⟨now, course, played, busy, here, obeys⟩ | ⟨d', more, same, played⟩⟩ :=
      after.at_gate latches stands stays rfl obeys set
    · refine ⟨errand, p, sofar, d, done, within, isDirective, limits, .inl ?_, fun _ => ?_⟩
      · rw [played]
        exact List.prefix_append ..
      · refine moves_of_workerAt busy ?_
        cases course with
        | done end_ => trivial
        | act action next =>
          rcases gate_limits here obeys.1 with ⟨rfl, -⟩ | ⟨entry, rfl⟩
          · exact prompt _ (by decide) _
          · exact (stands.reports entry _).1
    · refine ⟨errand, p, sofar, d', done, within, same, limits, .inr ⟨more, ?_⟩, fun short => ?_⟩
      · rw [played, List.append_assoc]
        rfl
      · rw [played, List.length_append, List.length_map, List.length_cons] at short
        exact absurd short (Nat.not_le_of_lt (Nat.lt_add_of_pos_right (Nat.succ_pos _)))

/-- **No transition takes effect on a machine that is still moving.**  Callers, visitors and the
worker take their steps in any order, and outsiders admit and complete moves at any moment.  The job
is held, and the modal state reset, only within an errand whose wait ended when no move was
outstanding; a wait that ended with moves outstanding is the end of its directive. -/
theorem Passage.standsStill (prompt : world.IsPrompt)
    (passage : Passage world outsiders s h t) :
    (∀ h₁ o h₂ x, h = h₁ ++ o :: h₂ → o.exchange? = some x →
      x.action = .engagePause ∨ x.action = .resetModal → EngagesAtRest motion h₁ o x) ∧
    (∀ h₁ y h₂, h = h₁ ++ .onWorker y :: h₂ → y.action = .awaitStandstill →
      (motion y.before).outstanding ≠ 0 → PreemptedAtGate world h₁ h₂ t) ∧
    h.length ≤ s.budget := by
  refine ⟨?_, ?_, passage.length_le fresh⟩
  · rintro h₁ o h₂ x rfl carriedOut engages
    exact passage.engages_at_rest latches stands outside fresh moving carriedOut engages
  · rintro h₁ y h₂ rfl waits outstanding
    exact passage.preempted_at_gate latches stands outside fresh moving prompt waits outstanding

end

end System

/-! ## The workshop -/

/-- Moves are admitted and completed. -/
def Workshop.Moves (w w' : Workshop) : Prop :=
  w' = { w with motion := w.motion.countIn } ∨ w' = { w with motion := w.motion.completeMove }

namespace System

theorem undisturbed_moves : Undisturbed (·.board.isLatched) (·.motion) Workshop.Moves := by
  rintro w w' (rfl | rfl) <;> exact ⟨id, rfl⟩

theorem stands_workshop : Workshop.plant.Stands (·.motion) where
  barrier _ := rfl
  halts action w other := by
    cases action with
    | haltMotion => exact absurd rfl other
    | _ => rfl
  reports _ _ := ⟨rfl, _, rfl⟩

/-- A caller that is about to pause the program, and a visitor, while a move is outstanding. -/
def pauseWhileMoving : System Workshop where
  depth := 1
  fitted := {}
  plant := { courier := .start (.ofConfig 5 0) 1 }
  callers := [{ todo := [.directive .pauseUnconditional] }]
  visitors := [Call.emergencyStop]

/-- The worker comes to the barrier, the visitor halts motion, and so the worker passes with the
move still outstanding.  It looks, reports and replies. -/
theorem standsStill_pauseWhileMoving : ∃ h y k t,
    Passage Workshop.plant Workshop.Moves pauseWhileMoving (h ++ [.onWorker y] ++ k) t ∧
      y.action = .awaitStandstill ∧ y.before.motion.outstanding = 1 ∧
      (steps .worker k).length = 3 ∧ PreemptedAtGate Workshop.plant h k t := by
  have fresh : pauseWhileMoving.IsFresh := by
    refine ⟨rfl, rfl, fun c mem => ?_, fun v mem => List.mem_singleton.1 mem⟩
    obtain rfl := List.mem_singleton.1 mem
    exact ⟨rfl, rfl⟩
  have start : Passage Workshop.plant Workshop.Moves pauseWhileMoving [] pauseWhileMoving := .refl _
  have admitted := start.outside (.inl rfl)
  have sent := (((admitted.step (l := .caller 0) rfl).step (l := .caller 0) rfl).step
    (l := .caller 0) rfl).step (l := .caller 0) rfl
  have waits := ((sent.step (l := .worker) rfl).step (l := .worker) rfl).step (l := .worker) rfl
  have halted := (waits.step (l := .visitor 0) rfl).step (l := .visitor 0) rfl
  have released := halted.step (l := .worker) rfl
  have passage := released.trans (passage_run _ _ [.worker, .worker, .worker] _)
  obtain ⟨-, preempted, -⟩ := Passage.standsStill latches_workshop stands_workshop
    undisturbed_moves fresh rfl isPrompt_workshop passage
  refine ⟨_, _, _, _, passage, rfl, rfl, rfl, ?_⟩
  exact preempted _ _ _ (List.append_assoc ..) rfl (by decide)

end System

end ProgramControl
