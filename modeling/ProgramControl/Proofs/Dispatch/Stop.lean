import ProgramControl.Proofs.Dispatch.Service

/-!
# Stops

What a passage shows from the moment on at which shutdown is latched, and how it comes to be
latched.

* `Passage.stays_latched`    a latched shutdown stays latched;
* `Follows`                  a thread and its course: what the thread shows is a history of it;
* `Passage.plays_refusal`    a course that looks at the latch first finds it set and ends;
* `Passage.plays_stop`, `Passage.plays_visit`   an emergency stop goes through;
* `Passage.one_trip`         one trip finds the latch clear.
-/

namespace ProgramControl

variable {σ : Type}

/-- The plant carried the action out as the exchange says. -/
def Exchange.CarriedOut (world : Plant σ) (x : Exchange σ) : Prop :=
  world.perform x.action x.before = (some x.answer, x.after)

/-- The thread whose step it was. -/
def Occurrence.thread : Occurrence σ → Label
  | .begins i _ | .onCaller i _ | .defers i _ | .settles i _ _ => .caller i
  | .enters errand => .caller errand.caller
  | .takes .. | .onWorker _ | .replies .. | .breaks => .worker
  | .onVisitor i _ => .visitor i

/-- The steps of one thread. -/
def steps (l : Label) (h : List (Occurrence σ)) : List (Occurrence σ) :=
  h.filter (·.thread = l)

theorem steps_concat (l : Label) (h : List (Occurrence σ)) (o : Occurrence σ) :
    steps l (h ++ [o]) = steps l h ++ if o.thread = l then [o] else [] := by
  rw [steps, List.filter_append, List.filter_cons]
  by_cases own : o.thread = l
  · rw [if_pos own, if_pos (decide_eq_true own)]
    rfl
  · rw [if_neg own, if_neg fun same => own (of_decide_eq_true same)]
    rfl

/-- As far as the list goes it is the script: a beginning of it, or all of it and then more. -/
def Plays {β : Type} (script l : List β) : Prop := l <+: script ∨ script <+: l

/-- The answer to a trip of the latch, by whichever thread. -/
def Occurrence.trip? (o : Occurrence σ) : Option Bool :=
  match o.exchange? with
  | some ⟨.tripLatch, first, _, _⟩ => some first
  | _ => none

def trips (h : List (Occurrence σ)) : List Bool := h.filterMap (·.trip?)

namespace System

variable {world : Plant σ} {outsiders : σ → σ → Prop} {latched : σ → Bool} {s t u : System σ}
  {o : Occurrence σ} {h k : List (Occurrence σ)}

/-! ## The plant -/

/-- The plant changes by what is carried out. -/
theorem plant_of_move (steady : world.NeverBreaks) (move : Move world s o t) :
    match o.exchange? with
    | some x => x.CarriedOut world ∧ x.before = s.plant ∧ x.after = t.plant
    | none => t.plant = s.plant := by
  cases move with
  | onCaller _ _ done => exact ⟨done, rfl, rfl⟩
  | onWorker _ done => exact ⟨done, rfl, rfl⟩
  | onVisitor _ done => exact ⟨done, rfl, rfl⟩
  | breaks busy done => exact (steady.elim done).elim
  | _ => rfl

theorem exchange_of_move (move : Move world s o t) {x : Exchange σ}
    (exchange : o.exchange? = some x) :
    x.CarriedOut world ∧ x.before = s.plant ∧ x.after = t.plant := by
  cases move with
  | onCaller _ _ done | onWorker _ done | onVisitor _ done =>
    cases exchange
    exact ⟨done, rfl, rfl⟩
  | _ => cases exchange

theorem latched_of_move (latches : world.Latches latched) (move : Move world s o t)
    (l : latched s.plant) : latched t.plant := by
  cases move with
  | onCaller _ _ done | onWorker _ done | breaks _ done | onVisitor _ done =>
    exact latches.kept done l
  | _ => exact l

variable (latches : world.Latches latched)
  (outside : ∀ s s', outsiders s s' → latched s → latched s')

include latches outside

/-- Once latched, shutdown stays latched. -/
theorem Passage.stays_latched (passage : Passage world outsiders s h t) (l : latched s.plant) :
    latched t.plant := by
  induction passage with
  | refl => exact l
  | step _ moved ih => exact latched_of_move latches (move_of_move? moved) ih
  | outside _ change ih => exact outside _ _ change ih

/-- From then on everything begins with shutdown latched. -/
theorem Passage.exchange_latched (passage : Passage world outsiders s h t) (l : latched s.plant) :
    ∀ o ∈ h, ∀ x, o.exchange? = some x → x.CarriedOut world ∧ latched x.before := by
  induction passage with
  | refl => exact fun o mem => absurd mem List.not_mem_nil
  | outside _ _ ih => exact ih
  | @step m u l' o h passage moved ih =>
    intro o' mem x exchange
    rcases List.mem_append.1 mem with old | new
    · exact ih o' old x exchange
    · obtain rfl := List.mem_singleton.1 new
      obtain ⟨done, before, -⟩ := exchange_of_move (move_of_move? moved) exchange
      exact ⟨done, before ▸ passage.stays_latched latches outside l⟩

theorem Passage.found_latched (passage : Passage world outsiders s h t) (l : latched s.plant) :
    ∀ o ∈ h, ∀ x, o.exchange? = some x → x.found? ≠ some false := by
  intro o mem x exchange clear
  obtain ⟨done, set⟩ := passage.exchange_latched latches outside l o mem x exchange
  obtain ⟨action, found, before, after⟩ := x
  cases action with
  | readLatch =>
    cases clear
    have look := (latches.look before).symm.trans done
    rw [set] at look
    cases look
  | _ => cases clear

theorem Passage.latched_after_trip (passage : Passage world outsiders s (h ++ o :: k) t)
    (trip : o.trip?.isSome) : ∀ o' ∈ k, ∀ x, o'.exchange? = some x → latched x.before := by
  obtain ⟨m, m', -, move, -, rest⟩ := passage.split_cons
  have set : latched m'.plant := by
    cases exchange : o.exchange? with
    | none =>
      rw [Occurrence.trip?, exchange] at trip
      cases trip
    | some x =>
      obtain ⟨done, -, after⟩ := exchange_of_move move exchange
      obtain ⟨action, answer, before, after'⟩ := x
      rw [Occurrence.trip?, exchange] at trip
      cases action with
      | tripLatch =>
        have tripped := latches.tripped before
        rw [done] at tripped
        exact after ▸ tripped
      | _ => cases trip
  intro o' mem x exchange
  exact (rest.exchange_latched latches outside set o' mem x exchange).2

omit latches outside

/-! ## Threads and their courses -/

/-- A thread and its course.  `At` says where the thread stands in it; a step of the thread is an
action of the course, shown as `shown` says, or ends the course as `ends` says. -/
structure Follows {α : Type} (world : Plant σ) (l : Label) (At : System σ → Course α → Prop)
    (shown : Exchange σ → Occurrence σ) (ends : α → Occurrence σ → Prop) : Prop where
  own {s t : System σ} {o : Occurrence σ} {course : Course α} (move : Move world s o t)
    (stands : At s course) (thread : o.thread = l) :
    match course with
    | .act action next => ∃ answer before after, o = shown ⟨action, answer, before, after⟩ ∧
        At t (next answer)
    | .done a => ends a o
  other {s t : System σ} {o : Occurrence σ} {course : Course α} (tidy : s.IsTidy)
    (move : Move world s o t) (stands : At s course) (thread : o.thread ≠ l) : At t course
  outside {s : System σ} {course : Course α} (stands : At s course) (plant : σ) :
    At { s with plant } course

/-- What a thread shows is a history of its course, and after it the end of the course, if it was
reached. -/
theorem Passage.follows {α : Type} {l : Label} {At : System σ → Course α → Prop}
    {shown : Exchange σ → Occurrence σ} {ends : α → Occurrence σ → Prop}
    (follows : Follows world l At shown ends) {course : Course α}
    (tidy : ∀ k u, Passage world outsiders s k u → u.IsTidy)
    (passage : Passage world outsiders s k t) (start : At s course) :
    ∃ h rest, course.Reaches h rest ∧
      (steps l k = h.map shown ∧ At t rest ∨
        ∃ a o more, rest = .done a ∧ ends a o ∧ steps l k = h.map shown ++ o :: more) := by
  induction passage with
  | refl => exact ⟨[], course, .refl _, .inl ⟨rfl, start⟩⟩
  | outside _ _ ih =>
    obtain ⟨h, rest, reaches, ⟨shows, now⟩ | ended⟩ := ih
    · exact ⟨h, rest, reaches, .inl ⟨shows, follows.outside now _⟩⟩
    · exact ⟨h, rest, reaches, .inr ended⟩
  | @step m u l' o k passage moved ih =>
    have move := move_of_move? moved
    rw [steps_concat]
    obtain ⟨h, rest, reaches, ⟨shows, now⟩ | ⟨a, o', more, rfl, ended, shows⟩⟩ := ih
    · by_cases thread : o.thread = l
      · rw [if_pos thread]
        have next := follows.own move now thread
        cases rest with
        | act action next' =>
          obtain ⟨answer, before, after, rfl, now⟩ := next
          refine ⟨h ++ [⟨action, answer, before, after⟩], next' answer,
            reaches.trans (.act (.refl _)), .inl ⟨?_, now⟩⟩
          rw [shows, List.map_append]
          rfl
        | done a => exact ⟨h, .done a, reaches, .inr ⟨a, o, [], rfl, next, by rw [shows]⟩⟩
      · rw [if_neg thread, List.append_nil]
        exact ⟨h, rest, reaches, .inl ⟨shows, follows.other (tidy _ _ passage) move now thread⟩⟩
    · refine ⟨h, .done a, reaches, .inr ⟨a, o', more ++ if o.thread = l then [o] else [], rfl,
        ended, ?_⟩⟩
      rw [shows, List.append_assoc]
      rfl

/-- How a caller's own part of a call ends. -/
def EndsPart (i : Nat) (call : Call) : Submission → Occurrence σ → Prop
  | .settled result, o => o = .settles i call result
  | .forWorker, o => o = .defers i call

theorem follows_caller (steady : world.NeverBreaks) (i : Nat) (call : Call) :
    Follows world (.caller i) (CallerAt i call) (.onCaller i) (EndsPart i call) where
  own := by
    rintro s t o course move ⟨c, place, stage⟩ thread
    cases move with
    | onCaller place' stage' done =>
      cases thread
      cases place.symm.trans place'
      cases stage.symm.trans stage'
      obtain ⟨inside, -⟩ := List.getElem?_eq_some_iff.1 place
      exact ⟨_, _, _, rfl, _, List.getElem?_set_self inside, rfl⟩
    | begins place' stage' | defers place' stage' | settles place' stage' | closed place' stage'
    | enters place' stage' =>
      cases thread
      cases place.symm.trans place'
      cases stage.symm.trans stage'
      all_goals rfl
    | takes | onWorker | replies | breaks | onVisitor => cases thread
  other := by
    rintro s t o course tidy move ⟨c, place, stage⟩ thread
    by_cases own : o.caller? = some i
    · cases move with
      | @replies errand _ _ busy =>
        cases own
        have waits := tidy errand.caller c place
        rw [pending, waiting, busy, Caller.isAwaiting, stage] at waits
        simp [Worker.errand?] at waits
      | takes | onWorker | breaks | onVisitor => cases own
      | _ => exact absurd (congrArg Label.caller (Option.some.inj own)) thread
    · exact ⟨c, (callers_of_move steady move own).trans place, stage⟩
  outside := fun stands _ => stands

theorem follows_worker (steady : world.NeverBreaks) (errand : Errand) :
    Follows world .worker (WorkerAt errand) .onWorker
      fun end_ o => o = .replies errand end_.1 end_.2 where
  own := by
    intro s t o course move stands thread
    cases move with
    | onWorker busy done =>
      cases stands.symm.trans busy
      exact ⟨_, _, _, rfl, rfl⟩
    | takes idle => cases stands.symm.trans idle
    | replies busy =>
      cases stands.symm.trans busy
      rfl
    | breaks busy done => exact (steady.elim done).elim
    | _ => cases thread
  other := by
    intro s t o course _ move stands thread
    cases move with
    | takes | onWorker | replies | breaks => exact absurd rfl thread
    | _ => exact stands
  outside := fun stands _ => stands

def VisitorAt (i : Nat) (s : System σ) (course : Course Bool) : Prop :=
  s.visitors[i]? = some course

theorem follows_visitor (i : Nat) :
    Follows world (.visitor i) (VisitorAt i) (.onVisitor i) fun _ _ => False where
  own := by
    intro s t o course move stands thread
    cases move with
    | onVisitor place done =>
      cases thread
      cases stands.symm.trans place
      obtain ⟨inside, -⟩ := List.getElem?_eq_some_iff.1 place
      exact ⟨_, _, _, rfl, List.getElem?_set_self inside⟩
    | _ => cases thread
  other := by
    intro s t o course _ move stands thread
    cases move with
    | onVisitor place done =>
      refine (List.getElem?_set_ne ?_).trans stands
      exact fun same => thread (congrArg Label.visitor same)
    | _ => exact stands
  outside := fun stands _ => stands

/-! ## After shutdown is latched -/

section

variable (latches : world.Latches latched)
  (outside : ∀ s s', outsiders s s' → latched s → latched s')
  (tidy : ∀ k u, Passage world outsiders s k u → u.IsTidy)

include latches outside tidy

/-- A course that begins with a look at the latch, on a thread that shows its exchanges: it finds
the latch set and ends.  Until then the thread is about to look, or about to end. -/
theorem Passage.plays_refusal {α : Type} {l : Label} {At : System σ → Course α → Prop}
    {shown : Exchange σ → Occurrence σ} {ends : α → Occurrence σ → Prop} {a : α}
    {next : Bool → Course α} {fin : Occurrence σ} (follows : Follows world l At shown ends)
    (shows : ∀ x, (shown x).exchange? = some x) (refused : next true = .done a)
    (ending : ∀ o, ends a o → o = fin) (start : At s (.act .readLatch next))
    (passage : Passage world outsiders s k t) (set : latched s.plant) :
    ∃ before after, Plays [shown ⟨.readLatch, true, before, after⟩, fin] (steps l k) ∧
      ((steps l k).length < 2 → At t (.act .readLatch next) ∨ At t (.done a)) := by
  obtain ⟨h, rest, reaches, shown_eq⟩ := passage.follows follows tidy start
  cases h with
  | nil =>
    obtain rfl := Course.reaches_nil reaches
    refine ⟨s.plant, s.plant, ?_⟩
    rcases shown_eq with ⟨nothing, stands⟩ | ⟨a, o, more, done, -⟩
    · rw [nothing]
      exact ⟨.inl List.nil_prefix, fun _ => .inl stands⟩
    · cases done
  | cons x h =>
    have mem : shown x ∈ k := by
      have mem : shown x ∈ steps l k := by
        rcases shown_eq with ⟨shown_eq, -⟩ | ⟨a, o, more, -, -, shown_eq⟩ <;> rw [shown_eq]
        · exact List.mem_cons_self
        · exact List.mem_cons_self
      exact (List.mem_filter.1 mem).1
    obtain ⟨done, l⟩ := passage.exchange_latched latches outside set _ mem x (shows x)
    cases reaches with
    | @act _ _ found before after _ _ reaches =>
      obtain rfl : found = true := by
        have look := (latches.look before).symm.trans done
        rw [l] at look
        exact (Option.some.inj (Prod.mk.inj look).1).symm
      rw [refused] at reaches
      obtain ⟨rfl, rfl⟩ := Course.reaches_done reaches
      refine ⟨before, after, ?_⟩
      rcases shown_eq with ⟨shown_eq, stands⟩ | ⟨a, o, more, same, ended, shown_eq⟩
      · rw [shown_eq]
        exact ⟨.inl ⟨[fin], rfl⟩, fun _ => .inr stands⟩
      · cases same
        rw [shown_eq, ending o ended]
        exact ⟨.inr ⟨more, rfl⟩, fun short => absurd short (Nat.not_lt.2 (Nat.le_add_left ..))⟩

end

/-! ## Emergency stops -/

/-- All that a caller shows of an emergency stop: it trips the latch, halts motion, looks at the run
state last published, and has an outcome for its result. -/
def StopScript (i : Nat) (script : List (Occurrence σ)) : Prop :=
  ∃ (first : Bool) (state : RunState) (p₁ p₂ p₃ p₄ p₅ p₆ : σ), script = [
    .onCaller i ⟨.tripLatch, first, p₁, p₂⟩, .onCaller i ⟨.haltMotion, (), p₃, p₄⟩,
    .onCaller i ⟨.readPublished, state, p₅, p₆⟩,
    .settles i (.directive .emergencyStop) (.ok (.outcome ⟨.emergencyStop, state, .empty,
      Directive.emergencyStop.text ++ ": motion halted - restart required"⟩))]

/-- An emergency stop goes through to its outcome, and nothing makes it wait on the way. -/
theorem Passage.plays_stop (steady : world.NeverBreaks)
    (tidy : ∀ k u, Passage world outsiders s k u → u.IsTidy)
    (prompt : world.IsPrompt)
    {i : Nat} (start : CallerAt i (.directive .emergencyStop) s
      (Call.submission (.directive .emergencyStop)))
    (passage : Passage world outsiders s k t) :
    ∃ script, StopScript i script ∧ Plays script (steps (.caller i) k) ∧
      ((steps (.caller i) k).length < script.length → (move? world (.caller i) t).isSome) := by
  obtain ⟨h, rest, reaches, shown⟩ :=
    passage.follows (follows_caller steady i (.directive .emergencyStop)) tidy start
  -- one case for each number of actions done so far
  cases reaches with
  | refl =>
    refine ⟨_, ⟨true, .running, s.plant, s.plant, s.plant, s.plant, s.plant, s.plant, rfl⟩, ?_⟩
    rcases shown with ⟨shown, stands⟩ | ⟨a, o, more, done, -⟩
    · rw [shown]
      refine ⟨.inl List.nil_prefix, fun _ => ?_⟩
      exact moves_of_callerAt steady stands (prompt _ (by decide) _)
    · cases done
  | @act _ _ first p₁ p₂ h _ reaches =>
    cases reaches with
    | refl =>
      refine ⟨_, ⟨first, .running, p₁, p₂, p₁, p₂, p₁, p₂, rfl⟩, ?_⟩
      rcases shown with ⟨shown, stands⟩ | ⟨a, o, more, done, -⟩
      · rw [shown]
        exact ⟨.inl ⟨_, rfl⟩, fun _ => moves_of_callerAt steady stands (prompt _ (by decide) _)⟩
      · cases done
    | @act _ _ _ p₃ p₄ h _ reaches =>
      cases reaches with
      | refl =>
        refine ⟨_, ⟨first, .running, p₁, p₂, p₃, p₄, p₃, p₄, rfl⟩, ?_⟩
        rcases shown with ⟨shown, stands⟩ | ⟨a, o, more, done, -⟩
        · rw [shown]
          exact ⟨.inl ⟨_, rfl⟩, fun _ => moves_of_callerAt steady stands (prompt _ (by decide) _)⟩
        · cases done
      | @act _ _ state p₅ p₆ h _ reaches =>
        obtain ⟨rfl, rfl⟩ := Course.reaches_done reaches
        refine ⟨_, ⟨first, state, p₁, p₂, p₃, p₄, p₅, p₆, rfl⟩, ?_⟩
        rcases shown with ⟨shown, stands⟩ | ⟨a, o, more, done, ended, shown⟩
        · rw [shown]
          exact ⟨.inl ⟨_, rfl⟩, fun _ => moves_of_callerAt steady stands trivial⟩
        · cases done
          cases ended
          rw [shown]
          refine ⟨.inr ⟨more, rfl⟩, fun short => absurd short ?_⟩
          exact Nat.not_lt.2 (Nat.le_add_left 4 more.length)

/-- All that a visitor shows: it trips the latch and halts motion. -/
def VisitScript (i : Nat) (first : Bool) (script : List (Occurrence σ)) : Prop :=
  ∃ p₁ p₂ p₃ p₄ : σ, script = [
    .onVisitor i ⟨.tripLatch, first, p₁, p₂⟩, .onVisitor i ⟨.haltMotion, (), p₃, p₄⟩]

theorem moves_of_visitorAt (steady : world.NeverBreaks) {i : Nat} {action : Action}
    {next : action.Answer → Course Bool} (stands : VisitorAt i s (.act action next))
    (ready : world.ready action s.plant) : (move? world (.visitor i) s).isSome := by
  show (s.moveVisitor world i).isSome
  obtain ⟨answer, s', done⟩ := steady action s.plant
  unfold moveVisitor
  rw [stands]
  simp only [ready, if_true, done, Option.isSome_some]

/-- A visitor goes through to its answer, which says whether its trip found the latch clear. -/
theorem Passage.plays_visit (steady : world.NeverBreaks)
    (tidy : ∀ k u, Passage world outsiders s k u → u.IsTidy)
    (prompt : world.IsPrompt)
    {i : Nat} (start : VisitorAt i s Call.emergencyStop)
    (passage : Passage world outsiders s k t) :
    ∃ first script, VisitScript i first script ∧ Plays script (steps (.visitor i) k) ∧
      ((steps (.visitor i) k).length < script.length → (move? world (.visitor i) t).isSome) ∧
      (script.length ≤ (steps (.visitor i) k).length → VisitorAt i t (.done first)) := by
  obtain ⟨h, rest, reaches, ⟨shown, stands⟩ | ⟨-, -, -, -, never, -⟩⟩ :=
    passage.follows (follows_visitor i) tidy start
  · rw [shown, List.length_map]
    cases reaches with
    | refl =>
      refine ⟨true, _, ⟨s.plant, s.plant, s.plant, s.plant, rfl⟩, .inl List.nil_prefix, ?_, nofun⟩
      exact fun _ => moves_of_visitorAt steady stands (prompt _ (by decide) _)
    | @act _ _ first p₁ p₂ h _ reaches =>
      cases reaches with
      | refl =>
        refine ⟨first, _, ⟨p₁, p₂, p₁, p₂, rfl⟩, .inl ⟨_, rfl⟩, ?_, fun long => ?_⟩
        · exact fun _ => moves_of_visitorAt steady stands (prompt _ (by decide) _)
        · exact absurd long (Nat.not_succ_le_self 1)
      | @act _ _ _ p₃ p₄ h _ reaches =>
        obtain ⟨rfl, rfl⟩ := Course.reaches_done reaches
        refine ⟨first, _, ⟨p₁, p₂, p₃, p₄, rfl⟩, .inl ⟨[], rfl⟩, fun short => ?_, fun _ => stands⟩
        exact absurd short (Nat.lt_irrefl 2)
  · exact never.elim

/-! ## Trips -/

theorem trip_of_move (steady : world.NeverBreaks) (latches : world.Latches latched)
    (only : ∀ action s, action ≠ .tripLatch → latched (world.perform action s).2 = latched s)
    (move : Move world s o t) :
    match o.trip? with
    | some first => first = !latched s.plant ∧ latched t.plant
    | none => latched t.plant = latched s.plant := by
  have next := plant_of_move steady move
  cases exchange : o.exchange? with
  | none =>
    rw [exchange] at next
    simp only [Occurrence.trip?, exchange]
    exact congrArg latched next
  | some x =>
    rw [exchange] at next
    obtain ⟨done, before, after⟩ := next
    rw [Exchange.CarriedOut, before, after] at done
    simp only [Occurrence.trip?, exchange]
    obtain ⟨action, answer, _, _⟩ := x
    by_cases isTrip : action = .tripLatch
    · subst isTrip
      have told := latches.trip s.plant
      have tripped := latches.tripped s.plant
      rw [done] at told tripped
      exact ⟨Option.some.inj told, tripped⟩
    · have same := only action s.plant isTrip
      rw [done] at same
      cases action with
      | tripLatch => exact absurd rfl isTrip
      | _ => exact same

/-- Where only dispatch trips the latch, one trip finds it clear, if there is any. -/
theorem Passage.one_trip (steady : world.NeverBreaks) (latches : world.Latches latched)
    (only : ∀ action s, action ≠ .tripLatch → latched (world.perform action s).2 = latched s)
    (outside : ∀ s s', outsiders s s' → latched s' = latched s) (clear : latched s.plant = false)
    (passage : Passage world outsiders s h t) :
    latched t.plant = !(trips h).isEmpty ∧
      (trips h).count true = if latched t.plant then 1 else 0 := by
  induction passage with
  | refl => exact ⟨clear, by rw [clear]; rfl⟩
  | outside _ change ih =>
    obtain ⟨some, one⟩ := ih
    rw [← outside _ _ change] at some one
    exact ⟨some, one⟩
  | @step m u l o h passage moved ih =>
    obtain ⟨some, one⟩ := ih
    have next := trip_of_move steady latches only (move_of_move? moved)
    rw [trips, filterMap_concat]
    cases trip : o.trip? with
    | none =>
      rw [trip] at next
      rw [Option.toList_none, List.append_nil, next]
      exact ⟨some, one⟩
    | some first =>
      rw [trip] at next
      obtain ⟨rfl, set⟩ := next
      rw [Option.toList_some, List.count_append, set]
      refine ⟨by simp, ?_⟩
      rw [← trips, one]
      cases latched m.plant <;> rfl

end System

end ProgramControl
