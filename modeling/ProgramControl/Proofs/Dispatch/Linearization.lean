import ProgramControl.Proofs.Dispatch.Rest
import ProgramControl.Proofs.Dispatch.SingleCall
import ProgramControl.Proofs.Program.Preemption
import ProgramControl.Workshop

/-!
# Dispatch as a sequence with a side channel

From the outside a dispatch system is one sequential program that serves requests in the order in
which they entered the channel, and beside it an emergency stop that waits for nobody.  All three
statements are about every passage, so about any number of callers and visitors and any order of
their steps.

* `Serves`     requests are served in sequence, and every call has its one answer;
* `Refuses`    what is left to calls and requests once shutdown is latched;
* `Stops`      emergency stops go through, and one of them finds the latch clear;
* `Passage.linearizes`   every passage of a fresh system does all of it.
-/

namespace ProgramControl.System

variable {σ : Type}

/-- Requests are served in sequence. -/
structure Serves (world : Plant σ) (latched : σ → Bool) (s : System σ) (h : List (Occurrence σ))
    (t : System σ) : Prop where
  /-- the worker's part is one run of the program over the requests to which it replies; `current`
  is what it has done so far about the one in hand -/
  sequential : ∃ (turns : List (Turn σ)) (p : Program) (current : List (Exchange σ)),
    Program.Runs s.fitted {} turns p ∧
    (replied h).map (fun r => (r.1.call, r.2)) = turns.map (fun t => (t.call, t.result)) ∧
    worked h = Program.exchanges turns ++ current ∧ t.worker.At s.fitted p current
  /-- every call goes through its script: an emergency stop has its outcome; any other call looks
  at the latch, and is refused if it finds it set; if it is clear, the optional stop is switched,
  and everything else enters the channel and has for its result what the worker replies to it -/
  calls (i : Nat) (call : Call) (h₁ h₂ : List (Occurrence σ))
    (begins : h = h₁ ++ .begins i call :: h₂) :
    ∃ script result, CallScript i call script result ∧
      Plays script (.begins i call :: callsOf i h₂)
  /-- a look at the latch finds it as it is -/
  looks (i : Nat) (found : Bool) (before after : σ)
    (look : .onCaller i ⟨.readLatch, found, before, after⟩ ∈ h) : found = latched before
  /-- each request is replied to once, in the order in which requests entered, or still waits -/
  fifo : entered h = (replied h).map Prod.fst ++ t.waiting
  /-- a caller gets one answer to each of its calls, its own, before it makes the next one -/
  answers (i : Nat) (c : Caller) (place : t.callers[i]? = some c) :
    c.Served (t.pending i) (begun i h) (answered i h)
  /-- its requests are served in the order of its calls -/
  order (i : Nat) (c : Caller) (place : t.callers[i]? = some c) :
    List.Sublist (((entered h).filter (·.caller = i)).map (·.call)) (begun i h)
  /-- threads cannot go on for ever -/
  bounded : h.length ≤ s.budget
  /-- where they come to a rest nobody is left without an answer, unless the plant makes someone
  wait -/
  rest (ready : ∀ action, world.ready action t.plant) (stuck : ∀ l, move? world l t = none) :
    t.waiting = [] ∧ ∀ c ∈ t.callers, c.todo = [] ∧ c.stage = .free

/-- Shutdown was latched before the passage `k`. -/
structure Refuses (world : Plant σ) (latched : σ → Bool) (k : List (Occurrence σ)) (u : System σ) :
    Prop where
  /-- it stays so -/
  stays : latched u.plant
  /-- a call that begins now is refused at its first step and never enters the channel; nothing
  makes its caller wait -/
  calls (i : Nat) (call : Call) (k₁ k₂ : List (Occurrence σ))
    (begins : k = k₁ ++ .begins i call :: k₂) (other : call ≠ .directive .emergencyStop) :
    ∃ before after, Plays [.onCaller i ⟨.readLatch, true, before, after⟩,
      .settles i call (.error .alreadyShutdown)] (steps (.caller i) k₂) ∧
      ((steps (.caller i) k₂).length < 2 → (move? world (.caller i) u).isSome)
  /-- a request that the worker takes now is refused at its first step and leaves the program as it
  is -/
  requests (errand : Errand) (p : Program) (k₁ k₂ : List (Occurrence σ))
    (takes : k = k₁ ++ .takes errand p :: k₂) :
    ∃ before after, Plays [.onWorker ⟨.readLatch, true, before, after⟩,
      .replies errand (.error .alreadyShutdown) p] (steps .worker k₂) ∧
      ((steps .worker k₂).length < 2 → (move? world .worker u).isSome)

/-- Emergency stops beside the channel. -/
structure Stops (world : Plant σ) (outsiders : σ → σ → Prop) (latched : σ → Bool) (s : System σ)
    (h : List (Occurrence σ)) (t : System σ) : Prop where
  /-- one that a caller makes goes through to its outcome -/
  calls (i : Nat) (h₁ h₂ : List (Occurrence σ))
    (begins : h = h₁ ++ .begins i (.directive .emergencyStop) :: h₂) :
    ∃ script, StopScript i script ∧ Plays script (steps (.caller i) h₂) ∧
      ((steps (.caller i) h₂).length < script.length → (move? world (.caller i) t).isSome)
  /-- one that a visitor makes goes through to the answer of its trip -/
  visits (i : Nat) (inside : i < s.visitors.length) :
    ∃ first script, VisitScript i first script ∧ Plays script (steps (.visitor i) h) ∧
      ((steps (.visitor i) h).length < script.length → (move? world (.visitor i) t).isSome) ∧
      (script.length ≤ (steps (.visitor i) h).length → VisitorAt i t (.done first))
  /-- whatever begins after a trip, the halt for one, begins with shutdown latched -/
  after_trip (o : Occurrence σ) (h₁ h₂ : List (Occurrence σ)) (tripped : h = h₁ ++ o :: h₂)
    (trip : o.trip?.isSome) : ∀ o' ∈ h₂, ∀ x, o'.exchange? = some x → latched x.before
  /-- where nobody else trips the latch, shutdown is latched if there was a trip, and then one trip
  found it clear -/
  one (only : ∀ action s, action ≠ .tripLatch → latched (world.perform action s).2 = latched s)
    (same : ∀ s s', outsiders s s' → latched s' = latched s) (clear : latched s.plant = false) :
    latched t.plant = !(trips h).isEmpty ∧
      (trips h).count true = if latched t.plant then 1 else 0

section

variable {world : Plant σ} {outsiders : σ → σ → Prop} {latched : σ → Bool} {s t u : System σ}
  {h k : List (Occurrence σ)}

theorem callerAt_of_begins {i : Nat} {call : Call} (move : Move world s (.begins i call) t) :
    CallerAt i call t call.submission := by
  cases move with
  | begins place =>
    obtain ⟨inside, -⟩ := List.getElem?_eq_some_iff.1 place
    exact ⟨_, List.getElem?_set_self inside, rfl⟩

theorem workerAt_of_takes {errand : Errand} {p : Program}
    (move : Move world s (.takes errand p) t) :
    WorkerAt errand t (errand.call.service s.fitted p) := by
  cases move
  rfl

/-- A caller that has begun a call stands at the beginning of its script. -/
theorem inCall_of_begins (steady : world.NeverBreaks) (fresh : s.IsFresh) {i : Nat} {call : Call}
    {m : System σ} (move : Move world m (.begins i call) t)
    (reached : Passage world outsiders s h t) : ∃ todo, InCall i call todo t [.begins i call] := by
  cases move with
  | @begins _ c _ todo place stage next =>
    obtain ⟨inside, -⟩ := List.getElem?_eq_some_iff.1 place
    have place := List.getElem?_set_self
      (a := { c with todo, stage := .calling call call.submission }) inside
    have waits := reached.isTidy steady fresh i _ place
    exact ⟨todo, .submitting ⟨place, List.eq_nil_of_length_eq_zero waits⟩ (.refl _)⟩

/-- Every call of a passage goes through its script. -/
theorem Passage.plays_calls (steady : world.NeverBreaks) (fresh : s.IsFresh) {i : Nat} {call : Call}
    (passage : Passage world outsiders s (h ++ .begins i call :: k) t) :
    ∃ script result, CallScript i call script result ∧
      Plays script (.begins i call :: callsOf i k) := by
  obtain ⟨m, m', -, move, until_, after⟩ := passage.split_cons
  obtain ⟨todo, at_⟩ := inCall_of_begins steady fresh move until_
  have alive : m'.worker.isDead = false := (until_.sequential steady fresh.worker).alive
  exact after.plays_call steady alive at_

theorem Passage.found_eq (latches : world.Latches latched)
    (passage : Passage world outsiders s h t) {o : Occurrence σ} (mem : o ∈ h) {found : Bool}
    {before after : σ} (look : o.exchange? = some ⟨.readLatch, found, before, after⟩) :
    found = latched before := by
  obtain ⟨h₁, h₂, rfl⟩ := List.append_of_mem mem
  obtain ⟨m, m', -, move, -, -⟩ := passage.split_cons
  obtain ⟨done, -, -⟩ := exchange_of_move move look
  exact Option.some.inj (Prod.mk.inj (done.symm.trans (latches.look before))).1

theorem Passage.refuses (steady : world.NeverBreaks) (latches : world.Latches latched)
    (outside : ∀ s s', outsiders s s' → latched s → latched s') (prompt : world.IsPrompt)
    (fresh : s.IsFresh) (reached : Passage world outsiders s h t) (set : latched t.plant)
    (passage : Passage world outsiders t k u) : Refuses world latched k u where
  stays := passage.stays_latched latches outside set
  calls := by
    rintro i call k₁ k₂ rfl other
    obtain ⟨m, m', before, move, until_, after⟩ := passage.split_cons
    obtain ⟨next, looks, refused, -⟩ := Call.submission_looks other
    have start := callerAt_of_begins move
    rw [looks] at start
    have tidy := (reached.trans until_).tidy steady fresh
    obtain ⟨p₁, p₂, plays, now⟩ := after.plays_refusal latches outside tidy
      (follows_caller steady i call) (fun _ => rfl) refused (fun _ ended => ended) start
      (until_.stays_latched latches outside set)
    refine ⟨p₁, p₂, plays, fun short => ?_⟩
    rcases now short with stands | stands
    · exact moves_of_callerAt steady stands (prompt _ (by decide) _)
    · exact moves_of_callerAt steady stands trivial
  requests := by
    rintro errand p k₁ k₂ rfl
    obtain ⟨m, m', before, move, until_, after⟩ := passage.split_cons
    obtain ⟨next, looks, refused⟩ := errand.call.service_looks m.fitted p
    have start := workerAt_of_takes move
    rw [looks] at start
    have tidy := (reached.trans until_).tidy steady fresh
    obtain ⟨p₁, p₂, plays, now⟩ := after.plays_refusal latches outside tidy
      (follows_worker steady errand) (fun _ => rfl) refused (fun _ ended => ended) start
      (until_.stays_latched latches outside set)
    refine ⟨p₁, p₂, plays, fun short => ?_⟩
    rcases now short with stands | stands
    · exact moves_of_workerAt stands (prompt _ (by decide) _)
    · exact moves_of_workerAt stands trivial

theorem Passage.stops (steady : world.NeverBreaks) (latches : world.Latches latched)
    (outside : ∀ s s', outsiders s s' → latched s → latched s')
    (prompt : world.IsPrompt) (fresh : s.IsFresh) (passage : Passage world outsiders s h t) :
    Stops world outsiders latched s h t where
  calls := by
    rintro i h₁ h₂ rfl
    obtain ⟨m, m', before, move, until_, after⟩ := passage.split_cons
    exact after.plays_stop steady (until_.tidy steady fresh) prompt (callerAt_of_begins move)
  visits := by
    intro i inside
    refine passage.plays_visit steady ((refl s).tidy steady fresh) prompt ?_
    rw [VisitorAt, List.getElem?_eq_getElem inside, fresh.visitors _ (List.getElem_mem inside)]
  after_trip := by
    rintro o h₁ h₂ rfl trip
    exact passage.latched_after_trip latches outside trip
  one := fun only same clear => passage.one_trip steady latches only same clear

/-- Callers, visitors and the worker take their steps in any order, and outsiders change the plant
at any moment, but do not clear its latch.  Then requests are served in sequence, everything is
refused once shutdown is latched, and emergency stops go through. -/
theorem Passage.linearizes (steady : world.NeverBreaks) (latches : world.Latches latched)
    (outside : ∀ s s', outsiders s s' → latched s → latched s')
    (prompt : world.IsPrompt) (fresh : s.IsFresh) (passage : Passage world outsiders s h t) :
    Serves world latched s h t ∧
      (∀ k u, Passage world outsiders t k u → latched t.plant → Refuses world latched k u) ∧
      Stops world outsiders latched s h t := by
  refine ⟨?_, ?_, passage.stops steady latches outside prompt fresh⟩
  · exact {
      sequential := passage.sequential steady fresh.worker
      calls := by
        rintro i call h₁ h₂ rfl
        exact passage.plays_calls steady fresh
      looks := fun i found before after look => passage.found_eq latches look rfl
      fifo := passage.fifo steady fresh.waiting
      answers := passage.answers steady fresh
      order := fun i c place => passage.in_order steady fresh place
      bounded := passage.length_le fresh
      rest := passage.done_of_stuck steady fresh }
  · exact fun k u more set => passage.refuses steady latches outside prompt fresh set more

end

/-! ## The workshop -/

theorem neverBreaks_workshop : Workshop.plant.NeverBreaks :=
  fun action w => ⟨(w.perform action).1, (w.perform action).2, rfl⟩

theorem isLatched_workshop (action : Action) (w : Workshop) (other : action ≠ .tripLatch) :
    (Workshop.plant.perform action w).2.board.isLatched = w.board.isLatched := by
  cases action with
  | tripLatch => exact absurd rfl other
  | _ => rfl

theorem latches_workshop : Workshop.plant.Latches (·.board.isLatched) where
  look _ := rfl
  trip _ := rfl
  tripped _ := rfl
  stays action w l := by
    by_cases isTrip : action = .tripLatch
    · subst isTrip
      rfl
    · exact (isLatched_workshop action w isTrip).trans l

theorem isPrompt_workshop : Workshop.plant.IsPrompt := by
  intro action mem w
  simp only [List.mem_cons, List.not_mem_nil, or_false] at mem
  rcases mem with rfl | rfl | rfl | rfl <;> rfl

/-- One caller that is about to pause the program and to begin another one, and one visitor. -/
def oneOfEach : System Workshop where
  depth := 1
  fitted := {}
  plant := { courier := .start (.ofConfig 5 0) 1 }
  callers := [{ todo := [.directive .pauseUnconditional, .beginProgram] }]
  visitors := [Call.emergencyStop]

/-- The caller's pause enters the channel, and the worker's reply to it is its result.  Then the
visitor stops the machine, and the caller's other call is refused. -/
theorem linearizes_oneOfEach :
    let pausing := List.replicate 4 (Label.caller 0) ++ List.replicate 9 .worker
    let stopping := pausing ++ List.replicate 2 (.visitor 0)
    let h := shown Workshop.plant stopping oneOfEach
    let stopped := run Workshop.plant stopping oneOfEach
    let refusing := List.replicate 3 (Label.caller 0)
    let pause : Call := .directive .pauseUnconditional
    let result : Result := .ok (.outcome ⟨.pauseUnconditional, .paused,
      StepSet.motionQuiesced.insert .pauseEngaged,
      "PAUSE_UNCONDITIONAL: program paused - send RESUME to continue"⟩)
    Serves Workshop.plant (·.board.isLatched) oneOfEach h stopped ∧
      replied h = [(⟨0, pause⟩, result)] ∧ answered 0 h = [(pause, result)] ∧
      Refuses Workshop.plant (·.board.isLatched) (shown Workshop.plant refusing stopped)
        (run Workshop.plant refusing stopped) := by
  intro pausing stopping h stopped refusing pause result
  have fresh : oneOfEach.IsFresh := by
    refine ⟨rfl, rfl, fun c mem => ?_, fun v mem => List.mem_singleton.1 mem⟩
    obtain rfl := List.mem_singleton.1 mem
    exact ⟨rfl, rfl⟩
  have passage : Passage Workshop.plant (fun w w' => w' = w) oneOfEach h stopped :=
    passage_run _ _ stopping oneOfEach
  have outside (w w' : Workshop) (same : w' = w) (l : w.board.isLatched) : w'.board.isLatched :=
    same ▸ l
  obtain ⟨serves, refuses, -⟩ :=
    Passage.linearizes neverBreaks_workshop latches_workshop outside isPrompt_workshop fresh passage
  exact ⟨serves, rfl, rfl, refuses _ _ (passage_run ..) rfl⟩

end ProgramControl.System
