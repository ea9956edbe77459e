import ProgramControl.Proofs.Dispatch.Passage

/-!
# What a passage serves

The worker serves one request after the other.  So what it does in a passage is one sequential run
of the program, over the requests in the order in which they entered the channel, and every caller
gets the answers to its own calls, in the order in which it made them.

* `entered`, `replied`, `worked`, `begun`, `answered`   what a passage shows of requests and calls;
* `Passage.sequential`   the worker's part is a run of the program;
* `Passage.fifo`         what entered the channel was replied to in order, or waits;
* `Passage.answers`      a caller's calls and answers go together;
* `Passage.in_order`     its requests enter the channel in the order of its calls;
* `Passage.done_of_stuck`   threads come to a rest only when every call has its answer.
-/

namespace ProgramControl

variable {σ : Type}

namespace Occurrence

def entered? : Occurrence σ → Option Errand
  | .enters errand => some errand
  | _ => none

def replied? : Occurrence σ → Option (Errand × Result)
  | .replies errand result _ => some (errand, result)
  | _ => none

def worked? : Occurrence σ → Option (Exchange σ)
  | .onWorker x => some x
  | _ => none

def begun? (i : Nat) : Occurrence σ → Option Call
  | .begins j call => if j = i then some call else none
  | _ => none

/-- The answer that a caller gets, with the call it is the answer to. -/
def answered? (i : Nat) : Occurrence σ → Option (Call × Result)
  | .settles j call result => if j = i then some (call, result) else none
  | .replies errand result _ => if errand.caller = i then some (errand.call, result) else none
  | _ => none

end Occurrence

section

variable (i : Nat) (h : List (Occurrence σ))

def entered : List Errand := h.filterMap (·.entered?)

def replied : List (Errand × Result) := h.filterMap (·.replied?)

def worked : List (Exchange σ) := h.filterMap (·.worked?)

def begun : List Call := h.filterMap (·.begun? i)

def answered : List (Call × Result) := h.filterMap (·.answered? i)

end

theorem filterMap_concat {α β : Type} (f : α → Option β) (l : List α) (a : α) :
    (l ++ [a]).filterMap f = l.filterMap f ++ (f a).toList := by
  rw [List.filterMap_append]
  cases same : f a with
  | none => rw [List.filterMap_cons_none same]; rfl
  | some b => rw [List.filterMap_cons_some same]; rfl

/-- Where the worker stands after the exchanges `current` of the call it has in hand; `p` is the
program as the last call left it. -/
def Worker.At (fitted : Equipment) (p : Program) (current : List (Exchange σ)) : Worker → Prop
  | .idle q => q = p ∧ current = []
  | .busy errand course => (errand.call.service fitted p).Reaches current course
  | .dead => False

/-- The call that a caller has open, if those of its requests that wait are `pending`. -/
def Caller.opened (pending : List Errand) (c : Caller) : List Call :=
  match c.stage with
  | .free => []
  | .calling call _ | .sending call => [call]
  | .awaiting => pending.map (·.call)

theorem Occurrence.begun?_of_ne {i : Nat} {o : Occurrence σ} (other : o.caller? ≠ some i) :
    o.begun? i = none ∧ o.answered? i = none := by
  have ne {j : Nat} (differs : some j ≠ some i) : j ≠ i := fun same => differs (congrArg some same)
  cases o with
  | begins j call => exact ⟨if_neg (ne other), rfl⟩
  | settles j call result => exact ⟨rfl, if_neg (ne other)⟩
  | replies errand result p => exact ⟨rfl, if_neg (ne other)⟩
  | _ => exact ⟨rfl, rfl⟩

/-- The calls of a caller, the answers it got, and its requests that wait go together: it made each
call after the answer to the last one, and keeps the results. -/
structure Caller.Served (pending : List Errand) (begun : List Call)
    (answered : List (Call × Result)) (c : Caller) : Prop where
  calls : begun = answered.map Prod.fst ++ c.opened pending
  results : c.results = answered.map Prod.snd
  /-- a request waits exactly while its caller does -/
  waits : pending.length = if c.isAwaiting then 1 else 0

namespace System

/-- Requests of one caller that wait. -/
def pending (i : Nat) (s : System σ) : List Errand := s.waiting.filter (·.caller = i)

variable {world : Plant σ} {outsiders : σ → σ → Prop} {s t : System σ} {o : Occurrence σ}
  {h : List (Occurrence σ)} {fitted : Equipment} {p : Program} {current : List (Exchange σ)}

theorem fitted_of_move (move : Move world s o t) : t.fitted = s.fitted := by
  cases move <;> rfl

theorem Passage.fitted_eq (passage : Passage world outsiders s h t) : t.fitted = s.fitted := by
  induction passage with
  | refl => rfl
  | step _ moved ih => exact (fitted_of_move (move_of_move? moved)).trans ih
  | outside _ _ ih => exact ih

/-! ## The worker -/

/-- A step of the worker goes on with the call in hand; no other step touches the worker. -/
theorem at_of_move (steady : world.NeverBreaks) (move : Move world s o t)
    (stands : s.worker.At s.fitted p current) :
    match o with
    | .onWorker x => t.worker.At s.fitted p (current ++ [x])
    | .replies errand result q =>
      (errand.call.service s.fitted p).Reaches current (.done (result, q)) ∧ t.worker = .idle q
    | .breaks => False
    | _ => t.worker.At s.fitted p current := by
  cases move with
  | takes idle first =>
    rw [idle] at stands
    obtain ⟨rfl, rfl⟩ := stands
    exact .refl _
  | onWorker busy done =>
    rw [busy] at stands
    exact stands.trans (.act (.refl _))
  | replies busy =>
    rw [busy] at stands
    exact ⟨stands, rfl⟩
  | breaks busy done => exact (steady.elim done).elim
  | _ => exact stands

theorem IsFresh.waiting (fresh : s.IsFresh) : s.waiting = [] := by
  rw [System.waiting, fresh.worker, fresh.channel]
  rfl

/-- What the worker did is one sequential run of the program, over the requests to which it replied
and the one that it has in hand. -/
def Serial (fitted : Equipment) (h : List (Occurrence σ)) (worker : Worker) : Prop :=
  ∃ (turns : List (Turn σ)) (p : Program) (current : List (Exchange σ)),
    Program.Runs fitted {} turns p ∧
    (replied h).map (fun r => (r.1.call, r.2)) = turns.map (fun t => (t.call, t.result)) ∧
    worked h = Program.exchanges turns ++ current ∧ worker.At fitted p current

theorem Serial.start (fitted : Equipment) : Serial fitted ([] : List (Occurrence σ)) (.idle {}) :=
  ⟨[], {}, [], .nil _, rfl, rfl, rfl, rfl⟩

theorem Serial.alive {worker : Worker} (serial : Serial fitted h worker) :
    worker.isDead = false := by
  obtain ⟨turns, p, current, -, -, -, stands⟩ := serial
  cases worker with
  | dead => exact stands.elim
  | _ => rfl

/-- What one step preserves: the run of the program goes on. -/
theorem Serial.step (steady : world.NeverBreaks) (move : Move world s o t)
    (serial : Serial s.fitted h s.worker) : Serial s.fitted (h ++ [o]) t.worker := by
  obtain ⟨turns, p, current, run, replies, exchanges, stands⟩ := serial
  have next := at_of_move steady move stands
  rw [Serial, replied, worked, filterMap_concat, filterMap_concat]
  cases o with
  | onWorker x =>
    refine ⟨turns, p, current ++ [x], run, ?_, ?_, next⟩
    · exact (congrArg _ (List.append_nil _)).trans replies
    · rw [← List.append_assoc, ← exchanges]
      rfl
  | replies errand result q =>
    obtain ⟨served, idle⟩ := next
    refine ⟨turns ++ [⟨errand.call, p, current, result, q⟩], q, [], run.concat served, ?_, ?_, ?_⟩
    · rw [List.map_append, List.map_append, ← replies]
      rfl
    · rw [Program.exchanges_concat, List.append_nil, ← exchanges]
      exact List.append_nil _
    · rw [idle]
      exact ⟨rfl, rfl⟩
  | breaks => exact next.elim
  | _ =>
    exact ⟨turns, p, current, run, (congrArg _ (List.append_nil _)).trans replies,
      (List.append_nil _).trans exchanges, next⟩

/-- What the worker does is one sequential run of the program, over the requests to which it
replies. -/
theorem Passage.sequential (steady : world.NeverBreaks) (fresh : s.worker = .idle {})
    (passage : Passage world outsiders s h t) : Serial s.fitted h t.worker := by
  induction passage with
  | refl => exact fresh ▸ .start _
  | outside _ _ ih => exact ih
  | step passage moved ih =>
    rw [← passage.fitted_eq] at ih ⊢
    exact ih.step steady (move_of_move? moved)

/-! ## The channel -/

/-- Requests wait from when they enter the channel until they are replied to, in order. -/
theorem waiting_of_move (steady : world.NeverBreaks) (move : Move world s o t) :
    match o with
    | .enters errand => t.waiting = s.waiting ++ [errand]
    | .replies errand _ _ => s.waiting = errand :: t.waiting
    | .breaks => False
    | _ => t.waiting = s.waiting := by
  cases move with
  | enters => exact (List.append_assoc ..).symm
  | takes idle first =>
    show _ :: _ = s.worker.errand?.toList ++ s.channel
    rw [idle, first]
    rfl
  | onWorker busy =>
    show _ :: _ = s.worker.errand?.toList ++ s.channel
    rw [busy]
    rfl
  | replies busy =>
    show s.worker.errand?.toList ++ s.channel = _
    rw [busy]
    rfl
  | breaks busy done => exact (steady.elim done).elim
  | _ => rfl

theorem fifo_of_move (steady : world.NeverBreaks) (move : Move world s o t)
    (fifo : entered h = (replied h).map Prod.fst ++ s.waiting) :
    entered (h ++ [o]) = (replied (h ++ [o])).map Prod.fst ++ t.waiting := by
  have next := waiting_of_move steady move
  rw [entered, replied, filterMap_concat, filterMap_concat]
  cases o with
  | enters errand =>
    show entered h ++ [errand] = ((replied h) ++ []).map Prod.fst ++ _
    rw [fifo, next, List.append_nil, List.append_assoc]
  | replies errand result p =>
    show entered h ++ [] = ((replied h) ++ [(errand, result)]).map Prod.fst ++ _
    rw [fifo, next, List.append_nil, List.map_append, List.append_assoc]
    rfl
  | breaks => exact next.elim
  | _ =>
    show entered h ++ [] = ((replied h) ++ []).map Prod.fst ++ _
    rw [fifo, next, List.append_nil, List.append_nil]

/-- What entered the channel was replied to, in the order in which it entered, or waits. -/
theorem Passage.fifo (steady : world.NeverBreaks) (fresh : s.waiting = [])
    (passage : Passage world outsiders s h t) :
    entered h = (replied h).map Prod.fst ++ t.waiting := by
  induction passage with
  | refl => exact fresh.symm
  | outside _ _ ih => exact ih
  | step _ moved ih => exact fifo_of_move steady (move_of_move? moved) ih

/-! ## Callers -/

theorem callers_of_move (steady : world.NeverBreaks) (move : Move world s o t) {i : Nat}
    (other : o.caller? ≠ some i) : t.callers[i]? = s.callers[i]? := by
  have ne {j : Nat} (differs : some j ≠ some i) : j ≠ i := fun same => differs (congrArg some same)
  cases move with
  | replies => exact List.getElem?_modify_ne _ _ (ne other)
  | breaks busy done => exact (steady.elim done).elim
  | takes | onWorker | onVisitor => rfl
  | _ => exact List.getElem?_set_ne (ne other)

theorem pending_of_move (steady : world.NeverBreaks) (move : Move world s o t) {i : Nat}
    (other : o.caller? ≠ some i) : t.pending i = s.pending i := by
  have next := waiting_of_move steady move
  have ne {errand : Errand} (differs : some errand.caller ≠ some i) :
      ¬ decide (errand.caller = i) := fun same => differs (congrArg some (of_decide_eq_true same))
  unfold pending
  cases o with
  | enters errand =>
    rw [next, List.filter_append, List.filter_cons, if_neg (ne other)]
    exact List.append_nil _
  | replies errand result p =>
    rw [next, List.filter_cons, if_neg (ne other)]
  | breaks => exact next.elim
  | _ => rw [next]

theorem eq_of_set {i : Nat} {cs : List Caller} {c c' : Caller}
    (after : (cs.set i c)[i]? = some c') : c' = c := by
  rw [List.getElem?_set_self'] at after
  cases place : cs[i]? with
  | none => rw [place] at after; cases after
  | some _ => rw [place] at after; cases after; rfl

/-- A step in a call of the caller `i` keeps its calls and answers together. -/
theorem served_of_own_move (steady : world.NeverBreaks) (alive : s.worker.isDead = false)
    (move : Move world s o t) {i : Nat} (own : o.caller? = some i) {calls : List Call}
    {answers : List (Call × Result)} {c c' : Caller} (before : s.callers[i]? = some c)
    (after : t.callers[i]? = some c') (served : c.Served (s.pending i) calls answers) :
    c'.Served (t.pending i) (calls ++ (o.begun? i).toList)
      (answers ++ (o.answered? i).toList) := by
  obtain ⟨made, results, waits⟩ := served
  have next := waiting_of_move steady move
  cases move with
  | begins place stage | onCaller place stage | defers place stage | settles place stage =>
    cases own
    cases place.symm.trans before
    cases eq_of_set after
    simp only [Caller.opened, Caller.isAwaiting, stage] at made waits
    refine ⟨?_, ?_, waits⟩
    · simp [Occurrence.begun?, Occurrence.answered?, Caller.opened, Caller.receive, made]
    · simp [Occurrence.answered?, Caller.receive, results]
  | closed place stage dead =>
    rw [alive] at dead
    cases dead
  | @enters j _ call place stage =>
    cases own
    cases place.symm.trans before
    cases eq_of_set after
    simp only [Caller.opened, Caller.isAwaiting, stage] at made waits
    have pending : s.pending j = [] := List.eq_nil_of_length_eq_zero waits
    rw [System.pending, next, List.filter_append, ← System.pending, pending, List.nil_append,
      List.filter_cons, if_pos (decide_eq_true rfl)]
    refine ⟨?_, ?_, rfl⟩
    · simp [Occurrence.begun?, Occurrence.answered?, Caller.opened, made]
    · simp [Occurrence.answered?, results]
  | @replies errand result p busy =>
    cases own
    replace after := (List.getElem?_modify_eq ..).symm.trans after
    rw [before] at after
    cases after
    rw [System.pending, next, List.filter_cons, if_pos (decide_eq_true rfl)] at made waits
    cases stage : c.stage with
    | awaiting =>
      simp only [Caller.opened, Caller.isAwaiting, stage, if_true, List.length_cons] at made waits
      have none := List.eq_nil_of_length_eq_zero (Nat.succ.inj waits)
      rw [none] at made
      refine ⟨?_, ?_, congrArg List.length none⟩
      · simp [Occurrence.begun?, Occurrence.answered?, Caller.opened, Caller.receive, made]
      · simp [Occurrence.answered?, Caller.receive, results]
    | _ =>
      simp only [Caller.isAwaiting, stage] at waits
      cases waits
  | takes | onWorker | breaks | onVisitor => cases own

theorem length_callers_of_move (move : Move world s o t) :
    t.callers.length = s.callers.length := by
  cases move with
  | replies => exact List.length_modify ..
  | breaks => exact List.length_map ..
  | takes | onWorker | onVisitor => rfl
  | _ => exact List.length_set

/-- Every caller gets the answers to its own calls, each once, before it makes the next one. -/
theorem Passage.answers (steady : world.NeverBreaks) (fresh : s.IsFresh)
    (passage : Passage world outsiders s h t) :
    ∀ (i : Nat) (c : Caller), t.callers[i]? = some c →
      c.Served (t.pending i) (begun i h) (answered i h) := by
  induction passage with
  | refl =>
    intro i c place
    obtain ⟨stage, results⟩ := fresh.callers c (List.mem_of_getElem? place)
    rw [pending, fresh.waiting]
    exact ⟨by rw [Caller.opened, stage]; rfl, results, by rw [Caller.isAwaiting, stage]; rfl⟩
  | outside _ _ ih => exact ih
  | @step m u l o h passage moved ih =>
    intro i c' after
    have move := move_of_move? moved
    rw [begun, answered, filterMap_concat, filterMap_concat]
    by_cases own : o.caller? = some i
    · have alive : m.worker.isDead = false := (passage.sequential steady fresh.worker).alive
      obtain ⟨inside, -⟩ := List.getElem?_eq_some_iff.1 after
      rw [length_callers_of_move move] at inside
      have before := List.getElem?_eq_getElem inside
      exact served_of_own_move steady alive move own before after (ih i _ before)
    · rw [callers_of_move steady move own] at after
      obtain ⟨noCall, noAnswer⟩ := Occurrence.begun?_of_ne own
      rw [pending_of_move steady move own, noCall, noAnswer, Option.toList_none, Option.toList_none,
        List.append_nil, List.append_nil]
      exact ih i c' after

/-- A caller has one request waiting while it waits itself, and none otherwise. -/
def IsTidy (s : System σ) : Prop :=
  ∀ (i : Nat) (c : Caller), s.callers[i]? = some c →
    (s.pending i).length = if c.isAwaiting then 1 else 0

theorem Passage.isTidy (steady : world.NeverBreaks) (fresh : s.IsFresh)
    (passage : Passage world outsiders s h t) : t.IsTidy :=
  fun i c place => (passage.answers steady fresh i c place).waits

theorem Passage.tidy (steady : world.NeverBreaks) (fresh : s.IsFresh)
    (reached : Passage world outsiders s h t) :
    ∀ k u, Passage world outsiders t k u → u.IsTidy :=
  fun _ _ more => (reached.trans more).isTidy steady fresh

theorem replied_sublist (i : Nat) (h : List (Occurrence σ)) :
    List.Sublist ((((replied h).map Prod.fst).filter (·.caller = i)).map (·.call))
      ((answered i h).map Prod.fst) := by
  induction h with
  | nil => exact .refl _
  | cons o h ih =>
    cases o with
    | settles j call result =>
      rw [answered, List.filterMap_cons]
      by_cases own : j = i
      · simp only [Occurrence.answered?, if_pos own]
        exact .cons _ ih
      · simp only [Occurrence.answered?, if_neg own]
        exact ih
    | replies errand result p =>
      rw [answered, List.filterMap_cons, replied, List.filterMap_cons]
      by_cases own : errand.caller = i
      · simp only [Occurrence.answered?, Occurrence.replied?, if_pos own, List.map_cons,
          List.filter_cons, decide_eq_true own, if_true]
        exact .cons_cons _ ih
      · simp only [Occurrence.answered?, Occurrence.replied?, if_neg own, List.map_cons,
          List.filter_cons, decide_eq_false own, Bool.false_eq_true, if_false]
        exact ih
    | _ => exact ih

/-- The requests of a caller enter the channel in the order in which it makes its calls. -/
theorem Passage.in_order (steady : world.NeverBreaks) (fresh : s.IsFresh)
    (passage : Passage world outsiders s h t) {i : Nat} {c : Caller}
    (place : t.callers[i]? = some c) :
    List.Sublist (((entered h).filter (·.caller = i)).map (·.call)) (begun i h) := by
  obtain ⟨calls, -, waits⟩ := passage.answers steady fresh i c place
  rw [passage.fifo steady fresh.waiting, calls, List.filter_append, List.map_append]
  refine (replied_sublist i h).append ?_
  rw [← pending, Caller.opened]
  cases stage : c.stage with
  | awaiting => exact .refl _
  | _ =>
    rw [Caller.isAwaiting, stage] at waits
    rw [List.eq_nil_of_length_eq_zero waits]
    exact List.nil_sublist _

/-! ## Progress -/

theorem isReady_of_ready {α : Type} (ready : ∀ action, world.ready action t.plant)
    (course : Course α) : course.IsReady world t.plant := by
  cases course with
  | done a => trivial
  | act action next => exact ready action

/-- The caller `i` is at this place in its own part of the call. -/
def CallerAt (i : Nat) (call : Call) (s : System σ) (course : Course Submission) : Prop :=
  ∃ c, s.callers[i]? = some c ∧ c.stage = .calling call course

/-- A caller goes on with its own part of a call, unless the plant makes it wait. -/
theorem moves_of_callerAt (steady : world.NeverBreaks) {i : Nat} {call : Call}
    {course : Course Submission} (stands : CallerAt i call s course)
    (ready : course.IsReady world s.plant) : (move? world (.caller i) s).isSome := by
  show (s.moveCaller world i).isSome
  obtain ⟨c, place, stage⟩ := stands
  unfold moveCaller
  simp only [place, stage]
  cases course with
  | done submission => cases submission <;> rfl
  | act action next =>
    obtain ⟨answer, s', done⟩ := steady action s.plant
    have now : world.ready action s.plant = true := ready
    simp only [now, if_true, done, Option.isSome_some]

/-- The worker is at this place in its part of the errand. -/
def WorkerAt (errand : Errand) (s : System σ) (course : Course (Result × Program)) : Prop :=
  s.worker = .busy errand course

theorem moves_of_workerAt {errand : Errand} {course : Course (Result × Program)}
    (stands : WorkerAt errand s course) (ready : course.IsReady world s.plant) :
    (move? world .worker s).isSome := by
  show (s.moveWorker world).isSome
  unfold moveWorker
  rw [stands]
  cases course with
  | done end_ => rfl
  | act action next =>
    have now : world.ready action s.plant = true := ready
    simp only [now, if_true]
    split <;> rfl

/-- If the plant makes nobody wait, a worker that cannot move has nothing to do. -/
theorem idle_of_stuck (alive : t.worker.isDead = false)
    (ready : ∀ action, world.ready action t.plant) (stuck : move? world .worker t = none) :
    (∃ p, t.worker = .idle p) ∧ t.channel = [] ∧ t.waiting = [] := by
  have rests (moves : (move? world .worker t).isSome) : False := by
    rw [stuck] at moves
    cases moves
  cases worker : t.worker with
  | dead =>
    rw [worker] at alive
    cases alive
  | busy errand course =>
    exact (rests (moves_of_workerAt worker (isReady_of_ready ready course))).elim
  | idle p =>
    refine ⟨⟨p, rfl⟩, ?_⟩
    cases channel : t.channel with
    | nil => exact ⟨rfl, by rw [waiting, worker, channel]; rfl⟩
    | cons errand rest =>
      refine (rests ?_).elim
      show (t.moveWorker world).isSome
      unfold moveWorker
      simp only [worker, channel, Option.isSome_some]

/-- If the plant makes nobody wait, threads come to a rest only when every call has its answer. -/
theorem Passage.done_of_stuck (steady : world.NeverBreaks) (fresh : s.IsFresh)
    (passage : Passage world outsiders s h t) (ready : ∀ action, world.ready action t.plant)
    (stuck : ∀ l, move? world l t = none) :
    t.waiting = [] ∧ ∀ c ∈ t.callers, c.todo = [] ∧ c.stage = .free := by
  have rests {l : Label} (moves : (move? world l t).isSome) : False := by
    rw [stuck l] at moves
    cases moves
  have alive : t.worker.isDead = false := (passage.sequential steady fresh.worker).alive
  obtain ⟨⟨p, idle⟩, empty, nothing⟩ := idle_of_stuck alive ready (stuck .worker)
  refine ⟨nothing, fun c mem => ?_⟩
  obtain ⟨i, place⟩ := List.mem_iff_getElem?.1 mem
  cases stage : c.stage with
  | free =>
    cases todo : c.todo with
    | nil => exact ⟨rfl, rfl⟩
    | cons call todo =>
      refine (rests (l := .caller i) ?_).elim
      show (t.moveCaller world i).isSome
      unfold moveCaller
      simp only [place, stage, todo, Option.isSome_some]
  | calling call course =>
    refine (rests (l := .caller i) ?_).elim
    exact moves_of_callerAt steady ⟨c, place, stage⟩ (isReady_of_ready ready course)
  | sending call =>
    refine (rests (l := .caller i) ?_).elim
    show (t.moveCaller world i).isSome
    unfold moveCaller
    simp [place, stage, idle, Worker.isDead, hasRoom, empty, Worker.isIdle]
  | awaiting =>
    have waits := passage.isTidy steady fresh i c place
    rw [pending, nothing, Caller.isAwaiting, stage] at waits
    cases waits

end System

end ProgramControl
