import ProgramControl.Proofs.Dispatch.Frailty
import ProgramControl.Proofs.Program.Interruption

/-!
# Calls that no worker is left for

A caller finds out by itself that the worker is gone: the channel does not take its request, or the
reply that it waits for is gone.

* `Lost`              all that a caller shows of such a call, and its result;
* `Underway`          where a caller stands, and what it has shown of the call that it has open;
* `underway_of_move`  one step: the call goes on, or it is over;
* `Series`            calls that are over one after the other;
* `Passage.told`      what a caller shows while the worker is broken down is a series of lost calls
                      and what it has shown of the next one.
-/

namespace ProgramControl

variable {σ : Type}

namespace Action

/-- What callers do on their own threads, and visitors. -/
def isOwn : Action → Bool
  | .readLatch | .readPublished | .tripLatch | .setOptionalStop _ | .haltMotion => true
  | _ => false

theorem not_isCall_of_isOwn {action : Action} (own : action.isOwn) : action.isCall = false := by
  cases action with
  | readLatch | readPublished | tripLatch | setOptionalStop | haltMotion => rfl
  | _ => cases own

end Action

/-- A watch that lets a thread do nothing else. -/
def ownOnly : Watch Unit where
  allows _ action := action.isOwn
  next _ _ _ := ()

namespace Call

/-- The call is none that its caller does on its own. -/
def isForWorker : Call → Bool
  | .directive .emergencyStop | .directive (.setOptionalStop _) => false
  | _ => true

theorem emergencyStop_own : emergencyStop.Obeys ownOnly () fun _ _ => True :=
  ⟨rfl, fun _ => ⟨rfl, fun _ => trivial⟩⟩

theorem submission_own (call : Call) : call.submission.Obeys ownOnly () fun _ _ => True := by
  have looks {next : Course Submission} (rest : next.Obeys ownOnly () fun _ _ => True) :
      (unlessLatched next).Obeys ownOnly () fun _ _ => True := by
    refine ⟨rfl, fun found => ?_⟩
    cases found with
    | true => trivial
    | false => exact rest
  cases call with
  | beginProgram => exact looks trivial
  | directive d =>
    cases d with
    | emergencyStop => exact ⟨rfl, fun _ => ⟨rfl, fun _ => ⟨rfl, fun _ => trivial⟩⟩⟩
    | setOptionalStop on => exact looks ⟨rfl, fun _ => ⟨rfl, fun _ => trivial⟩⟩
    | _ => exact looks trivial

end Call

/-- The plant shows the run state that was published last, whatever breaks down. -/
structure Plant.Mirrors (world : Plant σ) (published : σ → RunState) : Prop where
  look (s : σ) : world.perform .readPublished s = (some (published s), s)
  publish (state : RunState) (s : σ) : published (world.perform (.publish state) s).2 = state
  stays (action : Action) (s : σ) (other : ∀ state, action ≠ .publish state) :
    published (world.perform action s).2 = published s

namespace Frail

/-! ## Lost calls -/

/-- What a caller shows of its own part of a call. -/
def ownPart (i : Nat) (call : Call) (xs : List (Exchange σ)) : List (Happening σ) :=
  .shows (.begins i call) :: xs.map fun x => .shows (.onCaller i x)

/-- The outcome of a call that its caller has done on its own. -/
def outcome (d : Directive) (state : RunState) (message : String) : Result :=
  .ok (.outcome ⟨d, state, .empty, message⟩)

/-- All that the caller `i` shows of a call for which no worker is left, and its result. -/
inductive Lost (world : Plant σ) (latched : σ → Bool) (published : σ → RunState) (i : Nat) :
    Call → List (Happening σ) → Result → Prop where
  /-- shutdown is latched -/
  | refused {call : Call} {s : σ} (other : call ≠ .directive .emergencyStop) (set : latched s) :
      Lost world latched published i call
        (ownPart i call [⟨.readLatch, true, s, s⟩] ++
          [.shows (.settles i call (.error .alreadyShutdown))])
        (.error .alreadyShutdown)
  /-- an emergency stop latches shutdown and halts motion -/
  | stopped {s₁ s₂ s₃ s₄ s₅ : σ} {result : Result}
      (trips : Exchange.CarriedOut world ⟨.tripLatch, !latched s₁, s₁, s₂⟩) (set : latched s₂)
      (halts : Exchange.CarriedOut world ⟨.haltMotion, (), s₃, s₄⟩)
      (same : result = outcome .emergencyStop (published s₅)
        (Directive.emergencyStop.text ++ ": motion halted - restart required")) :
      Lost world latched published i (.directive .emergencyStop)
        (ownPart i (.directive .emergencyStop) [⟨.tripLatch, !latched s₁, s₁, s₂⟩,
            ⟨.haltMotion, (), s₃, s₄⟩, ⟨.readPublished, published s₅, s₅, s₅⟩] ++
          [.shows (.settles i (.directive .emergencyStop) result)])
        result
  /-- the optional stop is switched -/
  | switched {on previous : Bool} {s s₁ s₂ s₃ : σ} {result : Result} (clear : latched s = false)
      (sets : Exchange.CarriedOut world ⟨.setOptionalStop on, previous, s₁, s₂⟩)
      (same : result = outcome (.setOptionalStop on) (published s₃)
        ("SET_OPTIONAL_STOP: optional stop " ++ if on then "enabled" else "disabled")) :
      Lost world latched published i (.directive (.setOptionalStop on))
        (ownPart i (.directive (.setOptionalStop on)) [⟨.readLatch, false, s, s⟩,
            ⟨.setOptionalStop on, previous, s₁, s₂⟩, ⟨.readPublished, published s₃, s₃, s₃⟩] ++
          [.shows (.settles i (.directive (.setOptionalStop on)) result)])
        result
  /-- the channel does not take the request -/
  | unsent {call : Call} {s : σ} (work : call.isForWorker) (clear : latched s = false) :
      Lost world latched published i call
        (ownPart i call [⟨.readLatch, false, s, s⟩] ++
          [.shows (.defers i call), .shows (.settles i call (.error .closed))])
        (.error .closed)
  /-- the channel takes the request, and its reply goes -/
  | dropped {call : Call} {s : σ} (work : call.isForWorker) (clear : latched s = false) :
      Lost world latched published i call
        (ownPart i call [⟨.readLatch, false, s, s⟩] ++
          [.shows (.defers i call), .shows (.enters ⟨i, call⟩), .hangsUp i])
        (.error .closed)

section

variable {world : Plant σ} {latched : σ → Bool} {published : σ → RunState} {i : Nat} {call : Call}
  {xs : List (Exchange σ)} (latches : world.Latches latched) (mirrors : world.Mirrors published)

theorem published_eq {state : RunState} {s s' : σ} (mirrors : world.Mirrors published)
    (done : Exchange.CarriedOut world ⟨.readPublished, state, s, s'⟩) :
    published s = state ∧ s' = s := by
  obtain ⟨same, rfl⟩ := Prod.mk.inj ((mirrors.look s).symm.trans done)
  exact ⟨Option.some.inj same, rfl⟩

include latches

theorem look_eq {found : Bool} {s s' : σ}
    (done : Exchange.CarriedOut world ⟨.readLatch, found, s, s'⟩) : latched s = found ∧ s' = s := by
  obtain ⟨same, rfl⟩ := Prod.mk.inj ((latches.look s).symm.trans done)
  exact ⟨Option.some.inj same, rfl⟩

/-- A call that looks at the latch first is refused, or goes on. -/
theorem reaches_unlessLatched {next : Course Submission} {submission : Submission}
    (own : (Call.unlessLatched next).Reaches xs (.done submission))
    (done : ∀ x ∈ xs, x.CarriedOut world) :
    (∃ s, latched s ∧ xs = [⟨.readLatch, true, s, s⟩] ∧
      submission = .settled (.error .alreadyShutdown)) ∨
    ∃ s ys, latched s = false ∧ xs = ⟨.readLatch, false, s, s⟩ :: ys ∧
      next.Reaches ys (.done submission) := by
  cases own with
  | @act _ _ found s s' ys _ rest =>
    obtain ⟨same, rfl⟩ := look_eq latches (done _ List.mem_cons_self)
    cases found with
    | true =>
      obtain ⟨rfl, ended⟩ := Course.reaches_done rest
      exact .inl ⟨s', same, rfl, Course.done.inj ended⟩
    | false => exact .inr ⟨s', ys, same, rfl, rest⟩

/-- A caller leaves a call to the worker after one look, which finds the latch clear. -/
theorem look_of_forWorker (own : call.submission.Reaches xs (.done .forWorker))
    (done : ∀ x ∈ xs, x.CarriedOut world) :
    call.isForWorker ∧ ∃ s, latched s = false ∧ xs = [⟨.readLatch, false, s, s⟩] := by
  have looks (same : call.submission = Call.unlessLatched (.done .forWorker)) :
      ∃ s, latched s = false ∧ xs = [⟨.readLatch, false, s, s⟩] := by
    rw [same] at own
    obtain ⟨s, -, -, settled⟩ | ⟨s, ys, clear, rfl, rest⟩ := reaches_unlessLatched latches own done
    · cases settled
    · obtain ⟨rfl, -⟩ := Course.reaches_done rest
      exact ⟨s, clear, rfl⟩
  cases call with
  | beginProgram => exact ⟨rfl, looks rfl⟩
  | directive d =>
    cases d with
    | emergencyStop =>
      cases own with | act own => cases own with | act own => cases own with | act own => cases own
    | setOptionalStop on =>
      obtain ⟨s, -, -, settled⟩ | ⟨s, ys, -, -, rest⟩ := reaches_unlessLatched latches own done
      · cases settled
      · cases rest with | act rest => cases rest with | act rest => cases rest
    | _ => exact ⟨rfl, looks rfl⟩

include mirrors

theorem Lost.of_settled {result : Result}
    (own : call.submission.Reaches xs (.done (.settled result)))
    (done : ∀ x ∈ xs, x.CarriedOut world) :
    Lost world latched published i call (ownPart i call xs ++ [.shows (.settles i call result)])
      result := by
  have refused (other : call ≠ .directive .emergencyStop)
      (same : call.submission = Call.unlessLatched (.done .forWorker)) :
      Lost world latched published i call (ownPart i call xs ++ [.shows (.settles i call result)])
        result := by
    rw [same] at own
    obtain ⟨s, set, rfl, settled⟩ | ⟨s, ys, clear, rfl, rest⟩ :=
      reaches_unlessLatched latches own done
    · cases settled
      exact .refused other set
    · obtain ⟨-, never⟩ := Course.reaches_done rest
      cases never
  cases call with
  | beginProgram => exact refused nofun rfl
  | directive d =>
    cases d with
    | emergencyStop =>
      cases own with | @act _ _ first s₁ s₂ _ _ own =>
      cases own with | @act _ _ _ s₃ s₄ _ _ own =>
      cases own with | @act _ _ state s₅ s₆ _ _ own =>
      obtain ⟨rfl, settled⟩ := Course.reaches_done own
      simp only [List.forall_mem_cons] at done
      obtain ⟨trips, halts, looks, -⟩ := done
      obtain ⟨rfl, rfl⟩ := published_eq mirrors looks
      cases settled
      have told := latches.trip s₁
      have set := latches.tripped s₁
      rw [trips] at told set
      cases Option.some.inj told
      exact .stopped trips set halts rfl
    | setOptionalStop on =>
      obtain ⟨s, set, rfl, settled⟩ | ⟨s, ys, clear, rfl, rest⟩ :=
        reaches_unlessLatched latches own done
      · cases settled
        exact .refused nofun set
      · cases rest with | @act _ _ previous s₁ s₂ _ _ rest =>
        cases rest with | @act _ _ state s₃ s₄ _ _ rest =>
        obtain ⟨rfl, settled⟩ := Course.reaches_done rest
        simp only [List.forall_mem_cons] at done
        obtain ⟨-, sets, looks, -⟩ := done
        obtain ⟨rfl, rfl⟩ := published_eq mirrors looks
        cases settled
        exact .switched clear sets rfl
    | _ => exact refused nofun rfl

end

/-! ## Callers on their way -/

/-- Where the caller `i` stands, the call that it has open, and what it has shown of it. -/
inductive Underway (world : Plant σ) (i : Nat) :
    Caller.Stage → Option Call → List (Happening σ) → Prop where
  | free : Underway world i .free none []
  | calling {call : Call} {course : Course Submission} {xs : List (Exchange σ)}
      (own : call.submission.Reaches xs course) (done : ∀ x ∈ xs, x.CarriedOut world) :
      Underway world i (.calling call course) (some call) (ownPart i call xs)
  | sending {call : Call} {xs : List (Exchange σ)}
      (own : call.submission.Reaches xs (.done .forWorker)) (done : ∀ x ∈ xs, x.CarriedOut world) :
      Underway world i (.sending call) (some call) (ownPart i call xs ++ [.shows (.defers i call)])
  | awaiting {call : Call} {xs : List (Exchange σ)}
      (own : call.submission.Reaches xs (.done .forWorker)) (done : ∀ x ∈ xs, x.CarriedOut world) :
      Underway world i .awaiting (some call)
        (ownPart i call xs ++ [.shows (.defers i call), .shows (.enters ⟨i, call⟩)])

/-- What a step of the caller `i` comes to. -/
inductive Advances (world : Plant σ) (latched : σ → Bool) (published : σ → RunState) (i : Nat)
    (c : Caller) (opened : Option Call) (now : List (Happening σ)) (c' : Caller) : Prop where
  /-- its call goes on -/
  | goesOn {opened' : Option Call} (underway : Underway world i c'.stage opened' now)
      (results : c'.results = c.results)
      (todo : opened.toList ++ c.todo = opened'.toList ++ c'.todo)
  /-- its call is over -/
  | ends {call : Call} {result : Result} (isOpen : opened = some call)
      (lost : Lost world latched published i call now result) (after : c' = c.receive result)

section

variable {world : Plant σ} {outsiders : σ → σ → Prop} {latched : σ → Bool}
  {published : σ → RunState} {f g : Frail σ} {o : Happening σ} {h now : List (Happening σ)}
  {i : Nat} {c : Caller} {opened : Option Call}

theorem callers_of_other (move : Move world f o g) (other : o.thread ≠ .caller i) :
    g.system.callers[i]? = f.system.callers[i]? ∨
      ∃ errand result p, o = .shows (.replies errand result p) ∧ errand.caller = i ∧
        g.system.callers[i]? = f.system.callers[i]?.map (·.receive result) := by
  have ne {j : Nat} (differs : Label.caller j ≠ .caller i) : j ≠ i :=
    fun same => differs (congrArg Label.caller same)
  cases move with
  | shows move whole lasts =>
    cases move with
    | @replies errand result p busy =>
      by_cases own : errand.caller = i
      · exact .inr ⟨errand, result, p, rfl, own, own ▸ List.getElem?_modify_eq ..⟩
      · exact .inl (List.getElem?_modify_ne _ _ own)
    | breaks => exact absurd rfl lasts
    | takes | onWorker | onVisitor => exact .inl rfl
    | _ => exact .inl (List.getElem?_set_ne (ne other))
  | hangsUp => exact .inl (List.getElem?_modify_ne _ _ (ne other))
  | _ => exact .inl rfl

theorem callers_of_broken (broken : f.unwinding ≠ .whole) (move : Move world f o g)
    (other : o.thread ≠ .caller i) : g.system.callers[i]? = f.system.callers[i]? := by
  rcases callers_of_other move other with same | ⟨errand, result, p, rfl, -, -⟩
  · exact same
  · cases move with
    | shows _ whole => exact absurd (whole rfl) broken

/-- Who waits does nothing but hang up, and that when nobody holds its reply. -/
theorem hangsUp_of_awaiting (move : Move world f o g) (own : o.thread = .caller i)
    (place : f.system.callers[i]? = some c) (waiting : c.stage = .awaiting) :
    o = .hangsUp i ∧ ∀ errand ∈ f.held, errand.caller ≠ i := by
  cases move with
  | shows move =>
    cases move with
    | begins place' stage | onCaller place' stage | defers place' stage | settles place' stage
    | closed place' stage | enters place' stage =>
      cases own
      cases place.symm.trans place'
      cases waiting.symm.trans stage
    | takes | onWorker | replies | breaks | onVisitor => cases own
  | hangsUp _ _ gone =>
    cases own
    exact ⟨rfl, gone⟩
  | breaks | owed | closes | drops => cases own

theorem length_callers_of_move (move : Move world f o g) :
    g.system.callers.length = f.system.callers.length := by
  cases move with
  | shows move => exact System.length_callers_of_move move
  | hangsUp => exact List.length_modify ..
  | _ => rfl

theorem concat_ownPart (call : Call) (xs : List (Exchange σ)) (x : Exchange σ) :
    ownPart i call xs ++ [.shows (.onCaller i x)] = ownPart i call (xs ++ [x]) := by
  rw [ownPart, ownPart, List.map_append]
  rfl

/-- What one step of a caller comes to, wherever the caller stands. -/
theorem underway_of_own (latches : world.Latches latched) (mirrors : world.Mirrors published)
    (move : Move world f o g) (own : o.thread = .caller i) (place : f.system.callers[i]? = some c)
    (at_ : Underway world i c.stage opened now) :
    ∃ c', g.system.callers[i]? = some c' ∧
      Advances world latched published i c opened (now ++ [o]) c' := by
  have inside : i < f.system.callers.length := (List.getElem?_eq_some_iff.1 place).1
  cases move with
  | shows move whole lasts =>
    cases move with
    | @begins j c₀ call todo place₀ stage next =>
      cases own
      cases place.symm.trans place₀
      rw [stage] at at_
      cases at_
      refine ⟨_, List.getElem?_set_self inside, .goesOn (.calling (.refl _) nofun) rfl ?_⟩
      rw [next]
      rfl
    | @onCaller j c₀ call action next answer plant place₀ stage done =>
      cases own
      cases place.symm.trans place₀
      rw [stage] at at_
      cases at_ with
      | @calling _ _ xs reaches done' =>
        refine ⟨_, List.getElem?_set_self inside, .goesOn ?_ rfl rfl⟩
        rw [concat_ownPart]
        exact .calling (reaches.trans (.act (.refl _)))
          (List.forall_mem_append.2 ⟨done', List.forall_mem_singleton.2 done⟩)
    | @defers j c₀ call place₀ stage =>
      cases own
      cases place.symm.trans place₀
      rw [stage] at at_
      cases at_ with
      | calling reaches done =>
        exact ⟨_, List.getElem?_set_self inside, .goesOn (.sending reaches done) rfl rfl⟩
    | @settles j c₀ call result place₀ stage =>
      cases own
      cases place.symm.trans place₀
      rw [stage] at at_
      cases at_ with
      | calling reaches done =>
        exact ⟨_, List.getElem?_set_self inside,
          .ends rfl (.of_settled latches mirrors reaches done) rfl⟩
    | @closed j c₀ call place₀ stage dead =>
      cases own
      cases place.symm.trans place₀
      rw [stage] at at_
      cases at_ with
      | sending reaches done =>
        obtain ⟨work, s, clear, rfl⟩ := look_of_forWorker latches reaches done
        exact ⟨_, List.getElem?_set_self inside, .ends rfl (.unsent work clear) rfl⟩
    | @enters j c₀ call place₀ stage room =>
      cases own
      cases place.symm.trans place₀
      rw [stage] at at_
      cases at_ with
      | sending reaches done =>
        refine ⟨_, List.getElem?_set_self inside, .goesOn ?_ rfl rfl⟩
        rw [List.append_assoc]
        exact .awaiting reaches done
    | takes | onWorker | replies | breaks | onVisitor => cases own
  | @hangsUp j c₀ place₀ stage gone =>
    cases own
    cases place.symm.trans place₀
    rw [stage] at at_
    cases at_ with
    | awaiting reaches done =>
      obtain ⟨work, s, clear, rfl⟩ := look_of_forWorker latches reaches done
      refine ⟨c.receive (.error .closed), ?_, .ends rfl ?_ rfl⟩
      · exact (List.getElem?_modify_eq ..).trans (congrArg _ place)
      · rw [List.append_assoc]
        exact .dropped work clear
  | breaks | owed | closes | drops => cases own

/-- Every caller is underway, and what it has shown of its open call comes last. -/
def AllUnderway (world : Plant σ) (h : List (Happening σ)) (f : Frail σ) : Prop :=
  ∀ (i : Nat) (c : Caller), f.system.callers[i]? = some c →
    ∃ opened now, Underway world i c.stage opened now ∧ now <:+ steps (.caller i) h

theorem Passage.underway (latches : world.Latches latched) (mirrors : world.Mirrors published)
    (fresh : f.IsFresh) (passage : Passage world outsiders f h g) : AllUnderway world h g := by
  induction passage with
  | refl =>
    intro i c place
    rw [(fresh.system.callers c (List.mem_of_getElem? place)).1]
    exact ⟨none, [], .free, List.nil_suffix⟩
  | outside _ _ ih => exact ih
  | @step m k l o h passage moved ih =>
    have move := (move_of_move? moved).1
    intro i c' place'
    rw [steps_append]
    by_cases own : o.thread = .caller i
    · have inside : i < m.system.callers.length := by
        rw [← length_callers_of_move move]
        exact (List.getElem?_eq_some_iff.1 place').1
      have place := List.getElem?_eq_getElem inside
      obtain ⟨opened, now, at_, last⟩ := ih i _ place
      obtain ⟨c₁, place₁, advances⟩ := underway_of_own latches mirrors move own place at_
      cases place₁.symm.trans place'
      rw [steps_own own]
      cases advances with
      | @goesOn opened' underway =>
        obtain ⟨earlier, all⟩ := last
        exact ⟨opened', _, underway, earlier, by rw [← all, List.append_assoc]⟩
      | ends _ _ after =>
        rw [after]
        exact ⟨none, [], .free, List.nil_suffix⟩
    · rw [steps_other own, List.append_nil]
      rcases callers_of_other move own with same | ⟨errand, result, p, -, -, received⟩
      · exact ih i c' (same ▸ place')
      · obtain ⟨c, -, rfl⟩ := Option.map_eq_some_iff.1 (received.symm.trans place')
        exact ⟨none, [], .free, List.nil_suffix⟩

/-! ## While the worker is broken down -/

/-- Calls that are over one after the other, what is shown of them, and their results. -/
inductive Series (isOver : Call → List (Happening σ) → Result → Prop) :
    List Call → List (Happening σ) → List Result → Prop where
  | nil : Series isOver [] [] []
  | concat {calls : List Call} {past now : List (Happening σ)} {results : List Result} {call : Call}
      {result : Result} (series : Series isOver calls past results)
      (last : isOver call now result) :
      Series isOver (calls ++ [call]) (past ++ now) (results ++ [result])

/-- What the caller `c` has shown since it had `opened` open and had shown `now` of it: its calls
are lost one after the other, each has one result, and the next one is underway. -/
inductive Told (world : Plant σ) (latched : σ → Bool) (published : σ → RunState) (i : Nat)
    (c : Caller) (opened : Option Call) (shown : List (Happening σ)) (c' : Caller) : Prop where
  | mk {calls : List Call} {past : List (Happening σ)} {results : List Result}
      {opened' : Option Call} {now' : List (Happening σ)} (shows : shown = past ++ now')
      (series : Series (Lost world latched published i) calls past results)
      (underway : Underway world i c'.stage opened' now')
      (results : c'.results = c.results ++ results)
      (todo : opened.toList ++ c.todo = calls ++ opened'.toList ++ c'.todo)

/-- What one step of the caller adds. -/
theorem Told.step {k : Frail σ} {shown : List (Happening σ)} {c' : Caller}
    (latches : world.Latches latched) (mirrors : world.Mirrors published)
    (move : Move world g o k) (own : o.thread = .caller i)
    (place : g.system.callers[i]? = some c')
    (told : Told world latched published i c opened shown c') :
    ∃ c'', k.system.callers[i]? = some c'' ∧
      Told world latched published i c opened (shown ++ [o]) c'' := by
  obtain ⟨rfl, series, underway, kept, made⟩ := told
  obtain ⟨c'', place', advances⟩ := underway_of_own latches mirrors move own place underway
  refine ⟨c'', place', ?_⟩
  rw [List.append_assoc]
  cases advances with
  | goesOn underway' results todo =>
    refine ⟨rfl, series, underway', results.trans kept, ?_⟩
    rw [made, List.append_assoc, todo, ← List.append_assoc]
  | @ends call result isOpen lost after =>
    subst isOpen after
    refine ⟨(List.append_nil _).symm, series.concat lost, .free, ?_, ?_⟩
    · rw [Caller.receive, kept, List.append_assoc]
    · exact made.trans (congrArg (· ++ c'.todo) (List.append_nil _).symm)

/-- While the worker is broken down a caller loses its calls one after the other. -/
theorem Passage.told (latches : world.Latches latched) (mirrors : world.Mirrors published)
    (broken : f.unwinding ≠ .whole) (passage : Passage world outsiders f h g)
    (place : f.system.callers[i]? = some c) (at_ : Underway world i c.stage opened now) :
    ∃ c', g.system.callers[i]? = some c' ∧
      Told world latched published i c opened (now ++ steps (.caller i) h) c' := by
  induction passage with
  | refl =>
    rw [steps, List.filter_nil, List.append_nil]
    exact ⟨c, place, rfl, .nil, at_, (List.append_nil _).symm, rfl⟩
  | outside _ _ ih => exact ih
  | @step m k l o h passage moved ih =>
    have move := (move_of_move? moved).1
    obtain ⟨c', place', told⟩ := ih
    rw [steps_append, ← List.append_assoc]
    by_cases own : o.thread = .caller i
    · rw [steps_own own]
      exact told.step latches mirrors move own place'
    · rw [steps_other own, List.append_nil]
      have broken' : m.unwinding ≠ .whole := fun whole => broken (passage.whole_of_whole whole)
      exact ⟨c', (callers_of_broken broken' move own).trans place', told⟩

/-! ## Visitors -/

/-- What every visitor has shown is a history of its emergency stop. -/
def AllVisiting (world : Plant σ) (h : List (Happening σ)) (f : Frail σ) : Prop :=
  ∀ (i : Nat) (course : Course Bool), f.system.visitors[i]? = some course →
    ∃ xs, Call.emergencyStop.Reaches xs course ∧ (∀ x ∈ xs, x.CarriedOut world) ∧
      steps (.visitor i) h = xs.map fun x => .shows (.onVisitor i x)

theorem visitors_of_other (move : Move world f o g) (other : o.thread ≠ .visitor i) :
    g.system.visitors[i]? = f.system.visitors[i]? := by
  cases move with
  | shows move =>
    cases move with
    | onVisitor => exact List.getElem?_set_ne fun same => other (congrArg Label.visitor same)
    | _ => rfl
  | _ => rfl

theorem Passage.visiting (fresh : f.IsFresh) (passage : Passage world outsiders f h g) :
    AllVisiting world h g := by
  induction passage with
  | refl =>
    intro i course place
    rw [fresh.system.visitors course (List.mem_of_getElem? place)]
    exact ⟨[], .refl _, nofun, rfl⟩
  | outside _ _ ih => exact ih
  | @step m k l o h passage moved ih =>
    have move := (move_of_move? moved).1
    intro i course place
    rw [steps_append]
    by_cases own : o.thread = .visitor i
    · rw [steps_own own]
      cases move with
      | shows move =>
        cases move with
        | @onVisitor j action next answer plant place' done =>
          cases own
          obtain ⟨inside, -⟩ := List.getElem?_eq_some_iff.1 place'
          cases (List.getElem?_set_self inside).symm.trans place
          obtain ⟨xs, reaches, done', shows⟩ := ih i _ place'
          let x : Exchange σ := ⟨action, answer, m.system.plant, plant⟩
          have carried : x.CarriedOut world := done
          refine ⟨xs ++ [x], reaches.trans (.act (.refl _)),
            List.forall_mem_append.2 ⟨done', List.forall_mem_singleton.2 carried⟩, ?_⟩
          rw [shows, List.map_append]
          rfl
        | _ => cases own
      | _ => cases own
    · rw [steps_other own, List.append_nil]
      exact ih i course ((visitors_of_other move own).symm.trans place)

/-- Nobody but the worker does more than an own part of a call. -/
theorem own_of_move {x : Exchange σ} (underway : AllUnderway world h f)
    (visiting : AllVisiting world h f) (move : Move world f o g)
    (exchange : o.exchange? = some x) (other : o.thread ≠ .worker) : x.action.isOwn := by
  cases move with
  | shows move =>
    cases move with
    | @onCaller i c call action next answer plant place stage done =>
      cases exchange
      obtain ⟨opened, now, at_, -⟩ := underway i c place
      rw [stage] at at_
      cases at_ with
      | calling reaches => exact (call.submission_own.reaches reaches).2.1
    | onWorker => exact absurd rfl other
    | @onVisitor i action next answer plant place done =>
      cases exchange
      obtain ⟨xs, reaches, -, -⟩ := visiting i _ place
      exact (Call.emergencyStop_own.reaches reaches).2.1
    | _ => cases exchange
  | _ => cases exchange

end

end Frail

end ProgramControl
