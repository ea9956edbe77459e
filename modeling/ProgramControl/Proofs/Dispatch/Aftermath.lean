import ProgramControl.Proofs.Dispatch.Breakdown
import ProgramControl.Proofs.Dispatch.Linearization
import ProgramControl.Proofs.Dispatch.Replies
import ProgramControl.Proofs.Dispatch.Standstill

/-!
# After a breakdown

The worker unwinds and does nothing else, so nobody gets an answer from it any more.  Whoever waits
for a reply finds out when the reply is gone, whoever asks for something finds out at the channel,
and in both cases that is the one result of the call.

* `Unwinds`              the worker has something to let go, or is done with it;
* `Unwinds.rest`         threads come to a rest only when every call is over;
* `Passage.length_le`    and they cannot go on for ever;
* `Passage.hangs_up`     who waits for a reply does nothing but hang up;
* `Passage.refuses`      a call that begins with shutdown latched is refused at its first step;
* `Passage.aftermath`    all that comes after a breakdown;
* `Workshop.breaking`    a workshop where one of the collaborators breaks down.
-/

namespace ProgramControl

namespace Frail

variable {σ : Type} {world : Plant σ} {outsiders : σ → σ → Prop} {latched : σ → Bool}
  {published : σ → RunState} {f g k : Frail σ} {o : Happening σ} {h h' : List (Happening σ)}

/-! ## A worker that unwinds -/

/-- The worker unwinds: it has a reply to let go, or the channel, or what is left in there. -/
structure Unwinds (f : Frail σ) : Prop where
  broken : f.unwinding ≠ .whole
  busy : f.unwinding = .owing → ∃ errand course, f.system.worker = .busy errand course
  dead : f.unwinding = .closed → f.system.worker = .dead

theorem unwinds_of_breaks (move : Move world f (.shows .breaks) g) : Unwinds g := by
  cases move with
  | shows _ _ lasts => exact absurd rfl lasts
  | breaks _ busy => exact ⟨nofun, fun _ => ⟨_, _, busy⟩, nofun⟩

theorem Unwinds.shows (unwinds : Unwinds f) (move : Move world f o g) (own : o.thread = .worker) :
    o = .closes ∨ ∃ errand, o = .drops errand := by
  cases move with
  | shows _ whole => exact absurd (whole own) unwinds.broken
  | breaks whole => exact absurd whole unwinds.broken
  | owed | drops => exact .inr ⟨_, rfl⟩
  | closes => exact .inl rfl
  | hangsUp => cases own

theorem Unwinds.move (unwinds : Unwinds f) (move : Move world f o g) : Unwinds g := by
  cases move with
  | shows move whole =>
    have same := System.worker_of_move move fun own => unwinds.broken (whole own)
    refine ⟨unwinds.broken, fun owing => ?_, fun closed => same.trans (unwinds.dead closed)⟩
    obtain ⟨errand, course, busy⟩ := unwinds.busy owing
    exact ⟨errand, course, same.trans busy⟩
  | breaks whole => exact absurd whole unwinds.broken
  | owed => exact ⟨nofun, nofun, nofun⟩
  | closes => exact ⟨nofun, nofun, fun _ => rfl⟩
  | drops | hangsUp => exact ⟨unwinds.broken, unwinds.busy, unwinds.dead⟩

theorem Passage.unwinds (passage : Passage world outsiders f h g) (unwinds : Unwinds f) :
    Unwinds g := by
  induction passage with
  | refl => exact unwinds
  | step _ moved ih => exact ih.move (move_of_move? moved).1
  | outside _ _ ih => exact ⟨ih.broken, ih.busy, ih.dead⟩

/-! ## Coming to rest -/

theorem moves_of_caller {i : Nat} (moves : (f.system.moveCaller world i).isSome) :
    (move? world (.caller i) f).isSome := by
  show (f.moveCaller world i).isSome
  unfold moveCaller
  split
  · rfl
  · rwa [Option.isSome_map]

section

variable (calm : ∀ action s, (world.perform action s).1 = none → action.isCall)

include calm

theorem answered_of_own {action : Action} (own : action.isOwn) (s : σ) :
    ∃ answer s', world.perform action s = (some answer, s') := by
  rcases done : world.perform action s with ⟨answer?, s'⟩
  cases answer? with
  | some answer => exact ⟨answer, s', rfl⟩
  | none =>
    have call := calm action s (by rw [done])
    rw [Action.not_isCall_of_isOwn own] at call
    cases call

variable (prompt : ∀ action, action.isOwn → ∀ s, world.ready action s)

include prompt

/-- Nothing makes a caller wait in its own part of a call. -/
theorem moves_of_calling {i : Nat} {c : Caller} {call : Call} {course : Course Submission}
    (underway : AllUnderway world h f) (place : f.system.callers[i]? = some c)
    (stage : c.stage = .calling call course) : (move? world (.caller i) f).isSome := by
  obtain ⟨opened, now, at_, -⟩ := underway i c place
  rw [stage] at at_
  cases at_ with
  | calling reaches =>
    have own := (call.submission_own.reaches reaches).2
    refine moves_of_caller ?_
    unfold System.moveCaller
    simp only [place, stage]
    cases course with
    | done submission => cases submission <;> rfl
    | act action next =>
      obtain ⟨answer, s', done⟩ := answered_of_own calm own.1 f.system.plant
      simp only [prompt action own.1 f.system.plant, if_true, done, Option.isSome_some]

/-- Nothing makes a visitor wait before it is done. -/
theorem moves_of_visiting {i : Nat} {action : Action} {next : action.Answer → Course Bool}
    (visiting : AllVisiting world h f)
    (place : f.system.visitors[i]? = some (.act action next)) :
    (move? world (.visitor i) f).isSome := by
  obtain ⟨xs, reaches, -, -⟩ := visiting i _ place
  have own := (Call.emergencyStop_own.reaches reaches).2.1
  obtain ⟨answer, s', done⟩ := answered_of_own calm own f.system.plant
  show (f.moveVisitor world i).isSome
  rw [moveVisitor, Option.isSome_map, System.moveVisitor, place]
  simp only [prompt action own f.system.plant, if_true, done, Option.isSome_some]

/-- Threads come to a rest only when every reply is gone and every call is over. -/
theorem Unwinds.rest (unwinds : Unwinds f) (underway : AllUnderway world h f)
    (stuck : ∀ l, move? world l f = none) :
    f.held = [] ∧ ∀ c ∈ f.system.callers, c.todo = [] ∧ c.stage = .free := by
  have rests {l : Label} (moves : (move? world l f).isSome) : False := by
    rw [stuck l] at moves
    cases moves
  have worker : f.moveWorker world = none := stuck .worker
  have closed : f.unwinding = .closed ∧ f.system.channel = [] := by
    unfold moveWorker at worker
    cases stage : f.unwinding with
    | whole => exact absurd stage unwinds.broken
    | owing =>
      obtain ⟨errand, course, busy⟩ := unwinds.busy stage
      rw [stage, (owed?_owing stage).2 ⟨course, busy⟩] at worker
      cases worker
    | receiving =>
      rw [stage] at worker
      cases worker
    | closed =>
      cases channel : f.system.channel with
      | nil => exact ⟨rfl, rfl⟩
      | cons errand rest =>
        rw [stage, channel] at worker
        cases worker
  obtain ⟨closed, empty⟩ := closed
  have dead := unwinds.dead closed
  have held : f.held = [] := by
    rw [Frail.held, owed?, closed, empty]
    rfl
  refine ⟨held, fun c mem => ?_⟩
  obtain ⟨i, place⟩ := List.mem_iff_getElem?.1 mem
  cases stage : c.stage with
  | free =>
    cases todo : c.todo with
    | nil => exact ⟨rfl, rfl⟩
    | cons call todo =>
      refine (rests (l := .caller i) (moves_of_caller ?_)).elim
      unfold System.moveCaller
      simp only [place, stage, todo, Option.isSome_some]
  | calling call course => exact (rests (moves_of_calling calm prompt underway place stage)).elim
  | sending call =>
    refine (rests (l := .caller i) (moves_of_caller ?_)).elim
    unfold System.moveCaller
    simp only [place, stage, dead, Worker.isDead, if_true, Option.isSome_some]
  | awaiting =>
    have forsaken : f.isForsaken i :=
      isForsaken_iff.2 ⟨c, place, stage, fun e mem => absurd (held ▸ mem) List.not_mem_nil⟩
    refine (rests (l := .caller i) ?_).elim
    show (f.moveCaller world i).isSome
    rw [moveCaller, if_pos forsaken]
    rfl

end

/-! ## How long it takes -/

/-- Something breaks down once, so these are left at most. -/
def Unwinding.left : Unwinding → Nat
  | .whole => 3
  | .owing => 2
  | .receiving => 1
  | .closed => 0

/-- The threads have so many steps left at most. -/
def Within (n : Nat) (f : Frail σ) : Prop :=
  ∃ m, f.system.Within m ∧
    2 * m + f.system.callers.countP (·.isAwaiting) + Unwinding.left f.unwinding ≤ n

/-- One member is exchanged: at most one more counts. -/
theorem countP_set_le {α : Type} (p : α → Bool) (l : List α) (i : Nat) (a : α) :
    (l.set i a).countP p ≤ l.countP p + 1 := by
  by_cases inside : i < l.length
  · rw [List.countP_set inside]
    split <;> split <;> omega
  · rw [List.set_eq_of_length_le (Nat.not_lt.1 inside)]
    exact Nat.le_succ _

theorem countP_receive (cs : List Caller) (i : Nat) (result : Result) :
    (cs.modify i (·.receive result)).countP (·.isAwaiting) +
      (if cs[i]?.any (·.isAwaiting) then 1 else 0) = cs.countP (·.isAwaiting) := by
  induction cs generalizing i with
  | nil => simp
  | cons c cs ih =>
    cases i with
    | zero => simp [List.countP_cons, Caller.receive, Caller.isAwaiting]
    | succ i =>
      have others := ih i
      simp only [List.modify_succ_cons, List.countP_cons, List.getElem?_cons_succ]
      omega

theorem countP_awaiting_le {s t : System σ} {o : Occurrence σ} (move : System.Move world s o t)
    (lasts : o ≠ .breaks) :
    t.callers.countP (·.isAwaiting) ≤ s.callers.countP (·.isAwaiting) + 1 := by
  cases move with
  | begins | onCaller | defers | settles | closed | enters => exact countP_set_le ..
  | @replies errand result p busy =>
    have := countP_receive s.callers errand.caller result
    simp only [System.deliver]
    omega
  | breaks => exact absurd rfl lasts
  | _ => exact Nat.le_succ _

/-- What one step preserves: it takes one from the budget. -/
theorem within_of_move {n : Nat} (move : Move world f o g) (within : Within n f) :
    ∃ m, m + 1 ≤ n ∧ Within m g := by
  obtain ⟨m, left, le⟩ := within
  have spends {g : Frail σ} (n' : Nat) (left : g.system.Within n')
      (less : 2 * n' + g.system.callers.countP (·.isAwaiting) + Unwinding.left g.unwinding + 1 ≤
        2 * m + f.system.callers.countP (·.isAwaiting) + Unwinding.left f.unwinding) :
      ∃ k, k + 1 ≤ n ∧ Within k g :=
    ⟨n - 1, by omega, n', left, by omega⟩
  cases move with
  | shows move _ lasts =>
    obtain ⟨m', spent, left'⟩ := System.within_of_move move left
    have waiting := countP_awaiting_le move lasts
    exact spends m' left' (by dsimp only; omega)
  | breaks whole => exact spends m left (by rw [whole]; exact Nat.le_refl _)
  | owed owing => exact spends m left (by rw [owing]; exact Nat.le_refl _)
  | closes receiving =>
    obtain ⟨callers, worker, visitors, shares, -, visits, le⟩ := left
    refine spends m ⟨callers, worker, visitors, shares, trivial, visits, le⟩ ?_
    rw [receiving]
    exact Nat.le_refl _
  | drops closed first =>
    obtain ⟨callers, worker, visitors, shares, busy, visits, le⟩ := left
    rw [first, List.length_cons, errandSteps] at le
    refine spends (m - 1) ⟨callers, worker, visitors, shares, busy, visits, ?_⟩ ?_
    · dsimp only [errandSteps]
      omega
    · dsimp only
      omega
  | @hangsUp i c place stage =>
    obtain ⟨callers, worker, visitors, shares, busy, visits, le⟩ := left
    have one := countP_receive f.system.callers i (.error .closed)
    rw [place, Option.any_some, if_pos (isAwaiting_iff.2 stage)] at one
    refine spends m ⟨callers, worker, visitors,
      shares.modify (fun _ _ within => within.receive) i, busy, visits, le⟩ ?_
    dsimp only [System.deliver]
    omega

theorem IsFresh.within (fresh : f.IsFresh) : Within (2 * f.system.budget + 3) f := by
  refine ⟨f.system.budget, fresh.system.within, ?_⟩
  have nobody : f.system.callers.countP (·.isAwaiting) = 0 := by
    refine List.countP_eq_zero.2 fun c mem => ?_
    rw [isAwaiting_iff, (fresh.system.callers c mem).1]
    exact nofun
  rw [nobody, fresh.whole]
  exact Nat.le_refl _

/-- Threads cannot go on for ever. -/
theorem Passage.length_le (fresh : f.IsFresh) (passage : Passage world outsiders f h g) :
    h.length ≤ 2 * f.system.budget + 3 := by
  have spent : ∃ m, h.length + m ≤ 2 * f.system.budget + 3 ∧ Within m g := by
    induction passage with
    | refl => exact ⟨_, Nat.le_of_eq (Nat.zero_add _), fresh.within⟩
    | outside _ _ ih => exact ih
    | step _ moved ih =>
      obtain ⟨m, le, left⟩ := ih
      obtain ⟨m', spent, left'⟩ := within_of_move (move_of_move? moved).1 left
      exact ⟨m', by rw [List.length_append, List.length_singleton]; omega, left'⟩
  obtain ⟨m, le, -⟩ := spent
  omega

/-! ## Calls that are open -/

theorem Series.first {isOver : Call → List (Happening σ) → Result → Prop} {calls : List Call}
    {past : List (Happening σ)} {results : List Result}
    (series : Series isOver calls past results) :
    calls = [] ∧ past = [] ∨ ∃ call trace result others,
      calls = call :: others ∧ isOver call trace result ∧ trace <+: past := by
  induction series with
  | nil => exact .inl ⟨rfl, rfl⟩
  | @concat calls past now results call result _ last ih =>
    rcases ih with ⟨rfl, rfl⟩ | ⟨call', trace, result', others, rfl, over_, first⟩
    · exact .inr ⟨call, now, result, [], rfl, last, List.prefix_rfl⟩
    · exact .inr ⟨call', trace, result', others ++ [call], rfl, over_,
        first.trans (List.prefix_append ..)⟩

theorem Told.first {i : Nat} {c c' : Caller} {call : Call} {shown : List (Happening σ)}
    (told : Told world latched published i c (some call) shown c') (some_ : shown ≠ []) :
    (∃ trace result, Lost world latched published i call trace result ∧ trace <+: shown) ∨
      Underway world i c'.stage (some call) shown := by
  obtain ⟨rfl, series, underway, -, todo⟩ := told
  rcases series.first with ⟨rfl, rfl⟩ | ⟨call', trace, result, others, rfl, lost, first⟩
  · generalize c'.stage = stage at underway
    cases underway with
    | free => exact absurd rfl some_
    | calling reaches done =>
      cases List.head_eq_of_cons_eq todo
      exact .inr (.calling reaches done)
    | sending reaches done =>
      cases List.head_eq_of_cons_eq todo
      exact .inr (.sending reaches done)
    | awaiting reaches done =>
      cases List.head_eq_of_cons_eq todo
      exact .inr (.awaiting reaches done)
  · cases List.head_eq_of_cons_eq todo
    exact .inl ⟨trace, result, lost, first.trans (List.prefix_append ..)⟩

/-- Who waits when the worker is broken down does nothing but hang up. -/
theorem Passage.hangs_up {i : Nat} {c : Caller} (unwinds : Unwinds f)
    (passage : Passage world outsiders f h g) (place : f.system.callers[i]? = some c)
    (waiting : c.stage = .awaiting) :
    steps (.caller i) h = [] ∧ g.system.callers[i]? = some c ∨
      ∃ rest, steps (.caller i) h = .hangsUp i :: rest := by
  induction passage with
  | refl => exact .inl ⟨rfl, place⟩
  | outside _ _ ih => exact ih
  | @step m k l o h passage moved ih =>
    have move := (move_of_move? moved).1
    rw [steps_append]
    rcases ih with ⟨nothing, place⟩ | ⟨rest, shows⟩
    · by_cases own : o.thread = .caller i
      · obtain ⟨rfl, -⟩ := hangsUp_of_awaiting move own place waiting
        rw [nothing, steps_own own]
        exact .inr ⟨[], rfl⟩
      · rw [nothing, steps_other own]
        exact .inl ⟨rfl, (callers_of_broken (passage.unwinds unwinds).broken move own).trans place⟩
    · rw [shows]
      exact .inr ⟨_, rfl⟩

/-- A call that begins when shutdown is latched is refused at its first step. -/
theorem Passage.refuses {i : Nat} {call : Call} (latches : world.Latches latched)
    (mirrors : world.Mirrors published) (outside : ∀ s s', outsiders s s' → latched s → latched s')
    (unwinds : Unwinds f) (set : latched f.system.plant) (other : call ≠ .directive .emergencyStop)
    (passage : Passage world outsiders f (h' ++ .shows (.begins i call) :: h) g) :
    ∃ s, Plays [.shows (.onCaller i ⟨.readLatch, true, s, s⟩),
      .shows (.settles i call (.error .alreadyShutdown))] (steps (.caller i) h) := by
  obtain ⟨m, m', -, move, until_, after⟩ := passage.split_cons
  have set' : latched m'.system.plant := until_.stays_latched latches outside set
  have found (x : Exchange σ) (mem : .shows (.onCaller i x) ∈ steps (.caller i) h) :
      latched x.before :=
    after.exchange_latched latches outside set' _ (List.mem_filter.1 mem).1 x rfl
  have never {s : σ} {rest : List (Happening σ)} (clear : latched s = false)
      (first : .shows (.onCaller i ⟨.readLatch, false, s, s⟩) :: rest <+: steps (.caller i) h) :
      False := by
    have set := found _ (first.subset List.mem_cons_self)
    rw [clear] at set
    cases set
  have began : ∃ c, m'.system.callers[i]? = some c ∧ c.stage = .calling call call.submission := by
    cases move with
    | shows move => exact System.callerAt_of_begins move
  obtain ⟨c, place, stage⟩ := began
  have at_ : Underway world i c.stage (some call) (ownPart i call []) :=
    stage ▸ .calling (.refl _) nofun
  obtain ⟨c', -, told⟩ := after.told latches mirrors (until_.unwinds unwinds).broken place at_
  rcases told.first (List.cons_ne_nil _ _) with ⟨trace, result, lost, first⟩ | underway
  · cases lost with
    | @refused _ s => exact ⟨s, .inr (List.cons_prefix_cons.1 first).2⟩
    | stopped => exact absurd rfl other
    | switched clear | unsent _ clear | dropped _ clear =>
      exact (never clear (List.cons_prefix_cons.1 first).2).elim
  · generalize shown : ownPart i call [] ++ steps (.caller i) h = all at underway
    generalize c'.stage = stage at underway
    cases underway with
    | @calling _ course xs reaches done =>
      have shows : steps (.caller i) h = xs.map fun x => .shows (.onCaller i x) :=
        (List.cons.inj shown).2
      obtain ⟨next, looks, refused, -⟩ := Call.submission_looks other
      rw [looks] at reaches
      cases reaches with
      | refl => exact ⟨f.system.plant, .inl (shows ▸ List.nil_prefix)⟩
      | @act _ _ answer s s' xs _ rest =>
        have set := found ⟨.readLatch, answer, s, s'⟩ (by rw [shows]; exact List.mem_cons_self)
        obtain ⟨look, rfl⟩ := look_eq latches (done _ List.mem_cons_self)
        obtain rfl : answer = true := look.symm.trans set
        rw [refused] at rest
        obtain ⟨rfl, -⟩ := Course.reaches_done rest
        exact ⟨s', .inl ⟨[_], by rw [shows]; rfl⟩⟩
    | sending reaches done | awaiting reaches done =>
      obtain ⟨-, s, clear, rfl⟩ := look_of_forWorker latches reaches done
      have shows := (List.cons.inj shown).2
      exact (never clear ⟨[], (List.append_nil _).trans shows.symm⟩).elim

/-! ## What comes after -/

/-- What comes after a breakdown.  It left the system in the state `m` and the program as `p`, and
`h` was shown until then; since then `k` was shown, and the state is `t` now. -/
structure Aftermath (world : Plant σ) (outsiders : σ → σ → Prop) (latched : σ → Bool)
    (published : σ → RunState) (h : List (Happening σ)) (p : Program) (m : Frail σ)
    (k : List (Happening σ)) (t : Frail σ) : Prop where
  /-- the run state published stays that of the program -/
  committed : published t.system.plant = p.state
  /-- the worker lets go of what it holds, and does nothing else -/
  unwinds : ∀ o ∈ k, o.thread = .worker → o = .closes ∨ ∃ errand, o = .drops errand
  /-- only own parts of calls are carried out, so no collaborator of the worker is called, no run
  state is published and no completion is submitted -/
  silent : ∀ o ∈ k, ∀ x, o.exchange? = some x → x.action.isOwn ∧ x.CarriedOut world
  /-- requests that were held then, and those that entered since, are let go one after the other,
  each once, or are still held -/
  requests : m.held ++ entered k = released k ++ t.held
  /-- who waited then hangs up next, -/
  waiters : ∀ e ∈ m.held, Plays [.hangsUp e.caller] (steps (.caller e.caller) k)
  /-- and nobody hangs up before the reply that it waits for is gone -/
  gone : ∀ i k₁ k₂, k = k₁ ++ .hangsUp i :: k₂ →
    ∀ e ∈ m.held ++ entered k₁, e.caller = i → e ∈ released k₁
  /-- a caller loses the call that it had open then and each call that it makes later, one after
  the other, and each has its one result -/
  calls : ∀ i c, m.system.callers[i]? = some c → ∃ opened now c',
    Underway world i c.stage opened now ∧ now <:+ steps (.caller i) h ∧
    t.system.callers[i]? = some c' ∧
    Told world latched published i c opened (now ++ steps (.caller i) k) c'
  /-- a call that begins with shutdown latched is refused at its first step -/
  refused : ∀ i call k₁ k₂ k₃ n, Passage world outsiders m k₁ n → latched n.system.plant →
    Passage world outsiders n (k₂ ++ .shows (.begins i call) :: k₃) t →
    call ≠ .directive .emergencyStop →
    ∃ s, Plays [.shows (.onCaller i ⟨.readLatch, true, s, s⟩),
      .shows (.settles i call (.error .alreadyShutdown))] (steps (.caller i) k₃)
  /-- visitors stop the machine -/
  visits : ∀ i course, t.system.visitors[i]? = some course → ∃ xs,
    Call.emergencyStop.Reaches xs course ∧ (∀ x ∈ xs, x.CarriedOut world) ∧
    steps (.visitor i) (h ++ .shows .breaks :: k) = xs.map fun x => .shows (.onVisitor i x)
  /-- nothing makes a caller wait in its own part of a call, or a visitor -/
  goesOn : (∀ i c call course, t.system.callers[i]? = some c → c.stage = .calling call course →
      (move? world (.caller i) t).isSome) ∧
    ∀ i action next, t.system.visitors[i]? = some (.act action next) →
      (move? world (.visitor i) t).isSome
  /-- threads come to a rest only when every reply is gone and every call is over -/
  rest : (∀ l, move? world l t = none) →
    t.held = [] ∧ ∀ c ∈ t.system.callers, c.todo = [] ∧ c.stage = .free

/-- Nothing is published once the worker is broken down. -/
theorem Passage.stays_published
    (calm : ∀ action s, (world.perform action s).1 = none → action.isCall)
    (latches : world.Latches latched) (mirrors : world.Mirrors published)
    (outside : ∀ s s', outsiders s s' → published s' = published s) (fresh : f.IsFresh)
    (reached : Passage world outsiders f h g) (unwinds : Unwinds g)
    (passage : Passage world outsiders g h' k) :
    published k.system.plant = published g.system.plant := by
  induction passage with
  | refl => rfl
  | outside _ change ih => exact (outside _ _ change).trans ih
  | @step m k l o h' passage moved ih =>
    have move := (move_of_move? moved).1
    have all := reached.trans passage
    rw [← ih]
    refine published_of_move calm mirrors (all.underway latches mirrors fresh)
      (all.visiting fresh) move ?_
    rintro x rfl
    obtain never | ⟨errand, never⟩ := (passage.unwinds unwinds).shows move rfl <;> cases never

/-- Nobody hangs up before the reply that it waits for is gone. -/
theorem Passage.gone {i : Nat} (passage : Passage world outsiders f (h ++ .hangsUp i :: h') g)
    {e : Errand} (mem : e ∈ f.held ++ entered h) (own : e.caller = i) : e ∈ released h := by
  obtain ⟨m, m', before, move, -, -⟩ := passage.split_cons
  rw [before.released_in_order] at mem
  rcases List.mem_append.1 mem with gone | held
  · exact gone
  · cases move with
    | hangsUp _ _ gone => exact absurd own (gone e held)

/-- **A worker that breaks down leaves nobody waiting.**  Callers, visitors, the worker and
outsiders take their steps in any order, and a collaborator breaks down in any call of any
transition.  Then the worker lets go of the replies that it holds, and that is all it does; whoever
waited for one of them, and whoever asks for something later, is told so, once for each call, or is
refused because shutdown is latched; and emergency stops and switches of the optional stop go on. -/
theorem Passage.aftermath (calm : ∀ action s, (world.perform action s).1 = none → action.isCall)
    (prompt : ∀ action, action.isOwn → ∀ s, world.ready action s)
    (latches : world.Latches latched) (mirrors : world.Mirrors published)
    (outside : ∀ s s', outsiders s s' → (latched s → latched s') ∧ published s' = published s)
    (fresh : f.IsFresh) (running : published f.system.plant = .running)
    (passage : Passage world outsiders f (h ++ .shows .breaks :: h') g) :
    ∃ m m' errand p, Passage world outsiders f h m ∧ Move world m (.shows .breaks) m' ∧
      Passage world outsiders m' h' g ∧
      Breakdown world outsiders published f h m errand p ∧
      Aftermath world outsiders latched published h p m' h' g ∧
      (h ++ .shows .breaks :: h').length ≤ 2 * f.system.budget + 3 := by
  obtain ⟨m, m', before, move, until_, after⟩ := passage.split_cons
  have mirror (s s' : σ) (change : outsiders s s') := (outside s s' change).2
  obtain ⟨errand, p, breakdown⟩ :=
    before.breakdown calm latches mirrors mirror fresh running move
  have unwinds := unwinds_of_breaks move
  have underway := passage.underway latches mirrors fresh
  refine ⟨m, m', errand, p, before, move, after, breakdown, ?_, passage.length_le fresh⟩
  exact {
    committed := by
      rw [until_.stays_published calm latches mirrors mirror fresh unwinds after,
        published_of_move calm mirrors (before.underway latches mirrors fresh)
          (before.visiting fresh) move nofun, breakdown.committed]
    unwinds := by
      intro o mem own
      obtain ⟨k₁, k₂, rfl⟩ := List.append_of_mem mem
      obtain ⟨n, n', reached, move, -, -⟩ := after.split_cons
      exact (reached.unwinds unwinds).shows move own
    silent := by
      intro o mem x exchange
      obtain ⟨k₁, k₂, rfl⟩ := List.append_of_mem mem
      obtain ⟨n, n', reached, move, -, -⟩ := after.split_cons
      refine ⟨?_, (exchange_of_move move exchange).1⟩
      have all := until_.trans reached
      refine own_of_move (all.underway latches mirrors fresh) (all.visiting fresh) move exchange
        fun own => ?_
      obtain rfl | ⟨errand, rfl⟩ := (reached.unwinds unwinds).shows move own <;> cases exchange
    requests := after.released_in_order
    waiters := by
      intro e mem
      obtain ⟨⟨c, place, waiting⟩, -⟩ := (until_.attended fresh).waits e mem
      rcases after.hangs_up unwinds place waiting with ⟨nothing, -⟩ | ⟨rest, shows⟩
      · exact .inl (nothing ▸ List.nil_prefix)
      · exact .inr ⟨rest, shows.symm⟩
    gone := by
      rintro i k₁ k₂ rfl e mem own
      exact after.gone mem own
    calls := by
      intro i c place
      obtain ⟨opened, now, at_, last⟩ := until_.underway latches mirrors fresh i c place
      obtain ⟨c', place', told⟩ := after.told latches mirrors unwinds.broken place at_
      have other : (Happening.shows .breaks : Happening σ).thread ≠ .caller i := nofun
      rw [steps_append, steps_other other, List.append_nil] at last
      exact ⟨opened, now, c', at_, last, place', told⟩
    refused := by
      intro i call k₁ k₂ k₃ n reached set rest other
      exact rest.refuses latches mirrors (fun s s' change => (outside s s' change).1)
        (reached.unwinds unwinds) set other
    visits := passage.visiting fresh
    goesOn := ⟨fun _ _ _ _ place stage => moves_of_calling calm prompt underway place stage,
      fun _ _ _ place => moves_of_visiting calm prompt (passage.visiting fresh) place⟩
    rest := (after.unwinds unwinds).rest calm prompt underway }

end Frail

/-! ## A workshop that breaks down -/

namespace Workshop

/-- The workshop, where one action breaks down. -/
def breaking (broken : Action) : Plant Workshop where
  ready := ready
  perform action w := if action = broken then (none, w) else plant.perform action w

variable {broken : Action}

theorem perform_breaking {action : Action} (other : action ≠ broken) (w : Workshop) :
    (breaking broken).perform action w = plant.perform action w := if_neg other

theorem calm_breaking (call : broken.isCall) (action : Action) (w : Workshop)
    (breaks : ((breaking broken).perform action w).1 = none) : action.isCall := by
  by_cases same : action = broken
  · exact same ▸ call
  · rw [perform_breaking same] at breaks
    cases breaks

theorem changes_breaking (action : Action) (w : Workshop) :
    ((breaking broken).perform action w).2 = w ∨
      ((breaking broken).perform action w).2 = (plant.perform action w).2 := by
  by_cases same : action = broken
  · exact .inl (congrArg Prod.snd (if_pos same))
  · exact .inr (congrArg Prod.snd (perform_breaking same w))

theorem ne_of_isOwn {action : Action} (own : action.isOwn) (call : broken.isCall) :
    action ≠ broken := by
  rintro rfl
  rw [Action.not_isCall_of_isOwn own] at call
  cases call

theorem latches_breaking (call : broken.isCall) :
    (breaking broken).Latches (·.board.isLatched) where
  look w := perform_breaking (ne_of_isOwn rfl call) w
  trip w := congrArg Prod.fst (perform_breaking (ne_of_isOwn rfl call) w)
  tripped w := by
    rw [perform_breaking (ne_of_isOwn rfl call) w]
    rfl
  stays action w l := by
    rcases changes_breaking action w with same | same
    · rw [same]
      exact l
    · rw [same]
      exact System.latches_workshop.stays action w l

theorem mirrors_breaking (call : broken.isCall) :
    (breaking broken).Mirrors (·.board.published) where
  look w := perform_breaking (ne_of_isOwn rfl call) w
  publish state w := by
    rw [perform_breaking (by rintro rfl; cases call) w]
    rfl
  stays action w other := by
    rcases changes_breaking action w with same | same
    · rw [same]
    · rw [same]
      cases action with
      | publish state => exact absurd rfl (other state)
      | _ => rfl

theorem prompt_breaking (action : Action) (own : action.isOwn) (w : Workshop) :
    (breaking broken).ready action w := by
  cases action with
  | awaitStandstill => cases own
  | _ => rfl

end Workshop

namespace Frail

/-- One pauses the program, one waits to begin another; a third switches the optional stop and ends
the program; and somebody is about to stop the machine. -/
def crowd : Frail Workshop where
  system := {
    depth := 1
    fitted := {}
    plant := { courier := .start (.ofConfig 5 0) 1 }
    callers := [{ todo := [.directive .pauseUnconditional] }, { todo := [.beginProgram] },
      { todo := [.directive (.setOptionalStop true), .directive .programEnd] }]
    visitors := [Call.emergencyStop] }

/-- The pause is taken, and the other request enters behind it. -/
def upToPause : List Label :=
  List.replicate 4 (.caller 0) ++ [.worker] ++ List.replicate 4 (.caller 1) ++
    List.replicate 4 .worker

def afterPause : List Label :=
  [.worker, .caller 0] ++ List.replicate 5 (.caller 2) ++ [.worker] ++
    List.replicate 4 (.caller 2) ++ [.worker, .caller 1, .visitor 0, .visitor 0]

theorem passage_breaks {σ : Type} (world : Plant σ) (outsiders : σ → σ → Prop) (f : Frail σ)
    (first later : List Label) (whole : (run world first f).unwinding = .whole)
    (owing : (move? world .worker (run world first f)).map (·.2.unwinding) = some .owing) :
    let s := step world .worker (run world first f)
    Passage world outsiders f (shown world first f ++ .shows .breaks :: shown world later s)
      (run world later s) := by
  obtain ⟨⟨o, g⟩, moved, owing⟩ := Option.map_eq_some_iff.1 owing
  obtain rfl := breaks_of_move (move_of_move? moved).1 whole (owing ▸ nofun)
  intro s
  have same : s = g := by
    show step world .worker (run world first f) = g
    rw [step, moved]
    rfl
  rw [same, ← List.singleton_append, ← List.append_assoc]
  have until_ := (passage_run world outsiders first f).step moved
  exact until_.trans (passage_run world outsiders later g)

theorem isFresh_crowd : crowd.IsFresh := by
  refine ⟨⟨rfl, rfl, ?_, fun v mem => List.mem_singleton.1 mem⟩, rfl⟩
  simp [crowd]

/-- Everybody is told, and the switch and the emergency stop go through. -/
theorem aftermath_crowd :
    let world := Workshop.breaking .engagePause
    let s := step world .worker (run world upToPause crowd)
    let t := run world afterPause s
    (∃ p m, Aftermath world Eq (·.board.isLatched) (·.board.published)
      (shown world upToPause crowd) p m (shown world afterPause s) t) ∧
    t.held = [] ∧ t.system.plant.board.isLatched ∧
    t.system.callers.map (·.results) = [[.error .closed], [.error .closed],
      [outcome (.setOptionalStop true) .running "SET_OPTIONAL_STOP: optional stop enabled",
        .error .closed]] := by
  refine ⟨?_, by decide +kernel, by decide +kernel, by decide +kernel⟩
  have passage := passage_breaks (Workshop.breaking .engagePause) Eq crowd upToPause afterPause
    (by decide +kernel) (by decide +kernel)
  have outside (w w' : Workshop) (same : w = w') :
      (w.board.isLatched → w'.board.isLatched) ∧ w'.board.published = w.board.published := by
    rw [same]
    exact ⟨id, rfl⟩
  obtain ⟨-, m, -, p, -, -, -, -, aftermath, -⟩ := passage.aftermath
    (Workshop.calm_breaking rfl) Workshop.prompt_breaking (Workshop.latches_breaking rfl)
    (Workshop.mirrors_breaking rfl) outside isFresh_crowd rfl
  exact ⟨p, m, aftermath⟩

end Frail

end ProgramControl
