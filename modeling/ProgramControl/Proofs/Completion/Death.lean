import ProgramControl.Proofs.Completion.ExactlyOnce

/-!
# When the courier has died

A receiver that breaks down takes the courier's thread with it, and the receiving end of the queue
goes away.  A submission notices this when it tries the channel.  But it does not try the channel
while the backlog holds anything, and after the courier's death nothing leaves the backlog any more.
So what later submitters are told is settled at the moment of the death.

* `Traffic.Shut.run`         a courier that is dead has closed the queue;
* `Traffic.overflows`        an envelope is in the backlog, or on its way there;
* `Traffic.Bereft.run`       what a run after the death keeps, and what it tells submitters;
* `Exchange.Shared`          a history whose thread is one of the submitters;
* `Traffic.told_after_death` later submissions, and the ends of programs that make them, are told
                             of the death exactly if nothing overflowed.
-/

namespace ProgramControl

/-! ## The queue is closed -/

theorem Courier.Moves.shut {σ : Type} {r : Receiver σ} {c c' : Courier} {s s' : σ}
    (moves : Courier.Moves r c s c' s') (dead : c'.stage = .dead) : c'.queue.isOpen = false := by
  cases moves with
  | @attempt e n backoff =>
    cases verdict : (r.deliver e s).1 with
    | accepted =>
      rw [verdict] at dead
      cases dead
    | failed fault =>
      rw [verdict] at dead
      cases dead
    | crashed => rfl
  | judge =>
    unfold Courier.judge at dead
    split at dead <;> cases dead
  | _ => cases dead

namespace Traffic

variable {σ : Type} {r : Receiver σ} {t t' u : Traffic σ}

/-- A courier that is dead has closed the queue. -/
def Shut (t : Traffic σ) : Prop := t.stage = .dead → t.queue.isOpen = false

theorem shut_start (policy : RetryPolicy) (depth : Nat) (s : σ) : Shut (start policy depth s) := by
  intro dead
  cases dead

theorem Shut.step? {l : Label} (shut : Shut t) (moved : Traffic.step? r l t = some t') :
    Shut t' := by
  cases l with
  | submit program completion =>
    obtain ⟨-, -, submits⟩ := submits_of_submit moved
    cases submits <;> exact shut
  | hold =>
    obtain ⟨e, -, rfl⟩ := Option.map_eq_some_iff.1 moved
    exact shut
  | clone =>
    obtain ⟨-, rfl⟩ := cloned_of_step? moved
    exact shut
  | drop =>
    obtain ⟨-, rfl⟩ := dropped_of_step? moved
    exact shut
  | abort =>
    cases moved
    exact shut
  | courier =>
    obtain ⟨-, c, s, moves, rfl⟩ := moves_of_step? moved
    exact moves.shut

theorem Shut.run (labels : List Label) (shut : Shut t) : Shut (run r labels t) := by
  induction labels generalizing t with
  | nil => exact shut
  | cons l labels ih =>
    rw [run_cons]
    refine ih ?_
    rcases step_cases r l t with same | moved
    · rw [same]
      exact shut
    · exact shut.step? moved

/-! ## What a run after the death keeps -/

/-- An envelope is in the backlog, or in the hands of a submitter who is going to put it there. -/
def overflows (t : Traffic σ) : Bool := !t.queue.backlog.isEmpty || t.held.isSome

/-- The courier was dead in `t`, and `t'` came later. -/
structure Bereft (t t' : Traffic σ) : Prop where
  dead : t'.stage = .dead
  taken : t'.taken = t.taken
  overflows : t'.overflows = t.overflows
  /-- the submissions since then were numbered and were all answered alike -/
  answers : ∃ more, t'.answers = t.answers ++ more ∧
    t'.queue.issued = t.queue.issued + more.length ∧
    ∀ answer ∈ more, answer = .error .closed ↔ t.overflows = false

theorem Bereft.refl (dead : t.stage = .dead) : Bereft t t :=
  ⟨dead, rfl, rfl, [], (List.append_nil _).symm, rfl,
    fun _ mem => absurd mem List.not_mem_nil⟩

theorem Bereft.trans (first : Bereft t t') (second : Bereft t' u) : Bereft t u := by
  obtain ⟨some, told, issued, alike⟩ := first.answers
  obtain ⟨more, told', issued', alike'⟩ := second.answers
  refine ⟨second.dead, second.taken.trans first.taken, second.overflows.trans first.overflows,
    some ++ more, ?_, ?_, fun answer mem => ?_⟩
  · rw [told', told, List.append_assoc]
  · rw [issued', issued, List.length_append, Nat.add_assoc]
  · rcases List.mem_append.1 mem with mem | mem
    · exact alike answer mem
    · rw [← first.overflows]
      exact alike' answer mem

theorem bereft_of_same (dead : t'.stage = .dead) (taken : t'.taken = t.taken)
    (overflows : t'.overflows = t.overflows) (answers : t'.answers = t.answers)
    (issued : t'.queue.issued = t.queue.issued) : Bereft t t' :=
  ⟨dead, taken, overflows, [], answers.trans (List.append_nil _).symm, issued,
    fun _ mem => absurd mem List.not_mem_nil⟩

theorem submit_of_closed {program : Nat} {completion : Completion}
    (moved : t.submit program completion = some t') (gone : t.queue.isOpen = false) :
    t.held = none ∧ if t.queue.backlog.isEmpty then
        t' = { t.withQueue { t.queue with issued := t.queue.issued + 1 } with
          told := t.told ++ [.error .closed] }
      else
        t' = { t.withQueue { t.queue with issued := t.queue.issued + 1 } with
          held := some (t.queue.nextEnvelope program completion) } := by
  obtain ⟨unheld, handles, -⟩ := submits_of_submit moved
  refine ⟨unheld, ?_⟩
  have free : ¬ (t.isLocked || t.courier.handles == 0) = true := by
    simp [isLocked, unheld, handles]
  have gone : ¬ t.courier.queue.isOpen = true := by
    rw [gone]
    exact Bool.false_ne_true
  rw [submit, if_neg free, Queue.offer] at moved
  split
  · next empty =>
    rw [if_pos empty, if_neg gone] at moved
    exact (Option.some.inj moved).symm
  · next stored =>
    rw [if_neg stored] at moved
    exact (Option.some.inj moved).symm

theorem bereft_submit {program : Nat} {completion : Completion} (dead : t.stage = .dead)
    (gone : t.queue.isOpen = false) (moved : t.submit program completion = some t') :
    Bereft t t' := by
  obtain ⟨unheld, effect⟩ := submit_of_closed moved gone
  split at effect
  · next empty =>
    subst effect
    have dry : t.overflows = false := by
      rw [overflows, empty, unheld]
      rfl
    refine ⟨dead, rfl, rfl, [.error .closed], ?_, rfl, fun answer mem => ?_⟩
    · simp [Traffic.answers, unheld, withQueue]
    · rw [List.mem_singleton.1 mem]
      exact iff_of_true rfl dry
  · next stored =>
    subst effect
    have wet : t.overflows = true := by
      rw [overflows, Bool.eq_false_iff.2 stored]
      rfl
    refine ⟨dead, rfl, ?_, [.ok (t.queue.nextEnvelope program completion)], ?_, rfl,
      fun answer mem => ?_⟩
    · rw [wet]
      exact Bool.or_true _
    · simp [Traffic.answers, unheld, withQueue]
    · rw [List.mem_singleton.1 mem, wet]
      exact iff_of_false (by simp) Bool.noConfusion

theorem bereft_step? {l : Label} (dead : t.stage = .dead) (gone : t.queue.isOpen = false)
    (moved : step? r l t = some t') : Bereft t t' := by
  cases l with
  | submit program completion => exact bereft_submit dead gone moved
  | hold =>
    obtain ⟨same, -⟩ := answers_step? rfl moved
    obtain ⟨e, held, rfl⟩ := Option.map_eq_some_iff.1 moved
    refine bereft_of_same dead rfl ?_ same rfl
    -- the envelope goes from the submitter's hands into the backlog
    simp [overflows, withQueue, Queue.hold, held]
  | courier => exact absurd dead (not_gone_of_step? moved).2
  | clone =>
    obtain ⟨-, rfl⟩ := cloned_of_step? moved
    exact bereft_of_same dead rfl rfl rfl rfl
  | drop =>
    obtain ⟨-, rfl⟩ := dropped_of_step? moved
    exact bereft_of_same dead rfl rfl rfl rfl
  | abort =>
    cases moved
    exact bereft_of_same dead rfl rfl rfl rfl

theorem Bereft.run (labels : List Label) (shut : Shut t) (dead : t.stage = .dead) :
    Bereft t (run r labels t) := by
  induction labels generalizing t with
  | nil => exact .refl dead
  | cons l labels ih =>
    rw [run_cons]
    rcases step_cases r l t with same | moved
    · rw [same]
      exact ih shut dead
    · have first := bereft_step? dead (shut dead) moved
      exact first.trans (ih (shut.step? moved) first.dead)

end Traffic

/-! ## Programs that end after the death -/

namespace Exchange

open Traffic

variable {σ : Type} {r : Receiver σ} {t : Traffic σ} {h : List (Exchange (Traffic σ))}

/-- A submission of the thread is one submission to the courier and gets its answer.  At any other
time the queue belongs to the courier and to other submitters. -/
def Handed (r : Receiver σ) (x : Exchange (Traffic σ)) : Prop :=
  match x.notice? with
  | none => ∃ labels, x.after = run r labels x.before
  | some n => ∃ earlier later t, (run r earlier x.before).submit n.program n.completion = some t ∧
      t.answers = (run r earlier x.before).answers ++ [n.answer] ∧ x.after = run r later t

/-- During a history the thread is one of any number of submitters. -/
def Shared (r : Receiver σ) : Traffic σ → List (Exchange (Traffic σ)) → Prop :=
  Keeps (Handed r) fun t t' => ∃ labels, t' = run r labels t

/-- What holds after a piece of a history that began when the courier was dead in `t`. -/
structure Mourns (t t' : Traffic σ) (ns : List Notice) : Prop where
  bereft : Bereft t t'
  shut : Shut t'
  told : ∀ n ∈ ns, n.answer = .error .closed ↔ t.overflows = false

theorem Mourns.trans {t' u : Traffic σ} {ns ms : List Notice} (first : Mourns t t' ns)
    (second : Mourns t' u ms) : Mourns t u (ns ++ ms) := by
  refine ⟨first.bereft.trans second.bereft, second.shut, fun n mem => ?_⟩
  rcases List.mem_append.1 mem with mem | mem
  · exact first.told n mem
  · rw [← first.bereft.overflows]
    exact second.told n mem

theorem mourns_run (labels : List Traffic.Label) (shut : Shut t) (dead : t.stage = .dead) :
    Mourns t (run r labels t) [] :=
  ⟨.run labels shut dead, shut.run labels, fun _ mem => absurd mem List.not_mem_nil⟩

theorem Handed.mourns {x : Exchange (Traffic σ)} (handed : Handed r x) (shut : Shut x.before)
    (dead : x.before.stage = .dead) : Mourns x.before x.after x.notice?.toList := by
  unfold Handed at handed
  cases notice : x.notice? with
  | none =>
    simp only [notice] at handed
    obtain ⟨labels, same⟩ := handed
    rw [same]
    exact mourns_run labels shut dead
  | some n =>
    simp only [notice] at handed
    obtain ⟨earlier, later, t, moved, told, same⟩ := handed
    have before := mourns_run (r := r) earlier shut dead
    have submits : Mourns (run r earlier x.before) t [n] := by
      have bereft := bereft_submit before.bereft.dead (before.shut before.bereft.dead) moved
      obtain ⟨more, told', -, alike⟩ := bereft.answers
      refine ⟨bereft, ?_, ?_⟩
      · exact before.shut.step? (r := r) (l := .submit n.program n.completion) moved
      · obtain rfl := List.append_cancel_left (told'.symm.trans told)
        exact List.forall_mem_singleton.2 (alike _ (List.mem_singleton.2 rfl))
    have after := mourns_run (r := r) later submits.shut submits.bereft.dead
    rw [same]
    exact before.trans (submits.trans after)

/-- What submissions of a history are told after the courier's death. -/
theorem Shared.mourns (keeps : Shared r t h) (shut : Shut t) (dead : t.stage = .dead) :
    Mourns t (last t h) (notices h) := by
  induction h generalizing t with
  | nil => exact mourns_run (r := r) [] shut dead
  | cons x h ih =>
    obtain ⟨⟨labels, others⟩, handed, rest⟩ := keeps
    have before : Mourns t x.before [] := others ▸ mourns_run labels shut dead
    have now := handed.mourns before.shut before.bereft.dead
    have after := ih rest now.shut now.bereft.dead
    have all : notices (x :: h) = [] ++ (x.notice?.toList ++ notices h) := by
      rw [notices, List.filterMap_cons]
      cases x.notice? <;> rfl
    rw [all]
    exact before.trans (now.trans after)

end Exchange

open Exchange Traffic Program Rehearsal

section

variable {σ : Type} {r : Receiver σ} {t : Traffic σ} {fitted : Equipment} {p q : Program}
  {turns : List (Turn (Traffic σ))}

/-- An end of a program that came after the death says that its completion is on its way exactly if
something had overflowed. -/
theorem Account.emitted_of_dead {call : Call} {ns : List Notice} {result : Result} {wet : Bool}
    (account : Account call p ns result q)
    (told : ∀ n ∈ ns, n.answer = .error .closed ↔ wet = false) :
    result.emitted = (decide (p.state ≠ .ended ∧ q.state = .ended) && wet) := by
  by_cases ends : p.state ≠ .ended ∧ q.state = .ended
  · obtain ⟨-, answer, o, rfl, said, emits⟩ := account.of_ends ends
    have closed : answer = .error .closed ↔ wet = false := told _ (List.mem_singleton.2 rfl)
    rw [decide_eq_true ends, Bool.true_and, said, Bool.eq_iff_iff]
    refine Iff.trans emits ⟨?_, fun overflowed => ?_⟩
    · rintro ⟨e, rfl⟩
      cases wet with
      | true => rfl
      | false => cases closed.2 rfl
    · cases answer with
      | ok e => exact ⟨e, rfl⟩
      | error fault =>
        cases fault
        cases overflowed.symm.trans (closed.1 rfl)
  · obtain ⟨-, unsaid, -⟩ := account.of_not_ends ends
    rw [decide_eq_false ends, unsaid]
    rfl

theorem Program.Runs.emitted_of_dead (run : Program.Runs fitted p turns q)
    (keeps : Shared r t (exchanges turns)) (shut : Shut t) (dead : t.stage = .dead) :
    ∀ u ∈ turns, u.result.emitted = (u.endsProgram && t.overflows) := by
  induction run generalizing t with
  | nil => exact fun u mem => absurd mem List.not_mem_nil
  | @cons call p p' q h result turns served rest ih =>
    rw [exchanges_cons] at keeps
    obtain ⟨now, later⟩ := keeps_append.1 keeps
    have mourns := Shared.mourns now shut dead
    refine List.forall_mem_cons.2 ⟨?_, fun u mem => ?_⟩
    · exact (Call.account_of_reaches served).emitted_of_dead mourns.told
    · rw [← mourns.bereft.overflows]
      exact ih later mourns.shut mourns.bereft.dead u mem

/-- **What is told of the courier's death.**  The courier is dead, whatever ran before.  From then
on nothing is taken up any more; and later submissions are told that the queue is closed, and later
ends of programs do not say that their completion is on its way, exactly if at the moment of the
death nothing was in the backlog nor on its way there. -/
theorem Traffic.told_after_death (r : Receiver σ) (policy : RetryPolicy) (depth : Nat) (s : σ)
    (labels : List Traffic.Label)
    (dead : (Traffic.run r labels (.start policy depth s)).stage = .dead) :
    let t := Traffic.run r labels (.start policy depth s)
    ∀ later, Bereft t (Traffic.run r later t) ∧
      ∀ {fitted p q} {turns : List (Turn (Traffic σ))}, Program.Runs fitted p turns q →
        Shared r (Traffic.run r later t) (Program.exchanges turns) →
        ∀ u ∈ turns, u.result.emitted = (u.endsProgram && t.overflows) := by
  intro t later
  have shut : Shut t := (shut_start policy depth s).run labels
  have bereft : Bereft t (Traffic.run r later t) := .run later shut dead
  refine ⟨bereft, fun run shared => ?_⟩
  rw [← bereft.overflows]
  exact run.emitted_of_dead shared (shut.run later) bereft.dead

end

/-- The receiver breaks down with the first envelope, when the second is in the channel and the
third in the backlog. -/
def Traffic.bereaved : Traffic Consignee :=
  Traffic.run Consignee.receiver [.submit 1 ⟨false⟩, .courier, .submit 2 ⟨false⟩, .submit 3 ⟨false⟩,
    .hold, .courier] (.start ⟨3, 10⟩ 1 { script := [.panic] })

/-- A program ends after that, on a bare machine. -/
def Turn.unheardEnd : Turn (Traffic Consignee) where
  call := .directive .programEnd
  before := ⟨.running, 4⟩
  history :=
    let t := Traffic.bereaved
    let t' := Traffic.run Consignee.receiver [.submit 4 ⟨false⟩, .hold] t
    [⟨.readLatch, false, t, t⟩, ⟨.approachBarrier, (), t, t⟩, ⟨.awaitStandstill, (), t, t⟩,
      ⟨.readLatch, false, t, t⟩, ⟨.resetModal, .ok (), t, t⟩, ⟨.readLatch, false, t, t⟩,
      ⟨.report (.info s!"program {4}: {RunState.running.name} → {RunState.ended.name}"), (), t, t⟩,
      ⟨.publish .ended, (), t, t⟩, ⟨.submit 4 ⟨false⟩, .ok ⟨4, 4, ⟨false⟩⟩, t, t'⟩,
      ⟨.report (.info s!"program {4} ended (repeat={false}), completion #{4}"), (), t', t'⟩]
  result := .ok (.outcome ⟨.programEnd, .ended, StepSet.all.diff .pauseEngaged,
    s!"{Directive.programEnd.text}: program end - ready for new program"⟩)
  after := ⟨.ended, 4⟩

theorem unheardEnd_runs : Program.Runs {} ⟨.running, 4⟩ [Turn.unheardEnd] ⟨.ended, 4⟩ := by
  refine .cons ?_ (.nil _)
  exact .act (.act (.act (.act (.act (.act (.act (.act (.act (.act (.refl _))))))))))

theorem unheardEnd_shared :
    Shared Consignee.receiver Traffic.bereaved (Program.exchanges [Turn.unheardEnd]) := by
  have still (t : Traffic Consignee) : ∃ labels, t = Traffic.run Consignee.receiver labels t :=
    ⟨[], rfl⟩
  refine ⟨still _, still _, still _, still _, still _, still _, still _, still _, still _,
    still _, still _, still _, still _, still _, still _, still _, still _, ?_⟩
  exact ⟨⟨[], [.hold], _, rfl, rfl, rfl⟩, still _, still _, trivial⟩

theorem Traffic.told_unheardEnd : Traffic.bereaved.overflows = true ∧
    Bereft Traffic.bereaved (Traffic.run Consignee.receiver [.submit 4 ⟨false⟩, .hold]
      Traffic.bereaved) ∧ Turn.unheardEnd.result.emitted = true := by
  have dead : Traffic.bereaved.stage = .dead := by decide
  have told := Traffic.told_after_death Consignee.receiver ⟨3, 10⟩ 1 { script := [.panic] } _ dead
  have emitted := (told []).2 unheardEnd_runs unheardEnd_shared _ (List.mem_singleton.2 rfl)
  exact ⟨rfl, (told [.submit 4 ⟨false⟩, .hold]).1, emitted⟩

/-- The death is not told to a program that ends when envelopes overflowed before: the end says that
its completion is on its way, to a courier that will never take it up. -/
theorem Traffic.overflow_hides_the_death :
    let t := Turn.unheardEnd
    Traffic.bereaved.stage = .dead ∧ Program.Runs {} t.before [t] t.after ∧
      Shared Consignee.receiver Traffic.bereaved t.history ∧
      (notices t.history).map (·.answer) = [.ok ⟨4, 4, ⟨false⟩⟩] ∧ t.result.emitted = true ∧
      ∀ labels, (Traffic.run Consignee.receiver labels Traffic.bereaved).taken =
        [⟨1, 1, ⟨false⟩⟩] := by
  intro t
  have dead : Traffic.bereaved.stage = .dead := by decide
  have shut : Shut Traffic.bereaved := Shut.run _ (shut_start _ _ _)
  refine ⟨dead, unheardEnd_runs, ?_, rfl, rfl, fun labels => ?_⟩
  · have shared := unheardEnd_shared
    rwa [exchanges_cons, exchanges, List.flatMap_nil, List.append_nil] at shared
  · exact (Bereft.run labels shut dead).taken

end ProgramControl
