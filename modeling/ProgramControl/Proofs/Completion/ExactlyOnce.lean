import ProgramControl.Proofs.Completion.Draining
import ProgramControl.Proofs.Program.Completions

/-!
# One effect for every end of a program

A program reports its ends to a courier that delivers at least once, and the job position at the
other end applies what is new to it.  When all is delivered, in order, the job position is what
one application for each end makes of it, whatever attempts failed on the way.

* `Traffic.Flows`            the queue and the courier at work, without a submission or an abort;
* `Exchange.Submitted`       a history whose submissions go through the courier's traffic;
* `Program.due`              the envelopes that the ends of a run call for;
* `Program.Runs.accepted_eq` what a run has submitted is what is due;
* `Program.Runs.settles`     when the last handle is gone, the courier stops, and every end of a
                             program has had its effect once.
-/

namespace ProgramControl

open Rehearsal

namespace Traffic

/-- Neither a submission nor an abort. -/
def Label.isQuiet : Label → Bool
  | .submit .. | .abort => false
  | .hold | .courier | .clone | .drop => true

variable {σ : Type} {r : Receiver σ} {t t' : Traffic σ}

def Flows (r : Receiver σ) (t t' : Traffic σ) : Prop :=
  ∃ labels : List Label, (∀ l ∈ labels, l.isQuiet = true) ∧ t' = run r labels t

theorem Flows.refl (t : Traffic σ) : Flows r t t := ⟨[], nofun, rfl⟩

/-- What submitters were told, and what the one is going to be told who holds the lock. -/
def answers (t : Traffic σ) : List (Except QueueFault Envelope) := t.told ++ t.held.toList.map .ok

theorem answers_step? {l : Label} (quiet : l.isQuiet = true) (moved : step? r l t = some t') :
    t'.answers = t.answers ∧ (t.held = none → t'.held = none) := by
  cases l with
  | submit => cases quiet
  | abort => cases quiet
  | hold =>
    obtain ⟨e, held, rfl⟩ := Option.map_eq_some_iff.1 moved
    refine ⟨?_, fun _ => rfl⟩
    simp [answers, held]
  | courier =>
    obtain ⟨-, c, s, -, rfl⟩ := moves_of_step? moved
    exact ⟨rfl, id⟩
  | clone =>
    obtain ⟨-, rfl⟩ := cloned_of_step? moved
    exact ⟨rfl, id⟩
  | drop =>
    obtain ⟨-, rfl⟩ := dropped_of_step? moved
    exact ⟨rfl, id⟩

theorem Flows.answers (flows : Flows r t t') :
    t'.answers = t.answers ∧ (t.held = none → t'.held = none) := by
  obtain ⟨labels, quiet, rfl⟩ := flows
  induction labels generalizing t with
  | nil => exact ⟨rfl, id⟩
  | cons l labels ih =>
    obtain ⟨first, others⟩ := List.forall_mem_cons.1 quiet
    obtain ⟨same, free⟩ := ih (t := step r l t) others
    rw [run_cons]
    rcases step_cases r l t with stays | moved
    · rw [stays] at same free ⊢
      exact ⟨same, free⟩
    · obtain ⟨same', free'⟩ := answers_step? first moved
      exact ⟨same.trans same', free ∘ free'⟩

theorem Flows.told (flows : Flows r t t') (free : t.held = none) :
    t'.held = none ∧ t'.told = t.told := by
  obtain ⟨same, free'⟩ := flows.answers
  have unheld := free' free
  refine ⟨unheld, ?_⟩
  simpa [Traffic.answers, free, unheld] using same

theorem answers_submit {program : Nat} {completion : Completion}
    (moved : t.submit program completion = some t') :
    ∃ answer, t'.answers = t.answers ++ [answer] ∧
      ∀ e, answer = .ok e → e.program = program ∧ e.completion = completion := by
  obtain ⟨unheld, -, submits⟩ := submits_of_submit moved
  cases submits with
  | sent =>
    refine ⟨.ok (t.queue.nextEnvelope program completion), ?_, fun e same => ?_⟩
    · simp [answers, withQueue, unheld]
    · cases same
      exact ⟨rfl, rfl⟩
  | full =>
    refine ⟨.ok (t.queue.nextEnvelope program completion), ?_, fun e same => ?_⟩
    · simp [answers, withQueue, unheld]
    · cases same
      exact ⟨rfl, rfl⟩
  | closed =>
    refine ⟨.error .closed, ?_, fun e same => ?_⟩
    · simp [answers, withQueue, unheld]
    · cases same

theorem Flows.labels (flows : Flows r t t') :
    ∃ labels : List Label, .abort ∉ labels ∧ t' = run r labels t := by
  obtain ⟨labels, quiet, same⟩ := flows
  exact ⟨labels, fun mem => Bool.false_ne_true (quiet _ mem), same⟩

end Traffic

namespace Exchange

open Traffic

variable {σ : Type} {r : Receiver σ} {t : Traffic σ} {h : List (Exchange (Traffic σ))}

/-- A submission of the thread is one submission to the courier, and its answer is what the
submitter was told.  All other actions leave the queue to the courier. -/
def Passes (r : Receiver σ) (x : Exchange (Traffic σ)) : Prop :=
  match x.notice? with
  | none => Flows r x.before x.after
  | some n => x.after.told = x.before.told ++ [n.answer] ∧
      ∃ t t', Flows r x.before t ∧ t.submit n.program n.completion = some t' ∧ Flows r t' x.after

/-- During a history the thread is the only one to submit to the courier. -/
def Submitted (r : Receiver σ) : Traffic σ → List (Exchange (Traffic σ)) → Prop :=
  Keeps (Passes r) (Flows r)

theorem Passes.told {x : Exchange (Traffic σ)} (passes : Passes r x) (free : x.before.held = none) :
    x.after.held = none ∧ x.after.told = x.before.told ++ x.notice?.toList.map (·.answer) ∧
      (∀ n, x.notice? = some n → ∀ e, n.answer = .ok e →
        e.program = n.program ∧ e.completion = n.completion) ∧
      ∃ labels : List Traffic.Label, .abort ∉ labels ∧ x.after = run r labels x.before := by
  unfold Passes at passes
  cases notice : x.notice? with
  | none =>
    simp only [notice] at passes
    obtain ⟨unheld, same⟩ := passes.told free
    exact ⟨unheld, same.trans (List.append_nil _).symm, nofun, passes.labels⟩
  | some n =>
    simp only [notice] at passes
    obtain ⟨told, u, u', first, submits, second⟩ := passes
    obtain ⟨answer, more, right⟩ := answers_submit submits
    have same : x.after.answers = x.before.answers ++ [answer] := by
      rw [second.answers.1, more, first.answers.1]
    rw [Traffic.answers, Traffic.answers, told, free] at same
    have one : n.answer :: x.after.held.toList.map .ok = [answer] := by
      simpa using same
    obtain ⟨rfl, rest⟩ := List.cons.inj one
    obtain ⟨before, quiet, rfl⟩ := first.labels
    obtain ⟨after, quiet', same⟩ := second.labels
    refine ⟨by simpa using rest, told, fun m hm => ?_,
      before ++ .submit n.program n.completion :: after, ?_, ?_⟩
    · cases hm
      exact right
    · simp [quiet, quiet']
    · rw [run_append, run_cons, step, Traffic.step?, submits]
      exact same

/-- A history is a run of the traffic, and submitters are told what the thread is told. -/
theorem Submitted.told (submitted : Submitted r t h) (free : t.held = none) :
    (last t h).held = none ∧ (last t h).told = t.told ++ (notices h).map (·.answer) ∧
      (∀ n ∈ notices h, ∀ e, n.answer = .ok e →
        e.program = n.program ∧ e.completion = n.completion) ∧
      ∃ labels : List Traffic.Label, .abort ∉ labels ∧ last t h = run r labels t := by
  induction h generalizing t with
  | nil => exact ⟨free, (List.append_nil _).symm, nofun, [], List.not_mem_nil, rfl⟩
  | cons x h ih =>
    obtain ⟨others, passes, rest⟩ := submitted
    obtain ⟨unheld, before⟩ := others.told free
    obtain ⟨labels₁, quiet₁, same₁⟩ := others.labels
    obtain ⟨unheld', told, right, labels₂, quiet₂, same₂⟩ := passes.told unheld
    obtain ⟨free', told', right', labels₃, quiet₃, same₃⟩ := ih rest unheld'
    have all : notices (x :: h) = x.notice?.toList ++ notices h := by
      rw [notices, List.filterMap_cons]
      cases x.notice? <;> rfl
    refine ⟨free', ?_, fun n mem => ?_, labels₁ ++ labels₂ ++ labels₃, ?_, ?_⟩
    · rw [last, told', told, before, all, List.map_append, List.append_assoc]
    · rw [all, List.mem_append, Option.mem_toList] at mem
      exact mem.elim (right n) (right' n)
    · simp [quiet₁, quiet₂, quiet₃]
    · rw [run_append, run_append, ← same₁, ← same₂, ← same₃]
      rfl

end Exchange

/-! ## What the ends of a run call for -/

/-- One envelope for each call that ended the program, numbered in order. -/
def Program.due {σ : Type} (turns : List (Turn σ)) : List Envelope :=
  (turns.filter (·.endsProgram)).mapIdx fun k t => ⟨k + 1, k + 1, ⟨t.call.wantsRepeat⟩⟩

theorem contents_of_notices {ns : List Notice} {es : List Envelope}
    (answers : ns.map (·.answer) = es.map .ok)
    (right : ∀ n ∈ ns, ∀ e, n.answer = .ok e →
      e.program = n.program ∧ e.completion = n.completion) :
    es.map (fun e => (e.program, e.completion)) = ns.map fun n => (n.program, n.completion) := by
  induction ns generalizing es with
  | nil =>
    obtain rfl := List.map_eq_nil_iff.1 answers.symm
    rfl
  | cons n ns ih =>
    obtain ⟨e, es, rfl, one, others⟩ := List.map_eq_cons_iff.1 answers.symm
    obtain ⟨now, later⟩ := List.forall_mem_cons.1 right
    obtain ⟨program, completion⟩ := now e one.symm
    rw [List.map_cons, List.map_cons, program, completion, ih others.symm later]

theorem eq_due {σ : Type} {turns : List (Turn σ)} {es : List Envelope} {issued : Nat}
    (numbered : es.map Envelope.sequence = List.range' 1 issued)
    (contents : es.map (fun e => (e.program, e.completion)) =
      (turns.filter (·.endsProgram)).mapIdx fun k t => (k + 1, ⟨t.call.wantsRepeat⟩)) :
    es = Program.due turns := by
  refine List.ext_getElem? fun i => ?_
  have number := congrArg (·[i]?) numbered
  have content := congrArg (·[i]?) contents
  simp only [List.getElem?_map, List.getElem?_mapIdx, Program.due] at number content ⊢
  cases here : es[i]? with
  | none =>
    rw [here] at content
    rw [Option.map_eq_none_iff.1 content.symm]
    rfl
  | some e =>
    rw [here] at content number
    obtain ⟨t, there, same⟩ := Option.map_eq_some_iff.1 content.symm
    obtain ⟨within, sequence⟩ := List.getElem?_eq_some_iff.1 number.symm
    rw [List.getElem_range', Nat.one_mul, Nat.add_comm] at sequence
    obtain ⟨program, completion⟩ := Prod.mk.inj same
    have whole : e = ⟨i + 1, i + 1, ⟨t.call.wantsRepeat⟩⟩ := by
      cases e
      cases sequence
      cases program
      cases completion
      rfl
    rw [there, whole]
    rfl

theorem length_due {σ : Type} (turns : List (Turn σ)) :
    (Program.due turns).length = turns.countP (·.endsProgram) := by
  rw [Program.due, List.length_mapIdx, List.countP_eq_length_filter]

theorem countP_due {σ : Type} (turns : List (Turn σ)) :
    (Program.due turns).countP (·.completion.repeatRequested) =
      turns.countP fun t => t.call.wantsRepeat && t.endsProgram := by
  have wants : (Program.due turns).map (·.completion.repeatRequested) =
      (turns.filter (·.endsProgram)).map (·.call.wantsRepeat) := by
    refine List.ext_getElem? fun i => ?_
    simp only [List.getElem?_map, List.getElem?_mapIdx, Program.due, Option.map_map]
    rfl
  have counts := congrArg (List.countP id) wants
  rw [List.countP_map, List.countP_map, List.countP_filter] at counts
  exact counts

/-! ## The main statement -/

/-- Nothing is left, and every end of a program has had its effect once. -/
structure Settled {σ : Type} (script : List Cue) (turns : List (Turn σ)) (t : Traffic Consignee) :
    Prop where
  effect : t.receiver.job.effect = JobPosition.applyAll (Program.due turns) {}
  completions : t.receiver.job.completions = turns.countP (·.endsProgram)
  lastSequence : t.receiver.job.lastSequence = turns.countP (·.endsProgram)
  rewinds : t.receiver.job.rewinds = turns.countP fun u => u.call.wantsRepeat && u.endsProgram
  duplicates : t.receiver.job.duplicates = t.receiver.count .ackLost
  stats : t.courier.joined = (
    { delivered := turns.countP (·.endsProgram)
      retries := t.receiver.count .reject + t.receiver.count .ackLost
      abandoned := 0 }, none)
  /-- the attempts went by the script, and then succeeded -/
  cues : ∃ oks, t.receiver.attempts.map Prod.snd ++ t.receiver.script =
    script ++ List.replicate oks .ok

open Exchange

section

variable {fitted : Equipment} {p : Program} {script : List Cue}
  {turns : List (Turn (Traffic Consignee))} {t : Traffic Consignee}

/-- What has been accepted, on a machine that is the only one to submit, is what is due. -/
theorem Program.Runs.accepted_eq (run : Program.Runs fitted {} turns p)
    (answers : t.told = (notices (exchanges turns)).map (·.answer))
    (right : ∀ n ∈ notices (exchanges turns), ∀ e, n.answer = .ok e →
      e.program = n.program ∧ e.completion = n.completion)
    (free : t.held = none)
    (ledger : Ledger t.told t.held t.queue.issued (t.taken ++ t.queue.contents)) :
    accepted t.told = Program.due turns := by
  have numbered : (accepted t.told).map Envelope.sequence = List.range' 1 t.queue.issued := by
    simpa [free] using ledger.numbered
  have contents := contents_of_notices (answers.symm.trans ledger.succeeded) right
  obtain ⟨programs, -⟩ := run.notices_eq (k := 0) rfl
  refine eq_due numbered (contents.trans (programs.trans ?_))
  simp only [Nat.zero_add]

/-- A courier that has stopped has delivered what was accepted, and if it took that up in order, it
took it up as it was accepted. -/
theorem Traffic.Tally.settled (tally : Tally script t) (conserved : Conserved t)
    (stopped : t.stage = .stopped) (all : accepted t.told = Program.due turns)
    (sorted : InOrder t.taken) (unheld : t.held = none) : Settled script turns t := by
  have free : t.courier.inHand? = none := by
    rw [Courier.inHand?, show t.courier.stage = _ from stopped]
  have taken := tally.taken
  have books := tally.books
  rw [free, Option.toList_none, List.append_nil] at taken
  rw [free, show t.stage = _ from stopped, ← taken] at books
  have numbered : (Program.due turns).map Envelope.sequence = List.range' 1 t.queue.issued := by
    have numbered := conserved.ledger.numbered
    rwa [unheld, all, Option.toList_none, List.append_nil] at numbered
  have increasing : InOrder (Program.due turns) := by
    have rising : ((Program.due turns).map Envelope.sequence).Pairwise (· < ·) := by
      rw [numbered]
      exact List.pairwise_lt_range' 1
    exact List.pairwise_map.1 rising
  have same : t.taken = Program.due turns := by
    have placed := conserved.ledger.placed
    rw [(conserved.ended stopped).2, List.append_nil, all] at placed
    exact placed.eq_of_pairwise (fun a b _ _ ab ba => absurd ab (Nat.lt_asymm ba)) sorted increasing
  have count : t.taken.length = turns.countP (·.endsProgram) := by
    rw [same, length_due]
  have issued : t.queue.issued = turns.countP (·.endsProgram) := by
    rw [← length_due, ← List.length_map Envelope.sequence, numbered, List.length_range']
  obtain ⟨effect, completions, duplicates⟩ := books.settled sorted
  rw [same] at effect
  refine ⟨effect, completions.trans count, ?_, ?_, duplicates, ?_, books.cues⟩
  · have last := congrArg JobPosition.lastSequence effect
    rw [JobPosition.lastSequence_applyAll_numbered numbered, issued] at last
    exact last
  · have above : ∀ e ∈ Program.due turns, 0 < e.sequence := by
      rw [← same]
      exact fun e he => books.positive e (List.mem_append_left _ he)
    have rewinds := congrArg JobPosition.rewinds effect
    rw [JobPosition.rewinds_applyAll increasing above, countP_due] at rewinds
    exact rewinds.trans (Nat.zero_add _)
  · have delivered := books.delivered.trans count
    have retries : t.courier.stats.retries = t.receiver.count .reject + t.receiver.count .ackLost :=
      books.retries
    have abandoned := books.abandoned
    rw [Courier.joined, show t.courier.stage = _ from stopped]
    show (DeliveryStats.mk t.courier.stats.delivered t.courier.stats.retries
      t.courier.stats.abandoned, none) = _
    rw [delivered, retries, abandoned]

theorem Traffic.kept_of_start (policy : RetryPolicy) {depth : Nat} (room : 0 < depth)
    (calm : .panic ∉ script) {labels : List Traffic.Label} (quiet : .abort ∉ labels) :
    let t := Traffic.run Consignee.receiver labels (.start policy depth { script })
    Tally script t ∧ Conserved t ∧ Sound t := by
  have sound := sound_start policy depth ({ script } : Consignee)
  have tally := (tally_start policy depth calm).run quiet sound
  exact ⟨tally, (conserved_start policy room _).run labels sound tally.living, sound.run labels⟩

/-- **Every end of a program has its effect once.**  A machine runs and is the only one to submit to
a courier, whose receiver applies, refuses, or applies without acknowledging, as a script says.
When the last handle is gone, the courier comes to its end; and if it took up the envelopes in
order, the job position counts each end of a program once, and the counters tell how many attempts
that took. -/
theorem Program.Runs.settles (run : Program.Runs fitted {} turns p) (policy : RetryPolicy)
    {depth : Nat} (room : 0 < depth) (calm : .panic ∉ script)
    (submitted : Submitted Consignee.receiver (.start policy depth { script }) (exchanges turns))
    (flows : Traffic.Flows Consignee.receiver
      (last (.start policy depth { script }) (exchanges turns)) t)
    (alone : t.courier.handles = 0) :
    let drained := Traffic.run Consignee.receiver
      (List.replicate (t.courier.enough t.receiver.script.length) .courier) t
    drained.stage = .stopped ∧ (InOrder drained.taken → Settled script turns drained) := by
  intro drained
  have steps : Traffic.Flows Consignee.receiver t drained :=
    ⟨_, fun l mem => by rw [List.eq_of_mem_replicate mem]; rfl, rfl⟩
  obtain ⟨unheld, told, right, before, quiet, same⟩ := submitted.told rfl
  obtain ⟨unheld₁, told₁⟩ := flows.told unheld
  obtain ⟨unheld₂, told₂⟩ := steps.told unheld₁
  obtain ⟨after, quiet', same'⟩ := flows.labels
  obtain ⟨more, quiet'', same''⟩ := steps.labels
  have here : t = Traffic.run Consignee.receiver (before ++ after)
      (.start policy depth { script }) := by
    rw [Traffic.run_append, ← same, same']
  have patient : .abort ∉ before ++ after := by simp [quiet, quiet']
  obtain ⟨tally, conserved, sound⟩ := Traffic.kept_of_start policy room calm patient
  rw [← here] at tally conserved sound
  have stopped := Traffic.stopped_of_enough tally conserved sound alone
  have tally' : Traffic.Tally script drained := same'' ▸ tally.run quiet'' sound
  have conserved' : Traffic.Conserved drained :=
    conserved.run _ sound tally'.living
  have answers : drained.told = (notices (exchanges turns)).map (·.answer) := by
    rw [told₂, told₁, told]
    rfl
  have all := run.accepted_eq answers right unheld₂ conserved'.ledger
  exact ⟨stopped, fun sorted => tally'.settled conserved' stopped all sorted unheld₂⟩

end

/-- The first program ends and is to be repeated, on a bare machine, with a courier whose first
acknowledgement is lost and whose second attempt is refused. -/
def Turn.firstRepeat : Turn (Traffic Consignee) where
  call := .directive .programEndRepeat
  before := {}
  history :=
    let t : Traffic Consignee := .start ⟨3, 10⟩ 1 { script := [.ackLost, .reject] }
    let t' := Traffic.run Consignee.receiver [.submit 1 ⟨true⟩] t
    [⟨.readLatch, false, t, t⟩, ⟨.approachBarrier, (), t, t⟩, ⟨.awaitStandstill, (), t, t⟩,
      ⟨.readLatch, false, t, t⟩, ⟨.resetModal, .ok (), t, t⟩, ⟨.readLatch, false, t, t⟩,
      ⟨.report (.info s!"program {1}: {RunState.running.name} → {RunState.ended.name}"), (), t, t⟩,
      ⟨.publish .ended, (), t, t⟩, ⟨.submit 1 ⟨true⟩, .ok ⟨1, 1, ⟨true⟩⟩, t, t'⟩,
      ⟨.report (.info s!"program {1} ended (repeat={true}), completion #{1}"), (), t', t'⟩]
  result := .ok (.outcome ⟨.programEndRepeat, .ended, StepSet.all.diff .pauseEngaged,
    s!"{Directive.programEndRepeat.text}: program end with reset - ready for restart"⟩)
  after := ⟨.ended, 1⟩

theorem settles_firstRepeat :
    let t := Traffic.run Consignee.receiver
      ([.submit 1 ⟨true⟩, .drop] ++ List.replicate 22 .courier)
      (.start ⟨3, 10⟩ 1 { script := [.ackLost, .reject] })
    t.stage = .stopped ∧ Settled [.ackLost, .reject] [Turn.firstRepeat] t ∧
      t.receiver.job = { completions := 1, rewinds := 1, duplicates := 1, lastSequence := 1 } := by
  intro t
  have run : Program.Runs {} {} [Turn.firstRepeat] ⟨.ended, 1⟩ := by
    refine .cons ?_ (.nil _)
    exact .act (.act (.act (.act (.act (.act (.act (.act (.act (.act (.refl _))))))))))
  have still := @Traffic.Flows.refl _ Consignee.receiver
  have submitted : Submitted Consignee.receiver
      (.start ⟨3, 10⟩ 1 { script := [.ackLost, .reject] })
      (Program.exchanges [Turn.firstRepeat]) := by
    refine ⟨still _, still _, still _, still _, still _, still _, still _, still _, still _,
      still _, still _, still _, still _, still _, still _, still _, still _, ?_⟩
    exact ⟨⟨rfl, _, _, still _, rfl, still _⟩, still _, still _, trivial⟩
  have dropped : Traffic.Flows Consignee.receiver _ (Traffic.run Consignee.receiver
      [.submit 1 ⟨true⟩, .drop] (.start ⟨3, 10⟩ 1 { script := [.ackLost, .reject] })) :=
    ⟨[.drop], by decide, rfl⟩
  have budget : (Traffic.run Consignee.receiver [.submit 1 ⟨true⟩, .drop]
      (.start ⟨3, 10⟩ 1 { script := [.ackLost, .reject] })).courier.enough 2 = 22 := by decide
  have whole := run.settles ⟨3, 10⟩ (by decide) (by decide) submitted dropped rfl
  rw [show (Traffic.run Consignee.receiver [.submit 1 ⟨true⟩, .drop]
    (.start ⟨3, 10⟩ 1 { script := [.ackLost, .reject] })).receiver.script.length = 2 from rfl,
    budget, ← Traffic.run_append] at whole
  have sorted : InOrder t.taken := by decide +kernel
  refine ⟨?_, whole.2 sorted, by decide +kernel⟩
  dsimp only [t]
  exact whole.1

end ProgramControl
