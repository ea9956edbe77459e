import ProgramControl.Proofs.Completion.Order
import ProgramControl.Rehearsal.Consignee

/-!
# Envelopes that are delivered more than once

The courier delivers an envelope until an attempt succeeds, and a failed attempt may have reached
the job position all the same.  The job position applies only what is above the last number it
applied, so of the attempts of one envelope at most one has an effect.

* `JobPosition.effect`       a job position but for its count of duplicates;
* `Rehearsal.Books`          cues used, attempts, counters and job position fit together, between
                             any two steps of the courier;
* `Traffic.Tally.run`        they do so in every run without an abort;
* `Rehearsal.Books.settled`  what they say when no envelope is in hand.
-/

namespace ProgramControl

namespace JobPosition

variable {e : Envelope} {es : List Envelope} {j : JobPosition}

/-- The job position but for its count of duplicates. -/
def effect (j : JobPosition) : JobPosition := { j with duplicates := 0 }

theorem effect_apply_of_le (old : e.sequence ≤ j.lastSequence) :
    (j.apply e).2.effect = j.effect := by
  rw [apply, if_pos old]
  rfl

theorem effect_apply (j : JobPosition) (fresh : j.lastSequence < e.sequence) :
    (j.apply e).2.effect = (j.effect.apply e).2 := by
  have new : ¬ e.sequence ≤ j.lastSequence := Nat.not_le_of_lt fresh
  have new' : ¬ e.sequence ≤ j.effect.lastSequence := new
  rw [apply, if_neg new, apply, if_neg new']
  split <;> rfl

theorem lastSequence_applyAll_lt {n : Nat} :
    (applyAll es j).lastSequence < n ↔ j.lastSequence < n ∧ ∀ e ∈ es, e.sequence < n := by
  induction es generalizing j with
  | nil => exact ⟨fun h => ⟨h, nofun⟩, And.left⟩
  | cons e es ih =>
    rw [applyAll_cons, ih, lastSequence_apply, Nat.max_lt, List.forall_mem_cons, and_assoc]

theorem lastSequence_applyAll_numbered {n : Nat}
    (numbered : es.map Envelope.sequence = List.range' 1 n) :
    (applyAll es {}).lastSequence = n := by
  have mem : ∀ k, (∃ e ∈ es, e.sequence = k) ↔ 1 ≤ k ∧ k < 1 + n := by
    intro k
    rw [← List.mem_map, numbered, List.mem_range'_1]
  refine Nat.le_antisymm (Nat.le_of_lt_succ ?_) (Nat.le_of_not_lt fun less => ?_)
  · rw [lastSequence_applyAll_lt]
    refine ⟨Nat.succ_pos n, fun e he => ?_⟩
    have bounds := (mem e.sequence).1 ⟨e, he, rfl⟩
    omega
  · obtain ⟨positive, below⟩ := lastSequence_applyAll_lt.1 less
    obtain ⟨e, he, same⟩ := (mem n).2 ⟨positive, by omega⟩
    exact Nat.lt_irrefl n (same ▸ below e he)

theorem rewinds_applyAll (sorted : InOrder es) (above : ∀ e ∈ es, j.lastSequence < e.sequence) :
    (applyAll es j).rewinds = j.rewinds + es.countP (·.completion.repeatRequested) := by
  induction es generalizing j with
  | nil => rfl
  | cons e es ih =>
    obtain ⟨first, above'⟩ := List.forall_mem_cons.1 above
    obtain ⟨least, sorted'⟩ := List.pairwise_cons.1 sorted
    have last : (j.apply e).2.lastSequence = e.sequence := by
      rw [lastSequence_apply, Nat.max_eq_right (Nat.le_of_lt first)]
    have one : (j.apply e).2.rewinds =
        j.rewinds + if e.completion.repeatRequested then 1 else 0 := by
      rw [apply, if_neg (Nat.not_le_of_lt first)]
      split <;> rfl
    rw [applyAll_cons, ih sorted' (fun a ha => last ▸ least a ha), one, List.countP_cons]
    omega

/-- After some envelopes in order, one more has its effect unless it had it already. -/
theorem effect_apply_eq {applied : List Envelope} (was : applied = es ∨ applied = es ++ [e])
    (same : j.effect = applyAll applied {}) (sorted : InOrder (es ++ [e]))
    (positive : 0 < e.sequence) : (j.apply e).2.effect = applyAll (es ++ [e]) {} := by
  have last : j.effect.lastSequence = (applyAll applied {}).lastSequence := by rw [same]
  rcases was with rfl | rfl
  · have fresh : j.effect.lastSequence < e.sequence := by
      rw [last, lastSequence_applyAll_lt]
      exact ⟨positive, (inOrder_append_singleton.1 sorted).2⟩
    rw [effect_apply j fresh, same, applyAll_concat]
  · have old : e.sequence ≤ j.effect.lastSequence := by
      refine Nat.le_of_not_lt fun fresh => ?_
      rw [last, lastSequence_applyAll_lt] at fresh
      exact Nat.lt_irrefl _ (fresh.2 e (List.mem_append_right _ (List.mem_singleton_self e)))
    rw [effect_apply_of_le (j := j) old, same]

end JobPosition

namespace Rehearsal

/-- Attempts that came out like this. -/
def Consignee.count (cue : Cue) (c : Consignee) : Nat := c.attempts.countP (·.2 = cue)

/-- The receiver after an attempt with this cue. -/
def Consignee.answered (e : Envelope) (cue : Cue) (script : List Cue) (c : Consignee) :
    Consignee where
  script := script
  job := if cue.applies then (c.job.apply e).2 else c.job
  attempts := c.attempts ++ [(e, cue)]
  permits := c.permits.map (· - 1)

theorem Consignee.deliver_eq (e : Envelope) (c : Consignee) :
    ∃ cue script oks, cue :: script = c.script ++ List.replicate oks .ok ∧
      c.deliver e = (cue.verdict, c.answered e cue script) := by
  cases script : c.script with
  | nil => exact ⟨.ok, [], 1, rfl, by rw [deliver, script]; rfl⟩
  | cons cue rest => exact ⟨cue, rest, 0, (List.append_nil _).symm, by rw [deliver, script]; rfl⟩

theorem Consignee.count_answered (e : Envelope) (cue : Cue) (script : List Cue) (c : Consignee)
    (k : Cue) : (c.answered e cue script).count k = c.count k + if cue = k then 1 else 0 := by
  simp [count, answered, List.countP_append]

/-- What a receiver that started with this script and the courier's counters keep to, when these
envelopes have been delivered, one may be in hand, and its last failure may not be counted yet. -/
structure Books (script : List Cue) (c : Consignee) (stats : DeliveryStats) (es : List Envelope)
    (inHand : Option Envelope) (uncounted : Bool) : Prop where
  gate : c.permits = none
  calm : .panic ∉ c.script
  cues : ∃ oks, c.attempts.map Prod.snd ++ c.script = script ++ List.replicate oks .ok
  positive : ∀ e ∈ es ++ inHand.toList, 0 < e.sequence
  accepted : c.count .ok = es.length
  delivered : stats.delivered = es.length
  retries : stats.retries + uncounted.toNat = c.count .reject + c.count .ackLost
  abandoned : stats.abandoned = 0
  reached : c.job.completions + c.job.duplicates = c.count .ok + c.count .ackLost
  applied : InOrder (es ++ inHand.toList) →
    ∃ applied, (applied = es ∨ applied = es ++ inHand.toList) ∧
      c.job.effect = JobPosition.applyAll applied {}

namespace Books

variable {script : List Cue} {c : Consignee} {stats : DeliveryStats} {es : List Envelope}
  {e : Envelope}

theorem start (calm : .panic ∉ script) : Books script { script } {} [] none false where
  gate := rfl
  calm := calm
  cues := ⟨0, (List.append_nil script).symm⟩
  positive := nofun
  accepted := rfl
  delivered := rfl
  retries := rfl
  abandoned := rfl
  reached := rfl
  applied _ := ⟨[], .inl rfl, rfl⟩

theorem take (h : Books script c stats es none false) (positive : 0 < e.sequence) :
    Books script c stats es (some e) false := by
  refine { h with positive := fun a ha => ?_, applied := fun sorted => ?_ }
  · rcases List.mem_append.1 ha with ha | ha
    · exact h.positive a (List.mem_append_left _ ha)
    · obtain rfl := List.mem_singleton.1 ha
      exact positive
  · obtain ⟨applied, was, same⟩ := h.applied (sorted.sublist (by simp))
    rw [Option.toList_none, List.append_nil, or_self] at was
    exact ⟨applied, .inl was, same⟩

/-- What an attempt does to the script and the gate, whatever its cue. -/
theorem answered {cue : Cue} {rest : List Cue} {oks : Nat}
    (h : Books script c stats es (some e) false)
    (next : cue :: rest = c.script ++ List.replicate oks .ok) :
    (c.answered e cue rest).permits = none ∧ .panic ∉ cue :: rest ∧
      ∃ oks, (c.answered e cue rest).attempts.map Prod.snd ++ rest =
        script ++ List.replicate oks .ok := by
  refine ⟨?_, ?_, ?_⟩
  · rw [Consignee.answered, h.gate]
    rfl
  · rw [next, List.mem_append, List.mem_replicate]
    rintro (mem | ⟨-, ok⟩)
    · exact h.calm mem
    · cases ok
  · obtain ⟨before, cues⟩ := h.cues
    refine ⟨before + oks, ?_⟩
    rw [Consignee.answered, List.map_append, List.append_assoc, List.map_singleton,
      List.singleton_append, next, ← List.append_assoc, cues, List.append_assoc,
      List.replicate_append_replicate]

/-- An attempt that reaches the job position has its effect, or had it before. -/
theorem applies {cue : Cue} {rest : List Cue} (h : Books script c stats es (some e) false)
    (reaches : cue.applies = true) (sorted : InOrder (es ++ [e])) :
    (c.answered e cue rest).job.effect = JobPosition.applyAll (es ++ [e]) {} := by
  obtain ⟨applied, was, same⟩ := h.applied sorted
  have positive : 0 < e.sequence :=
    h.positive e (List.mem_append_right _ (List.mem_singleton_self e))
  rw [Consignee.answered, if_pos reaches]
  exact JobPosition.effect_apply_eq was same sorted positive

/-- An attempt is accepted, or it fails and has yet to be counted. -/
theorem attempt (h : Books script c stats es (some e) false) :
    ((c.deliver e).1 = .accepted ∧ Books script (c.deliver e).2
      { stats with delivered := stats.delivered + 1 } (es ++ [e]) none false) ∨
    ∃ fault, (c.deliver e).1 = .failed fault ∧
      Books script (c.deliver e).2 stats es (some e) true := by
  obtain ⟨cue, rest, oks, next, eq⟩ := c.deliver_eq e
  obtain ⟨gate, calm, cues⟩ := h.answered next
  have count := c.count_answered e cue rest
  have counts := (JobPosition.counts_apply e c.job).1
  have calmRest : .panic ∉ rest := fun mem => calm (List.mem_cons_of_mem _ mem)
  have accepted := h.accepted
  have retries := h.retries
  have reached := h.reached
  rw [eq]
  cases cue with
  | ok =>
    refine .inl ⟨rfl, ⟨gate, calmRest, cues, ?_, ?_, ?_, ?_, h.abandoned, ?_, fun sorted => ?_⟩⟩
    · rw [Option.toList_none, List.append_nil]
      exact h.positive
    · rw [count, if_pos rfl, accepted, List.length_append, List.length_singleton]
    · show stats.delivered + 1 = _
      rw [h.delivered, List.length_append, List.length_singleton]
    · rw [count, count]
      exact retries
    · rw [count, count]
      show (c.job.apply e).2.completions + (c.job.apply e).2.duplicates = c.count .ok + 1 + (_ + 0)
      omega
    · rw [Option.toList_none, List.append_nil] at sorted
      exact ⟨_, .inl rfl, h.applies rfl sorted⟩
  | reject =>
    refine .inr ⟨_, rfl, ⟨gate, calmRest, cues, h.positive, ?_, h.delivered, ?_, h.abandoned, ?_,
      h.applied⟩⟩
    · rw [count]
      exact accepted
    · rw [count, count]
      show stats.retries + 1 = c.count .reject + 1 + (_ + 0)
      have : stats.retries + 0 = _ := retries
      omega
    · rw [count, count]
      exact reached
  | ackLost =>
    refine .inr ⟨_, rfl, ⟨gate, calmRest, cues, h.positive, ?_, h.delivered, ?_, h.abandoned, ?_,
      fun sorted => ⟨_, .inr rfl, h.applies rfl sorted⟩⟩⟩
    · rw [count]
      exact accepted
    · rw [count, count]
      show stats.retries + 1 = c.count .reject + 0 + (_ + 1)
      have : stats.retries + 0 = _ := retries
      omega
    · rw [count, count]
      show (c.job.apply e).2.completions + (c.job.apply e).2.duplicates = c.count .ok + 0 + (_ + 1)
      omega
  | panic => exact absurd List.mem_cons_self calm

theorem judge (h : Books script c stats es (some e) true) :
    Books script c { stats with retries := stats.retries + 1 } es (some e) false :=
  { h with retries := h.retries }

/-- With nothing in hand every envelope has had its effect once, and what the attempts did beyond
that are duplicates. -/
theorem settled (h : Books script c stats es none false) (sorted : InOrder es) :
    c.job.effect = JobPosition.applyAll es {} ∧ c.job.completions = es.length ∧
      c.job.duplicates = c.count .ackLost := by
  have whole : es ++ (none : Option Envelope).toList = es := List.append_nil es
  obtain ⟨applied, was, same⟩ := h.applied (whole.symm ▸ sorted)
  rw [whole, or_self] at was
  rw [was] at same
  have above : ∀ e ∈ es, 0 < e.sequence := whole ▸ h.positive
  have unique : (JobPosition.applyAll es {}).duplicates = 0 :=
    (JobPosition.duplicates_applyAll_eq_iff es {}).2 ⟨sorted, above⟩
  have counts := JobPosition.counts_applyAll es {}
  have completions : c.job.effect.completions = es.length := by
    rw [same]
    simpa [unique] using counts
  have completions : c.job.completions = es.length := completions
  have reached := h.reached
  have accepted := h.accepted
  exact ⟨same, completions, by omega⟩

end Books

end Rehearsal

/-! ## In the courier's traffic -/

open Rehearsal

/-- The courier has a failure in hand that is not counted yet. -/
def Stage.isJudging : Stage → Bool
  | .judging .. => true
  | _ => false

namespace Traffic

variable {script : List Cue} {t t' : Traffic Consignee}

structure Tally (script : List Cue) (t : Traffic Consignee) : Prop where
  living : t.stage ≠ .dead
  patient : t.courier.aborting = false
  taken : t.taken = t.delivered ++ t.courier.inHand?.toList
  books : Books script t.receiver t.courier.stats t.delivered t.courier.inHand? t.stage.isJudging

theorem tally_start (policy : RetryPolicy) (depth : Nat) (calm : .panic ∉ script) :
    Tally script (start policy depth { script }) :=
  ⟨nofun, rfl, rfl, .start calm⟩

theorem Tally.of_books (es : List Envelope) (living : t.stage ≠ .dead)
    (patient : t.courier.aborting = false) (taken : t.taken = es ++ t.courier.inHand?.toList)
    (books : Books script t.receiver t.courier.stats es t.courier.inHand? t.stage.isJudging) :
    Tally script t := by
  obtain rfl := delivered_eq taken
  exact ⟨living, patient, taken, books⟩

theorem stats_of_step? {σ : Type} {r : Receiver σ} {t t' : Traffic σ} {l : Label}
    (hl : l ≠ .courier) (quiet : l ≠ .abort) (h : Traffic.step? r l t = some t') :
    t'.courier.stats = t.courier.stats ∧ t'.courier.aborting = t.courier.aborting := by
  cases l with
  | submit program completion =>
    obtain ⟨-, -, submits⟩ := submits_of_submit h
    cases submits <;> exact ⟨rfl, rfl⟩
  | hold =>
    obtain ⟨e, -, rfl⟩ := Option.map_eq_some_iff.1 h
    exact ⟨rfl, rfl⟩
  | courier => exact absurd rfl hl
  | clone =>
    obtain ⟨-, rfl⟩ := cloned_of_step? h
    exact ⟨rfl, rfl⟩
  | drop =>
    obtain ⟨-, rfl⟩ := dropped_of_step? h
    exact ⟨rfl, rfl⟩
  | abort => exact absurd rfl quiet

theorem Tally.grows (h : Tally script t) (g : Grows t t')
    (stats : t'.courier.stats = t.courier.stats)
    (aborting : t'.courier.aborting = t.courier.aborting) : Tally script t' := by
  have hand : t'.courier.inHand? = t.courier.inHand? := by
    simp only [Courier.inHand?, show t'.courier.stage = _ from g.stage]
  refine .of_books t.delivered (g.stage ▸ h.living) (aborting.trans h.patient) ?_ ?_
  · rw [g.taken, hand]
    exact h.taken
  · rw [g.receiver, stats, hand, g.stage]
    exact h.books

theorem Tally.looking (h : Tally script t) (free : t.courier.inHand? = none) {c : Courier}
    (living : c.stage ≠ .dead) (aborting : c.aborting = t.courier.aborting)
    (stats : c.stats = t.courier.stats) (counted : c.stage.isJudging = false)
    (positive : ∀ e, c.inHand? = some e → 0 < e.sequence) :
    Tally script { t with courier := c, taken := t.taken ++ newlyTaken t.courier c } := by
  refine .of_books t.delivered living (aborting.trans h.patient) (taken_of_free h.taken free c) ?_
  have books := h.books
  have counted' : t.stage.isJudging = false := by
    cases stage : t.courier.stage <;> simp [Courier.inHand?, Stage.isJudging, stage] at free ⊢
  rw [free, counted'] at books
  show Books script t.receiver c.stats t.delivered c.inHand? c.stage.isJudging
  rw [stats, counted]
  cases hand : c.inHand? with
  | none => exact books
  | some e => exact books.take (positive e hand)

theorem Tally.busy (h : Tally script t) {e : Envelope} (busy : t.courier.inHand? = some e)
    (after : Courier) : t.taken ++ newlyTaken t.courier after = t.delivered ++ [e] := by
  rw [newlyTaken_of_inHand busy, List.append_nil, h.taken, busy, Option.toList_some]

theorem Tally.idles (h : Tally script t) (free : t.courier.inHand? = none) {c : Courier}
    (living : c.stage ≠ .dead) (aborting : c.aborting = t.courier.aborting)
    (stats : c.stats = t.courier.stats) (counted : c.stage.isJudging = false)
    (idle : c.inHand? = none) :
    Tally script { t with courier := c, taken := t.taken ++ newlyTaken t.courier c } := by
  refine h.looking free living aborting stats counted fun e mem => ?_
  cases idle.symm.trans mem

theorem Tally.advances (h : Tally script t) (sound : Sound t)
    (moved : Traffic.step? Consignee.receiver .courier t = some t') : Tally script t' := by
  obtain ⟨-, c, s, moves, rfl⟩ := moves_of_step? moved
  cases moves with
  | @fromChannel e rest stage head =>
    have mem : e ∈ t.waiting := by simp [waiting_eq, show t.queue.channel = _ from head]
    refine h.looking ?_ (by simp [Courier.takeUp]) rfl rfl rfl fun f hf => ?_
    · rcases stage with stage | stage <;> simp [Courier.inHand?, stage]
    · cases hf
      exact (sound.numbered e (List.mem_append_right _ mem)).1
  | @fromBacklog e rest stage head =>
    have mem : e ∈ t.waiting := by simp [waiting_eq, show t.queue.backlog = _ from head]
    refine h.looking ?_ (by simp [Courier.takeUp]) rfl rfl rfl fun f hf => ?_
    · rcases stage with stage | stage <;> simp [Courier.inHand?, stage]
    · cases hf
      exact (sound.numbered e (List.mem_append_right _ mem)).1
  | toBacklog stage => exact h.idles (by simp [Courier.inHand?, stage]) (by simp) rfl rfl rfl rfl
  | toWait stage => exact h.idles (by simp [Courier.inHand?, stage]) (by simp) rfl rfl rfl rfl
  | toDrain stage => exact h.idles (by simp [Courier.inHand?, stage]) (by simp) rfl rfl rfl rfl
  | stop stage => exact h.idles (by simp [Courier.inHand?, stage]) (by simp) rfl rfl rfl rfl
  | @attempt e n backoff stage =>
    have busy : t.courier.inHand? = some e := by simp [Courier.inHand?, stage]
    have books := h.books
    rw [busy, show t.stage = _ from stage] at books
    rcases books.attempt with ⟨verdict, books⟩ | ⟨fault, verdict, books⟩
    · rw [show Consignee.receiver.deliver e t.receiver = t.receiver.deliver e from rfl, verdict]
      refine .of_books (t.delivered ++ [e]) (by simp [Traffic.stage, Courier.conclude]) h.patient
        ?_ books
      exact (h.busy busy _).trans (List.append_nil _).symm
    · rw [show Consignee.receiver.deliver e t.receiver = t.receiver.deliver e from rfl, verdict]
      exact .of_books t.delivered (by simp [Traffic.stage, Courier.conclude]) h.patient
        (h.busy busy _) books
  | @judge e n backoff fault stage =>
    have busy : t.courier.inHand? = some e := by simp [Courier.inHand?, stage]
    have books := h.books
    rw [busy, show t.stage = _ from stage] at books
    rw [Courier.judge, if_neg (by rw [h.patient]; exact Bool.false_ne_true)]
    exact .of_books t.delivered (by simp [Traffic.stage]) h.patient (h.busy busy _) books.judge
  | @rest e n backoff stage =>
    have busy : t.courier.inHand? = some e := by simp [Courier.inHand?, stage]
    have books := h.books
    rw [busy, show t.stage = _ from stage] at books
    exact .of_books t.delivered (by simp [Traffic.stage]) h.patient (h.busy busy _) books

theorem Tally.step? {l : Label} (h : Tally script t) (sound : Sound t) (quiet : l ≠ .abort)
    (moved : Traffic.step? Consignee.receiver l t = some t') : Tally script t' := by
  by_cases hl : l = .courier
  · subst hl
    exact h.advances sound moved
  · obtain ⟨stats, aborting⟩ := stats_of_step? hl quiet moved
    exact h.grows (grows_of_step? hl moved) stats aborting

theorem Tally.run {labels : List Label} (quiet : .abort ∉ labels) (h : Tally script t)
    (sound : Sound t) : Tally script (run Consignee.receiver labels t) := by
  induction labels generalizing t with
  | nil => exact h
  | cons l labels ih =>
    rw [List.mem_cons, not_or] at quiet
    rw [run_cons]
    rcases step_cases Consignee.receiver l t with same | moved
    · rw [same]
      exact ih quiet.2 h sound
    · exact ih quiet.2 (h.step? sound (Ne.symm quiet.1) moved) (sound.step? moved)

end Traffic

end ProgramControl
