import ProgramControl.Completion.Traffic

/-!
# The order of delivery

The courier looks into the channel first and into the backlog after it, because whatever is in the
backlog was submitted later than what is in the channel.  But the two looks are two steps.  When
the channel fills up between them, and the backlog gets an envelope too, the courier takes the
newer envelope first: it overtakes (`Traffic.Overtakes`).

* `Courier.Moves`            the steps of the courier's thread, one by one;
* `Traffic.Sound`            what every state of the traffic keeps to;
* `kept_or_overtakes`        a run has kept the order, or there was a first overtaking;
* `Ahead.run`                what happens after it;
* `taken_inOrder_iff`        envelopes are taken up in order iff no overtaking was followed by
                             another taking, and then, and only then, a job position that receives
                             them counts no duplicate.
-/

namespace ProgramControl

/-! ## The steps of the courier's thread -/

namespace Courier

variable {σ : Type} {r : Receiver σ} {c c' : Courier} {s s' : σ}

/-- What one step of the courier's thread does. -/
inductive Moves (r : Receiver σ) (c : Courier) (s : σ) : Courier → σ → Prop where
  | fromChannel {e rest} (stage : c.stage = .polling ∨ c.stage = .waiting)
      (head : c.queue.channel = e :: rest) :
      Moves r c s (c.takeUp (e, { c.queue with channel := rest })) s
  | fromBacklog {e rest} (stage : c.stage = .checking ∨ c.stage = .draining)
      (head : c.queue.backlog = e :: rest) :
      Moves r c s (c.takeUp (e, { c.queue with backlog := rest })) s
  | toBacklog (stage : c.stage = .polling) (empty : c.queue.channel = []) :
      Moves r c s { c with stage := .checking } s
  | toWait (stage : c.stage = .checking) (empty : c.queue.backlog = []) :
      Moves r c s { c with stage := .waiting } s
  | toDrain (stage : c.stage = .waiting) (empty : c.queue.channel = []) (alone : c.handles = 0) :
      Moves r c s { c with stage := .draining } s
  | stop (stage : c.stage = .draining) (empty : c.queue.backlog = []) :
      Moves r c s { c with stage := .stopped, queue := c.queue.close } s
  | attempt {e n backoff} (stage : c.stage = .attempting e n backoff) (ready : r.ready s = true) :
      Moves r c s (c.conclude e n backoff (r.deliver e s).1) (r.deliver e s).2
  | judge {e n backoff fault} (stage : c.stage = .judging e n backoff fault) :
      Moves r c s (c.judge e n backoff fault) s
  | rest {e n backoff} (stage : c.stage = .resting e n backoff) :
      Moves r c s
        { c with stage := .attempting e (nextAttempt n) (RetryPolicy.nextBackoff backoff) } s

theorem moves_of_step (h : c.step r s = some (c', s')) : Moves r c s c' s' := by
  cases hs : c.stage with
  | polling =>
    cases hq : c.queue.channel with
    | nil =>
      simp only [step, hs, Queue.takeChannel, hq, Option.some.injEq, Prod.mk.injEq] at h
      obtain ⟨rfl, rfl⟩ := h
      exact .toBacklog hs hq
    | cons e rest =>
      simp only [step, hs, Queue.takeChannel, hq, Option.some.injEq, Prod.mk.injEq] at h
      obtain ⟨rfl, rfl⟩ := h
      exact .fromChannel (.inl hs) hq
  | checking =>
    cases hq : c.queue.backlog with
    | nil =>
      simp only [step, hs, Queue.takeBacklog, hq, Option.some.injEq, Prod.mk.injEq] at h
      obtain ⟨rfl, rfl⟩ := h
      exact .toWait hs hq
    | cons e rest =>
      simp only [step, hs, Queue.takeBacklog, hq, Option.some.injEq, Prod.mk.injEq] at h
      obtain ⟨rfl, rfl⟩ := h
      exact .fromBacklog (.inl hs) hq
  | waiting =>
    cases hq : c.queue.channel with
    | nil =>
      simp only [step, hs, Queue.takeChannel, hq] at h
      split at h
      · next alone =>
        cases h
        exact .toDrain hs hq alone
      · cases h
    | cons e rest =>
      simp only [step, hs, Queue.takeChannel, hq, Option.some.injEq, Prod.mk.injEq] at h
      obtain ⟨rfl, rfl⟩ := h
      exact .fromChannel (.inr hs) hq
  | draining =>
    cases hq : c.queue.backlog with
    | nil =>
      simp only [step, hs, Queue.takeBacklog, hq, Option.some.injEq, Prod.mk.injEq] at h
      obtain ⟨rfl, rfl⟩ := h
      exact .stop hs hq
    | cons e rest =>
      simp only [step, hs, Queue.takeBacklog, hq, Option.some.injEq, Prod.mk.injEq] at h
      obtain ⟨rfl, rfl⟩ := h
      exact .fromBacklog (.inr hs) hq
  | attempting e n backoff =>
    simp only [step, hs] at h
    split at h
    · next ready =>
      cases h
      exact .attempt hs ready
    · cases h
  | judging e n backoff fault =>
    simp only [step, hs, Option.some.injEq, Prod.mk.injEq] at h
    obtain ⟨rfl, rfl⟩ := h
    exact .judge hs
  | resting e n backoff =>
    simp only [step, hs, Option.some.injEq, Prod.mk.injEq] at h
    obtain ⟨rfl, rfl⟩ := h
    exact .rest hs
  | stopped => simp [step, hs] at h
  | dead => simp [step, hs] at h

theorem Moves.handles_eq (moves : Moves r c s c' s') : c'.handles = c.handles := by
  cases moves with
  | attempt => cases (r.deliver _ s).1 <;> rfl
  | judge =>
    rw [Courier.judge]
    split <;> rfl
  | _ => rfl

end Courier

/-- Sequence numbers rise along the list. -/
def InOrder (es : List Envelope) : Prop := es.Pairwise fun a b => a.sequence < b.sequence

instance (es : List Envelope) : Decidable (InOrder es) :=
  inferInstanceAs (Decidable (List.Pairwise _ _))

theorem InOrder.sublist {es fs : List Envelope} (h : InOrder fs) (hs : es.Sublist fs) :
    InOrder es :=
  List.Pairwise.sublist hs h

theorem inOrder_append_singleton {es : List Envelope} {e : Envelope} :
    InOrder (es ++ [e]) ↔ InOrder es ∧ ∀ a ∈ es, a.sequence < e.sequence := by
  simp [InOrder, List.pairwise_append]

namespace Traffic

variable {σ : Type} {r : Receiver σ} {t t' : Traffic σ}

abbrev stage (t : Traffic σ) : Stage := t.courier.stage

abbrev queue (t : Traffic σ) : Queue := t.courier.queue

theorem waiting_eq (t : Traffic σ) :
    t.waiting = t.queue.channel ++ t.queue.backlog ++ t.held.toList := rfl

/-! ## What a step changes -/

/-- What submitters and holders of handles do to the traffic. -/
structure Grows (t t' : Traffic σ) : Prop where
  stage : t'.stage = t.stage
  taken : t'.taken = t.taken
  receiver : t'.receiver = t.receiver
  channel : t.queue.channel <+: t'.queue.channel
  waiting : t'.queue.issued = t.queue.issued ∧ t'.waiting = t.waiting ∨
    t'.queue.issued = t.queue.issued + 1 ∧
      (t'.waiting = t.waiting ∨
        ∃ e, t'.waiting = t.waiting ++ [e] ∧ e.sequence = t.queue.issued + 1)
  alone : t.courier.handles = 0 → ¬ t.isLocked → t'.courier.handles = 0 ∧
    t'.queue.channel = t.queue.channel
  locked : (t.isLocked → 0 < t.courier.handles) → t'.isLocked → 0 < t'.courier.handles

theorem grows_of_offer {queue : Queue} {held : Option Envelope}
    {told : List (Except QueueFault Envelope)} (handles : t.courier.handles ≠ 0)
    (channel : t.queue.channel <+: queue.channel) (issued : queue.issued = t.queue.issued + 1)
    (waits : queue.contents ++ held.toList = t.waiting ∨
      ∃ e, queue.contents ++ held.toList = t.waiting ++ [e] ∧ e.sequence = t.queue.issued + 1) :
    Grows t { t.withQueue queue with held, told } where
  stage := rfl
  taken := rfl
  receiver := rfl
  channel := channel
  waiting := .inr ⟨issued, waits⟩
  alone none _ := absurd none handles
  locked _ _ := Nat.pos_of_ne_zero handles

/-- What a submission of this envelope does once it has the lock. -/
inductive Submits (t : Traffic σ) (e : Envelope) : Traffic σ → Prop where
  | sent (empty : t.queue.backlog = []) (alive : t.queue.isOpen = true)
      (room : t.queue.channel.length < t.queue.depth) :
      Submits t e
        { t.withQueue { t.queue with
            issued := t.queue.issued + 1, channel := t.queue.channel ++ [e] } with
          told := t.told ++ [.ok e] }
  | full (noRoom : t.queue.backlog ≠ [] ∨ t.queue.depth ≤ t.queue.channel.length) :
      Submits t e
        { t.withQueue { t.queue with issued := t.queue.issued + 1 } with held := some e }
  | closed (gone : t.queue.isOpen = false) :
      Submits t e
        { t.withQueue { t.queue with issued := t.queue.issued + 1 } with
          told := t.told ++ [.error .closed] }

theorem submits_of_submit {program : Nat} {completion : Completion}
    (h : t.submit program completion = some t') :
    t.held = none ∧ t.courier.handles ≠ 0 ∧
      Submits t (t.queue.nextEnvelope program completion) t' := by
  unfold submit at h
  split at h
  · cases h
  next free =>
  simp only [Bool.or_eq_true, beq_iff_eq, not_or, isLocked, Bool.not_eq_true,
    Option.isSome_eq_false_iff, Option.isNone_iff_eq_none] at free
  refine ⟨free.1, free.2, ?_⟩
  unfold Queue.offer at h
  by_cases empty : t.courier.queue.backlog = []
  · rw [if_pos (List.isEmpty_iff.2 empty)] at h
    by_cases alive : t.courier.queue.isOpen = true
    · rw [if_pos alive] at h
      by_cases room : t.courier.queue.channel.length < t.courier.queue.depth
      · rw [if_pos room] at h
        cases h
        exact .sent empty alive room
      · rw [if_neg room] at h
        cases h
        exact .full (.inr (Nat.le_of_not_lt room))
    · rw [if_neg alive] at h
      cases h
      exact .closed (Bool.eq_false_iff.2 alive)
  · rw [if_neg (mt List.isEmpty_iff.1 empty)] at h
    cases h
    exact .full (.inl empty)

theorem grows_submit {program : Nat} {completion : Completion}
    (h : t.submit program completion = some t') : Grows t t' := by
  obtain ⟨unheld, handles, submits⟩ := submits_of_submit h
  cases submits with
  | sent empty =>
    refine grows_of_offer handles (List.prefix_append ..) rfl
      (.inr ⟨t.queue.nextEnvelope program completion, ?_, rfl⟩)
    simp [Traffic.waiting, Queue.contents, withQueue, empty, unheld]
  | full =>
    refine grows_of_offer handles List.prefix_rfl rfl
      (.inr ⟨t.queue.nextEnvelope program completion, ?_, rfl⟩)
    simp [Traffic.waiting, Queue.contents, unheld]
  | closed =>
    refine grows_of_offer handles List.prefix_rfl rfl (.inl ?_)
    simp [Traffic.waiting, Queue.contents, withQueue]

theorem grows_hold (h : t.hold = some t') : Grows t t' := by
  obtain ⟨e, held, rfl⟩ := Option.map_eq_some_iff.1 h
  refine ⟨rfl, rfl, rfl, List.prefix_rfl, .inl ⟨rfl, ?_⟩, fun _ free => absurd ?_ free,
    fun _ locked => by cases locked⟩
  · simp [Traffic.waiting, Queue.contents, Queue.hold, withQueue, held]
  · simp [isLocked, held]

theorem cloned_of_step? (h : step? r .clone t = some t') :
    t.courier.handles ≠ 0 ∧ t' = t.withHandles (t.courier.handles + 1) := by
  simp only [step?] at h
  split at h
  · cases h
  · next some => exact ⟨some, (Option.some.inj h).symm⟩

theorem dropped_of_step? (h : step? r .drop t = some t') :
    t.inUse < t.courier.handles ∧ t' = t.withHandles (t.courier.handles - 1) := by
  simp only [step?] at h
  split at h
  · cases h
  · next spare => exact ⟨Nat.lt_of_not_le spare, (Option.some.inj h).symm⟩

/-- All steps but the courier's only add to what is waiting. -/
theorem grows_of_step? {l : Label} (hl : l ≠ .courier) (h : step? r l t = some t') :
    Grows t t' := by
  cases l with
  | submit program completion => exact grows_submit h
  | hold => exact grows_hold h
  | courier => exact absurd rfl hl
  | clone =>
    obtain ⟨handles, rfl⟩ := cloned_of_step? h
    exact ⟨rfl, rfl, rfl, List.prefix_rfl, .inl ⟨rfl, rfl⟩, fun h => absurd h handles,
      fun _ _ => Nat.succ_pos _⟩
  | drop =>
    obtain ⟨spare, rfl⟩ := dropped_of_step? h
    refine ⟨rfl, rfl, rfl, List.prefix_rfl, .inl ⟨rfl, rfl⟩, fun none _ => ?_, fun _ locked => ?_⟩
    · rw [none] at spare
      exact absurd spare (Nat.not_lt_zero _)
    · obtain ⟨e, held⟩ := Option.isSome_iff_exists.1 (show t.held.isSome = true from locked)
      rw [inUse, held] at spare
      exact Nat.sub_pos_of_lt spare
  | abort =>
    cases h
    exact ⟨rfl, rfl, rfl, List.prefix_rfl, .inl ⟨rfl, rfl⟩, fun h _ => ⟨h, rfl⟩, fun h => h⟩

@[simp] theorem newlyTaken_takeUp {c : Courier} (free : c.inHand? = none)
    (taken : Envelope × Queue) : newlyTaken c (c.takeUp taken) = [taken.1] := by
  rw [newlyTaken, free]
  rfl

theorem newlyTaken_of_inHand {c : Courier} {e : Envelope} (busy : c.inHand? = some e)
    (after : Courier) : newlyTaken c after = [] := by
  simp [newlyTaken, busy]

theorem stage_ne_of_inHand {c : Courier} {e : Envelope} {stage : Stage}
    (busy : c.inHand? = some e) (free : { c with stage }.inHand? = none) : c.stage ≠ stage := by
  rintro rfl
  cases busy.symm.trans free

/-- What the courier does to the traffic: it takes up an envelope from either end, or takes up
nothing. -/
inductive Advances (t t' : Traffic σ) : Prop where
  | fromChannel {e rest} (stage : t.stage = .polling ∨ t.stage = .waiting)
      (head : t.queue.channel = e :: rest) (queue : t'.queue = { t.queue with channel := rest })
      (inHand : t'.courier.inHand? = some e) (taken : t'.taken = t.taken ++ [e])
  | fromBacklog {e rest} (stage : t.stage = .checking ∨ t.stage = .draining)
      (unheld : t.held = none) (head : t.queue.backlog = e :: rest)
      (queue : t'.queue = { t.queue with backlog := rest })
      (inHand : t'.courier.inHand? = some e) (taken : t'.taken = t.taken ++ [e])
  | idles (taken : t'.taken = t.taken)
      (queue : t'.queue = t.queue ∨ t'.queue = t.queue.close ∧ (t'.stage = .dead ∨
        t'.stage = .stopped ∧ t.stage = .draining))
      (poll : t.stage = .polling → t.queue.channel = [])
      (check : t.stage = .checking → t.queue.backlog = [])
      (sleep : t'.stage = .waiting → t.held = none ∧ t.queue.backlog = [])
      (drain : t'.stage = .draining →
        t.stage = .waiting ∧ t.courier.handles = 0 ∧ t.queue.channel = [])
      (stop : t'.stage = .stopped → t.stage = .draining)
      (busy : t'.courier.inHand? = t.courier.inHand? ∨
        t.courier.inHand?.isSome ∧ (t'.stage = .polling ∨ t'.stage = .dead))

theorem idles_of_inHand {e : Envelope} (busy : t.courier.inHand? = some e)
    (taken : t'.taken = t.taken ++ newlyTaken t.courier t'.courier)
    (queue : t'.queue = t.queue ∨ t'.queue = t.queue.close ∧ t'.stage = .dead)
    (next : t'.courier.inHand? = some e ∨ t'.stage = .polling ∨ t'.stage = .dead) :
    Advances t t' := by
  have goesOn : t'.stage ≠ .waiting ∧ t'.stage ≠ .draining ∧ t'.stage ≠ .stopped := by
    rcases next with next | next | next
    · exact ⟨stage_ne_of_inHand next rfl, stage_ne_of_inHand next rfl, stage_ne_of_inHand next rfl⟩
    · simp [next]
    · simp [next]
  refine .idles (by rw [taken, newlyTaken_of_inHand busy, List.append_nil]) ?_ ?_ ?_
    (fun stage => absurd stage goesOn.1) (fun stage => absurd stage goesOn.2.1)
    (fun stage => absurd stage goesOn.2.2) ?_
  · exact queue.imp id fun ⟨closed, dead⟩ => ⟨closed, .inl dead⟩
  · exact fun stage => absurd stage (stage_ne_of_inHand busy rfl)
  · exact fun stage => absurd stage (stage_ne_of_inHand busy rfl)
  · rcases next with next | next
    · exact .inl (next.trans busy.symm)
    · exact .inr ⟨by rw [busy]; rfl, next⟩

/-- A step of the courier changes what the courier, its receiver and the record of what it took up
hold, and nobody has the lock if it needs it. -/
theorem moves_of_step? (h : step? r .courier t = some t') :
    (needsLock t.stage = true → t.held = none) ∧ ∃ c s, Courier.Moves r t.courier t.receiver c s ∧
      t' = { t with courier := c, receiver := s, taken := t.taken ++ newlyTaken t.courier c } := by
  simp only [step?, moveCourier] at h
  split at h
  · cases h
  next allowed =>
  obtain ⟨⟨c, s⟩, moved, rfl⟩ := Option.map_eq_some_iff.1 h
  refine ⟨fun needed => ?_, c, s, Courier.moves_of_step moved, rfl⟩
  rw [show needsLock t.courier.stage = true from needed, Bool.true_and] at allowed
  exact Option.isNone_iff_eq_none.1 (by simpa [isLocked] using allowed)

theorem not_gone_of_step? (h : step? r .courier t = some t') :
    t.stage ≠ .stopped ∧ t.stage ≠ .dead := by
  constructor <;> exact fun gone => by
    simp [step?, moveCourier, Courier.step, show t.courier.stage = _ from gone] at h

theorem advances_of_step? (h : step? r .courier t = some t') :
    Advances t t' ∧ t'.held = t.held ∧ t'.courier.handles = t.courier.handles := by
  obtain ⟨allowed, c, s, moved, rfl⟩ := moves_of_step? h
  cases moved with
  | @fromChannel e rest stage head =>
    have free : t.courier.inHand? = none := by
      rcases stage with stage | stage <;> simp [Courier.inHand?, stage]
    exact ⟨.fromChannel stage head rfl rfl (by simp [free]), rfl, rfl⟩
  | @fromBacklog e rest stage head =>
    have free : t.courier.inHand? = none := by
      rcases stage with stage | stage <;> simp [Courier.inHand?, stage]
    have unheld : t.held = none := by
      refine allowed ?_
      rcases stage with stage | stage <;> rw [show t.stage = _ from stage] <;> rfl
    exact ⟨.fromBacklog stage unheld head rfl rfl (by simp [free]), rfl, rfl⟩
  | toBacklog stage empty =>
    have free : t.courier.inHand? = none := by simp [Courier.inHand?, stage]
    refine ⟨.idles (by simp [newlyTaken, Courier.inHand?]) (.inl rfl) (fun _ => empty) ?_ nofun
      nofun nofun (.inl free.symm), rfl, rfl⟩
    exact fun checking => by cases stage.symm.trans checking
  | toWait stage empty =>
    have free : t.courier.inHand? = none := by simp [Courier.inHand?, stage]
    have unheld : t.held = none := allowed (by rw [show t.stage = _ from stage]; rfl)
    refine ⟨.idles (by simp [newlyTaken, Courier.inHand?]) (.inl rfl) ?_ (fun _ => empty)
      (fun _ => ⟨unheld, empty⟩) nofun nofun (.inl free.symm), rfl, rfl⟩
    exact fun polling => by cases stage.symm.trans polling
  | toDrain stage empty alone =>
    have free : t.courier.inHand? = none := by simp [Courier.inHand?, stage]
    refine ⟨.idles (by simp [newlyTaken, Courier.inHand?]) (.inl rfl) (fun _ => empty) ?_ nofun
      (fun _ => ⟨stage, alone, empty⟩) nofun (.inl free.symm), rfl, rfl⟩
    exact fun checking => by cases stage.symm.trans checking
  | stop stage empty =>
    have free : t.courier.inHand? = none := by simp [Courier.inHand?, stage]
    refine ⟨.idles (by simp [newlyTaken, Courier.inHand?]) (.inr ⟨rfl, .inr ⟨rfl, stage⟩⟩) ?_ ?_
      nofun nofun (fun _ => stage) (.inl free.symm), rfl, rfl⟩
    · exact fun polling => by cases stage.symm.trans polling
    · exact fun checking => by cases stage.symm.trans checking
  | @attempt e n backoff stage ready =>
    have busy : t.courier.inHand? = some e := by simp [Courier.inHand?, stage]
    cases hv : (r.deliver e t.receiver).1 with
    | accepted => exact ⟨idles_of_inHand busy rfl (.inl rfl) (.inr (.inl rfl)), rfl, rfl⟩
    | failed fault => exact ⟨idles_of_inHand busy rfl (.inl rfl) (.inl rfl), rfl, rfl⟩
    | crashed =>
      exact ⟨idles_of_inHand busy rfl (.inr ⟨rfl, rfl⟩) (.inr (.inr rfl)), rfl, rfl⟩
  | @judge e n backoff fault stage =>
    have busy : t.courier.inHand? = some e := by simp [Courier.inHand?, stage]
    by_cases aborting : t.courier.aborting = true
    · rw [Courier.judge, if_pos aborting]
      exact ⟨idles_of_inHand busy rfl (.inl rfl) (.inr (.inl rfl)), rfl, rfl⟩
    · rw [Courier.judge, if_neg aborting]
      exact ⟨idles_of_inHand busy rfl (.inl rfl) (.inl rfl), rfl, rfl⟩
  | @rest e n backoff stage =>
    have busy : t.courier.inHand? = some e := by simp [Courier.inHand?, stage]
    exact ⟨idles_of_inHand busy rfl (.inl rfl) (.inl rfl), rfl, rfl⟩

/-! ## What every state keeps to -/

/-- Numbers are given out in order, and those who wait are sorted by them. -/
structure Sound (t : Traffic σ) : Prop where
  inOrder : InOrder t.waiting
  numbered : ∀ e ∈ t.taken ++ t.waiting, 0 < e.sequence ∧ e.sequence ≤ t.queue.issued
  drained : t.stage = .draining → t.courier.handles = 0 ∧ t.queue.channel = []
  locked : t.isLocked → 0 < t.courier.handles

theorem sound_start (policy : RetryPolicy) (depth : Nat) (s : σ) :
    Sound (start policy depth s) :=
  ⟨.nil, nofun, nofun, nofun⟩

theorem Sound.grows (h : Sound t) (g : Grows t t') : Sound t' := by
  have old : ∀ e ∈ t.taken ++ t.waiting, 0 < e.sequence ∧ e.sequence ≤ t'.queue.issued := by
    intro e he
    obtain ⟨pos, le⟩ := h.numbered e he
    rcases g.waiting with ⟨issued, -⟩ | ⟨issued, -⟩ <;> omega
  have drained : t'.stage = .draining → t'.courier.handles = 0 ∧ t'.queue.channel = [] := by
    intro draining
    obtain ⟨none, empty⟩ := h.drained (g.stage ▸ draining)
    have free : ¬ t.isLocked := fun locked => Nat.ne_of_gt (h.locked locked) none
    obtain ⟨none', same⟩ := g.alone none free
    exact ⟨none', same.trans empty⟩
  rcases g.waiting with ⟨-, same⟩ | ⟨-, same | ⟨e, more, fresh⟩⟩
  · exact ⟨same ▸ h.inOrder, by rw [g.taken, same]; exact old, drained, g.locked h.locked⟩
  · exact ⟨same ▸ h.inOrder, by rw [g.taken, same]; exact old, drained, g.locked h.locked⟩
  · refine ⟨?_, ?_, drained, g.locked h.locked⟩
    · rw [more, inOrder_append_singleton]
      refine ⟨h.inOrder, fun a ha => ?_⟩
      have := (h.numbered a (List.mem_append_right _ ha)).2
      omega
    · rw [g.taken, more, ← List.append_assoc]
      intro a ha
      rcases List.mem_append.1 ha with ha | ha
      · exact old a ha
      · obtain rfl := List.mem_singleton.1 ha
        rcases g.waiting with ⟨-, same⟩ | ⟨issued, -⟩
        · have := congrArg List.length (same.symm.trans more)
          simp at this
        · omega

theorem Advances.waiting_sublist (a : Advances t t') (held : t'.held = t.held) :
    t'.waiting.Sublist t.waiting := by
  rw [waiting_eq, waiting_eq, held]
  refine List.Sublist.append ?_ (List.Sublist.refl _)
  cases a with
  | fromChannel _ head queue =>
    rw [queue, head]
    exact List.sublist_cons_self ..
  | fromBacklog _ _ head queue =>
    rw [queue, head]
    exact List.Sublist.append (List.Sublist.refl _) (List.sublist_cons_self ..)
  | idles _ queue =>
    rcases queue with queue | ⟨queue, -⟩
    · exact queue ▸ List.Sublist.refl _
    · rw [queue]
      exact List.sublist_append_right ..

theorem Advances.mem (a : Advances t t') (held : t'.held = t.held) {e : Envelope}
    (he : e ∈ t'.taken ++ t'.waiting) : e ∈ t.taken ++ t.waiting := by
  rcases List.mem_append.1 he with he | he
  · have split : t'.taken = t.taken ∨ ∃ f ∈ t.waiting, t'.taken = t.taken ++ [f] := by
      cases a with
      | fromChannel _ head _ _ taken =>
        exact .inr ⟨_, by simp [waiting_eq, head], taken⟩
      | fromBacklog _ _ head _ _ taken =>
        exact .inr ⟨_, by simp [waiting_eq, head], taken⟩
      | idles taken => exact .inl taken
    rcases split with same | ⟨f, hf, more⟩
    · exact List.mem_append_left _ (same ▸ he)
    · rw [more] at he
      rcases List.mem_append.1 he with he | he
      · exact List.mem_append_left _ he
      · obtain rfl := List.mem_singleton.1 he
        exact List.mem_append_right _ hf
  · exact List.mem_append_right _ ((a.waiting_sublist held).subset he)

theorem Advances.issued (a : Advances t t') : t'.queue.issued = t.queue.issued := by
  cases a with
  | fromChannel _ _ queue => rw [queue]
  | fromBacklog _ _ _ queue => rw [queue]
  | idles _ queue =>
    rcases queue with queue | ⟨queue, -⟩ <;> rw [queue]
    rfl

theorem Sound.advances (h : Sound t) (a : Advances t t') (held : t'.held = t.held)
    (handles : t'.courier.handles = t.courier.handles) : Sound t' := by
  refine ⟨h.inOrder.sublist (a.waiting_sublist held), fun e he => ?_, fun draining => ?_, ?_⟩
  · rw [a.issued]
    exact h.numbered e (a.mem held he)
  · have free : t'.courier.inHand? = none := by
      simp [Courier.inHand?, show t'.courier.stage = _ from draining]
    cases a with
    | fromChannel _ _ _ inHand => cases free.symm.trans inHand
    | fromBacklog _ _ _ _ inHand => cases free.symm.trans inHand
    | idles _ queue _ _ _ drain =>
      obtain ⟨-, none, empty⟩ := drain draining
      refine ⟨handles.trans none, ?_⟩
      rcases queue with queue | ⟨queue, -⟩
      · rw [queue, empty]
      · rw [queue]
        rfl
  · simp only [isLocked, held, handles]
    exact h.locked

theorem Sound.step? {l : Label} (h : Sound t) (moved : step? r l t = some t') : Sound t' := by
  by_cases hl : l = .courier
  · subst hl
    obtain ⟨a, held, handles⟩ := advances_of_step? moved
    exact h.advances a held handles
  · exact h.grows (grows_of_step? hl moved)

/-! ## Keeping the order, and losing it -/

/-- What was taken up and what is to come are in order. -/
def Kept (t : Traffic σ) : Prop := InOrder (t.taken ++ t.waiting)

/-- The courier is about to take an envelope from the backlog while older ones wait in the
channel. -/
def Overtakes (t : Traffic σ) : Prop :=
  t.stage = .checking ∧ t.held = none ∧ t.queue.channel ≠ [] ∧ t.queue.backlog ≠ []

/-- The courier has overtaken and has taken up nothing since: unless it broke down, an older
envelope is the next one. -/
structure Ahead (t : Traffic σ) : Prop where
  inOrder : InOrder t.taken
  behind : t.stage = .dead ∨ (t.stage = .polling ∨ t.courier.inHand?.isSome) ∧
    ∃ e rest last, t.queue.channel = e :: rest ∧ t.taken.getLast? = some last ∧
      e.sequence < last.sequence

theorem kept_start (policy : RetryPolicy) (depth : Nat) (s : σ) : Kept (start policy depth s) :=
  .nil

theorem Kept.grows (h : Kept t) (sound : Sound t) (g : Grows t t') : Kept t' := by
  unfold Kept
  rw [g.taken]
  rcases g.waiting with ⟨-, same⟩ | ⟨-, same | ⟨e, more, fresh⟩⟩
  · exact same ▸ h
  · exact same ▸ h
  · rw [more, ← List.append_assoc, inOrder_append_singleton]
    refine ⟨h, fun a ha => ?_⟩
    have := (sound.numbered a ha).2
    omega

theorem Kept.advances (h : Kept t) (sound : Sound t) (a : Advances t t')
    (held : t'.held = t.held) (behaves : ¬ Overtakes t) : Kept t' := by
  cases a with
  | @fromChannel e rest _ head queue _ taken =>
    have same : t'.taken ++ t'.waiting = t.taken ++ t.waiting := by
      simp [waiting_eq, held, taken, queue, head]
    exact (congrArg InOrder same).mpr h
  | @fromBacklog e rest stage unheld head queue _ taken =>
    have empty : t.queue.channel = [] := by
      rcases stage with checking | draining
      · refine Decidable.byContradiction fun full => behaves ⟨checking, unheld, full, ?_⟩
        rw [head]
        exact List.cons_ne_nil _ _
      · exact (sound.drained draining).2
    have same : t'.taken ++ t'.waiting = t.taken ++ t.waiting := by
      simp [waiting_eq, held, taken, queue, empty, head]
    exact (congrArg InOrder same).mpr h
  | idles taken queue poll check sleep drain stop busy =>
    refine InOrder.sublist h ?_
    rw [taken]
    exact List.Sublist.append (List.Sublist.refl _)
      (Advances.waiting_sublist (.idles taken queue poll check sleep drain stop busy) held)

theorem Kept.overtakes (h : Kept t) (o : Overtakes t) (moved : step? r .courier t = some t') :
    Ahead t' := by
  obtain ⟨checking, unheld, full, stored⟩ := o
  obtain ⟨a, held, -⟩ := advances_of_step? moved
  cases a with
  | fromChannel stage => rcases stage with stage | stage <;> cases checking.symm.trans stage
  | @fromBacklog e rest _ _ head queue inHand taken =>
    obtain ⟨c, channel, hc⟩ := List.exists_cons_of_ne_nil full
    have sorted : InOrder (t.taken ++ (c :: channel ++ e :: rest)) := by
      refine InOrder.sublist h ?_
      simp [waiting_eq, unheld, hc, head]
    refine ⟨?_, .inr ⟨.inr (by rw [inHand]; rfl), c, channel, e, ?_, ?_, ?_⟩⟩
    · rw [taken]
      exact sorted.sublist (List.Sublist.append (List.Sublist.refl _)
        (List.singleton_sublist.2 (by simp)))
    · rw [queue]
      exact hc
    · rw [taken]
      exact List.getLast?_concat ..
    · exact (List.pairwise_append.1 (List.pairwise_append.1 sorted).2.1).2.2 c
        (List.mem_cons_self ..) e (List.mem_cons_self ..)
  | idles _ _ _ check => exact absurd (check checking) stored

theorem Ahead.grows (h : Ahead t) (g : Grows t t') : Ahead t' := by
  refine ⟨g.taken ▸ h.inOrder, ?_⟩
  rw [g.stage]
  rcases h.behind with dead | ⟨stage, e, rest, last, channel, taken, lt⟩
  · exact .inl dead
  · obtain ⟨more, hmore⟩ := g.channel
    refine .inr ⟨?_, e, rest ++ more, last, ?_, g.taken ▸ taken, lt⟩
    · simpa only [Courier.inHand?, show t'.courier.stage = _ from g.stage] using stage
    · rw [← hmore, channel, List.cons_append]

theorem Ahead.advances (h : Ahead t) (alive : t.stage ≠ .dead) (a : Advances t t') :
    Ahead t' ∧ t'.taken = t.taken ∨
      ¬ InOrder t'.taken ∧ t.taken.length < t'.taken.length := by
  obtain ⟨stage, e, rest, last, channel, last?, lt⟩ := h.behind.resolve_left alive
  cases a with
  | @fromChannel f rest' _ head _ _ taken =>
    obtain ⟨rfl, rfl⟩ := List.cons.inj (channel.symm.trans head)
    refine .inr ⟨fun sorted => ?_, by simp [taken]⟩
    rw [taken, inOrder_append_singleton] at sorted
    exact Nat.lt_asymm lt (sorted.2 last (List.mem_of_getLast? last?))
  | fromBacklog looking =>
    rcases stage with polling | busy
    · rcases looking with looking | looking <;> cases polling.symm.trans looking
    · obtain ⟨f, hf⟩ := Option.isSome_iff_exists.1 busy
      rcases looking with looking | looking <;>
        simp [Courier.inHand?, show t.courier.stage = _ from looking] at hf
  | idles taken queue poll _ _ _ _ next =>
    refine .inl ⟨⟨taken ▸ h.inOrder, ?_⟩, taken⟩
    rcases queue with queue | ⟨-, dead | ⟨-, draining⟩⟩
    · rcases stage with polling | busy
      · cases channel.symm.trans (poll polling)
      · have place : t'.stage = .dead ∨ t'.stage = .polling ∨ t'.courier.inHand?.isSome := by
          rcases next with next | ⟨-, polling | dead⟩
          · exact .inr (.inr (next ▸ busy))
          · exact .inr (.inl polling)
          · exact .inl dead
        rcases place with dead | place
        · exact .inl dead
        · exact .inr ⟨place, e, rest, last, queue ▸ channel, taken ▸ last?, lt⟩
    · exact .inl dead
    · rcases stage with polling | busy
      · cases polling.symm.trans draining
      · simp [Courier.inHand?, show t.courier.stage = _ from draining] at busy

theorem taken_prefix_step? {l : Label} (moved : step? r l t = some t') :
    t.taken <+: t'.taken := by
  by_cases hl : l = .courier
  · subst hl
    cases (advances_of_step? moved).1 with
    | fromChannel _ _ _ _ taken => exact ⟨_, taken.symm⟩
    | fromBacklog _ _ _ _ _ taken => exact ⟨_, taken.symm⟩
    | idles taken => exact taken ▸ List.prefix_rfl
  · exact (grows_of_step? hl moved).taken ▸ List.prefix_rfl

/-! ## Runs -/

theorem step_cases (r : Receiver σ) (l : Label) (t : Traffic σ) :
    step r l t = t ∨ step? r l t = some (step r l t) := by
  unfold step
  cases step? r l t with
  | none => exact .inl rfl
  | some t' => exact .inr rfl

theorem run_append (r : Receiver σ) (a b : List Label) (t : Traffic σ) :
    run r (a ++ b) t = run r b (run r a t) := List.foldl_append ..

theorem run_cons (r : Receiver σ) (l : Label) (labels : List Label) (t : Traffic σ) :
    run r (l :: labels) t = run r labels (step r l t) := rfl

theorem run_concat (r : Receiver σ) (labels : List Label) (l : Label) (t : Traffic σ) :
    run r (labels ++ [l]) t = step r l (run r labels t) := by
  rw [run_append]
  rfl

theorem Sound.run (labels : List Label) (h : Sound t) : Sound (run r labels t) := by
  induction labels generalizing t with
  | nil => exact h
  | cons l labels ih =>
    rw [run_cons]
    refine ih ?_
    rcases step_cases r l t with same | moved
    · rw [same]
      exact h
    · exact h.step? moved

theorem taken_prefix_run (labels : List Label) (t : Traffic σ) :
    t.taken <+: (run r labels t).taken := by
  induction labels generalizing t with
  | nil => exact List.prefix_rfl
  | cons l labels ih =>
    refine List.IsPrefix.trans ?_ (ih (step r l t))
    rcases step_cases r l t with same | moved
    · exact congrArg taken same ▸ List.prefix_rfl
    · exact taken_prefix_step? moved

theorem Overtakes.step? (o : Overtakes t) : ∃ t', step? r .courier t = some t' := by
  obtain ⟨checking, unheld, -, stored⟩ := o
  obtain ⟨e, rest, backlog⟩ := List.exists_cons_of_ne_nil stored
  simp [Traffic.step?, moveCourier, isLocked, unheld, Courier.step, Queue.takeBacklog,
    show t.courier.stage = _ from checking, show t.courier.queue.backlog = _ from backlog]

/-- A run has kept the order, or there was a first overtaking. -/
theorem kept_or_overtakes (sound : Sound t) (kept : Kept t) (labels : List Label) :
    Kept (run r labels t) ∨ ∃ before after, labels = before ++ .courier :: after ∧
      Overtakes (run r before t) ∧ Ahead (run r (before ++ [.courier]) t) := by
  induction labels generalizing t with
  | nil => exact .inl kept
  | cons l labels ih =>
    by_cases passed : l = .courier ∧ Overtakes t
    · obtain ⟨rfl, passed⟩ := passed
      refine .inr ⟨[], labels, rfl, passed, ?_⟩
      obtain ⟨t', moved⟩ := passed.step? (r := r)
      rw [run_concat, step, show step? r .courier (run r [] t) = _ from moved]
      exact kept.overtakes passed moved
    · have next : Sound (step r l t) ∧ Kept (step r l t) := by
        rcases step_cases r l t with same | moved
        · rw [same]
          exact ⟨sound, kept⟩
        · refine ⟨sound.step? moved, ?_⟩
          by_cases hl : l = .courier
          · subst hl
            obtain ⟨a, held, -⟩ := advances_of_step? moved
            exact kept.advances sound a held fun o => passed ⟨rfl, o⟩
          · exact kept.grows sound (grows_of_step? hl moved)
      rw [run_cons]
      refine (ih next.1 next.2).imp id ?_
      rintro ⟨before, after, rfl, passed, ahead⟩
      exact ⟨l :: before, after, rfl, passed, ahead⟩

/-- What is out of order stays so. -/
theorem inOrder_of_run (labels : List Label) (h : InOrder (run r labels t).taken) :
    InOrder t.taken :=
  h.sublist (taken_prefix_run labels t).sublist

/-- After an overtaking nothing more is taken up, or the order is lost. -/
theorem Ahead.run (h : Ahead t) (labels : List Label) :
    Ahead (run r labels t) ∧ (run r labels t).taken = t.taken ∨
      ¬ InOrder (run r labels t).taken ∧ t.taken.length < (run r labels t).taken.length := by
  induction labels generalizing t with
  | nil => exact .inl ⟨h, rfl⟩
  | cons l labels ih =>
    rw [run_cons]
    have next : Ahead (step r l t) ∧ (step r l t).taken = t.taken ∨
        ¬ InOrder (step r l t).taken ∧ t.taken.length < (step r l t).taken.length := by
      rcases step_cases r l t with same | moved
      · rw [same]
        exact .inl ⟨h, rfl⟩
      · by_cases hl : l = .courier
        · subst hl
          exact h.advances (not_gone_of_step? moved).2 (advances_of_step? moved).1
        · have g := grows_of_step? hl moved
          exact .inl ⟨h.grows g, g.taken⟩
    rcases next with ⟨still, same⟩ | ⟨broken, lt⟩
    · rw [← same]
      exact ih still
    · exact .inr ⟨fun sorted => broken (inOrder_of_run labels sorted),
        Nat.lt_of_lt_of_le lt (taken_prefix_run labels _).length_le⟩

theorem Ahead.not_overtakes (h : Ahead t) : ¬ Overtakes t := by
  rintro ⟨checking, -⟩
  rcases h.behind with dead | ⟨polling | busy, -⟩
  · cases checking.symm.trans dead
  · cases checking.symm.trans polling
  · simp [Courier.inHand?, show t.courier.stage = _ from checking] at busy

/-- The order is kept iff no overtaking is followed by another taking. -/
theorem inOrder_taken_iff (sound : Sound t) (kept : Kept t) (labels : List Label) :
    InOrder (run r labels t).taken ↔
      ∀ before after, labels = before ++ .courier :: after → Overtakes (run r before t) →
        (run r (before ++ [.courier]) t).taken = (run r labels t).taken := by
  constructor
  · rintro sorted before after rfl passed
    rcases kept_or_overtakes (r := r) sound kept before with keptThen | ⟨b, a, rfl, -, ahead⟩
    · obtain ⟨t', moved⟩ := passed.step? (r := r)
      have ahead : Ahead (run r (before ++ [.courier]) t) := by
        rw [run_concat, step, moved]
        exact keptThen.overtakes passed moved
      have := ahead.run (r := r) after
      rw [← run_append, List.append_assoc, List.singleton_append] at this
      rcases this with ⟨-, same⟩ | ⟨broken, -⟩
      · exact same.symm
      · exact absurd sorted broken
    · have := ahead.run (r := r) a
      rw [← run_append, List.append_assoc, List.singleton_append] at this
      rcases this with ⟨ahead, -⟩ | ⟨broken, -⟩
      · exact absurd passed ahead.not_overtakes
      · rw [run_append] at sorted
        exact absurd (inOrder_of_run _ sorted) broken
  · intro quiet
    rcases kept_or_overtakes (r := r) sound kept labels with kept | ⟨b, a, rfl, passed, ahead⟩
    · exact kept.sublist (List.sublist_append_left ..)
    · have := ahead.run (r := r) a
      rw [← run_append, List.append_assoc, List.singleton_append] at this
      rcases this with ⟨ahead, -⟩ | ⟨-, lt⟩
      · exact ahead.inOrder
      · rw [quiet b a rfl passed] at lt
        exact absurd lt (Nat.lt_irrefl _)

/-! ## A job position at the other end -/

/-- The envelopes taken up and no longer in hand. -/
def delivered (t : Traffic σ) : List Envelope :=
  t.taken.take (t.taken.length - t.courier.inHand?.toList.length)

theorem delivered_eq {es : List Envelope} (taken : t.taken = es ++ t.courier.inHand?.toList) :
    t.delivered = es := by
  simp [delivered, taken]

theorem taken_of_free (taken : t.taken = t.delivered ++ t.courier.inHand?.toList)
    (free : t.courier.inHand? = none) (after : Courier) :
    t.taken ++ newlyTaken t.courier after = t.delivered ++ after.inHand?.toList := by
  rw [free, Option.toList_none, List.append_nil] at taken
  rw [← taken, newlyTaken, free]
  rfl

end Traffic

namespace JobPosition

/-- Envelopes applied one after the other. -/
def applyAll (es : List Envelope) (j : JobPosition) : JobPosition :=
  es.foldl (fun j e => (j.apply e).2) j

theorem applyAll_cons (e : Envelope) (es : List Envelope) (j : JobPosition) :
    applyAll (e :: es) j = applyAll es (j.apply e).2 := rfl

theorem applyAll_concat (es : List Envelope) (e : Envelope) (j : JobPosition) :
    applyAll (es ++ [e]) j = ((applyAll es j).apply e).2 := by
  simp [applyAll]

theorem counts_apply (e : Envelope) (j : JobPosition) :
    (j.apply e).2.completions + (j.apply e).2.duplicates = j.completions + j.duplicates + 1 ∧
      (j.apply e).2.duplicates = j.duplicates + if e.sequence ≤ j.lastSequence then 1 else 0 := by
  unfold apply
  split
  · exact ⟨rfl, rfl⟩
  · split <;> exact ⟨Nat.add_right_comm .., rfl⟩

theorem counts_applyAll (es : List Envelope) (j : JobPosition) :
    (applyAll es j).completions + (applyAll es j).duplicates =
      j.completions + j.duplicates + es.length := by
  induction es generalizing j with
  | nil => rfl
  | cons e es ih =>
    rw [applyAll_cons, ih, (counts_apply e j).1, List.length_cons]
    omega

theorem duplicates_le_applyAll (es : List Envelope) (j : JobPosition) :
    j.duplicates ≤ (applyAll es j).duplicates := by
  induction es generalizing j with
  | nil => exact Nat.le_refl _
  | cons e es ih =>
    have first := (counts_apply e j).2
    have rest := ih (j.apply e).2
    rw [applyAll_cons]
    omega

/-- No envelope is a duplicate iff all numbers rise, from above the last one applied before. -/
theorem duplicates_applyAll_eq_iff (es : List Envelope) (j : JobPosition) :
    (applyAll es j).duplicates = j.duplicates ↔
      InOrder es ∧ ∀ e ∈ es, j.lastSequence < e.sequence := by
  induction es generalizing j with
  | nil => exact iff_of_true rfl ⟨.nil, nofun⟩
  | cons e es ih =>
    have first := (counts_apply e j).2
    have rest := duplicates_le_applyAll es (j.apply e).2
    have last := lastSequence_apply e j
    rw [applyAll_cons]
    by_cases h : e.sequence ≤ j.lastSequence
    · rw [if_pos h] at first
      refine iff_of_false (by omega) fun ⟨_, above⟩ => ?_
      exact Nat.not_lt_of_le h (above e (List.mem_cons_self ..))
    · rw [if_neg h, Nat.add_zero] at first
      rw [Nat.max_eq_right (Nat.le_of_not_le h)] at last
      have cons : InOrder (e :: es) ↔ _ := List.pairwise_cons
      rw [← first, ih, last, List.forall_mem_cons, cons]
      constructor
      · rintro ⟨sorted, above⟩
        refine ⟨⟨above, sorted⟩, Nat.lt_of_not_le h, fun a ha => ?_⟩
        have := above a ha
        omega
      · rintro ⟨⟨above, sorted⟩, -⟩
        exact ⟨sorted, above⟩

end JobPosition

namespace Traffic

variable {σ : Type} {t t' : Traffic JobPosition}

/-- A job position has applied what was delivered, in that order. -/
structure Applied (t : Traffic JobPosition) : Prop where
  receiver : t.receiver = JobPosition.applyAll t.delivered {}
  taken : t.taken = t.delivered ++ t.courier.inHand?.toList
  attempts : ∀ e, t.courier.inHand? = some e → ∃ n backoff, t.stage = .attempting e n backoff

theorem Applied.of_taken (es : List Envelope) (receiver : t.receiver = JobPosition.applyAll es {})
    (taken : t.taken = es ++ t.courier.inHand?.toList)
    (attempts : ∀ e, t.courier.inHand? = some e → ∃ n backoff, t.stage = .attempting e n backoff) :
    Applied t := by
  have same := delivered_eq taken
  exact ⟨same ▸ receiver, same ▸ taken, attempts⟩

theorem Applied.grows (h : Applied t) (g : Grows t t') : Applied t' := by
  have hand : t'.courier.inHand? = t.courier.inHand? := by
    simp only [Courier.inHand?, show t'.courier.stage = _ from g.stage]
  refine .of_taken t.delivered (g.receiver.trans h.receiver) ?_ fun e he => ?_
  · rw [g.taken, hand]
    exact h.taken
  · rw [g.stage]
    exact h.attempts e (hand ▸ he)

theorem Applied.looking (h : Applied t) (free : t.courier.inHand? = none) {c : Courier}
    (attempts : ∀ e, c.inHand? = some e → ∃ n backoff, c.stage = .attempting e n backoff) :
    Applied { t with courier := c, taken := t.taken ++ newlyTaken t.courier c } :=
  .of_taken t.delivered h.receiver (taken_of_free h.taken free c) attempts

theorem Applied.step? {l : Label} (h : Applied t)
    (moved : step? JobPosition.receiver l t = some t') : Applied t' := by
  rcases Decidable.em (l = .courier) with rfl | hl
  case inr => exact h.grows (grows_of_step? hl moved)
  obtain ⟨-, c, s, stepped, rfl⟩ := moves_of_step? moved
  cases stepped with
  | fromChannel stage head =>
    refine h.looking ?_ fun e he => by cases he; exact ⟨_, _, rfl⟩
    rcases stage with stage | stage <;> simp [Courier.inHand?, stage]
  | fromBacklog stage head =>
    refine h.looking ?_ fun e he => by cases he; exact ⟨_, _, rfl⟩
    rcases stage with stage | stage <;> simp [Courier.inHand?, stage]
  | toBacklog stage => exact h.looking (by simp [Courier.inHand?, stage]) nofun
  | toWait stage => exact h.looking (by simp [Courier.inHand?, stage]) nofun
  | toDrain stage => exact h.looking (by simp [Courier.inHand?, stage]) nofun
  | stop stage => exact h.looking (by simp [Courier.inHand?, stage]) nofun
  | @attempt e n backoff stage ready =>
    have busy : t.courier.inHand? = some e := by simp [Courier.inHand?, stage]
    have taken := h.taken
    rw [busy, Option.toList_some] at taken
    refine .of_taken (t.delivered ++ [e]) ?_ ?_ nofun
    · show (t.receiver.apply e).2 = _
      rw [JobPosition.applyAll_concat, h.receiver]
    · show t.taken ++ newlyTaken t.courier _ = _
      rw [newlyTaken_of_inHand busy, taken]
      rfl
  | @judge e n backoff fault stage =>
    obtain ⟨m, b, attempting⟩ := h.attempts e (by simp [Courier.inHand?, stage])
    cases stage.symm.trans attempting
  | @rest e n backoff stage =>
    obtain ⟨m, b, attempting⟩ := h.attempts e (by simp [Courier.inHand?, stage])
    cases stage.symm.trans attempting

theorem Applied.run (labels : List Label) (h : Applied t) :
    Applied (run JobPosition.receiver labels t) := by
  induction labels generalizing t with
  | nil => exact h
  | cons l labels ih =>
    rw [run_cons]
    refine ih ?_
    rcases step_cases JobPosition.receiver l t with same | moved
    · rw [same]
      exact h
    · exact h.step? moved

theorem Applied.duplicates_eq_zero_iff (h : Applied t) (sound : Sound t) :
    t.receiver.duplicates = 0 ∧ t.receiver.completions = t.delivered.length ↔
      InOrder t.delivered := by
  have counts := JobPosition.counts_applyAll t.delivered {}
  have duplicates := JobPosition.duplicates_applyAll_eq_iff t.delivered {}
  rw [← h.receiver] at counts duplicates
  have positive : ∀ e ∈ t.delivered, 0 < e.sequence := by
    intro e he
    refine (sound.numbered e (List.mem_append_left _ ?_)).1
    rw [h.taken]
    exact List.mem_append_left _ he
  constructor
  · exact fun ⟨unique, _⟩ => (duplicates.1 unique).1
  · intro sorted
    have unique : t.receiver.duplicates = 0 := duplicates.2 ⟨sorted, positive⟩
    exact ⟨unique, by simpa [unique] using counts⟩

/-- **Envelopes are taken up in order iff no overtaking was followed by another taking**, whatever
receives them; and a job position that receives them counts each as a completion, and none as a
duplicate, iff those delivered to it were in order. -/
theorem taken_inOrder_iff (r : Receiver σ) (policy : RetryPolicy) (depth : Nat) (s : σ)
    (labels : List Label) :
    (InOrder (run r labels (start policy depth s)).taken ↔
      ∀ before after, labels = before ++ .courier :: after →
        Overtakes (run r before (start policy depth s)) →
        (run r (before ++ [.courier]) (start policy depth s)).taken =
          (run r labels (start policy depth s)).taken) ∧
    ((run JobPosition.receiver labels (start policy depth {})).receiver.duplicates = 0 ∧
      (run JobPosition.receiver labels (start policy depth {})).receiver.completions =
        (run JobPosition.receiver labels (start policy depth {})).delivered.length ↔
      InOrder (run JobPosition.receiver labels (start policy depth {})).delivered) := by
  refine ⟨inOrder_taken_iff (sound_start ..) (kept_start ..) labels, ?_⟩
  refine Applied.duplicates_eq_zero_iff ?_ ((sound_start policy depth _).run labels)
  exact .run labels (.of_taken [] rfl rfl nofun)

/-- With room for one envelope, two submissions between the courier's two looks are enough: the
second completion is delivered before the first, which is then dropped as a duplicate. -/
theorem overtaking_drops_a_completion :
    let labels : List Label := [.courier, .submit 1 ⟨false⟩, .submit 2 ⟨false⟩, .hold, .courier,
      .courier, .courier, .courier]
    let t := run JobPosition.receiver labels (start ⟨1, 0⟩ 1 {})
    ¬ InOrder t.taken ∧ t.delivered = t.taken ∧ t.taken.length = 2 ∧
      t.receiver.completions = 1 ∧ t.receiver.duplicates = 1 := by
  decide

end Traffic

end ProgramControl
