import Mathlib.Data.List.Induction
import Mathlib.Data.List.Nodup
import ProgramControl.Proofs.Completion.Order

/-!
# Conservation of envelopes

Two stores, a lock that one side hardly takes, and a courier that sleeps at the channel only: an
envelope could be left in the backlog while the courier sleeps, or be forgotten when the last
handle goes.  Neither happens as long as the courier's thread lives.

* `Ledger`                   what submitters were told against what is placed somewhere;
* `Traffic.Conserved`        the invariant: the ledger is right, and the courier sleeps or ends
                             only where nothing is left for it;
* `Traffic.Conserved.step?`  every step keeps it that leaves the courier alive;
* `Traffic.lossless`         no envelope is lost, doubled or left behind.

The courier goes to sleep only after it has seen the backlog empty with nobody at the lock.  From
then on the backlog stays empty as long as the channel is (`awake`): a submission that finds the
channel empty has room there.
-/

namespace ProgramControl

/-! ## The ledger -/

/-- The envelopes that submitters were told of, in order. -/
def accepted (told : List (Except QueueFault Envelope)) : List Envelope :=
  told.filterMap Except.toOption

@[simp] theorem accepted_concat (told : List (Except QueueFault Envelope)) (e : Envelope) :
    accepted (told ++ [.ok e]) = accepted told ++ [e] := by
  rw [accepted, List.filterMap_append]
  rfl

/-- No submission failed, the numbers given out are 1, 2, 3 and so on, the last one perhaps to the
envelope held, and what is placed somewhere is what submitters were told of. -/
structure Ledger (told : List (Except QueueFault Envelope)) (held : Option Envelope)
    (issued : Nat) (placed : List Envelope) : Prop where
  succeeded : told = (accepted told).map .ok
  numbered : (accepted told ++ held.toList).map Envelope.sequence = List.range' 1 issued
  placed : placed.Perm (accepted told)

namespace Ledger

variable {told : List (Except QueueFault Envelope)} {held : Option Envelope} {issued : Nat}
  {placed placed' : List Envelope} {e : Envelope}

theorem perm (h : Ledger told held issued placed) (same : placed'.Perm placed) :
    Ledger told held issued placed' :=
  ⟨h.succeeded, h.numbered, same.trans h.placed⟩

theorem wait (h : Ledger told none issued placed) (next : e.sequence = issued + 1) :
    Ledger told (some e) (issued + 1) placed := by
  have before : (accepted told).map Envelope.sequence = List.range' 1 issued := by
    simpa using h.numbered
  refine ⟨h.succeeded, ?_, h.placed⟩
  rw [Option.toList_some, List.map_append, before, List.map_singleton, next, List.range'_concat,
    Nat.one_mul, Nat.add_comm 1 issued]

theorem store (h : Ledger told (some e) issued placed) (more : placed'.Perm (placed ++ [e])) :
    Ledger (told ++ [.ok e]) none issued placed' := by
  refine ⟨?_, ?_, ?_⟩
  · rw [accepted_concat, List.map_append, ← h.succeeded]
    rfl
  · rw [accepted_concat, Option.toList_none, List.append_nil]
    exact h.numbered
  · rw [accepted_concat]
    exact more.trans (h.placed.append_right [e])

theorem nodup (h : Ledger told held issued placed) : (accepted told).Nodup := by
  have numbers : ((accepted told ++ held.toList).map Envelope.sequence).Nodup := by
    rw [h.numbered]
    exact List.nodup_range' ..
  exact (List.Nodup.of_map _ numbers).sublist (List.sublist_append_left ..)

theorem count_placed (h : Ledger told held issued placed) (e : Envelope) :
    placed.count e = if e ∈ accepted told then 1 else 0 := by
  rw [h.placed.count_eq, h.nodup.count]

end Ledger

namespace Traffic

variable {σ : Type} {r : Receiver σ} {t t' : Traffic σ}

structure Lossless (t : Traffic σ) : Prop where
  /-- no submission failed -/
  succeeded : t.told = (accepted t.told).map .ok
  /-- the numbers given out are 1, 2, 3 and so on, the last one perhaps not yet stored -/
  numbered : (accepted t.told ++ t.held.toList).map Envelope.sequence =
    List.range' 1 t.queue.issued
  /-- what was accepted is in exactly one place, and nothing else is anywhere -/
  once : ∀ e, t.queue.channel.count e + t.queue.backlog.count e + t.taken.count e =
    if e ∈ accepted t.told then 1 else 0
  inOrder : InOrder (t.queue.channel ++ t.queue.backlog)
  awake : t.stage = .waiting → t.queue.channel = [] → t.queue.backlog = [] ∧ t.held = none
  ended : t.stage = .stopped → t.courier.handles = 0 ∧ t.queue.contents = [] ∧
    ∀ e ∈ accepted t.told, t.taken.count e = 1

/-! ## The invariant -/

structure Conserved (t : Traffic σ) : Prop where
  room : 0 < t.queue.depth
  alive : t.stage ≠ .stopped → t.queue.isOpen = true
  ledger : Ledger t.told t.held t.queue.issued (t.taken ++ t.queue.contents)
  awake : t.stage = .waiting → t.queue.channel = [] → t.queue.backlog = [] ∧ t.held = none
  drained : t.stage = .draining → t.queue.backlog = []
  ended : t.stage = .stopped → t.courier.handles = 0 ∧ t.queue.contents = []

theorem conserved_start (policy : RetryPolicy) {depth : Nat} (room : 0 < depth) (s : σ) :
    Conserved (start policy depth s) :=
  ⟨room, fun _ => rfl, ⟨rfl, rfl, .nil⟩, nofun, nofun, nofun⟩

theorem Conserved.not_ending (h : Conserved t) (sound : Sound t)
    (handles : t.courier.handles ≠ 0) : t.stage ≠ .draining ∧ t.stage ≠ .stopped :=
  ⟨fun draining => handles (sound.drained draining).1,
    fun stopped => handles (h.ended stopped).1⟩

theorem Conserved.submit {program : Nat} {completion : Completion} (h : Conserved t)
    (sound : Sound t) (moved : t.submit program completion = some t') : Conserved t' := by
  obtain ⟨unheld, handles, submits⟩ := submits_of_submit moved
  obtain ⟨notDraining, notStopped⟩ := h.not_ending sound handles
  have ledger := h.ledger
  rw [unheld] at ledger
  have given := ledger.wait (e := t.queue.nextEnvelope program completion) rfl
  cases submits with
  | sent empty =>
    refine ⟨h.room, h.alive, ?_, fun _ none => ?_, fun draining => absurd draining notDraining,
      fun stopped => absurd stopped notStopped⟩
    · show Ledger _ t.held _ _
      rw [unheld]
      refine given.store ?_
      simp [Queue.contents, withQueue, empty]
    · have none : t.queue.channel ++ [_] = [] := none
      cases (List.append_eq_nil_iff.1 none).2
  | full noRoom =>
    refine ⟨h.room, h.alive, given, fun waiting none => ?_,
      fun draining => absurd draining notDraining, fun stopped => absurd stopped notStopped⟩
    have none : t.queue.channel = [] := none
    rcases noRoom with stored | full
    · exact absurd (h.awake waiting none).1 stored
    · rw [none] at full
      exact absurd full (Nat.not_le_of_lt h.room)
  | closed gone =>
    have opened := h.alive notStopped
    cases gone.symm.trans opened

theorem Conserved.hold (h : Conserved t) (sound : Sound t) (moved : t.hold = some t') :
    Conserved t' := by
  obtain ⟨e, held, rfl⟩ := Option.map_eq_some_iff.1 moved
  have handles : t.courier.handles ≠ 0 :=
    Nat.ne_of_gt (sound.locked (by rw [isLocked, held]; rfl))
  obtain ⟨notDraining, notStopped⟩ := h.not_ending sound handles
  have ledger := h.ledger
  rw [held] at ledger
  refine ⟨h.room, h.alive, ledger.store ?_, fun waiting none => ?_,
    fun draining => absurd draining notDraining, fun stopped => absurd stopped notStopped⟩
  · simp [Queue.contents, Queue.hold, withQueue]
  · have unheld := (h.awake waiting none).2
    cases unheld.symm.trans held

theorem Conserved.withHandles {handles : Nat} (h : Conserved t)
    (none : t.courier.handles = 0 → handles = 0) : Conserved (t.withHandles handles) :=
  ⟨h.room, h.alive, h.ledger, h.awake, h.drained,
    fun stopped => ⟨none (h.ended stopped).1, (h.ended stopped).2⟩⟩

theorem told_of_step? (moved : step? r .courier t = some t') :
    t'.told = t.told ∧ t'.queue.depth = t.queue.depth := by
  obtain ⟨a, -, -⟩ := advances_of_step? moved
  obtain ⟨-, c, s, -, rfl⟩ := moves_of_step? moved
  refine ⟨rfl, ?_⟩
  cases a with
  | fromChannel _ _ queue => rw [queue]
  | fromBacklog _ _ _ queue => rw [queue]
  | idles _ queue =>
    rcases queue with queue | ⟨queue, -⟩ <;> rw [queue]
    rfl

theorem Conserved.takes {e : Envelope} (h : Conserved t)
    (moved : Traffic.step? r .courier t = some t') (opened : t'.queue.isOpen = t.queue.isOpen)
    (leaves : (e :: t'.queue.contents).Perm t.queue.contents) (taken : t'.taken = t.taken ++ [e])
    (busy : t'.courier.inHand? = some e) : Conserved t' := by
  obtain ⟨a, held, -⟩ := advances_of_step? moved
  obtain ⟨told, depth⟩ := told_of_step? moved
  refine ⟨depth ▸ h.room, fun _ => ?_, ?_,
    fun waiting => absurd waiting (stage_ne_of_inHand busy rfl),
    fun draining => absurd draining (stage_ne_of_inHand busy rfl),
    fun stopped => absurd stopped (stage_ne_of_inHand busy rfl)⟩
  · exact opened.trans (h.alive (not_gone_of_step? moved).1)
  · rw [told, held, a.issued, taken, List.append_assoc]
    exact h.ledger.perm (leaves.append_left t.taken)

theorem Conserved.advances (h : Conserved t) (sound : Sound t)
    (moved : Traffic.step? r .courier t = some t') (alive : t'.stage ≠ .dead) : Conserved t' := by
  obtain ⟨a, held, handles⟩ := advances_of_step? moved
  obtain ⟨told, depth⟩ := told_of_step? moved
  have issued := a.issued
  cases a with
  | fromChannel stage head queue busy taken =>
    refine h.takes moved (by rw [queue]) ?_ taken busy
    simp [Queue.contents, queue, head]
  | @fromBacklog e rest stage unheld head queue busy taken =>
    refine h.takes moved (by rw [queue]) ?_ taken busy
    rw [Queue.contents, Queue.contents, queue, head]
    exact List.perm_middle.symm
  | idles taken queue poll check sleep drain stop busy =>
    -- the channel is empty where the courier stops, so closing the queue loses nothing
    have ending : t'.stage = .stopped → t.courier.handles = 0 ∧ t.queue.contents = [] := by
      intro stopped
      have draining := stop stopped
      obtain ⟨none, channel⟩ := sound.drained draining
      exact ⟨none, by rw [Queue.contents, channel, h.drained draining]; rfl⟩
    rcases queue with queue | ⟨queue, dead | ⟨stopped, -⟩⟩
    · refine ⟨depth ▸ h.room, fun _ => ?_, ?_, fun waiting _ => ?_, fun draining => ?_, ?_⟩
      · rw [queue]
        exact h.alive (not_gone_of_step? moved).1
      · rw [told, held, taken, queue]
        exact h.ledger
      · rw [queue, held]
        exact (sleep waiting).symm
      · obtain ⟨waiting, -, channel⟩ := drain draining
        rw [queue]
        exact (h.awake waiting channel).1
      · rw [handles, queue]
        exact ending
    · exact absurd dead alive
    · obtain ⟨none, empty⟩ := ending stopped
      have closed : t'.queue.contents = [] := by
        rw [queue]
        exact (List.append_eq_nil_iff.1 empty).2
      refine ⟨depth ▸ h.room, fun running => absurd stopped running, ?_, fun waiting => ?_,
        fun draining => ?_, fun _ => ⟨handles.trans none, closed⟩⟩
      · rw [told, held, issued, taken, closed, ← empty]
        exact h.ledger
      · cases stopped.symm.trans waiting
      · cases stopped.symm.trans draining

/-- Every step that leaves the courier alive keeps the invariant. -/
theorem Conserved.step? {l : Label} (h : Conserved t) (sound : Sound t)
    (moved : Traffic.step? r l t = some t') (alive : t'.stage ≠ .dead) : Conserved t' := by
  cases l with
  | submit program completion => exact h.submit sound moved
  | hold => exact h.hold sound moved
  | courier => exact h.advances sound moved alive
  | clone =>
    obtain ⟨some, rfl⟩ := cloned_of_step? moved
    exact h.withHandles fun none => absurd none some
  | drop =>
    obtain ⟨-, rfl⟩ := dropped_of_step? moved
    exact h.withHandles fun none => by rw [none]
  | abort =>
    cases moved
    exact ⟨h.room, h.alive, h.ledger, h.awake, h.drained, h.ended⟩

theorem dead_step (r : Receiver σ) (l : Label) (dead : t.stage = .dead) :
    (step r l t).stage = .dead := by
  rcases step_cases r l t with same | moved
  · rw [same]
    exact dead
  · by_cases hl : l = .courier
    · subst hl
      exact absurd dead (not_gone_of_step? moved).2
    · exact (grows_of_step? hl moved).stage.trans dead

/-- A run that leaves the courier alive left it alive all the time, so it keeps the invariant. -/
theorem Conserved.run (labels : List Label) (h : Conserved t) (sound : Sound t)
    (alive : (run r labels t).stage ≠ .dead) : Conserved (run r labels t) := by
  induction labels using List.reverseRecOn with
  | nil => exact h
  | append_singleton labels l ih =>
    rw [run_concat] at alive ⊢
    have before := ih fun dead => alive (dead_step r l dead)
    rcases step_cases r l (Traffic.run r labels t) with same | moved
    · rw [same]
      exact before
    · exact before.step? (sound.run labels) moved alive

/-! ## What it says -/

theorem Conserved.isLossless (h : Conserved t) (sound : Sound t) : Lossless t := by
  have once : ∀ e, t.queue.channel.count e + t.queue.backlog.count e + t.taken.count e =
      if e ∈ accepted t.told then 1 else 0 := by
    intro e
    have count := h.ledger.count_placed e
    rw [Queue.contents, List.count_append, List.count_append] at count
    rw [← count, Nat.add_comm]
  refine ⟨h.ledger.succeeded, h.ledger.numbered, once, ?_, h.awake, fun stopped => ?_⟩
  · exact sound.inOrder.sublist (List.sublist_append_left ..)
  · obtain ⟨none, empty⟩ := h.ended stopped
    refine ⟨none, empty, fun e he => ?_⟩
    obtain ⟨channel, backlog⟩ := List.append_eq_nil_iff.1 empty
    have count := once e
    rw [channel, backlog, if_pos he] at count
    simpa using count

/-- **No envelope is lost, doubled or left behind**, whatever the submitters, the holders of handles
and the courier do and in whatever order, as long as the courier is not dead. -/
theorem lossless (r : Receiver σ) (policy : RetryPolicy) {depth : Nat} (room : 0 < depth) (s : σ)
    (labels : List Label) (alive : (run r labels (start policy depth s)).stage ≠ .dead) :
    Lossless (run r labels (start policy depth s)) :=
  ((conserved_start policy room s).run labels (sound_start policy depth s) alive).isLossless
    ((sound_start policy depth s).run labels)

/-- Two submissions between the courier's two looks, the second of them into the backlog; then the
only handle is dropped, and the courier ends with both envelopes taken up. -/
theorem lossless_overtaken :
    let labels : List Label := [.courier, .submit 1 ⟨false⟩, .submit 2 ⟨true⟩, .hold, .courier,
      .courier, .courier, .courier, .drop, .courier, .courier, .courier, .courier]
    let t := run JobPosition.receiver labels (start ⟨1, 0⟩ 1 {})
    t.stage = .stopped ∧ t.taken.length = 2 ∧ Lossless t := by
  intro labels t
  have room : 0 < 1 := by decide
  have stopped : t.stage = .stopped := by decide
  have alive : t.stage ≠ .dead := by
    rw [stopped]
    decide
  exact ⟨stopped, by decide, lossless JobPosition.receiver ⟨1, 0⟩ room {} labels alive⟩

end Traffic

end ProgramControl
