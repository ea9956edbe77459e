import ProgramControl.Proofs.Completion.Conservation
import ProgramControl.Proofs.Completion.Redelivery

/-!
# Draining the queue

When the last handle is gone, the courier delivers what is left and stops.  It can always move,
and every move brings it nearer to its end: an envelope that is taken up costs a few steps and one
failure three more (`Courier.toGo`), whatever receives the envelopes, as long as it fails only so
often (`Receiver.Tires`).  The budget of `Courier.settle` is therefore enough
(`Traffic.stopped_of_enough`).
-/

namespace ProgramControl

open Rehearsal

/-- The steps that a courier with nothing left to take up makes from here, if no attempt fails. -/
def Stage.cost : Stage → Nat
  | .stopped | .dead => 0
  | .draining => 1
  | .waiting => 2
  | .checking => 3
  | .polling => 4
  | .attempting .. => 5
  | .resting .. => 6
  | .judging .. => 7

theorem Stage.cost_le (stage : Stage) : stage.cost ≤ 7 := by
  cases stage <;> simp [cost]

theorem Queue.length_close_le (q : Queue) : q.close.contents.length ≤ q.contents.length := by
  rw [contents, contents, List.length_append, List.length_append]
  exact Nat.add_le_add_right (Nat.zero_le _) _

/-- The receiver fails only so often: `left` bounds the failures to come. -/
structure Receiver.Tires {σ : Type} (r : Receiver σ) (left : σ → Nat) : Prop where
  le (e : Envelope) (s : σ) : left (r.deliver e s).2 ≤ left s
  lt {e : Envelope} {s : σ} {fault : DeliveryFault} (failed : (r.deliver e s).1 = .failed fault) :
    left (r.deliver e s).2 < left s

theorem Rehearsal.Consignee.script_deliver (e : Envelope) (c : Consignee) :
    (c.deliver e).2.script = c.script.tail ∧ (c.script = [] → (c.deliver e).1 = .accepted) := by
  unfold deliver
  cases c.script with
  | nil => exact ⟨rfl, fun _ => rfl⟩
  | cons cue script => exact ⟨rfl, nofun⟩

theorem Rehearsal.Consignee.tires : Consignee.receiver.Tires (·.script.length) where
  le e c := by
    show (c.deliver e).2.script.length ≤ c.script.length
    rw [(c.script_deliver e).1, List.length_tail]
    exact Nat.sub_le ..
  lt {e c fault} failed := by
    obtain ⟨used, accepts⟩ := c.script_deliver e
    have left : 0 < c.script.length := by
      refine List.length_pos_of_ne_nil fun none => ?_
      cases (show (c.deliver e).1 = .failed fault from failed).symm.trans (accepts none)
    show (c.deliver e).2.script.length < c.script.length
    rw [used, List.length_tail]
    exact Nat.sub_lt left Nat.one_pos

namespace Courier

variable {c c' : Courier}

/-- Nobody can submit any more, so the courier never waits for the channel. -/
theorem exists_step {σ : Type} {r : Receiver σ} {c : Courier} {s : σ}
    (alone : c.handles = 0) (ready : r.ready s = true)
    (running : c.stage ≠ .stopped ∧ c.stage ≠ .dead) : ∃ next, c.step r s = some next := by
  unfold step
  cases stage : c.stage with
  | polling => cases c.queue.takeChannel <;> exact ⟨_, rfl⟩
  | checking => cases c.queue.takeBacklog <;> exact ⟨_, rfl⟩
  | waiting =>
    cases c.queue.takeChannel with
    | none => exact ⟨_, if_pos alone⟩
    | some taken => exact ⟨_, rfl⟩
  | draining => cases c.queue.takeBacklog <;> exact ⟨_, rfl⟩
  | attempting => exact ⟨_, if_pos ready⟩
  | judging => exact ⟨_, rfl⟩
  | resting => exact ⟨_, rfl⟩
  | stopped => exact absurd stage running.1
  | dead => exact absurd stage running.2

/-- A bound on the steps that the courier has still to make, when so many failures are left and
each envelope costs so many steps. -/
def toGo (each failures : Nat) (c : Courier) : Nat :=
  each * c.queue.contents.length + 3 * failures + c.stage.cost

theorem toGo_le_enough (failures : Nat) (c : Courier) : c.toGo 4 failures ≤ c.enough failures := by
  have cost := c.stage.cost_le
  unfold toGo enough
  omega

section
variable {σ : Type} {r : Receiver σ} {left : σ → Nat} {s s' : σ} {each : Nat}

theorem toGo_conclude_lt (tires : r.Tires left) {e : Envelope} {n backoff : Nat}
    (stage : c.stage = .attempting e n backoff) :
    (c.conclude e n backoff (r.deliver e s).1).toGo each (left (r.deliver e s).2) <
      c.toGo each (left s) := by
  have le := tires.le e s
  rw [toGo, toGo, stage]
  cases verdict : (r.deliver e s).1 with
  | accepted =>
    show each * c.queue.contents.length + 3 * left (r.deliver e s).2 + 4 < _ + 5
    omega
  | failed fault =>
    -- a failure is worth three steps, and there is one less of them to come
    have lt := tires.lt verdict
    show each * c.queue.contents.length + 3 * left (r.deliver e s).2 + 7 < _ + 5
    omega
  | crashed =>
    have closed := Nat.mul_le_mul_left each c.queue.length_close_le
    show each * c.queue.close.contents.length + 3 * left (r.deliver e s).2 + 0 < _ + 5
    omega

/-- Four steps for each envelope are enough, and five if some may be left in the backlog when the
courier looks there for the last time. -/
theorem Moves.toGo_lt (moves : Moves r c s c' s') (tires : r.Tires left) (four : 4 ≤ each)
    (drained : c.stage = .draining → c.queue.backlog = [] ∨ 5 ≤ each) :
    c'.toGo each (left s') < c.toGo each (left s) := by
  cases moves with
  | @fromChannel e rest stage head =>
    have cost : 2 ≤ c.stage.cost := by
      rcases stage with stage | stage <;> rw [stage] <;> decide
    have fewer : c.queue.contents.length = (rest ++ c.queue.backlog).length + 1 := by
      rw [Queue.contents, head]
      rfl
    show each * (rest ++ c.queue.backlog).length + 3 * left s + 5 < _
    rw [toGo, fewer, Nat.mul_succ]
    omega
  | @fromBacklog e rest stage head =>
    have cost : 6 ≤ each + c.stage.cost := by
      rcases stage with stage | stage
      · rw [stage]
        exact Nat.add_le_add (Nat.le_of_succ_le four) (Nat.le_refl 3)
      · rcases drained stage with none | five
        · cases none.symm.trans head
        · rw [stage]
          exact Nat.add_le_add five (Nat.le_refl 1)
    have fewer : c.queue.contents.length = (c.queue.channel ++ rest).length + 1 := by
      rw [Queue.contents, head, List.length_append, List.length_append, List.length_cons,
        Nat.add_assoc]
    show each * (c.queue.channel ++ rest).length + 3 * left s + 5 < _
    rw [toGo, fewer, Nat.mul_succ]
    omega
  | toBacklog stage =>
    rw [toGo, toGo, stage]
    exact Nat.add_lt_add_left (show 3 < 4 by decide) _
  | toWait stage =>
    rw [toGo, toGo, stage]
    exact Nat.add_lt_add_left (show 2 < 3 by decide) _
  | toDrain stage =>
    rw [toGo, toGo, stage]
    exact Nat.add_lt_add_left (show 1 < 2 by decide) _
  | stop stage =>
    have closed := Nat.mul_le_mul_left each c.queue.length_close_le
    show each * c.queue.close.contents.length + 3 * left s + 0 < _
    rw [toGo, stage]
    have : Stage.draining.cost = 1 := rfl
    omega
  | attempt stage => exact toGo_conclude_lt tires stage
  | @judge e n backoff fault stage =>
    rw [Courier.judge]
    split
    · rw [toGo, toGo, stage]
      exact Nat.add_lt_add_left (show 4 < 7 by decide) _
    · rw [toGo, toGo, stage]
      exact Nat.add_lt_add_left (show 6 < 7 by decide) _
  | @rest e n backoff stage =>
    rw [toGo, toGo, stage]
    exact Nat.add_lt_add_left (show 5 < 6 by decide) _

end

end Courier

namespace Traffic

section
variable {σ : Type} {r : Receiver σ} {t : Traffic σ}

theorem moves_of_alone {left : σ → Nat} (tires : r.Tires left) {each : Nat} (four : 4 ≤ each)
    (drained : t.stage = .draining → t.queue.backlog = [] ∨ 5 ≤ each) (sound : Sound t)
    (ready : r.ready t.receiver = true) (alone : t.courier.handles = 0)
    (running : t.stage ≠ .stopped ∧ t.stage ≠ .dead) :
    ∃ t', step? r .courier t = some t' ∧
      t'.courier.toGo each (left t'.receiver) < t.courier.toGo each (left t.receiver) := by
  have unlocked : t.isLocked = false := by
    cases held : t.isLocked with
    | false => rfl
    | true => exact absurd alone (Nat.ne_of_gt (sound.locked held))
  obtain ⟨⟨c, s⟩, stepped⟩ := Courier.exists_step alone ready running
  refine ⟨{ t with courier := c, receiver := s, taken := t.taken ++ newlyTaken t.courier c }, ?_,
    (Courier.moves_of_step stepped).toGo_lt tires four drained⟩
  rw [step?, moveCourier, unlocked, Bool.and_false, if_neg Bool.false_ne_true, stepped]
  rfl

theorem run_stopped (labels : List Label) (stopped : t.stage = .stopped) :
    (run r labels t).stage = .stopped := by
  induction labels generalizing t with
  | nil => exact stopped
  | cons l labels ih =>
    rw [run_cons]
    refine ih ?_
    rcases step_cases r l t with same | moved
    · rw [same]
      exact stopped
    · by_cases hl : l = .courier
      · subst hl
        exact absurd stopped (not_gone_of_step? moved).1
      · exact (grows_of_step? hl moved).stage.trans stopped

/-- The courier stops after so many steps of its own as a rank says that falls with each of them,
whatever else happens that does not raise it. -/
theorem stopped_of_count (inv : Traffic σ → Prop) (rank : Traffic σ → Nat) {labels : List Label}
    (keeps : ∀ l ∈ labels, ∀ t t', inv t → step? r l t = some t' → inv t' ∧ rank t' ≤ rank t)
    (moves : ∀ t, inv t → t.stage ≠ .stopped →
      ∃ t', step? r .courier t = some t' ∧ rank t' < rank t)
    (start : inv t) (bound : rank t ≤ labels.count .courier) :
    (run r labels t).stage = .stopped := by
  induction labels generalizing t with
  | nil =>
    by_cases stopped : t.stage = .stopped
    · exact stopped
    · obtain ⟨t', -, less⟩ := moves t start stopped
      exact absurd bound (Nat.not_le_of_lt (Nat.zero_lt_of_lt less))
  | cons l labels ih =>
    have keeps' := fun l mem => keeps l (List.mem_cons_of_mem _ mem)
    by_cases stopped : t.stage = .stopped
    · exact run_stopped _ stopped
    rw [run_cons]
    by_cases hl : l = .courier
    · subst hl
      obtain ⟨t', moved, less⟩ := moves t start stopped
      rw [List.count_cons_self] at bound
      rw [step, moved]
      show (run r labels t').stage = .stopped
      exact ih keeps' (keeps _ List.mem_cons_self t t' start moved).1 (by omega)
    · rw [List.count_cons_of_ne hl] at bound
      rcases step_cases r l t with same | moved
      · rw [same]
        exact ih keeps' start bound
      · obtain ⟨still, le⟩ := keeps l List.mem_cons_self t _ start moved
        exact ih keeps' still (Nat.le_trans le bound)

end

variable {script : List Cue} {t t' : Traffic Consignee}

theorem Tally.moves (tally : Tally script t) (conserved : Conserved t) (sound : Sound t)
    (alone : t.courier.handles = 0) (running : t.stage ≠ .stopped) :
    ∃ t', Traffic.step? Consignee.receiver .courier t = some t' ∧
      t'.courier.toGo 4 t'.receiver.script.length < t.courier.toGo 4 t.receiver.script.length := by
  have ready : Consignee.receiver.ready t.receiver = true := by
    show (t.receiver.permits != some 0) = true
    rw [tally.books.gate]
    rfl
  exact moves_of_alone Consignee.tires (Nat.le_refl 4)
    (fun draining => .inl (conserved.drained draining)) sound ready alone ⟨running, tally.living⟩

theorem stopped_of_enough (tally : Tally script t) (conserved : Conserved t) (sound : Sound t)
    (alone : t.courier.handles = 0) :
    (run Consignee.receiver
      (List.replicate (t.courier.enough t.receiver.script.length) .courier) t).stage =
        .stopped := by
  refine stopped_of_count
    (fun t => Tally script t ∧ Conserved t ∧ Sound t ∧ t.courier.handles = 0)
    (fun t => t.courier.toGo 4 t.receiver.script.length) ?_ ?_
    ⟨tally, conserved, sound, alone⟩ ?_
  · rintro l mem t t' ⟨tally, conserved, sound, alone⟩ moved
    obtain rfl := List.eq_of_mem_replicate mem
    have tally' := tally.advances sound moved
    have handles := (advances_of_step? moved).2.2
    refine ⟨⟨tally', conserved.advances sound moved tally'.living, sound.step? moved,
      handles.trans alone⟩, ?_⟩
    obtain ⟨t'', moved', less⟩ := tally.moves conserved sound alone (not_gone_of_step? moved).1
    cases moved.symm.trans moved'
    exact Nat.le_of_lt less
  · rintro t ⟨tally, conserved, sound, alone⟩ running
    exact tally.moves conserved sound alone running
  · rw [List.count_replicate_self]
    exact Courier.toGo_le_enough ..

end Traffic

end ProgramControl
