import ProgramControl.Proofs.Completion.Attempts
import ProgramControl.Settings.Basic

/-!
# How long the courier rests

After each failure of an envelope the courier rests before it tries again.  The first rest is as
long as the settings say; each later one is twice the one before, cut to the longest backoff.  The
first is not cut.

* `RetryPolicy.cappedBackoff`   the doubled backoff, cut every time;
* `RetryPolicy.backoffAfter_succ`   the rests in closed form;
* `RetryPolicy.capped_iff`, `bounded_iff`, `monotone_iff`   rests are cut every time, have the
  longest backoff as a bound, never become shorter: each of these exactly if the first is within
  the bound;
* `Traffic.rests_inRounds`   how the courier rests, and what it tells of it, for all settings, every
  script and every interleaving.
-/

namespace ProgramControl

namespace RetryPolicy

variable (policy : RetryPolicy)

/-- The first backoff doubled so many times, and then cut. -/
def cappedBackoff (failures : Nat) : Nat :=
  min (policy.firstBackoff * Nat.pow 2 failures) longestBackoff

theorem cappedBackoff_zero : policy.cappedBackoff 0 = min policy.firstBackoff longestBackoff := by
  show min (policy.firstBackoff * 1) _ = _
  rw [Nat.mul_one]

theorem cappedBackoff_le (failures : Nat) : policy.cappedBackoff failures ≤ longestBackoff :=
  Nat.min_le_right _ _

theorem nextBackoff_cappedBackoff (failures : Nat) :
    nextBackoff (policy.cappedBackoff failures) = policy.cappedBackoff (failures + 1) := by
  have doubled : policy.firstBackoff * Nat.pow 2 (failures + 1) =
      policy.firstBackoff * Nat.pow 2 failures * 2 := (Nat.mul_assoc ..).symm
  unfold nextBackoff cappedBackoff
  rw [doubled]
  omega

theorem cappedBackoff_mono (failures : Nat) :
    policy.cappedBackoff failures ≤ policy.cappedBackoff (failures + 1) := by
  have within := policy.cappedBackoff_le failures
  rw [← nextBackoff_cappedBackoff]
  unfold nextBackoff
  omega

theorem backoffAfter_succ (failures : Nat) :
    policy.backoffAfter (failures + 1) = policy.cappedBackoff (failures + 1) := by
  induction failures with
  | zero =>
    rw [← nextBackoff_cappedBackoff, cappedBackoff_zero]
    show nextBackoff policy.firstBackoff = _
    unfold nextBackoff
    omega
  | succ failures ih =>
    rw [← nextBackoff_cappedBackoff, ← ih]
    rfl

theorem backoffAfter_eq (failures : Nat) : policy.backoffAfter failures =
    if failures = 0 then policy.firstBackoff else policy.cappedBackoff failures := by
  cases failures with
  | zero => rfl
  | succ failures => exact policy.backoffAfter_succ failures

theorem backoffAfter_le (failures : Nat) :
    policy.backoffAfter failures ≤ max policy.firstBackoff longestBackoff := by
  cases failures with
  | zero => exact Nat.le_max_left ..
  | succ failures =>
    rw [backoffAfter_succ]
    exact Nat.le_trans (policy.cappedBackoff_le _) (Nat.le_max_right ..)

theorem capped_iff : (∀ failures, policy.backoffAfter failures = policy.cappedBackoff failures) ↔
    policy.firstBackoff ≤ longestBackoff := by
  constructor
  · intro capped
    have first : policy.firstBackoff = policy.cappedBackoff 0 := capped 0
    have within := policy.cappedBackoff_le 0
    omega
  · intro within failures
    cases failures with
    | zero =>
      rw [cappedBackoff_zero]
      exact (Nat.min_eq_left within).symm
    | succ failures => exact policy.backoffAfter_succ failures

theorem bounded_iff : (∀ failures, policy.backoffAfter failures ≤ longestBackoff) ↔
    policy.firstBackoff ≤ longestBackoff := by
  constructor
  · intro bounded
    exact bounded 0
  · intro within failures
    have bound := policy.backoffAfter_le failures
    omega

theorem monotone_iff :
    (∀ failures, policy.backoffAfter failures ≤ policy.backoffAfter (failures + 1)) ↔
      policy.firstBackoff ≤ longestBackoff := by
  constructor
  · intro mono
    have step : policy.firstBackoff ≤ policy.backoffAfter 1 := mono 0
    have second : policy.backoffAfter 1 = policy.cappedBackoff 1 := policy.backoffAfter_succ 0
    have within := policy.cappedBackoff_le 1
    omega
  · intro within failures
    have capped := policy.capped_iff.2 within
    rw [capped, capped]
    exact policy.cappedBackoff_mono failures

end RetryPolicy

/-- An elapsed time is counted in seconds of 64 bits, so this many milliseconds are too many. -/
def elapsedBound : Nat := UInt64.size * 1000

theorem RetryPolicy.doubled_lt {policy : RetryPolicy} (word : policy.firstBackoff < UInt64.size)
    (failures : Nat) : policy.backoffAfter failures * 2 < elapsedBound := by
  have bound := policy.backoffAfter_le failures
  have longest : longestBackoff < UInt64.size := by decide
  unfold elapsedBound
  omega

/-- The policy that settings ask for. -/
def NotifierSettings.policy (n : NotifierSettings) : RetryPolicy :=
  .ofConfig n.alertAfter.toNat n.firstBackoff.toNat

namespace Traffic

variable {policy : RetryPolicy} {t : Traffic Sink} {rounds : List Round} {draft : Option Draft}

theorem Accounts.resting (h : Accounts policy t rounds draft) {e : Envelope} {n backoff : Nat}
    (stage : t.stage = .resting e n backoff) :
    ∃ trial failures, draft = some ⟨trial, none⟩ ∧ trial.envelope = e ∧
      trial.failures.length = failures + 1 ∧ backoff = policy.backoffAfter failures := by
  have hand := h.hand
  rw [stage] at hand
  cases hand with
  | free free => cases free
  | @resting trial _ _ fault number rest =>
    exact ⟨trial.fail fault, trial.failures.length, rfl, rfl, trial.length_failures_fail fault,
      rest⟩

/-- The attempts fall into rounds, and each failure after which an envelope is tried again is told
with the rest that follows it: the first as the settings say, each later one doubled and cut.  No
doubling overflows.  Rests are cut every time, are bounded by the longest backoff and never become
shorter, each of these exactly if the first backoff is within the bound. -/
theorem rests_inRounds (n : NotifierSettings) (script : List (Except DeliveryFault Unit))
    (labels : List Label) :
    let policy := n.policy
    let first := n.firstBackoff.toNat
    let rest := fun failures => if failures = 0 then first else
      min (first * Nat.pow 2 failures) RetryPolicy.longestBackoff
    let t := Traffic.run Sink.receiver labels (start policy n.queueDepth.toNat { script })
    (∃ rounds draft, Accounts policy t rounds draft ∧
      (∀ trial ∈ rounds.map (·.toTrial) ++ draft.toList.map (·.toTrial),
        trial.lines policy = trial.failures.mapIdx fun failures fault =>
          Courier.retryEntry policy trial.envelope (attemptAfter failures) (rest failures) fault) ∧
      ∀ e number backoff, t.stage = .resting e number backoff →
        ∃ trial failures, draft = some ⟨trial, none⟩ ∧ trial.envelope = e ∧
          trial.failures.length = failures + 1 ∧ backoff = rest failures) ∧
    (∀ failures, rest failures * 2 < elapsedBound) ∧
    ((∀ failures, rest failures = min (first * Nat.pow 2 failures) RetryPolicy.longestBackoff) ↔
      first ≤ RetryPolicy.longestBackoff) ∧
    ((∀ failures, rest failures ≤ RetryPolicy.longestBackoff) ↔
      first ≤ RetryPolicy.longestBackoff) ∧
    ((∀ failures, rest failures ≤ rest (failures + 1)) ↔ first ≤ RetryPolicy.longestBackoff) := by
  intro policy first rest t
  have closed : policy.backoffAfter = rest := funext policy.backoffAfter_eq
  obtain ⟨rounds, draft, accounts⟩ :=
    ((regular_start policy n.queueDepth.toNat script).run labels).accounts
  rw [← closed]
  refine ⟨⟨rounds, draft, accounts, fun _ _ => rfl, fun _ _ _ => accounts.resting⟩, ?_,
    policy.capped_iff, policy.bounded_iff, policy.monotone_iff⟩
  exact RetryPolicy.doubled_lt n.firstBackoff.toNat_lt

/-- After two failures with a first backoff of three seconds the courier rests for five. -/
theorem rests_inRounds_twice :
    let n : NotifierSettings := { firstBackoff := 3000 }
    let fault := DeliveryFault.rejected "locked"
    let t := Traffic.run Sink.receiver ([.submit 1 ⟨false⟩] ++ List.replicate 6 .courier)
      (start n.policy n.queueDepth.toNat { script := [.error fault, .error fault] })
    t.stage = .resting ⟨1, 1, ⟨false⟩⟩ 2 5000 ∧
      ∃ (trial : Trial) (failures : Nat), trial.envelope = ⟨1, 1, ⟨false⟩⟩ ∧
        trial.failures.length = failures + 1 ∧
        5000 = if failures = 0 then 3000 else min (3000 * Nat.pow 2 failures) 5000 := by
  intro n fault
  dsimp only
  obtain ⟨⟨rounds, draft, -, -, resting⟩, -⟩ := rests_inRounds n [.error fault, .error fault]
    ([.submit 1 ⟨false⟩] ++ List.replicate 6 .courier)
  refine ⟨by decide +kernel, ?_⟩
  obtain ⟨trial, failures, -, envelope, count, rest⟩ := resting ⟨1, 1, ⟨false⟩⟩ 2 5000
    (by decide +kernel)
  exact ⟨trial, failures, envelope, count, rest⟩

/-- A first backoff of 5001 milliseconds: the first failure is followed by a rest that is longer
than the longest backoff, which the log says too, and the second rest is shorter. -/
theorem first_rest_is_uncut :
    let n : NotifierSettings := { firstBackoff := 5001 }
    let fault := DeliveryFault.rejected "reject"
    let reached := fun steps => Traffic.run Sink.receiver
      (.submit 1 ⟨false⟩ :: List.replicate steps .courier)
      (start n.policy n.queueDepth.toNat { script := [.error fault, .error fault] })
    min (5001 * Nat.pow 2 0) RetryPolicy.longestBackoff = 5000 ∧
    (reached 3).stage = .resting ⟨1, 1, ⟨false⟩⟩ 1 5001 ∧
    (reached 3).courier.log = [.warn ("completion #1 attempt 1 failed: " ++
      "completion envelope rejected: reject; retry in 5.001s")] ∧
    (reached 6).stage = .resting ⟨1, 1, ⟨false⟩⟩ 2 5000 := by
  decide +kernel

end Traffic

end ProgramControl
