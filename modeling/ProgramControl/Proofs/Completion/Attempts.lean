import ProgramControl.Proofs.Completion.Draining

/-!
# Attempts at delivery

The courier makes attempts at one envelope until one succeeds, or fails with an abort asked for.
So the attempts fall into rounds, one for each envelope in the order in which they were taken up,
and the counters and the log are those of the rounds.

* `Sink`                 a receiver that answers as a script lays down, and then accepts;
* `Trial`, `Round`       the failures of one envelope after which it was tried again, and those
                         with the last attempt;
* `Accounts`             the invariant: what the courier and the sink have counted, told and
                         recorded is what the rounds and the trial in hand come to;
* `Trial.alerts`         one failure of an envelope is told as an error, if it has so many, and
                         all others as warnings;
* `Hurried`              after an abort no envelope is tried twice;
* `Traffic.attempts_inRounds`   all of this for every script and every interleaving, and the
                         courier stops once the last handle is gone.
-/

namespace ProgramControl

/-! ## A scripted sink -/

/-- A receiver that answers as a script lays down, accepts everything after that, and keeps a
record of all attempts. -/
structure Sink where
  script : List (Except DeliveryFault Unit) := []
  attempts : List (Envelope × Except DeliveryFault Unit) := []
  deriving DecidableEq

namespace Sink

def verdict : Except DeliveryFault Unit → Verdict
  | .ok () => .accepted
  | .error fault => .failed fault

/-- The answer to the next attempt. -/
def answer (s : Sink) : Except DeliveryFault Unit := s.script.head?.getD (.ok ())

def receiver : Receiver Sink where
  ready _ := true
  deliver e s := (verdict s.answer, ⟨s.script.tail, s.attempts ++ [(e, s.answer)]⟩)

theorem tires : receiver.Tires (·.script.length) where
  le e s := by
    show s.script.tail.length ≤ s.script.length
    rw [List.length_tail]
    exact Nat.sub_le ..
  lt {e s fault} failed := by
    show s.script.tail.length < s.script.length
    cases script : s.script with
    | nil =>
      have accepts : (receiver.deliver e s).1 = .accepted := by
        show verdict s.answer = .accepted
        rw [answer, script]
        rfl
      cases accepts.symm.trans failed
    | cons first rest => exact Nat.lt_succ_self _

end Sink

/-! ## Rounds -/

/-- The number of the attempt that follows so many failures. -/
def attemptAfter (failures : Nat) : Nat := min (failures + 1) (UInt32.size - 1)

theorem nextAttempt_attemptAfter (failures : Nat) :
    nextAttempt (attemptAfter failures) = attemptAfter (failures + 1) := by
  unfold nextAttempt attemptAfter
  omega

/-- The rest that follows after so many failures and one more. -/
def RetryPolicy.backoffAfter (policy : RetryPolicy) : Nat → Nat
  | 0 => policy.firstBackoff
  | failures + 1 => nextBackoff (policy.backoffAfter failures)

/-- An envelope, and its failures after which it was to be tried again. -/
structure Trial where
  envelope : Envelope
  failures : List DeliveryFault := []

namespace Trial

def attempts (trial : Trial) : List (Envelope × Except DeliveryFault Unit) :=
  trial.failures.map fun fault => (trial.envelope, .error fault)

/-- What is said of the failures. -/
def lines (policy : RetryPolicy) (trial : Trial) : List Entry :=
  trial.failures.mapIdx fun k fault =>
    Courier.retryEntry policy trial.envelope (attemptAfter k) (policy.backoffAfter k) fault

def fail (fault : DeliveryFault) (trial : Trial) : Trial :=
  { trial with failures := trial.failures ++ [fault] }

theorem attempts_fail (fault : DeliveryFault) (trial : Trial) :
    (trial.fail fault).attempts = trial.attempts ++ [(trial.envelope, .error fault)] :=
  List.map_append

theorem lines_fail (policy : RetryPolicy) (fault : DeliveryFault) (trial : Trial) :
    (trial.fail fault).lines policy = trial.lines policy ++
      [Courier.retryEntry policy trial.envelope (attemptAfter trial.failures.length)
        (policy.backoffAfter trial.failures.length) fault] :=
  List.mapIdx_concat

theorem length_failures_fail (fault : DeliveryFault) (trial : Trial) :
    (trial.fail fault).failures.length = trial.failures.length + 1 := List.length_append

end Trial

/-- All attempts at one envelope: those that failed and were followed by another, and the last. -/
structure Round extends Trial where
  last : Except DeliveryFault Unit

namespace Round

def attempts (round : Round) : List (Envelope × Except DeliveryFault Unit) :=
  round.toTrial.attempts ++ [(round.envelope, round.last)]

theorem length_attempts (round : Round) :
    round.attempts.length = round.failures.length + 1 := by
  simp [attempts, Trial.attempts]

def isDelivered (round : Round) : Bool := round.last.isOk

@[simp] theorem isDelivered_ok (trial : Trial) : (mk trial (.ok ())).isDelivered = true := rfl

@[simp] theorem isDelivered_error (trial : Trial) (fault : DeliveryFault) :
    (mk trial (.error fault)).isDelivered = false := rfl

/-- What is said of a round: the last failure is said to be the last. -/
def lines (policy : RetryPolicy) (round : Round) : List Entry :=
  round.toTrial.lines policy ++
    match round.last with
    | .ok () => []
    | .error fault =>
      [Courier.abandonEntry round.envelope (attemptAfter round.failures.length) fault]

end Round

/-! ## Alerts -/

/-- What is said of an envelope when it has failed so often. -/
def RetryPolicy.alert (policy : RetryPolicy) (e : Envelope) (fault : DeliveryFault) : Entry :=
  .error (s!"completion #{e.sequence} still undelivered after {policy.alertAfter} attempts: " ++
    s!"{fault.message}; retrying")

theorem retryEntry_cases (policy : RetryPolicy) (e : Envelope) (attempt backoff : Nat)
    (fault : DeliveryFault) :
    attempt = policy.alertAfter ∧
        Courier.retryEntry policy e attempt backoff fault = policy.alert e fault ∨
      attempt ≠ policy.alertAfter ∧
        (Courier.retryEntry policy e attempt backoff fault).severity = .warn := by
  by_cases alerts : attempt = policy.alertAfter
  · refine .inl ⟨alerts, ?_⟩
    rw [Courier.retryEntry, if_pos alerts, alerts]
    rfl
  · refine .inr ⟨alerts, ?_⟩
    rw [Courier.retryEntry, if_neg alerts]
    rfl

namespace Trial

/-- What is said of the failures of an envelope: of one that it is still undelivered, once there
are so many, and of all others only as a warning. -/
structure Alerts (policy : RetryPolicy) (trial : Trial) : Prop where
  each : (trial.lines policy).length = trial.failures.length
  once : policy.alertAfter ≤ trial.failures.length →
    ∃ fault, trial.failures[policy.alertAfter - 1]? = some fault ∧
      (trial.lines policy).filter (·.severity = .error) = [policy.alert trial.envelope fault]
  never : trial.failures.length < policy.alertAfter →
    (trial.lines policy).filter (·.severity = .error) = []
  others : ∀ entry ∈ trial.lines policy, entry.severity = .error ∨ entry.severity = .warn

theorem errors_lines {policy : RetryPolicy} (positive : 0 < policy.alertAfter) (e : Envelope)
    (failures : List DeliveryFault) (few : failures.length < UInt32.size) :
    (lines policy ⟨e, failures⟩).filter (·.severity = .error) =
      (failures[policy.alertAfter - 1]?).toList.map (policy.alert e) := by
  induction failures using List.reverseRecOn with
  | nil => rfl
  | append_singleton failures fault ih =>
    rw [List.length_append, List.length_singleton] at few
    show List.filter _ ((fail fault ⟨e, failures⟩).lines policy) = _
    rw [lines_fail, List.filter_append, ih (Nat.lt_of_succ_lt few)]
    have number : attemptAfter failures.length = failures.length + 1 := by
      unfold attemptAfter
      omega
    rcases retryEntry_cases policy e (attemptAfter failures.length)
      (policy.backoffAfter failures.length) fault with ⟨here, entry⟩ | ⟨other, warns⟩
    · rw [number] at here
      have last : policy.alertAfter - 1 = failures.length := by omega
      rw [entry, last, List.getElem?_concat_length, List.getElem?_eq_none (Nat.le_refl _)]
      rfl
    · rw [number] at other
      have same : (failures ++ [fault])[policy.alertAfter - 1]? =
          failures[policy.alertAfter - 1]? := by
        rcases Nat.lt_or_ge (policy.alertAfter - 1) failures.length with before | beyond
        · exact List.getElem?_append_left before
        · rw [List.getElem?_eq_none beyond, List.getElem?_eq_none]
          rw [List.length_append, List.length_singleton]
          omega
      rw [same, List.filter_cons_of_neg (by rw [warns]; decide)]
      exact List.append_nil _

theorem alerts {policy : RetryPolicy} (positive : 0 < policy.alertAfter) (trial : Trial)
    (few : trial.failures.length < UInt32.size) : trial.Alerts policy := by
  have errors := errors_lines positive trial.envelope trial.failures few
  refine ⟨List.length_mapIdx, fun enough => ?_, fun short => ?_, fun entry mem => ?_⟩
  · have there : policy.alertAfter - 1 < trial.failures.length := by omega
    refine ⟨_, List.getElem?_eq_getElem there, errors.trans ?_⟩
    rw [List.getElem?_eq_getElem there]
    rfl
  · refine errors.trans ?_
    rw [List.getElem?_eq_none (by omega)]
    rfl
  · obtain ⟨k, -, rfl⟩ := List.mem_mapIdx.1 mem
    rcases retryEntry_cases policy trial.envelope (attemptAfter k) (policy.backoffAfter k)
      trial.failures[k] with ⟨-, alert⟩ | ⟨-, warns⟩
    · exact .inl (by rw [alert]; rfl)
    · exact .inr warns

end Trial

/-! ## What the courier has in hand -/

/-- Nothing is in hand, and the courier is alive. -/
def Stage.isFree : Stage → Bool
  | .polling | .checking | .waiting | .draining | .stopped => true
  | _ => false

/-- The envelope that is to be tried next. -/
def Stage.next? : Stage → Option Envelope
  | .attempting e .. | .resting e .. => some e
  | _ => none

/-- What the courier has in hand: a trial, and perhaps a failure that it has yet to judge. -/
structure Draft extends Trial where
  fresh : Option DeliveryFault := none

namespace Draft

def attempts (draft : Draft) : List (Envelope × Except DeliveryFault Unit) :=
  draft.toTrial.attempts ++ draft.fresh.toList.map fun fault => (draft.envelope, .error fault)

/-- What is in hand at a stage of the courier. -/
inductive At (policy : RetryPolicy) : Stage → Option Draft → Prop where
  | free {stage : Stage} (free : stage.isFree) : At policy stage none
  | attempting (trial : Trial) {n backoff : Nat} (number : n = attemptAfter trial.failures.length)
      (rest : backoff = policy.backoffAfter trial.failures.length) :
      At policy (.attempting trial.envelope n backoff) (some ⟨trial, none⟩)
  | judging (trial : Trial) {n backoff : Nat} {fault : DeliveryFault}
      (number : n = attemptAfter trial.failures.length)
      (rest : backoff = policy.backoffAfter trial.failures.length) :
      At policy (.judging trial.envelope n backoff fault) (some ⟨trial, some fault⟩)
  | resting (trial : Trial) {n backoff : Nat} {fault : DeliveryFault}
      (number : n = attemptAfter trial.failures.length)
      (rest : backoff = policy.backoffAfter trial.failures.length) :
      At policy (.resting trial.envelope n backoff) (some ⟨trial.fail fault, none⟩)

end Draft

namespace Traffic

variable {σ : Type} {r : Receiver σ}

/-- What the courier and the sink have counted, told and recorded is what the rounds and the draft
in hand come to. -/
structure Accounts (policy : RetryPolicy) (t : Traffic Sink) (rounds : List Round)
    (draft : Option Draft) : Prop where
  rule : t.courier.policy = policy
  hand : Draft.At policy t.stage draft
  taken : t.taken = rounds.map (·.envelope) ++ draft.toList.map (·.envelope)
  attempts : t.receiver.attempts =
    rounds.flatMap (·.attempts) ++ draft.toList.flatMap (·.attempts)
  log : t.courier.log = rounds.flatMap (·.lines policy) ++ draft.toList.flatMap (·.lines policy)
  delivered : t.courier.stats.delivered = rounds.countP (·.isDelivered)
  abandoned : t.courier.stats.abandoned = rounds.countP (!·.isDelivered)
  retries : t.courier.stats.retries =
    (rounds.flatMap (·.failures)).length + (draft.toList.flatMap (·.failures)).length
  /-- only an abort ends a round without success -/
  aborted : (∃ round ∈ rounds, ¬ round.isDelivered) → t.courier.aborting

variable {policy : RetryPolicy} {t t' : Traffic Sink} {rounds : List Round} {draft : Option Draft}

theorem accounts_start (policy : RetryPolicy) (depth : Nat)
    (script : List (Except DeliveryFault Unit)) :
    Accounts policy (start policy depth { script }) [] none :=
  ⟨rfl, .free rfl, rfl, rfl, rfl, rfl, rfl, rfl, nofun⟩

/-- Submitters and holders of handles touch nothing of what the courier counts and tells, and only
an abort is for it. -/
theorem others_of_step? {t t' : Traffic σ} {l : Label} (hl : l ≠ .courier)
    (h : step? r l t = some t') :
    t'.courier.stats = t.courier.stats ∧ t'.courier.log = t.courier.log ∧
      t'.courier.policy = t.courier.policy ∧
      t'.courier.aborting = (t.courier.aborting || Label.abort == l) := by
  cases l with
  | submit program completion =>
    obtain ⟨-, -, submits⟩ := submits_of_submit h
    cases submits <;> exact ⟨rfl, rfl, rfl, (Bool.or_false _).symm⟩
  | hold =>
    obtain ⟨e, -, rfl⟩ := Option.map_eq_some_iff.1 h
    exact ⟨rfl, rfl, rfl, (Bool.or_false _).symm⟩
  | courier => exact absurd rfl hl
  | clone =>
    obtain ⟨-, rfl⟩ := cloned_of_step? h
    exact ⟨rfl, rfl, rfl, (Bool.or_false _).symm⟩
  | drop =>
    obtain ⟨-, rfl⟩ := dropped_of_step? h
    exact ⟨rfl, rfl, rfl, (Bool.or_false _).symm⟩
  | abort =>
    cases h
    exact ⟨rfl, rfl, rfl, (Bool.or_true _).symm⟩

theorem Accounts.grows (h : Accounts policy t rounds draft) {l : Label} (hl : l ≠ .courier)
    (moved : Traffic.step? Sink.receiver l t = some t') : Accounts policy t' rounds draft := by
  obtain ⟨stats, log, rule, aborting⟩ := others_of_step? hl moved
  have g := grows_of_step? hl moved
  refine ⟨rule.trans h.rule, g.stage ▸ h.hand, g.taken.trans h.taken, ?_, log.trans h.log,
    ?_, ?_, ?_, fun given => ?_⟩
  · rw [g.receiver]
    exact h.attempts
  · rw [stats]
    exact h.delivered
  · rw [stats]
    exact h.abandoned
  · rw [stats]
    exact h.retries
  · rw [aborting, h.aborted given]
    rfl

theorem inHand?_eq_none_of_isFree {c : Courier} (free : c.stage.isFree) :
    c.inHand? = none := by
  unfold Courier.inHand?
  cases stage : c.stage <;> first | rfl | (rw [stage] at free; cases free)

theorem Accounts.draft_eq_none (h : Accounts policy t rounds draft)
    (free : t.stage.isFree) : draft = none := by
  have hand := h.hand
  generalize t.stage = stage at free hand
  cases hand with
  | free => rfl
  | attempting => cases free
  | judging => cases free
  | resting => cases free

theorem Accounts.idles (h : Accounts policy t rounds draft) (free : t.stage.isFree)
    {stage : Stage} (free' : stage.isFree) (queue : Queue) :
    let courier := { t.courier with stage, queue }
    Accounts policy { t with courier, taken := t.taken ++ newlyTaken t.courier courier } rounds
      none := by
  intro courier
  obtain rfl := h.draft_eq_none free
  have none : newlyTaken t.courier courier = [] := by
    rw [newlyTaken, inHand?_eq_none_of_isFree free, inHand?_eq_none_of_isFree (c := courier) free']
    rfl
  refine ⟨h.rule, .free free', ?_, h.attempts, h.log, h.delivered, h.abandoned, h.retries,
    h.aborted⟩
  show t.taken ++ newlyTaken t.courier courier = _
  rw [none, List.append_nil]
  exact h.taken

theorem Accounts.takes (h : Accounts policy t rounds draft) (free : t.stage.isFree)
    (e : Envelope) (queue : Queue) :
    let courier := t.courier.takeUp (e, queue)
    Accounts policy { t with courier, taken := t.taken ++ newlyTaken t.courier courier } rounds
      (some ⟨{ envelope := e }, none⟩) := by
  intro courier
  obtain rfl := h.draft_eq_none free
  obtain rfl := h.rule
  refine ⟨rfl, .attempting { envelope := e } rfl rfl, ?_, h.attempts, h.log, h.delivered,
    h.abandoned, h.retries, h.aborted⟩
  show t.taken ++ newlyTaken t.courier (t.courier.takeUp (e, queue)) = _
  rw [newlyTaken_takeUp (inHand?_eq_none_of_isFree free), h.taken]
  exact congrArg (· ++ [e]) (List.append_nil _)

theorem taken_of_inHand {t : Traffic σ} {e : Envelope} (busy : t.courier.inHand? = some e)
    (after : Courier) : t.taken ++ newlyTaken t.courier after = t.taken := by
  rw [newlyTaken_of_inHand busy, List.append_nil]

theorem Accounts.attempt {trial : Trial} {n backoff : Nat}
    (h : Accounts policy t rounds (some ⟨trial, none⟩))
    (number : n = attemptAfter trial.failures.length)
    (rest : backoff = policy.backoffAfter trial.failures.length) (taken : List Envelope)
    (same : taken = t.taken) :
    ∃ rounds' draft', Accounts policy
      { t with
        courier := t.courier.conclude trial.envelope n backoff (Sink.verdict t.receiver.answer)
        receiver := ⟨t.receiver.script.tail,
          t.receiver.attempts ++ [(trial.envelope, t.receiver.answer)]⟩
        taken } rounds' draft' := by
  subst same
  have attempts := h.attempts
  rcases t.receiver.answer with fault | ⟨⟩
  · refine ⟨rounds, some ⟨trial, some fault⟩, h.rule, .judging trial number rest, h.taken, ?_,
      h.log, h.delivered, h.abandoned, h.retries, h.aborted⟩
    show t.receiver.attempts ++ [(trial.envelope, .error fault)] = _
    rw [attempts]
    simp [Draft.attempts]
  · refine ⟨rounds ++ [⟨trial, .ok ()⟩], none, h.rule, .free rfl, ?_, ?_, ?_, ?_, ?_, ?_, ?_⟩
    · show t.taken = _
      simp [h.taken]
    · show t.receiver.attempts ++ [(trial.envelope, .ok ())] = _
      simp [attempts, Draft.attempts, Round.attempts]
    · show t.courier.log = _
      simp [h.log, Round.lines]
    · show t.courier.stats.delivered + 1 = _
      simp [h.delivered]
    · show t.courier.stats.abandoned = _
      simp [h.abandoned]
    · show t.courier.stats.retries = _
      simp [h.retries]
    · rintro ⟨round, mem, failed⟩
      rcases List.mem_append.1 mem with mem | mem
      · exact h.aborted ⟨round, mem, failed⟩
      · cases List.mem_singleton.1 mem
        exact absurd rfl failed

theorem Accounts.judge {trial : Trial} {n backoff : Nat} {fault : DeliveryFault}
    (h : Accounts policy t rounds (some ⟨trial, some fault⟩))
    (number : n = attemptAfter trial.failures.length)
    (rest : backoff = policy.backoffAfter trial.failures.length) :
    ∃ rounds' draft', Accounts policy
      { t with courier := t.courier.judge trial.envelope n backoff fault } rounds' draft' := by
  obtain rfl := h.rule
  by_cases aborting : t.courier.aborting
  · rw [Courier.judge, if_pos aborting]
    refine ⟨rounds ++ [⟨trial, .error fault⟩], none, rfl, .free rfl, ?_, ?_, ?_, ?_, ?_, ?_,
      fun _ => aborting⟩
    · show t.taken = _
      simp [h.taken]
    · show t.receiver.attempts = _
      simp [h.attempts, Draft.attempts, Round.attempts]
    · show t.courier.log ++ [Courier.abandonEntry trial.envelope n fault] = _
      simp [h.log, Round.lines, number]
    · show t.courier.stats.delivered = _
      simp [h.delivered]
    · show t.courier.stats.abandoned + 1 = _
      simp [h.abandoned]
    · show t.courier.stats.retries = _
      simp [h.retries]
  · rw [Courier.judge, if_neg aborting]
    refine ⟨rounds, some ⟨trial.fail fault, none⟩, rfl, .resting trial number rest, h.taken, ?_, ?_,
      h.delivered, h.abandoned, ?_, h.aborted⟩
    · show t.receiver.attempts = _
      simp [h.attempts, Draft.attempts, Trial.attempts_fail]
    · show t.courier.log ++ [Courier.retryEntry t.courier.policy trial.envelope n backoff fault] = _
      simp [h.log, Trial.lines_fail, number, rest]
    · show t.courier.stats.retries + 1 = _
      simp [h.retries, Trial.length_failures_fail, Nat.add_assoc]

theorem Accounts.advances (h : Accounts policy t rounds draft)
    (moved : Traffic.step? Sink.receiver .courier t = some t') :
    ∃ rounds' draft', Accounts policy t' rounds' draft' := by
  obtain ⟨-, c, s, moves, rfl⟩ := moves_of_step? moved
  have hand := h.hand
  cases moves with
  | fromChannel stage head =>
    refine ⟨_, _, h.takes ?_ _ _⟩
    rcases stage with stage | stage <;> rw [Traffic.stage, stage] <;> rfl
  | fromBacklog stage head =>
    refine ⟨_, _, h.takes ?_ _ _⟩
    rcases stage with stage | stage <;> rw [Traffic.stage, stage] <;> rfl
  | toBacklog stage => exact ⟨_, _, h.idles (by rw [Traffic.stage, stage]; rfl) rfl _⟩
  | toWait stage => exact ⟨_, _, h.idles (by rw [Traffic.stage, stage]; rfl) rfl _⟩
  | toDrain stage => exact ⟨_, _, h.idles (by rw [Traffic.stage, stage]; rfl) rfl _⟩
  | stop stage => exact ⟨_, _, h.idles (by rw [Traffic.stage, stage]; rfl) rfl _⟩
  | @attempt e n backoff stage =>
    rw [Traffic.stage, stage] at hand
    cases hand with
    | free free => cases free
    | @attempting trial _ _ number rest =>
      exact h.attempt number rest _
        (taken_of_inHand (e := trial.envelope) (by simp [Courier.inHand?, stage]) _)
  | @judge e n backoff fault stage =>
    rw [Traffic.stage, stage] at hand
    cases hand with
    | free free => cases free
    | @judging trial _ _ _ number rest =>
      rw [taken_of_inHand (e := trial.envelope) (by simp [Courier.inHand?, stage])]
      exact h.judge number rest
  | @rest e n backoff stage =>
    rw [Traffic.stage, stage] at hand
    cases hand with
    | free free => cases free
    | @resting trial _ _ fault number rest =>
      refine ⟨rounds, some ⟨trial.fail fault, none⟩, h.rule, ?_, ?_, h.attempts, h.log,
        h.delivered, h.abandoned, h.retries, h.aborted⟩
      · refine .attempting (trial.fail fault) ?_ ?_
        · rw [number, nextAttempt_attemptAfter, trial.length_failures_fail fault]
        · rw [rest, trial.length_failures_fail fault]
          rfl
      · exact (taken_of_inHand (e := trial.envelope) (by simp [Courier.inHand?, stage]) _).trans
          h.taken

theorem Accounts.living (h : Accounts policy t rounds draft) : t.stage ≠ .dead := by
  intro dead
  have hand := h.hand
  rw [dead] at hand
  cases hand with
  | free free => cases free

theorem Accounts.mem_taken (h : Accounts policy t rounds draft) {e : Envelope}
    (busy : t.courier.inHand? = some e) : e ∈ t.taken := by
  have hand := h.hand
  rw [h.taken]
  unfold Courier.inHand? at busy
  cases stage : t.courier.stage <;> rw [stage] at busy <;> cases busy
  all_goals
    rw [Traffic.stage, stage] at hand
    cases hand with
    | free free => cases free
    | _ => exact List.mem_append_right _ (List.mem_singleton_self _)

/-! ## Runs -/

/-- No envelope is in two places. -/
def Distinct {σ : Type} (t : Traffic σ) : Prop := (t.taken ++ t.waiting).Nodup

theorem Distinct.step? {t t' : Traffic σ} {l : Label} (h : Distinct t) (sound : Sound t)
    (moved : Traffic.step? r l t = some t') : Distinct t' := by
  by_cases hl : l = .courier
  · subst hl
    obtain ⟨a, held, -⟩ := advances_of_step? moved
    have fewer := a.waiting_sublist held
    unfold Distinct at h ⊢
    cases a with
    | @fromChannel e rest stage head queue busy taken =>
      have same : t'.taken ++ t'.waiting = t.taken ++ t.waiting := by
        simp [waiting_eq, held, queue, head, taken]
      rw [same]
      exact h
    | @fromBacklog e rest stage unheld head queue busy taken =>
      refine (List.Perm.nodup_iff ?_).2 h
      rw [waiting_eq, waiting_eq, held, queue, head, taken, List.append_assoc]
      refine List.Perm.append_left t.taken ?_
      show ([e] ++ (t.queue.channel ++ rest ++ t.held.toList)).Perm _
      rw [List.append_assoc, List.append_assoc, List.singleton_append, List.cons_append]
      exact List.perm_middle.symm
    | idles taken =>
      rw [taken]
      exact h.sublist (fewer.append_left _)
  · have g := grows_of_step? hl moved
    unfold Distinct at h ⊢
    rw [g.taken]
    rcases g.waiting with ⟨-, same⟩ | ⟨-, same | ⟨e, more, fresh⟩⟩
    · rw [same]
      exact h
    · rw [same]
      exact h
    · rw [more, ← List.append_assoc]
      refine List.nodup_append.2 ⟨h, List.nodup_singleton e, fun a mem b single => ?_⟩
      obtain rfl := List.mem_singleton.1 single
      rintro rfl
      have := (sound.numbered a mem).2
      omega

/-- What every state keeps to. -/
structure Regular (policy : RetryPolicy) (t : Traffic Sink) : Prop where
  sound : Sound t
  distinct : Distinct t
  accounts : ∃ rounds draft, Accounts policy t rounds draft

theorem regular_start (policy : RetryPolicy) (depth : Nat)
    (script : List (Except DeliveryFault Unit)) : Regular policy (start policy depth { script }) :=
  ⟨sound_start .., .nil, _, _, accounts_start ..⟩

theorem Regular.step? {l : Label} (h : Regular policy t)
    (moved : Traffic.step? Sink.receiver l t = some t') : Regular policy t' := by
  obtain ⟨rounds, draft, accounts⟩ := h.accounts
  refine ⟨h.sound.step? moved, h.distinct.step? h.sound moved, ?_⟩
  by_cases hl : l = .courier
  · subst hl
    exact accounts.advances moved
  · exact ⟨_, _, accounts.grows hl moved⟩

theorem Regular.run (labels : List Label) (h : Regular policy t) :
    Regular policy (run Sink.receiver labels t) := by
  induction labels generalizing t with
  | nil => exact h
  | cons l labels ih =>
    rw [run_cons]
    rcases step_cases Sink.receiver l t with same | moved
    · rw [same]
      exact ih h
    · exact ih (h.step? moved)

theorem Regular.living (h : Regular policy t) : t.stage ≠ .dead := by
  obtain ⟨rounds, draft, accounts⟩ := h.accounts
  exact accounts.living

/-! ## Aborts -/

theorem aborting_of_step? {t t' : Traffic σ} {l : Label} (h : step? r l t = some t') :
    t'.courier.aborting = (t.courier.aborting || Label.abort == l) := by
  by_cases hl : l = .courier
  · subst hl
    obtain ⟨-, c, s, moves, rfl⟩ := moves_of_step? h
    show c.aborting = (t.courier.aborting || false)
    rw [Bool.or_false]
    cases moves with
    | @attempt e n backoff stage ready => cases (r.deliver e t.receiver).1 <;> rfl
    | judge stage =>
      unfold Courier.judge
      split <;> rfl
    | _ => rfl
  · exact (others_of_step? hl h).2.2.2

theorem aborting_step (r : Receiver σ) (l : Label) (t : Traffic σ) :
    (step r l t).courier.aborting = (t.courier.aborting || Label.abort == l) := by
  by_cases abort : l = .abort
  · subst abort
    exact (Bool.or_true _).symm
  · rcases step_cases r l t with same | moved
    · rw [same, beq_false_of_ne (Ne.symm abort), Bool.or_false]
    · exact aborting_of_step? moved

theorem aborting_run (r : Receiver σ) (labels : List Label) (t : Traffic σ) :
    (run r labels t).courier.aborting = (t.courier.aborting || labels.contains .abort) := by
  induction labels generalizing t with
  | nil => exact (Bool.or_false _).symm
  | cons l labels ih =>
    rw [run_cons, ih, aborting_step, List.contains_cons, Bool.or_assoc]

/-- What happens after an abort: `early` are the attempts made before it, `late` those made after
it. -/
structure Hurried (early late : List (Envelope × Except DeliveryFault Unit)) (t : Traffic Sink) :
    Prop where
  aborting : t.courier.aborting
  attempts : t.receiver.attempts = early ++ late
  once : (late.map Prod.fst).Nodup
  taken : ∀ e ∈ late.map Prod.fst, e ∈ t.taken
  /-- what is to be tried has not been tried since -/
  next : ∀ e, t.stage.next? = some e → e ∉ late.map Prod.fst

variable {early late : List (Envelope × Except DeliveryFault Unit)}

theorem Hurried.takes (h : Hurried early late t) (free : t.stage.isFree) (e : Envelope)
    (queue : Queue) :
    let courier := t.courier.takeUp (e, queue)
    let t' := { t with courier, taken := t.taken ++ newlyTaken t.courier courier }
    t'.taken.Nodup → Hurried early late t' := by
  intro courier t' nodup
  have taken : t'.taken = t.taken ++ [e] := by
    show t.taken ++ newlyTaken t.courier (t.courier.takeUp (e, queue)) = _
    rw [newlyTaken_takeUp (inHand?_eq_none_of_isFree free)]
  rw [taken] at nodup
  refine ⟨h.aborting, h.attempts, h.once, fun f tried => ?_, ?_⟩
  · rw [taken]
    exact List.mem_append_left _ (h.taken f tried)
  · rintro f ⟨⟩ tried
    exact (List.nodup_append.1 nodup).2.2 e (h.taken e tried) e (List.mem_singleton_self e) rfl

theorem Hurried.advances (h : Hurried early late t) (regular : Regular policy t)
    (regular' : Regular policy t')
    (moved : Traffic.step? Sink.receiver .courier t = some t') :
    ∃ late', Hurried early late' t' := by
  have nodup : t'.taken.Nodup := regular'.distinct.sublist (List.sublist_append_left ..)
  obtain ⟨-, c, s, moves, rfl⟩ := moves_of_step? moved
  have more (c : Courier) : ∀ e ∈ late.map Prod.fst, e ∈ t.taken ++ newlyTaken t.courier c :=
    fun e tried => List.mem_append_left _ (h.taken e tried)
  cases moves with
  | fromChannel stage head =>
    refine ⟨late, h.takes ?_ _ _ nodup⟩
    rcases stage with stage | stage <;> rw [Traffic.stage, stage] <;> rfl
  | fromBacklog stage head =>
    refine ⟨late, h.takes ?_ _ _ nodup⟩
    rcases stage with stage | stage <;> rw [Traffic.stage, stage] <;> rfl
  | toBacklog | toWait | toDrain | stop =>
    exact ⟨late, h.aborting, h.attempts, h.once, more _, by rintro e ⟨⟩⟩
  | @attempt e n backoff stage =>
    have unseen := h.next e (by rw [Traffic.stage, stage]; rfl)
    have busy : t.courier.inHand? = some e := by simp [Courier.inHand?, stage]
    obtain ⟨rounds, draft, accounts⟩ := regular.accounts
    refine ⟨late ++ [(e, t.receiver.answer)], ?_, ?_, ?_, ?_, ?_⟩
    · show (t.courier.conclude e n backoff (Sink.verdict t.receiver.answer)).aborting
      rcases t.receiver.answer with fault | ⟨⟩ <;> exact h.aborting
    · show t.receiver.attempts ++ [(e, t.receiver.answer)] = _
      rw [h.attempts, List.append_assoc]
    · rw [List.map_append]
      refine List.nodup_append.2 ⟨h.once, List.nodup_singleton e, fun f tried g single => ?_⟩
      obtain rfl := List.mem_singleton.1 single
      rintro rfl
      exact unseen tried
    · intro f tried
      rw [List.map_append, List.mem_append] at tried
      rcases tried with tried | single
      · exact more _ f tried
      · obtain rfl := List.mem_singleton.1 single
        exact List.mem_append_left _ (accounts.mem_taken busy)
    · show ∀ f, (t.courier.conclude e n backoff (Sink.verdict t.receiver.answer)).stage.next? =
        some f → _
      rcases t.receiver.answer with fault | ⟨⟩ <;> rintro f ⟨⟩
  | @judge e n backoff fault stage =>
    rw [Courier.judge, if_pos h.aborting]
    exact ⟨late, h.aborting, h.attempts, h.once, more _, by rintro f ⟨⟩⟩
  | @rest e n backoff stage =>
    refine ⟨late, h.aborting, h.attempts, h.once, more _, ?_⟩
    rintro f ⟨⟩
    exact h.next e (by rw [Traffic.stage, stage]; rfl)

theorem Hurried.step? {l : Label} (h : Hurried early late t) (regular : Regular policy t)
    (moved : Traffic.step? Sink.receiver l t = some t') : ∃ late', Hurried early late' t' := by
  by_cases hl : l = .courier
  · subst hl
    exact h.advances regular (regular.step? moved) moved
  · have g := grows_of_step? hl moved
    refine ⟨late, ?_, ?_, h.once, ?_, ?_⟩
    · rw [aborting_of_step? moved, h.aborting]
      rfl
    · rw [g.receiver]
      exact h.attempts
    · rw [g.taken]
      exact h.taken
    · rw [g.stage]
      exact h.next

theorem Hurried.run (labels : List Label) (h : Hurried early late t) (regular : Regular policy t) :
    ∃ late', Hurried early late' (run Sink.receiver labels t) := by
  induction labels generalizing t late with
  | nil => exact ⟨late, h⟩
  | cons l labels ih =>
    rw [run_cons]
    rcases step_cases Sink.receiver l t with same | moved
    · rw [same]
      exact ih h regular
    · obtain ⟨late', h'⟩ := h.step? regular moved
      exact ih h' (regular.step? moved)

/-! ## The end -/

/-- With no handle left all that others can do is to ask for an abort. -/
theorem aborts_of_alone {t t' : Traffic σ} {l : Label} (hl : l ≠ .courier) (sound : Sound t)
    (alone : t.courier.handles = 0) (moved : step? r l t = some t') :
    t' = { t with courier := t.courier.abort } := by
  cases l with
  | submit program completion =>
    obtain ⟨-, handles, -⟩ := submits_of_submit moved
    exact absurd alone handles
  | hold =>
    obtain ⟨e, held, rfl⟩ := Option.map_eq_some_iff.1 moved
    have locked := sound.locked (by rw [isLocked, held]; rfl)
    exact absurd alone (Nat.ne_of_gt locked)
  | courier => exact absurd rfl hl
  | clone =>
    obtain ⟨handles, -⟩ := cloned_of_step? moved
    exact absurd alone handles
  | drop =>
    obtain ⟨spare, -⟩ := dropped_of_step? moved
    rw [alone] at spare
    exact absurd spare (Nat.not_lt_zero _)
  | abort => exact (Option.some.inj moved).symm

/-- Once the last handle is gone the courier stops after so many steps, whenever it makes them. -/
theorem Regular.stops (h : Regular policy t) (alone : t.courier.handles = 0) {labels : List Label}
    (enough : t.courier.toGo 5 t.receiver.script.length ≤ labels.count .courier) :
    (Traffic.run Sink.receiver labels t).stage = .stopped := by
  have moves (t : Traffic Sink) (h : Regular policy t ∧ t.courier.handles = 0)
      (running : t.stage ≠ .stopped) := moves_of_alone Sink.tires (by decide : 4 ≤ 5)
    (fun _ => .inr (Nat.le_refl 5)) h.1.sound rfl h.2 ⟨running, h.1.living⟩
  refine stopped_of_count (fun t => Regular policy t ∧ t.courier.handles = 0)
    (fun t => t.courier.toGo 5 t.receiver.script.length) ?_ moves ⟨h, alone⟩ enough
  rintro l - t t' ⟨h, alone⟩ moved
  by_cases hl : l = .courier
  · subst hl
    obtain ⟨t'', moved', less⟩ := moves t ⟨h, alone⟩ (not_gone_of_step? moved).1
    cases moved.symm.trans moved'
    exact ⟨⟨h.step? moved, (advances_of_step? moved).2.2.trans alone⟩, Nat.le_of_lt less⟩
  · have regular' := h.step? moved
    obtain rfl := aborts_of_alone hl h.sound alone moved
    exact ⟨⟨regular', alone⟩, Nat.le_refl _⟩

theorem length_flatMap_attempts (rounds : List Round) :
    (rounds.flatMap (·.attempts)).length =
      (rounds.flatMap (·.failures)).length + rounds.length := by
  induction rounds with
  | nil => rfl
  | cons round rounds ih =>
    rw [List.flatMap_cons, List.flatMap_cons, List.length_append, List.length_append, ih,
      round.length_attempts, List.length_cons]
    omega

theorem Accounts.closed (h : Accounts policy t rounds draft) (stopped : t.stage = .stopped) :
    draft = none ∧ t.courier.stats.delivered + t.courier.stats.abandoned = t.taken.length ∧
      t.courier.stats.retries + t.taken.length = t.receiver.attempts.length := by
  obtain rfl := h.draft_eq_none (by rw [stopped]; rfl)
  have taken : t.taken.length = rounds.length := by simp [h.taken]
  have attempts : t.receiver.attempts.length =
      (rounds.flatMap (·.failures)).length + rounds.length := by
    rw [h.attempts, Option.toList_none, List.flatMap_nil, List.append_nil, length_flatMap_attempts]
  refine ⟨rfl, ?_, ?_⟩
  · rw [taken, h.delivered, h.abandoned, List.length_eq_countP_add_countP (·.isDelivered)]
    simp
  · rw [taken, attempts, h.retries]
    rfl

theorem Accounts.abandoned_eq_zero (h : Accounts policy t rounds draft)
    (patient : t.courier.aborting = false) : t.courier.stats.abandoned = 0 := by
  rw [h.abandoned, List.countP_eq_zero]
  intro round mem given
  have delivered : ¬ round.isDelivered := by
    rw [Bool.not_eq_true, ← Bool.not_eq_true']
    exact given
  cases patient.symm.trans (h.aborted ⟨round, mem, delivered⟩)

theorem Hurried.count_le_one (h : Hurried early late t) (e : Envelope) :
    (t.receiver.attempts.drop early.length).countP (·.1 = e) ≤ 1 := by
  have count := List.nodup_iff_count_le_one.1 h.once e
  rw [List.count, List.countP_map] at count
  rw [h.attempts, List.drop_left]
  exact count

/-- The attempts fall into rounds, one for each envelope in the order in which it was taken up, and
everything that is counted and told is what the rounds come to.  An abort leaves at most one more
attempt to each envelope, and nothing but an abort makes the courier give up.  Once the last handle
is gone the courier stops, and then nothing is left in hand. -/
theorem attempts_inRounds (policy : RetryPolicy) (positive : 0 < policy.alertAfter) (depth : Nat)
    (script : List (Except DeliveryFault Unit)) (labels : List Label) :
    let reached := fun labels => Traffic.run Sink.receiver labels (start policy depth { script })
    let t := reached labels
    (t.courier.handles = 0 →
      ∃ n, ∀ more, n ≤ more.count .courier → (reached (labels ++ more)).stage = .stopped) ∧
    (∀ past future, labels = past ++ future → .abort ∈ past → ∀ e,
      (t.receiver.attempts.drop (reached past).receiver.attempts.length).countP (·.1 = e) ≤ 1) ∧
    ∃ rounds draft, Accounts policy t rounds draft ∧
      (.abort ∉ labels → t.courier.stats.abandoned = 0) ∧
      (∀ round ∈ rounds, round.attempts.length < UInt32.size - 1 → round.Alerts policy) ∧
      (t.stage = .stopped → draft = none ∧
        t.courier.stats.delivered + t.courier.stats.abandoned = t.taken.length ∧
        t.courier.stats.retries + t.taken.length = t.receiver.attempts.length) := by
  intro reached t
  have regular (labels : List Label) : Regular policy (reached labels) :=
    (regular_start policy depth script).run labels
  have aborting (labels : List Label) :
      (reached labels).courier.aborting = labels.contains .abort :=
    (aborting_run ..).trans (Bool.false_or _)
  refine ⟨fun alone => ⟨t.courier.toGo 5 t.receiver.script.length, fun more enough => ?_⟩, ?_, ?_⟩
  · show (Traffic.run Sink.receiver (labels ++ more) _).stage = .stopped
    rw [run_append]
    exact (regular labels).stops alone enough
  · rintro past future split asked e
    have hurried : Hurried (reached past).receiver.attempts [] (reached past) :=
      ⟨(aborting past).trans (List.contains_iff_mem.2 asked), (List.append_nil _).symm, .nil, nofun,
        fun _ _ => List.not_mem_nil⟩
    obtain ⟨late, after⟩ := hurried.run future (regular past)
    have same : t = Traffic.run Sink.receiver future (reached past) := by
      rw [← run_append, ← split]
    rw [same]
    exact after.count_le_one e
  · obtain ⟨rounds, draft, accounts⟩ := (regular labels).accounts
    refine ⟨rounds, draft, accounts, fun unasked => ?_, fun round mem few => ?_, accounts.closed⟩
    · refine accounts.abandoned_eq_zero ((aborting labels).trans ?_)
      rw [Bool.eq_false_iff]
      exact mt List.contains_iff_mem.1 unasked
    · refine round.alerts positive ?_
      rw [Round.length_attempts] at few
      omega

/-- Two envelopes and five attempts, all but the third of which fail.  An abort is asked for while
the courier rests before the fifth, so the second envelope is given up after it. -/
theorem attempts_inRounds_givenUp :
    let fault := DeliveryFault.write "disk full"
    let past : List Label := [.submit 1 ⟨false⟩, .submit 2 ⟨true⟩, .drop] ++
      List.replicate 11 .courier ++ [.abort]
    let future : List Label := List.replicate 7 .courier
    let t := run Sink.receiver (past ++ future) (start ⟨1, 10⟩ 2
      { script := [.error fault, .error fault, .ok (), .error fault, .error fault] })
    t.stage = .stopped ∧ t.courier.stats = ⟨1, 3, 1⟩ ∧
      t.courier.stats.delivered + t.courier.stats.abandoned = t.taken.length ∧
      t.courier.stats.retries + t.taken.length = t.receiver.attempts.length ∧
      ∀ e, (t.receiver.attempts.drop 4).countP (·.1 = e) ≤ 1 := by
  intro fault past future t
  have positive : 0 < (RetryPolicy.mk 1 10).alertAfter := by decide
  obtain ⟨-, late, rounds, draft, -, -, -, closed⟩ := attempts_inRounds ⟨1, 10⟩ positive 2
    [.error fault, .error fault, .ok (), .error fault, .error fault] (past ++ future)
  have stopped : t.stage = .stopped := by decide +kernel
  have stats : t.courier.stats = ⟨1, 3, 1⟩ := by decide +kernel
  dsimp only [t] at late closed stopped stats ⊢
  obtain ⟨-, ended, tried⟩ := closed stopped
  have early : (run Sink.receiver past (start ⟨1, 10⟩ 2
      { script := [.error fault, .error fault, .ok (), .error fault, .error fault] }
      )).receiver.attempts.length = 4 := by decide +kernel
  have asked : .abort ∈ past := List.mem_append_right _ (List.mem_singleton_self _)
  refine ⟨stopped, stats, ended, tried, fun e => ?_⟩
  rw [← early]
  exact late past future rfl asked e

end Traffic

end ProgramControl
