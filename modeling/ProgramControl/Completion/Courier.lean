import ProgramControl.Completion.Queue
import ProgramControl.Text.Number

/-!
# The courier

One thread of its own, the courier, takes envelopes from the completion queue and delivers each
until the receiver accepts it.  Its loop is cut into the steps between which other threads may run
(`Stage`): look into the channel, look into the backlog, wait for the channel, make one attempt,
look at the abort flag after a failure, rest.

A rest is as long as the current backoff, which doubles after each failure of one envelope and is
then cut to five seconds.  How long a rest really takes is not part of the model.

* `Courier.step`     one step of the thread, `none` while it cannot move;
* `Courier.run`      at most so many steps;
* `Courier.settle`   run until the courier cannot move.
-/

namespace ProgramControl

structure RetryPolicy where
  /-- the failure at which the report turns from a warning into an error, at least one -/
  alertAfter : Nat
  /-- the rest after the first failure, in milliseconds -/
  firstBackoff : Nat
  deriving DecidableEq, Repr

namespace RetryPolicy

/-- No doubled backoff is longer than this, in milliseconds. -/
def longestBackoff : Nat := 5000

/-- A configured alert threshold of zero counts as one. -/
def ofConfig (alertAfter firstBackoff : Nat) : RetryPolicy := ⟨max alertAfter 1, firstBackoff⟩

def nextBackoff (backoff : Nat) : Nat := min (backoff * 2) longestBackoff

end RetryPolicy

/-- Attempts of one envelope are counted in 32 bits; the count stays at its greatest value. -/
def nextAttempt (attempt : Nat) : Nat := min (attempt + 1) (UInt32.size - 1)

structure DeliveryStats where
  delivered : Nat := 0
  retries : Nat := 0
  /-- given up after an abort -/
  abandoned : Nat := 0
  deriving DecidableEq, Repr

inductive Verdict where
  | accepted
  | failed (fault : DeliveryFault)
  /-- the receiver broke down and took the courier with it -/
  | crashed
  deriving DecidableEq, Repr

/-- Who receives the envelopes.  An attempt is made only when the receiver is ready for it. -/
structure Receiver (σ : Type) where
  ready : σ → Bool
  deliver : Envelope → σ → Verdict × σ

inductive Stage where
  /-- about to look into the channel -/
  | polling
  /-- the channel was empty; about to look into the backlog -/
  | checking
  /-- the backlog was empty too; waiting for the channel -/
  | waiting
  /-- nobody can submit any more; about to look into the backlog for the last time -/
  | draining
  /-- about to make this attempt -/
  | attempting (e : Envelope) (attempt backoff : Nat)
  /-- the attempt failed; about to look at the abort flag -/
  | judging (e : Envelope) (attempt backoff : Nat) (fault : DeliveryFault)
  /-- resting before the next attempt -/
  | resting (e : Envelope) (attempt backoff : Nat)
  | stopped
  | dead
  deriving DecidableEq, Repr

structure Courier where
  policy : RetryPolicy
  queue : Queue
  /-- submission handles that exist -/
  handles : Nat := 1
  aborting : Bool := false
  stage : Stage := .polling
  stats : DeliveryStats := {}
  log : List Entry := []
  deriving DecidableEq, Repr

namespace Courier

def start (policy : RetryPolicy) (depth : Nat) : Courier :=
  { policy, queue := { depth } }

def takeUp (c : Courier) (taken : Envelope × Queue) : Courier :=
  { c with queue := taken.2, stage := .attempting taken.1 1 c.policy.firstBackoff }

def report (c : Courier) (entry : Entry) : Courier := { c with log := c.log ++ [entry] }

/-- What is said of a failure after which the envelope is tried again. -/
def retryEntry (policy : RetryPolicy) (e : Envelope) (attempt backoff : Nat)
    (fault : DeliveryFault) : Entry :=
  if attempt = policy.alertAfter then
    .error (s!"completion #{e.sequence} still undelivered after {attempt} attempts: " ++
      s!"{fault.message}; retrying")
  else
    .warn (s!"completion #{e.sequence} attempt {attempt} failed: {fault.message}; " ++
      s!"retry in {Text.elapsed backoff}")

def abandonEntry (e : Envelope) (attempt : Nat) (fault : DeliveryFault) : Entry :=
  .error (s!"completion #{e.sequence} abandoned at shutdown after {attempt} attempt(s): " ++
    fault.message)

/-- After a failed attempt: give up once an abort was asked for, rest otherwise. -/
def judge (c : Courier) (e : Envelope) (attempt backoff : Nat) (fault : DeliveryFault) : Courier :=
  if c.aborting then
    { c.report (abandonEntry e attempt fault) with
      stage := .polling, stats := { c.stats with abandoned := c.stats.abandoned + 1 } }
  else
    { c.report (retryEntry c.policy e attempt backoff fault) with
      stage := .resting e attempt backoff,
      stats := { c.stats with retries := c.stats.retries + 1 } }

def conclude (c : Courier) (e : Envelope) (attempt backoff : Nat) : Verdict → Courier
  | .accepted =>
    { c with stage := .polling, stats := { c.stats with delivered := c.stats.delivered + 1 } }
  | .failed fault => { c with stage := .judging e attempt backoff fault }
  | .crashed => { c with stage := .dead, queue := c.queue.close }

section
variable {σ : Type} (r : Receiver σ)

/-- One step of the courier's thread, `none` while it cannot move. -/
def step (c : Courier) (s : σ) : Option (Courier × σ) :=
  match c.stage with
  | .polling =>
    match c.queue.takeChannel with
    | some taken => some (c.takeUp taken, s)
    | none => some ({ c with stage := .checking }, s)
  | .checking =>
    match c.queue.takeBacklog with
    | some taken => some (c.takeUp taken, s)
    | none => some ({ c with stage := .waiting }, s)
  | .waiting =>
    match c.queue.takeChannel with
    | some taken => some (c.takeUp taken, s)
    | none => if c.handles = 0 then some ({ c with stage := .draining }, s) else none
  | .draining =>
    match c.queue.takeBacklog with
    | some taken => some (c.takeUp taken, s)
    | none => some ({ c with stage := .stopped, queue := c.queue.close }, s)
  | .attempting e attempt backoff =>
    if r.ready s then
      let (verdict, s) := r.deliver e s
      some (c.conclude e attempt backoff verdict, s)
    else none
  | .judging e attempt backoff fault => some (c.judge e attempt backoff fault, s)
  | .resting e attempt backoff =>
    let next := Stage.attempting e (nextAttempt attempt) (RetryPolicy.nextBackoff backoff)
    some ({ c with stage := next }, s)
  | .stopped | .dead => none

def run : Nat → Courier → σ → Courier × σ
  | 0, c, s => (c, s)
  | n + 1, c, s =>
    match c.step r s with
    | none => (c, s)
    | some (c, s) => run n c s

/-- Steps that are enough when the receiver fails at most `failures` more attempts: four for each
envelope on its way, three for each failure, and a few for the end. -/
def enough (c : Courier) (failures : Nat) : Nat :=
  4 * (c.queue.contents.length + 1) + 3 * failures + 8

/-- Run until the courier cannot move, for a receiver that fails at most `failures` attempts. -/
def settle (failures : Nat) (c : Courier) (s : σ) : Courier × σ :=
  run r (c.enough failures) c s

end

def inHand? (c : Courier) : Option Envelope :=
  match c.stage with
  | .attempting e .. | .judging e .. | .resting e .. => some e
  | _ => none

def isIdle (c : Courier) : Bool := c.queue.contents.isEmpty && c.inHand?.isNone

def isGone (c : Courier) : Bool :=
  match c.stage with
  | .stopped | .dead => true
  | _ => false

/-- Submit a completion through one of the handles. -/
def notify (program : Nat) (completion : Completion) (c : Courier) :
    Except QueueFault Envelope × Courier :=
  let (result, queue) := c.queue.notify program completion
  (result, { c with queue })

/-- From now on a failed attempt is the last of its envelope. -/
def abort (c : Courier) : Courier := { c with aborting := true }

/-- What is left to say when the thread is joined: the counters, or nothing but an error if it
broke down. -/
def joined (c : Courier) : DeliveryStats × Option Entry :=
  match c.stage with
  | .dead => ({}, some (.error "completion delivery thread panicked"))
  | _ => (c.stats, none)

end Courier

end ProgramControl
