import ProgramControl.Rehearsal.Consignee

/-!
# Rehearsing delivery

Completions are submitted through numbered handles, and the courier's attempts pass a gate that
lets through as many as are permitted.  After every step the courier moves until it waits at the
gate, has nothing to do, or is gone.
-/

namespace ProgramControl.Rehearsal

inductive DeliveryStep where
  | notify (handle program : Nat) (completion : Completion)
  /-- make one more handle from this one -/
  | clone (handle : Nat)
  | drop (handle : Nat)
  /-- let so many attempts pass the gate -/
  | permit (n : Nat)
  | abort
  | advance (lines : Nat)
  /-- drop the handles, open the gate and wait for the courier to end -/
  | join
  deriving DecidableEq, Repr

inductive DeliveryAnswer where
  | nothing
  | noHandle
  /-- the courier was joined before -/
  | joined
  | handle (i : Nat)
  | submitted (result : Except QueueFault Envelope)
  | stats (stats : DeliveryStats)

/-- How the courier of a delivery rehearsal is set up. -/
structure DeliveryPlan where
  depth : Nat := 16
  alertAfter : Nat := 5
  firstBackoff : Nat := 0
  script : List Cue := []

structure DeliveryState where
  courier : Courier
  consignee : Consignee
  /-- which handles exist -/
  handles : List Bool := [true]
  isJoined : Bool := false
  /-- what submitters and joiners were told -/
  log : List Entry := []

structure DeliveryView where
  answer : DeliveryAnswer
  state : DeliveryState

namespace DeliveryRun

def setUp (plan : DeliveryPlan) : DeliveryState :=
  { courier := .start (.ofConfig plan.alertAfter plan.firstBackoff) plan.depth
    consignee := { script := plan.script, permits := some 0 } }

def isAtGate (s : DeliveryState) : Bool :=
  match s.courier.stage with
  | .attempting .. => true
  | _ => false

def exists? (handle : Nat) (s : DeliveryState) : Bool := s.handles.getD handle false

/-- Let the courier move until it cannot.  Permits that are left when there is nothing to deliver
are void. -/
def settle (s : DeliveryState) : DeliveryState :=
  let (courier, consignee) :=
    s.courier.settle Consignee.receiver s.consignee.script.length s.consignee
  let permits := if courier.isIdle then consignee.permits.map fun _ => 0 else consignee.permits
  { s with courier, consignee := { consignee with permits } }

def withHandles (handles : List Bool) (s : DeliveryState) : DeliveryState :=
  { s with handles, courier := { s.courier with handles := handles.count true } }

/-- The handles stay when the courier has broken down before. -/
def join (s : DeliveryState) : DeliveryStats × DeliveryState :=
  let s := if s.courier.stage = .dead then s else withHandles (s.handles.map fun _ => false) s
  let s := settle { s with consignee := { s.consignee with permits := none }, isJoined := true }
  let (stats, entry) := s.courier.joined
  (stats, { s with log := s.log ++ entry.toList })

def step (s : DeliveryState) : DeliveryStep → DeliveryAnswer × DeliveryState
  | .notify handle program completion =>
    if exists? handle s then
      let (result, courier) := s.courier.notify program completion
      let entry := Queue.notifyEntry result courier.queue
      (.submitted result, { s with courier, log := s.log ++ entry.toList })
    else (.noHandle, s)
  | .clone handle => (.handle s.handles.length, withHandles (s.handles ++ [exists? handle s]) s)
  | .drop handle => (.nothing, withHandles (s.handles.set handle false) s)
  | .permit n => (.nothing, { s with consignee := { s.consignee with permits := some n } })
  | .abort => if s.isJoined then (.joined, s) else (.nothing, { s with courier := s.courier.abort })
  | .advance lines =>
    (.nothing, { s with consignee := { s.consignee with job := s.consignee.job.advance lines } })
  | .join =>
    if s.isJoined then (.joined, s)
    else
      let (stats, s) := join s
      (.stats stats, s)

def views : DeliveryState → List DeliveryStep → List DeliveryView × DeliveryState
  | s, [] => ([], s)
  | s, d :: steps =>
    let (answer, s) := step s d
    let s := settle s
    let (rest, last) := views s steps
    (⟨answer, s⟩ :: rest, last)

/-- What is seen after each step, the counters of a last join unless there was one, and the end. -/
def run (plan : DeliveryPlan) (steps : List DeliveryStep) :
    List DeliveryView × Option DeliveryStats × DeliveryState :=
  let (views, s) := views (setUp plan) steps
  if s.isJoined then (views, none, s)
  else
    let (stats, s) := join s
    (views, some stats, s)

end DeliveryRun

end ProgramControl.Rehearsal
