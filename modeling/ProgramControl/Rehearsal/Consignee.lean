import ProgramControl.Completion.Courier
import ProgramControl.Completion.JobPosition

/-!
# A receiver that follows a script

For rehearsals the courier delivers to a receiver whose answers are laid down in advance.  It
keeps a job position and a record of all attempts.  It can be made to wait at a gate: then an
attempt needs a permit.
-/

namespace ProgramControl.Rehearsal

inductive Cue where
  | ok
  | reject
  /-- the envelope is applied, but the acknowledgement is lost -/
  | ackLost
  | panic
  deriving DecidableEq, Repr

namespace Cue

def name : Cue → String
  | .ok => "ok"
  | .reject => "reject"
  | .ackLost => "ack_lost"
  | .panic => "panic"

def ofName? : String → Option Cue
  | "ok" => some .ok
  | "reject" => some .reject
  | "ack_lost" => some .ackLost
  | "panic" => some .panic
  | _ => none

/-- The envelope reaches the job position. -/
def applies : Cue → Bool
  | .ok | .ackLost => true
  | _ => false

def verdict : Cue → Verdict
  | .ok => .accepted
  | .panic => .crashed
  | cue => .failed (.rejected cue.name)

end Cue

structure Consignee where
  /-- cues to come; attempts after the last one succeed -/
  script : List Cue := []
  job : JobPosition := {}
  attempts : List (Envelope × Cue) := []
  /-- attempts that may pass the gate, or none for an open gate -/
  permits : Option Nat := none
  deriving DecidableEq, Repr

namespace Consignee

def deliver (e : Envelope) (c : Consignee) : Verdict × Consignee :=
  let (cue, script) := match c.script with
    | [] => (Cue.ok, [])
    | cue :: script => (cue, script)
  (cue.verdict,
    { script
      job := if cue.applies then (c.job.apply e).2 else c.job
      attempts := c.attempts ++ [(e, cue)]
      permits := c.permits.map (· - 1) })

def receiver : Receiver Consignee where
  ready c := c.permits != some 0
  deliver := deliver

end Consignee

end ProgramControl.Rehearsal
