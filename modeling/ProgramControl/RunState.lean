/-!
# Run state and shutdown latch

A program is running, paused or ended; an ended program stays so until a new one is begun.  Each
run state has a code in one byte, under which it is published to other threads.  The shutdown
latch lies over the run state: once latched it stays so until a restart.
-/

namespace ProgramControl

inductive RunState where
  | running
  | paused
  | ended
  deriving DecidableEq, Repr, Inhabited

namespace RunState

def code : RunState → UInt8
  | .running => 0
  | .paused => 1
  | .ended => 2

def ofCode? (code : UInt8) : Option RunState :=
  if code = 0 then some .running
  else if code = 1 then some .paused
  else if code = 2 then some .ended
  else none

/-- The program takes no further program directive. -/
def isTerminal : RunState → Bool
  | .ended => true
  | _ => false

def name : RunState → String
  | .running => "Running"
  | .paused => "Paused"
  | .ended => "Ended"

def ofName? : String → Option RunState
  | "Running" => some .running
  | "Paused" => some .paused
  | "Ended" => some .ended
  | _ => none

theorem ofName?_name (s : RunState) : ofName? s.name = some s := by
  cases s <;> rfl

end RunState

inductive Latch where
  | clear
  | latched
  deriving DecidableEq, Repr, Inhabited

namespace Latch

def name : Latch → String
  | .clear => "Normal"
  | .latched => "Shutdown"

def ofName? : String → Option Latch
  | "Normal" => some .clear
  | "Shutdown" => some .latched
  | _ => none

def isLatched : Latch → Bool
  | .latched => true
  | .clear => false

theorem ofName?_name (s : Latch) : ofName? s.name = some s := by
  cases s <;> rfl

end Latch

end ProgramControl
