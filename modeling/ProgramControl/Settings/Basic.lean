import ProgramControl.Text.Blank

/-!
# Settings

What can be set before the console starts, in four groups.  The values given here are the ones
that hold where nothing is set.
-/

namespace ProgramControl

/-- How much is logged.  The level is written in lower case; in the log itself the levels are in
capitals. -/
inductive LogLevel where
  | trace
  | debug
  | info
  | warn
  | error
  deriving DecidableEq, Repr, Inhabited

namespace LogLevel

def name : LogLevel → String
  | .trace => "trace"
  | .debug => "debug"
  | .info => "info"
  | .warn => "warn"
  | .error => "error"

def ofName? : String → Option LogLevel
  | "trace" => some .trace
  | "debug" => some .debug
  | "info" => some .info
  | "warn" => some .warn
  | "error" => some .error
  | _ => none

/-- The level as it appears in front of log entries. -/
def capitals : LogLevel → String
  | .trace => "TRACE"
  | .debug => "DEBUG"
  | .info => "INFO"
  | .warn => "WARN"
  | .error => "ERROR"

theorem ofName?_name (l : LogLevel) : ofName? l.name = some l := by
  cases l <;> rfl

end LogLevel

structure SharedSettings where
  logLevel : LogLevel := .info
  /-- what this instance is called in logs -/
  serviceName : String := "cnc-program-control"
  deriving DecidableEq, Repr, Inhabited

structure ProgramSettings where
  optionalStop : Bool := false
  /-- directives that can wait for the worker -/
  channelDepth : UInt64 := 32
  deriving DecidableEq, Repr, Inhabited

structure NotifierSettings where
  /-- completions that can wait in the channel -/
  queueDepth : UInt64 := 16
  /-- failed attempts after which a failure is logged as an error -/
  alertAfter : UInt32 := 5
  /-- milliseconds before the second attempt -/
  firstBackoff : UInt64 := 50
  /-- where completions are written: standard output or a file -/
  output : String := "stdout"
  deriving DecidableEq, Repr, Inhabited

structure AuxiliarySettings where
  /-- outputs to stop at the end of a program, in this order -/
  outputs : List String := []
  deriving DecidableEq, Repr, Inhabited

structure Settings where
  shared : SharedSettings := {}
  program : ProgramSettings := {}
  notifier : NotifierSettings := {}
  auxiliary : AuxiliarySettings := {}
  deriving DecidableEq, Repr, Inhabited

namespace NotifierSettings

/-- The word that stands for standard output, in any letter case. -/
def standardOutput : String := "stdout"

/-- The file that completions are written to, none for standard output. -/
def outputPath? (n : NotifierSettings) : Option String :=
  if Text.sameLetters n.output.toList standardOutput.toList then none else some n.output

def backoffMicroseconds (n : NotifierSettings) : Nat := n.firstBackoff.toNat * 1000

end NotifierSettings

end ProgramControl
