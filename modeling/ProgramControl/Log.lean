/-!
# Log entries
-/

namespace ProgramControl

inductive Severity where
  | debug
  | info
  | warn
  | error
  deriving DecidableEq, Repr

namespace Severity

def name : Severity → String
  | .debug => "DEBUG"
  | .info => "INFO"
  | .warn => "WARN"
  | .error => "ERROR"

def rank : Severity → Nat
  | .debug => 0
  | .info => 1
  | .warn => 2
  | .error => 3

end Severity

structure Entry where
  severity : Severity
  text : String
  deriving DecidableEq, Repr

namespace Entry

def debug (text : String) : Entry := ⟨.debug, text⟩
def info (text : String) : Entry := ⟨.info, text⟩
def warn (text : String) : Entry := ⟨.warn, text⟩
def error (text : String) : Entry := ⟨.error, text⟩

def line (e : Entry) : String := e.severity.name ++ " " ++ e.text

/-- The entry is at least this severe. -/
def atLeast (s : Severity) (e : Entry) : Bool := s.rank ≤ e.severity.rank

end Entry

/-- The lines of the entries that are at least this severe, in order. -/
def logLines (s : Severity) (log : List Entry) : List String :=
  (log.filter (·.atLeast s)).map Entry.line

end ProgramControl
