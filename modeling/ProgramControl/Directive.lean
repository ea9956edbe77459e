/-!
# Directives

What an operator or a job can ask of a running program.  Two directives do not drive the program
itself: the emergency stop, which never waits behind others, and the switch of the optional-stop
flag.
-/

namespace ProgramControl

inductive Directive where
  /-- wait for motion, then pause -/
  | pauseUnconditional
  /-- the same while the optional-stop flag is on, nothing otherwise -/
  | pauseOptional
  /-- wait for motion, reset the modal state, stop the auxiliary outputs, report completion -/
  | programEnd
  /-- an end whose completion asks for the job to be repeated -/
  | programEndRepeat
  /-- latch shutdown and halt motion at once -/
  | emergencyStop
  /-- set the optional-stop flag -/
  | setOptionalStop (enabled : Bool)
  /-- the operator has resumed the job -/
  | resumeObserved
  deriving DecidableEq, Repr, Inhabited

namespace Directive

def isEmergency : Directive → Bool
  | .emergencyStop => true
  | _ => false

/-- The directive is carried out by the program's state machine. -/
def isProgramDirective : Directive → Bool
  | .emergencyStop | .setOptionalStop _ => false
  | _ => true

def name : Directive → String
  | .pauseUnconditional => "PAUSE_UNCONDITIONAL"
  | .pauseOptional => "PAUSE_OPTIONAL"
  | .programEnd => "PROGRAM_END"
  | .programEndRepeat => "PROGRAM_END_REPEAT"
  | .emergencyStop => "EMERGENCY_STOP"
  | .setOptionalStop _ => "SET_OPTIONAL_STOP"
  | .resumeObserved => "RESUME_OBSERVED"

/-- The name, followed by the argument where there is one. -/
def text : Directive → String
  | .setOptionalStop enabled =>
    "SET_OPTIONAL_STOP\x7benabled:" ++ (if enabled then "true" else "false") ++ "\x7d"
  | d => d.name

/-- The directive of a name; `enabled` is the argument of the one that has an argument. -/
def ofName? (name : String) (enabled : Option Bool) : Option Directive :=
  match name with
  | "PAUSE_UNCONDITIONAL" => some .pauseUnconditional
  | "PAUSE_OPTIONAL" => some .pauseOptional
  | "PROGRAM_END" => some .programEnd
  | "PROGRAM_END_REPEAT" => some .programEndRepeat
  | "EMERGENCY_STOP" => some .emergencyStop
  | "SET_OPTIONAL_STOP" => enabled.map .setOptionalStop
  | "RESUME_OBSERVED" => some .resumeObserved
  | _ => none

theorem ofName?_name (d : Directive) (enabled : Bool)
    (h : ∀ e, d = .setOptionalStop e → e = enabled) :
    ofName? d.name (some enabled) = some d := by
  cases d with
  | setOptionalStop e => obtain rfl := h e rfl; rfl
  | _ => rfl

end Directive

end ProgramControl
