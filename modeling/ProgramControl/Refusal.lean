import ProgramControl.Directive
import ProgramControl.RunState
import ProgramControl.StepSet

/-!
# Refusals

Why a directive did not have its effect, as a cause with one wording each.  `Fault` is what a
collaborator answers when it cannot do its part; `Refusal` is what the submitter of a directive
gets back.
-/

namespace ProgramControl

inductive Fault where
  /-- the collaborator cannot serve the request now -/
  | unavailable (text : String)
  /-- the collaborator tried and failed -/
  | failed (text : String)
  deriving DecidableEq, Repr

namespace Fault

def message : Fault → String
  | .unavailable text => "collaborator unavailable: " ++ text
  | .failed text => "collaborator failed: " ++ text

end Fault

inductive Refusal where
  /-- the transition needs a collaborator that is not fitted -/
  | notConfigured (directive : Directive) (collaborator : String)
  /-- shutdown was latched before the directive started -/
  | alreadyShutdown
  /-- shutdown was latched while the directive was in flight, after these steps -/
  | preempted (directive : Directive) (completed : StepSet)
  | invalidTransition (directive : Directive) (state : RunState)
  | programEnded (directive : Directive)
  /-- a collaborator failed in mid-transition; completed steps stay applied -/
  | stepFailed (directive : Directive) (step : String) (fault : Fault)
  /-- a new program was asked for before the current one had ended -/
  | programActive (state : RunState)
  /-- nobody takes directives any more -/
  | closed
  deriving DecidableEq, Repr

namespace Refusal

def message : Refusal → String
  | .notConfigured d name => d.text ++ " rejected: " ++ name ++ " not configured"
  | .alreadyShutdown => "terminal shutdown active: restart required"
  | .preempted d completed =>
    d.text ++ " preempted by emergency stop after " ++ completed.text ++ ": restart required"
  | .invalidTransition d state => d.text ++ " not allowed while " ++ state.name
  | .programEnded d => d.text ++ " rejected: program has ended"
  | .stepFailed d step fault => d.text ++ " failed during " ++ step ++ ": " ++ fault.message
  | .programActive state => "cannot start a new program while " ++ state.name
  | .closed => "directive dispatcher closed"

def requiresRestart : Refusal → Bool
  | .alreadyShutdown | .preempted .. => true
  | _ => false

/-- The collaborator's answer behind the refusal, where there is one. -/
def fault? : Refusal → Option Fault
  | .stepFailed _ _ fault => some fault
  | _ => none

end Refusal

end ProgramControl
