/-!
# Completions and their envelopes

A completion is reported once for each program that ends.  It travels in an envelope with the
number of the program and a sequence number; receivers tell repeated deliveries by the latter.
Both numbers count from one and have the wire's width of 64 bits (`Envelope.Fits`).
-/

namespace ProgramControl

structure Completion where
  /-- the job is to be repeated: its position goes back to the start -/
  repeatRequested : Bool
  deriving DecidableEq, Repr

structure Envelope where
  sequence : Nat
  program : Nat
  completion : Completion
  deriving DecidableEq, Repr

namespace Envelope

/-- The numbers that fit the wire are those below this one. -/
def wireBound : Nat := UInt64.size

def Fits (e : Envelope) : Prop := e.sequence < wireBound ∧ e.program < wireBound

instance (e : Envelope) : Decidable e.Fits := inferInstanceAs (Decidable (_ ∧ _))

end Envelope

inductive QueueFault where
  | closed
  deriving DecidableEq, Repr

def QueueFault.message : QueueFault → String
  | .closed => "completion delivery service stopped"

inductive DeliveryFault where
  /-- writing failed -/
  | write (text : String)
  /-- the receiver was reached and refused the envelope -/
  | rejected (text : String)
  deriving DecidableEq, Repr

def DeliveryFault.message : DeliveryFault → String
  | .write text => "write completion envelope: " ++ text
  | .rejected text => "completion envelope rejected: " ++ text

end ProgramControl
