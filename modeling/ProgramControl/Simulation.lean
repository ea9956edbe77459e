import ProgramControl.Log
import ProgramControl.Refusal

/-!
# Simulated collaborators

The collaborators that the console is wired to, beside the move counter: the owner of the modal
state, the mechanism that holds a job, and an auxiliary output.  Each counts what it did and says
so.
-/

namespace ProgramControl

/-- Restores absolute positioning and the first work frame. -/
structure ModalUnit where
  resets : Nat := 0
  failing : Bool := false
  deriving DecidableEq, Repr

namespace ModalUnit

def reset (u : ModalUnit) : (Except Fault Unit × List Entry) × ModalUnit :=
  if u.failing then ((.error (.failed "modal state locked by active canned cycle"), []), u)
  else
    ((.ok (), [.info "modal state reset: positioning=absolute (G90), frame=G54"]),
      { u with resets := u.resets + 1 })

end ModalUnit

structure HoldUnit where
  pauses : Nat := 0
  deriving DecidableEq, Repr

namespace HoldUnit

def hold (u : HoldUnit) : (Except Fault Unit × List Entry) × HoldUnit :=
  ((.ok (), [.info "job held - send RESUME to continue"]), { u with pauses := u.pauses + 1 })

end HoldUnit

structure OutputUnit where
  name : String
  shutdowns : Nat := 0
  deriving DecidableEq, Repr

namespace OutputUnit

def shutOff (u : OutputUnit) : (Except Fault Unit × List Entry) × OutputUnit :=
  ((.ok (), [.debug s!"auxiliary output '{u.name}' off"]), { u with shutdowns := u.shutdowns + 1 })

def shutOffFirst (name : String) : List OutputUnit →
    (Except Fault Unit × List Entry) × List OutputUnit
  | [] => ((.ok (), []), [])
  | u :: us =>
    if u.name = name then
      let (answer, u) := u.shutOff
      (answer, u :: us)
    else
      let (answer, us) := shutOffFirst name us
      (answer, u :: us)

end OutputUnit

end ProgramControl
