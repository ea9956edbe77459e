/-!
# Sets of carried-out steps

A transition reports which of its side effects have run as a set of flags in one byte.  A byte
read from elsewhere may hold further bits: `ofBits?` refuses them, `truncate` drops them, and all
other operations keep them.
-/

namespace ProgramControl

structure StepSet where
  bits : UInt8
  deriving DecidableEq, Repr, Inhabited

namespace StepSet

def empty : StepSet := ⟨0⟩

def motionQuiesced : StepSet := ⟨0x01⟩
def pauseEngaged : StepSet := ⟨0x02⟩
def modalReset : StepSet := ⟨0x04⟩
def auxiliaryOff : StepSet := ⟨0x08⟩
def completionEmitted : StepSet := ⟨0x10⟩

/-- The known flags with their names, lowest bit first. -/
def flags : List (StepSet × String) :=
  [(motionQuiesced, "MOTION_QUIESCED"), (pauseEngaged, "PAUSE_ENGAGED"),
   (modalReset, "MODAL_RESET"), (auxiliaryOff, "AUXILIARY_OFF"),
   (completionEmitted, "COMPLETION_EMITTED")]

def all : StepSet := ⟨0x1F⟩

def insert (s t : StepSet) : StepSet := ⟨s.bits ||| t.bits⟩

def diff (s t : StepSet) : StepSet := ⟨s.bits &&& ~~~t.bits⟩

/-- The known flags among the bits of a set. -/
def truncate (s : StepSet) : StepSet := ⟨s.bits &&& all.bits⟩

/-- The known flags that are not in the set. -/
def compl (s : StepSet) : StepSet := truncate ⟨~~~s.bits⟩

def isEmpty (s : StepSet) : Bool := s.bits == 0

def contains (s t : StepSet) : Bool := s.bits &&& t.bits == t.bits

def intersects (s t : StepSet) : Bool := s.bits &&& t.bits != 0

def isAll (s : StepSet) : Bool := s.contains all

/-- The set with these bits, if all of them are known flags. -/
def ofBits? (bits : UInt8) : Option StepSet :=
  if bits &&& ~~~all.bits == 0 then some ⟨bits⟩ else none

/-- The names of the known flags in the set, lowest bit first. -/
def names (s : StepSet) : List String :=
  (flags.filter fun f => s.contains f.1).map Prod.snd

/-- A byte in lower-case hexadecimal without leading zeros. -/
def hex (b : UInt8) : String := String.ofList (Nat.toDigits 16 b.toNat)

/-- The names of the known flags, then the other bits as one number. -/
def text (s : StepSet) : String :=
  let unknown := s.diff all
  let parts := s.names ++ (if unknown.isEmpty then [] else ["0x" ++ hex unknown.bits])
  "TransitionSteps(" ++ (if parts.isEmpty then "0x0" else " | ".intercalate parts) ++ ")"

end StepSet

end ProgramControl
