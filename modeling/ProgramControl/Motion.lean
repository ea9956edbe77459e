import ProgramControl.Log

/-!
# Motion as a count of outstanding moves

A move is outstanding from its admission to its completion.  A wait for standstill returns when
no move is outstanding or motion has been halted; a halt is final.

Admission reads the halt and only then takes the lock on the count, so it is two accesses,
`isHalted` and `countIn`, between which other threads may run; `admitMove` is the two in a row.  In
the same way a wait is entered once (`enterWait`) and returns at a later moment (`mayReturn`).
-/

namespace ProgramControl

structure Motion where
  outstanding : Nat := 0
  halted : Bool := false
  /-- halts that stopped motion -/
  halts : Nat := 0
  /-- waits for standstill that were entered -/
  waits : Nat := 0
  deriving DecidableEq, Repr

namespace Motion

def isHalted (m : Motion) : Bool := m.halted

def countIn (m : Motion) : Motion := { m with outstanding := m.outstanding + 1 }

def admitMove (m : Motion) : Bool × Motion :=
  if m.isHalted then (false, m) else (true, m.countIn)

def refusedEntry : Entry := .warn "motion halted: move refused"

/-- What counting in reports, from the motion before it. -/
def countEntry (m : Motion) : Entry := .debug s!"move admitted ({m.outstanding + 1} outstanding)"

def admitEntry (m : Motion) : Entry := if m.isHalted then refusedEntry else m.countEntry

/-- One move is physically done.  The count never falls below zero. -/
def completeMove (m : Motion) : Motion := { m with outstanding := m.outstanding - 1 }

def completeAll (m : Motion) : Motion := { m with outstanding := 0 }

def enterWait (m : Motion) : Motion := { m with waits := m.waits + 1 }

/-- A wait for standstill returns at a moment such as this. -/
def mayReturn (m : Motion) : Bool := m.outstanding == 0 || m.halted

def halt (m : Motion) : Motion :=
  if m.halted then m else { m with halted := true, halts := m.halts + 1 }

end Motion

end ProgramControl
