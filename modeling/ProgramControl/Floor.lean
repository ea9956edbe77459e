import ProgramControl.Motion

/-!
# Threads on the shop floor

Any number of threads work on one motion: movers, who ask for the admission of a move that is
completed later, waiters, who wait for standstill, and halters.  Whoever reads or changes the count
of outstanding moves holds its lock; the halt is read and set without it.

* A mover reads the halt and only then takes the lock to be counted in.
* A waiter holds the lock while it looks, at the count first and then, if moves are outstanding, at
  the halt.  It lets go of the lock to sleep, and may wake up at any moment: when it is called, or
  of its own.
* A halter sets the halt and finds out by this whether it was the first.  The first one counts the
  halt, and every one calls the waiters.

A label names what happens next; a run is a list of labels, so a statement about all lists of
labels is one about every interleaving.

* `Floor.step?`   one step, `none` while it cannot be taken;
* `Floor.run`     a run; labels that cannot move change nothing.
-/

namespace ProgramControl

namespace Motion

/-- Set the halt.  The answer tells whether it was set before. -/
def seize (m : Motion) : Bool × Motion := (m.halted, { m with halted := true })

def countHalt (m : Motion) : Motion := { m with halts := m.halts + 1 }

/-- To halt is to set the halt and to count it if it was not set before. -/
theorem halt_eq_seize (m : Motion) :
    m.halt = if m.seize.1 then m.seize.2 else m.seize.2.countHalt := by
  unfold halt seize
  dsimp only
  split
  · next set => rw [← set]
  · rfl

end Motion

inductive Mover where
  /-- has not asked yet -/
  | new
  /-- found motion not halted, and is still to be counted -/
  | cleared
  /-- admitted, and its completion has not run -/
  | underway
  | done
  | refused
  deriving DecidableEq, Repr

inductive Waiter where
  | new
  /-- about to take the lock -/
  | entered
  /-- holds the lock and has seen moves outstanding -/
  | looking
  | asleep
  | returned
  deriving DecidableEq, Repr

inductive Halter where
  | new
  /-- halted motion as the first, and is still to count it -/
  | counting
  /-- about to call the waiters -/
  | calling
  | returned
  deriving DecidableEq, Repr

structure Floor where
  motion : Motion := {}
  movers : List Mover
  waiters : List Waiter
  halters : List Halter
  deriving Repr

inductive Floor.Label where
  | mover (i : Nat)
  | waiter (i : Nat)
  | halter (i : Nat)
  /-- a completion that belongs to no move -/
  | stray
  deriving DecidableEq, Repr

namespace Floor

/-- So many threads of each kind, none of which has begun. -/
def start (movers waiters halters : Nat) : Floor where
  movers := List.replicate movers .new
  waiters := List.replicate waiters .new
  halters := List.replicate halters .new

/-- The lock on the count is held from one step to the next. -/
def isLocked (f : Floor) : Bool := f.waiters.contains .looking

def setMover (i : Nat) (stage : Mover) (f : Floor) : Floor :=
  { f with movers := f.movers.set i stage }

def setWaiter (i : Nat) (stage : Waiter) (f : Floor) : Floor :=
  { f with waiters := f.waiters.set i stage }

def setHalter (i : Nat) (stage : Halter) (f : Floor) : Floor :=
  { f with halters := f.halters.set i stage }

def withMotion (motion : Motion) (f : Floor) : Floor := { f with motion }

def unlessLocked (f g : Floor) : Option Floor := if f.isLocked then none else some g

def moveMover (i : Nat) (f : Floor) : Option Floor :=
  match f.movers[i]? with
  | some .new => some (f.setMover i (if f.motion.isHalted then .refused else .cleared))
  | some .cleared => f.unlessLocked ((f.setMover i .underway).withMotion f.motion.countIn)
  | some .underway => f.unlessLocked ((f.setMover i .done).withMotion f.motion.completeMove)
  | _ => none

/-- Take the lock and look at the count. -/
def look (i : Nat) (f : Floor) : Option Floor :=
  f.unlessLocked (f.setWaiter i (if f.motion.outstanding = 0 then .returned else .looking))

def moveWaiter (i : Nat) (f : Floor) : Option Floor :=
  match f.waiters[i]? with
  | some .new => some ((f.setWaiter i .entered).withMotion f.motion.enterWait)
  | some .entered | some .asleep => f.look i
  | some .looking => some (f.setWaiter i (if f.motion.isHalted then .returned else .asleep))
  | _ => none

def moveHalter (i : Nat) (f : Floor) : Option Floor :=
  match f.halters[i]? with
  | some .new =>
    let (before, motion) := f.motion.seize
    some ((f.setHalter i (if before then .calling else .counting)).withMotion motion)
  | some .counting => some ((f.setHalter i .calling).withMotion f.motion.countHalt)
  | some .calling => some (f.setHalter i .returned)
  | _ => none

def step? : Label → Floor → Option Floor
  | .mover i, f => f.moveMover i
  | .waiter i, f => f.moveWaiter i
  | .halter i, f => f.moveHalter i
  | .stray, f => f.unlessLocked (f.withMotion f.motion.completeMove)

/-- One step; nothing changes where it cannot be taken. -/
def step (l : Label) (f : Floor) : Floor := (step? l f).getD f

def run (labels : List Label) (f : Floor) : Floor := labels.foldl (fun f l => step l f) f

/-- Moves that were admitted and whose completion has not run. -/
def underway (f : Floor) : Nat := f.movers.count .underway

end Floor

end ProgramControl
