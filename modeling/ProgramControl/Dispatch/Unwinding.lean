import ProgramControl.Dispatch.System

/-!
# A worker that breaks down

When a collaborator breaks down under the worker, `System` answers whoever waits in that same step.
Here the step is taken apart.  The thread of the worker unwinds: first it lets go of the reply that
it owes, then of its end of the channel, and with that of the requests that are still in there, one
after the other.  All other threads go on meanwhile, and may put requests into the channel until
it is closed.

A reply has one place at a time: it is owed by the worker, or goes with a request in the channel, or
is gone.  A caller finds out by itself: it waits while somebody holds its reply, and hangs up when
nobody does.

* `Frail`         a dispatch system, and how far its worker has come in unwinding;
* `Frail.held`    the requests whose replies somebody holds;
* `Frail.move?`   the step of one thread, with what it shows;
* `Frail.run`     a run of such steps.
-/

namespace ProgramControl

/-- How far the worker has come in unwinding. -/
inductive Unwinding where
  /-- nothing has broken down -/
  | whole
  /-- something has; the reply to the request in hand is still owed -/
  | owing
  /-- that reply is gone, and the channel is open -/
  | receiving
  /-- the channel is closed, and what is left in it is let go -/
  | closed
  deriving DecidableEq, Repr

/-- A dispatch system whose worker unwinds step by step when it breaks down. -/
structure Frail (σ : Type) where
  system : System σ
  unwinding : Unwinding := .whole

/-- What a step shows. -/
inductive Happening (σ : Type) where
  /-- what a step of the dispatch system shows -/
  | shows (o : Occurrence σ)
  /-- the reply to a request is gone -/
  | drops (errand : Errand)
  /-- the worker lets go of the channel -/
  | closes
  /-- a caller finds that its reply is gone -/
  | hangsUp (i : Nat)

namespace Frail

variable {σ : Type} (world : Plant σ)

/-- The request to which the worker owes a reply. -/
def owed? (f : Frail σ) : Option Errand :=
  match f.unwinding, f.system.worker with
  | .whole, .busy errand _ | .owing, .busy errand _ => some errand
  | _, _ => none

/-- The requests whose replies somebody holds, the oldest first. -/
def held (f : Frail σ) : List Errand := f.owed?.toList ++ f.system.channel

/-- The caller waits for a reply that nobody holds. -/
def isForsaken (i : Nat) (f : Frail σ) : Bool :=
  f.system.callers[i]?.any (·.isAwaiting) && f.held.all (·.caller != i)

def moveCaller (i : Nat) (f : Frail σ) : Option (Happening σ × Frail σ) :=
  if f.isForsaken i then
    some (.hangsUp i, { f with system := f.system.deliver i (.error .closed) })
  else (f.system.moveCaller world i).map fun (o, system) => (.shows o, { f with system })

def moveWorker (f : Frail σ) : Option (Happening σ × Frail σ) :=
  match f.unwinding with
  | .whole =>
    match f.system.moveWorker world with
    | some (.breaks, system) =>
      -- only what the collaborator did to the plant has happened so far
      some (.shows .breaks,
        { system := { f.system with plant := system.plant }, unwinding := .owing })
    | some (o, system) => some (.shows o, { f with system })
    | none => none
  | .owing => f.owed?.map fun errand => (.drops errand, { f with unwinding := .receiving })
  | .receiving =>
    some (.closes, { system := { f.system with worker := .dead }, unwinding := .closed })
  | .closed =>
    match f.system.channel with
    | [] => none
    | errand :: channel =>
      some (.drops errand, { f with system := { f.system with channel } })

def moveVisitor (i : Nat) (f : Frail σ) : Option (Happening σ × Frail σ) :=
  (f.system.moveVisitor world i).map fun (o, system) => (.shows o, { f with system })

/-- The step of one thread, `none` while it cannot move. -/
def move? : Label → Frail σ → Option (Happening σ × Frail σ)
  | .caller i, f => f.moveCaller world i
  | .worker, f => f.moveWorker world
  | .visitor i, f => f.moveVisitor world i

/-- The step of one thread; nothing changes while it cannot move. -/
def step (l : Label) (f : Frail σ) : Frail σ := ((move? world l f).map Prod.snd).getD f

def run (labels : List Label) (f : Frail σ) : Frail σ :=
  labels.foldl (fun f l => step world l f) f

end Frail

end ProgramControl
