import ProgramControl.Rehearsal.Bench

/-!
# Rehearsing a program on the bench

One thread applies directives to a program, with nobody else at work.  After every step all
completions on their way are delivered before the observation is made.
-/

namespace ProgramControl.Rehearsal

inductive ProgramStep where
  | apply (d : Directive)
  | begin
  | bench (step : BenchStep)
  deriving DecidableEq, Repr

inductive Answer where
  | nothing
  | flag (b : Bool)
  | result (r : Result)

def Answer.ofFlag : Option Bool → Answer
  | none => .nothing
  | some b => .flag b

def Answer.ofResult : Option Result → Answer
  | none => .nothing
  | some r => .result r

/-- What is seen after a step of a program rehearsal. -/
structure ProgramView where
  answer : Answer
  program : Program
  bench : Bench

structure ProgramReport where
  registered : List (Except RosterFault Unit)
  views : List ProgramView
  final : Bench

namespace ProgramRun

def serve (fitted : Equipment) (call : Call) (p : Program) (b : Bench) :
    Answer × Program × Bench :=
  match b.carryThrough (call.service fitted p) with
  | (some (result, p), b) => (.result result, p, b)
  | (none, b) => (.nothing, p, b)

def step (fitted : Equipment) (p : Program) (b : Bench) : ProgramStep → Answer × Program × Bench
  | .apply d => serve fitted (.directive d) p b
  | .begin => serve fitted .beginProgram p b
  | .bench s =>
    let (flag, b) := b.take s
    (Answer.ofFlag flag, p, b)

def views (fitted : Equipment) : Program → Bench → List ProgramStep → List ProgramView
  | _, _, [] => []
  | p, b, s :: steps =>
    let (answer, p, b) := step fitted p b.clearStep s
    let b := b.settleDelivery
    ⟨answer, p, b⟩ :: views fitted p b steps

def run (rig : Rig) (steps : List ProgramStep) : ProgramReport :=
  let b := Bench.setUp rig
  let views := views rig.fitted {} b steps
  { registered := rig.roster.2
    views
    final := (views.getLast?.map (·.bench)).getD b }

end ProgramRun

end ProgramControl.Rehearsal
