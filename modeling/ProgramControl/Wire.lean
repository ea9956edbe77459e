import ProgramControl.Completion.Envelope
import ProgramControl.Directive
import ProgramControl.Json.Reader
import ProgramControl.RunState
import ProgramControl.Settings.Basic

/-!
# JSON forms of the domain's types

How directives, states, completions and envelopes are written in JSON and what is accepted when
they are read.

* A state and a log level are texts with their names.
* A completion and an envelope are records; readers pass over further fields, and take fields by
  place from an array.
* A directive is a record with its name under `directive` and, for the one that has an argument,
  the argument under `enabled`.  A directive is only read from a value that is plain throughout
  and not nested too deeply.
-/

namespace ProgramControl

open Json (Value)

namespace RunState

def toJson (s : RunState) : Value := .ofString s.name

def ofJson? (v : Value) : Option RunState := v.choice?.bind ofName?

end RunState

namespace Latch

def toJson (l : Latch) : Value := .ofString l.name

def ofJson? (v : Value) : Option Latch := v.choice?.bind ofName?

end Latch

namespace LogLevel

def toJson (l : LogLevel) : Value := .ofString l.name

def ofJson? (v : Value) : Option LogLevel := v.choice?.bind ofName?

end LogLevel

namespace Completion

def toJson (c : Completion) : Value := .record [("repeatRequested", .bool c.repeatRequested)]

def ofJson? (v : Value) : Option Completion := do
  let fields ← v.fields? ["repeatRequested"]
  let repeatRequested ← (← fields.lookup "repeatRequested").bool?
  some { repeatRequested }

end Completion

namespace Envelope

def toJson (e : Envelope) : Value :=
  .record [("sequence", .ofNat e.sequence), ("program", .ofNat e.program),
    ("event", e.completion.toJson)]

/-- A number of the wire's width. -/
def word? (v : Value) : Option Nat := v.nat?.filter (· < wireBound)

def ofJson? (v : Value) : Option Envelope := do
  let fields ← v.fields? ["sequence", "program", "event"]
  let sequence ← word? (← fields.lookup "sequence")
  let program ← word? (← fields.lookup "program")
  let completion ← Completion.ofJson? (← fields.lookup "event")
  some { sequence, program, completion }

def text (e : Envelope) : List Char := e.toJson.text

def read? (s : List Char) : Option Envelope := (Json.read? s).bind ofJson?

end Envelope

namespace Directive

def toJson (d : Directive) : Value :=
  match d with
  | .setOptionalStop enabled =>
    .record [("directive", .ofString d.name), ("enabled", .bool enabled)]
  | d => .record [("directive", .ofString d.name)]

/-- The deepest nesting of a value from which a directive is read. -/
def nestingLimit : Nat := 127

/-- The argument in the record of a directive that has one. -/
def argument? (v : Value) : Option Bool :=
  match v with
  | .array [_, enabled] => enabled.bool?
  | .object members => do
    let fields ← Value.knownMembers ["enabled"] members
    (← fields.lookup "enabled").bool?
  | _ => none

/-- The name in the record of a directive. -/
def tag? (v : Value) : Option String :=
  match v with
  | .array (tag :: _) => tag.string?
  | .object members => do
    let fields ← Value.knownMembers ["directive"] members
    (← fields.lookup "directive").string?
  | _ => none

/-- Items behind the name are arguments; there must be none that are not wanted. -/
def surplus : Value → Bool
  | .array items => 1 < items.length
  | _ => false

def ofJson? (v : Value) : Option Directive := do
  if ¬ v.isPlain ∨ nestingLimit < v.depth then none
  match ← ofName? (← tag? v) (argument? v) with
  | .setOptionalStop enabled => some (.setOptionalStop enabled)
  | d => if surplus v then none else some d

end Directive

end ProgramControl
