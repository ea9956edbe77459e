import ProgramControl.Json.Value
import ProgramControl.Settings.Basic
import ProgramControl.Toml.Reader

/-!
# Settings in a document

Settings come as a tree of named values, from TOML or from JSON.  A `Node` is what both have in
common; the two differ in little (`Dialect`), so settings are taken from a tree by one function,
`Settings.ofNode?`.

A group of settings is a table.  What is missing keeps its standard value, except that a table of
shared settings must name the service.  A known name is given once.  A name that is not known is
refused, except among the shared settings, where its value must only be well made.  Instead of a
table there may be a list of the values in their usual order; what is behind them is not looked at.
-/

namespace ProgramControl

namespace Settings

inductive Node where
  | truth (b : Bool)
  | integer (n : Int)
  | text (s : String)
  | list (items : List Node)
  | table (entries : List (String × Node))
  | null
  /-- any other value, and an object with a name that is no text -/
  | other
  /-- a literal with the form of a number that is none -/
  | noNumber
  deriving Repr, Inhabited

/-! ## Trees from the two kinds of documents -/

mutual
def Node.ofToml : Toml.Value → Node
  | .text s => .text s
  | .integer n => .integer n
  | .truth b => .truth b
  | .array items => .list (itemsOfToml items)
  | .table entries => .table (entriesOfToml entries)
  | .real _ | .moment _ => .other
  | .noNumber _ => .noNumber

def itemsOfToml : List Toml.Value → List Node
  | [] => []
  | v :: vs => .ofToml v :: itemsOfToml vs

def entriesOfToml : List (String × Toml.Value) → List (String × Node)
  | [] => []
  | (k, v) :: es => (k, .ofToml v) :: entriesOfToml es
end

mutual
def Node.ofJson : Json.Value → Node
  | .null => .null
  | .bool b => .truth b
  | .number n =>
    match n.nat? with
    | some n => .integer n
    | none => .other
  | .string (some s) => .text s
  | .string none => .other
  | .array items => .list (itemsOfJson items)
  | .object members =>
    match membersOfJson members with
    | some entries => .table entries
    | none => .other

def itemsOfJson : List Json.Value → List Node
  | [] => []
  | v :: vs => .ofJson v :: itemsOfJson vs

/-- The members of an object.  Every name must be a text. -/
def membersOfJson : List (Option String × Json.Value) → Option (List (String × Node))
  | [] => some []
  | (some k, v) :: ms => (membersOfJson ms).map ((k, .ofJson v) :: ·)
  | (none, _) :: _ => none
end

mutual
/-- What has the form of a number is one, throughout the tree. -/
def Node.isWhole : Node → Bool
  | .noNumber => false
  | .list items => allWhole items
  | .table entries => allEntriesWhole entries
  | _ => true

def allWhole : List Node → Bool
  | [] => true
  | n :: ns => n.isWhole && allWhole ns

def allEntriesWhole : List (String × Node) → Bool
  | [] => true
  | (_, n) :: es => n.isWhole && allEntriesWhole es
end

/-! ## Values -/

inductive Dialect where
  | toml
  | json
  deriving DecidableEq, Repr

namespace Dialect

/-- The value that stands for no content where a choice is given as a table of one name. -/
def isNothing : Dialect → Node → Bool
  | .json, .null | .toml, .table [] | .toml, .list [] => true
  | _, _ => false

/-- A list of values by place may be longer than there are places. -/
def allowsSurplus : Dialect → Bool
  | .toml => true
  | .json => false

end Dialect

def Node.truth? : Node → Option Bool
  | .truth b => some b
  | _ => none

def Node.text? : Node → Option String
  | .text s => some s
  | _ => none

def Node.nat? (bound : Nat) : Node → Option Nat
  | .integer (.ofNat n) => if n < bound then some n else none
  | _ => none

def Node.word64? (n : Node) : Option UInt64 := (n.nat? UInt64.size).map UInt64.ofNat

def Node.word32? (n : Node) : Option UInt32 := (n.nat? UInt32.size).map UInt32.ofNat

def Node.texts? : Node → Option (List String)
  | .list items => items.mapM Node.text?
  | _ => none

/-- A log level: its name, or a table with that name alone. -/
def Node.logLevel? (dialect : Dialect) : Node → Option LogLevel
  | .text s => LogLevel.ofName? s
  | .table [(name, content)] => if dialect.isNothing content then LogLevel.ofName? name else none
  | _ => none

/-! ## Groups -/

/-- The groups in their usual order. -/
def groupNames : List String := ["shared", "program", "notifier", "auxiliary"]

def sharedNames : List String := ["log_level", "service_name"]

def programNames : List String := ["optional_stop_enabled", "directive_queue_depth"]

def notifierNames : List String :=
  ["queue_depth", "alert_after_attempts", "retry_backoff_ms", "output"]

def auxiliaryNames : List String := ["shutdown_outputs"]

def fields? (dialect : Dialect) (names : List String) : Node → Option (List (String × Node))
  | .table entries => some entries
  | .list items =>
    if items.length ≤ names.length ∨ dialect.allowsSurplus then some (names.zip items) else none
  | _ => none

/-- The values of a group in which no other names may occur. -/
def strictFields? (dialect : Dialect) (names : List String) (n : Node) :
    Option (List (String × Node)) :=
  (fields? dialect names n).filter fun entries => entries.all fun e => names.contains e.1

/-- The values of a group in which other names may occur, if all of them are well made. -/
def looseFields? (dialect : Dialect) (names : List String) (n : Node) :
    Option (List (String × Node)) :=
  (fields? dialect names n).filter allEntriesWhole

/-- The values that stand under a name. -/
def valuesOf {β : Type} (name : String) (entries : List (String × β)) : List β :=
  (entries.filter (·.1 == name)).map Prod.snd

/-- A value that must be there, once. -/
def field {α : Type} (read : Node → Option α) (name : String) (entries : List (String × Node)) :
    Option α :=
  match valuesOf name entries with
  | [n] => read n
  | _ => none

/-- A value that need not be there, and must not be there twice. -/
def fieldOr {α : Type} (standard : α) (read : Node → Option α) (name : String)
    (entries : List (String × Node)) : Option α :=
  match valuesOf name entries with
  | [] => some standard
  | [n] => read n
  | _ => none

end Settings

open Settings (Node Dialect)

def SharedSettings.ofNode? (dialect : Dialect) (n : Node) : Option SharedSettings := do
  let entries ← Settings.looseFields? dialect Settings.sharedNames n
  let standard : SharedSettings := {}
  let logLevel ← Settings.fieldOr standard.logLevel (Node.logLevel? dialect) "log_level" entries
  let serviceName ← Settings.field Node.text? "service_name" entries
  some { logLevel, serviceName }

def ProgramSettings.ofNode? (dialect : Dialect) (n : Node) : Option ProgramSettings := do
  let entries ← Settings.strictFields? dialect Settings.programNames n
  let standard : ProgramSettings := {}
  let optionalStop ←
    Settings.fieldOr standard.optionalStop Node.truth? "optional_stop_enabled" entries
  let channelDepth ←
    Settings.fieldOr standard.channelDepth Node.word64? "directive_queue_depth" entries
  some { optionalStop, channelDepth }

def NotifierSettings.ofNode? (dialect : Dialect) (n : Node) : Option NotifierSettings := do
  let entries ← Settings.strictFields? dialect Settings.notifierNames n
  let standard : NotifierSettings := {}
  let queueDepth ← Settings.fieldOr standard.queueDepth Node.word64? "queue_depth" entries
  let alertAfter ← Settings.fieldOr standard.alertAfter Node.word32? "alert_after_attempts" entries
  let firstBackoff ← Settings.fieldOr standard.firstBackoff Node.word64? "retry_backoff_ms" entries
  let output ← Settings.fieldOr standard.output Node.text? "output" entries
  some { queueDepth, alertAfter, firstBackoff, output }

def AuxiliarySettings.ofNode? (dialect : Dialect) (n : Node) : Option AuxiliarySettings := do
  let entries ← Settings.strictFields? dialect Settings.auxiliaryNames n
  let standard : AuxiliarySettings := {}
  let outputs ← Settings.fieldOr standard.outputs Node.texts? "shutdown_outputs" entries
  some { outputs }

namespace Settings

def ofNode? (dialect : Dialect) (n : Node) : Option Settings := do
  let entries ← strictFields? dialect groupNames n
  let shared ← fieldOr {} (SharedSettings.ofNode? dialect) "shared" entries
  let program ← fieldOr {} (ProgramSettings.ofNode? dialect) "program" entries
  let notifier ← fieldOr {} (NotifierSettings.ofNode? dialect) "notifier" entries
  let auxiliary ← fieldOr {} (AuxiliarySettings.ofNode? dialect) "auxiliary" entries
  some { shared, program, notifier, auxiliary }

def ofJson? (v : Json.Value) : Option Settings := ofNode? .json (.ofJson v)

def ofToml? (s : List Char) : Option Settings := do
  ofNode? .toml (.table (entriesOfToml (← Toml.read? s)))

end Settings

end ProgramControl
