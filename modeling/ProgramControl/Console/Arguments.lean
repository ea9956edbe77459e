import ProgramControl.Text.Blank

/-!
# Command-line arguments

| argument                  | effect                                        |
|---------------------------|-----------------------------------------------|
| `-c`, `--config` FILE     | take the settings from a file                 |
| `-v`, `--verbose`         | log more                                      |
| `--json`                  | log as JSON                                   |
| `--print-default-config`  | write the standard settings and stop          |
| `-V`, `--version`         | write name and version and stop               |
| `-h`, `--help`            | write what arguments there are and stop       |

A value stands in the next argument or, behind an equals sign, in the same one; behind `-c` the
equals sign may be left out.  Letters may share one dash.  Arguments are looked at in order: what
stops the program does so before a later argument is found wrong.
-/

namespace ProgramControl.Console

structure Options where
  config : Option String := none
  verbose : Bool := false
  json : Bool := false
  printDefault : Bool := false
  deriving DecidableEq, Repr

inductive Invocation where
  | start (options : Options)
  | showVersion
  | showHelp
  deriving DecidableEq, Repr

inductive ArgumentFault where
  /-- nothing has this name, or a value stands alone -/
  | unexpected (argument : String)
  | missingValue (name : String)
  | unexpectedValue (name : String)
  | repeated (name : String)
  deriving DecidableEq, Repr

def ArgumentFault.message : ArgumentFault → String
  | .unexpected argument => "unexpected argument '" ++ argument ++ "'"
  | .missingValue name => "a value is required for '" ++ name ++ "'"
  | .unexpectedValue name => "unexpected value for '" ++ name ++ "'"
  | .repeated name => "the argument '" ++ name ++ "' cannot be used multiple times"

inductive Item where
  | config
  | verbose
  | json
  | printDefault
  | version
  | help
  deriving DecidableEq, Repr

namespace Item

def ofName? : String → Option Item
  | "config" => some .config
  | "verbose" => some .verbose
  | "json" => some .json
  | "print-default-config" => some .printDefault
  | "version" => some .version
  | "help" => some .help
  | _ => none

def ofLetter? : Char → Option Item
  | 'c' => some .config
  | 'v' => some .verbose
  | 'V' => some .version
  | 'h' => some .help
  | _ => none

end Item

namespace Options

def withConfig (path : List Char) (o : Options) : Except ArgumentFault Options :=
  if path.isEmpty then .error (.missingValue "--config")
  else if o.config.isSome then .error (.repeated "--config")
  else .ok { o with config := some (String.ofList path) }

def withVerbose (o : Options) : Except ArgumentFault Options :=
  if o.verbose then .error (.repeated "--verbose") else .ok { o with verbose := true }

def withJson (o : Options) : Except ArgumentFault Options :=
  if o.json then .error (.repeated "--json") else .ok { o with json := true }

def withPrintDefault (o : Options) : Except ArgumentFault Options :=
  if o.printDefault then .error (.repeated "--print-default-config")
  else .ok { o with printDefault := true }

end Options

inductive Progress where
  | next (options : Options)
  /-- the value of `--config` is in the next argument -/
  | awaitConfig (options : Options)
  | stop (invocation : Invocation)

namespace Progress

def ofItem (o : Options) : Item → Except ArgumentFault Progress
  | .config => .ok (.awaitConfig o)
  | .verbose => o.withVerbose.map .next
  | .json => o.withJson.map .next
  | .printDefault => o.withPrintDefault.map .next
  | .version => .ok (.stop .showVersion)
  | .help => .ok (.stop .showHelp)

def ofLetters (o : Options) : List Char → Except ArgumentFault Progress
  | [] => .ok (.next o)
  | c :: cs =>
    match Item.ofLetter? c, cs with
    | none, _ => .error (.unexpected (String.ofList ['-', c]))
    | some .config, '=' :: path => (o.withConfig path).map .next
    | some .config, p :: path => (o.withConfig (p :: path)).map .next
    | some item, cs => do
      match ← ofItem o item with
      | .next o => ofLetters o cs
      | progress => .ok progress

/-- A name behind two dashes, with or without a value. -/
def ofLong (o : Options) (argument : List Char) : Except ArgumentFault Progress :=
  let name := String.ofList (argument.takeWhile (· != '='))
  match Item.ofName? name, argument.dropWhile (· != '=') with
  | none, _ => .error (.unexpected ("--" ++ name))
  | some item, [] => ofItem o item
  | some .config, _ :: path => (o.withConfig path).map .next
  | some _, _ :: _ => .error (.unexpectedValue ("--" ++ name))

def ofArgument (o : Options) (argument : String) : Except ArgumentFault Progress :=
  match argument.toList with
  | '-' :: '-' :: name => ofLong o name
  | '-' :: c :: cs => ofLetters o (c :: cs)
  | _ => .error (.unexpected argument)

end Progress

/-- The argument can be a value: it does not start with a dash, or is nothing but one. -/
def isValue (argument : String) : Bool :=
  match argument.toList with
  | '-' :: _ :: _ => false
  | _ => true

namespace Invocation

/-- What arguments ask for, given what those before them have set.  Two dashes alone end the
options, and nothing may follow them. -/
def ofArgumentsAfter (o : Options) : List String → Except ArgumentFault Invocation
  | [] => .ok (.start o)
  | ["--"] => .ok (.start o)
  | "--" :: argument :: _ => .error (.unexpected argument)
  | argument :: rest => do
    match ← Progress.ofArgument o argument with
    | .next o => ofArgumentsAfter o rest
    | .stop invocation => .ok invocation
    | .awaitConfig o =>
      match rest with
      | [] => .error (.missingValue "--config")
      | path :: rest =>
        if isValue path then ofArgumentsAfter (← o.withConfig path.toList) rest
        else .error (.missingValue "--config")

def ofArguments (arguments : List String) : Except ArgumentFault Invocation :=
  ofArgumentsAfter {} arguments

end Invocation

end ProgramControl.Console
