import ProgramControl.Console.Arguments
import ProgramControl.Console.Session
import ProgramControl.Console.Storage
import ProgramControl.Settings.Written

/-!
# A visit to the console

A visit goes from the command line to the exit code: arguments, settings, a session fed with
input, and what is left behind.  Input that is no UTF-8 text ends the session like the end of the
input does.

* `Opening.ofArguments`   what the arguments and the settings lead to;
* `visit`                 a whole visit.
-/

namespace ProgramControl.Console

def versionText : String := "cnc_control 0.1.0\n"

def helpText : String :=
  "Program-control console for a CNC motion system\n\n" ++
  "Usage: cnc_control [OPTIONS]\n\n" ++
  "Options:\n" ++
  "  -c, --config <FILE>         Path to control.toml. Defaults apply when omitted\n" ++
  "  -v, --verbose               Enable verbose logging (DEBUG level)\n" ++
  "      --json                  Output logs in JSON format\n" ++
  "      --print-default-config  Print the default configuration as TOML and exit\n" ++
  "  -h, --help                  Print help\n" ++
  "  -V, --version               Print version\n"

structure LogStyle where
  least : Severity
  json : Bool
  deriving DecidableEq, Repr

namespace LogStyle

/-- The least severity that a log level shows. -/
def leastOf : LogLevel → Severity
  | .trace | .debug => .debug
  | .info => .info
  | .warn => .warn
  | .error => .error

def ofOptions (options : Options) (settings : Settings) : LogStyle :=
  { least := if options.verbose then .debug else leastOf settings.shared.logLevel
    json := options.json }

def lines (style : LogStyle) (log : List Entry) : List String :=
  if style.json then
    (log.filter (·.atLeast style.least)).map fun e => String.ofList (Json.Value.record
      [("level", .ofString e.severity.name), ("message", .ofString e.text)]).text
  else logLines style.least log

end LogStyle

inductive Opening where
  /-- write a text and stop -/
  | show (text : String)
  /-- stop with a complaint and an exit code -/
  | fail (complaint : String) (exit : Nat)
  | session (session : Session) (target : Target) (style : LogStyle)

namespace Opening

/-- The memory that one place in a queue takes, in bytes. -/
def placeSize : Nat := 32

/-- A queue with so many places can be made: its size is a signed word. -/
def hasRoomFor (places : UInt64) : Bool := places.toNat * placeSize < Nat.pow 2 63

/-- The queues that settings ask for can be made. -/
def hasRoom (settings : Settings) : Bool :=
  hasRoomFor settings.notifier.queueDepth && hasRoomFor settings.program.channelDepth

/-- The session with valid settings.  One whose queues cannot be made breaks down. -/
def sessionWith (settings : Settings) (outputs : Roster) (target : Target) (style : LogStyle) :
    Opening :=
  if hasRoom settings then .session (.start settings outputs) target style
  else .fail "a queue is too large" 101

def ofSettings (appendTo? : String → Option Target) (style : LogStyle) (settings : Settings) :
    Opening :=
  match Roster.ofNames settings.auxiliary.outputs with
  | .error fault => .fail fault.message 1
  | .ok outputs =>
    match settings.notifier.outputPath? with
    | none => sessionWith settings outputs .standardOutput style
    | some path =>
      match appendTo? path with
      | none => .fail (path ++ ": cannot be opened") 1
      | some target => sessionWith settings outputs target style

def settings (read : String → FileState) (options : Options) : Except ConfigFault Settings :=
  match options.config with
  | none => .ok {}
  | some path => Settings.load path (read path)

/-- What arguments lead to, where `read` and `appendTo?` look at files. -/
def ofArguments (read : String → FileState) (appendTo? : String → Option Target)
    (arguments : List String) : Opening :=
  match Invocation.ofArguments arguments with
  | .error fault => .fail fault.message 2
  | .ok .showVersion => .show versionText
  | .ok .showHelp => .show helpText
  | .ok (.start options) =>
    if options.printDefault then .show (String.ofList ({} : Settings).toToml)
    else match settings read options with
      | .error fault => .fail fault.message 1
      | .ok settings => ofSettings appendTo? (.ofOptions options settings) settings

end Opening

inductive Input where
  /-- a line, without its end -/
  | line (bytes : ByteArray)
  | interrupt

/-- Feed a session.  The answer is the response to each input, where there is one. -/
def feedAll : Session → List Input → List (Option Response) × Session
  | s, [] => ([], s)
  | s, .interrupt :: inputs => (none :: inputs.map fun _ => none, s.interrupt)
  | s, .line bytes :: inputs =>
    match String.fromUTF8? bytes with
    | none => (none :: inputs.map fun _ => none, s)
    | some line =>
      let after := s.feed line.toList
      let (responses, last) := feedAll after inputs
      (after.responses[s.responses.length]? :: responses, last)

structure Report where
  exit : Nat
  responses : List (Option Response)
  standardOutput : String
  storage : Storage

/-- What was written goes to its target. -/
def deposit (written : String) (storage : Storage) : Target → String × Storage
  | .standardOutput => (written, storage)
  | .file name => ("", storage.append name written)
  | .away => ("", storage)

def visit (storage : Storage) (arguments : List String) (inputs : List Input) : Report :=
  let unheard := inputs.map fun _ => none
  match Opening.ofArguments storage.read storage.appendTo? arguments with
  | .show text => ⟨0, unheard, text, storage⟩
  | .fail _ exit => ⟨exit, unheard, "", storage⟩
  | .session s target _ =>
    let (responses, s) := feedAll s inputs
    let (shown, storage) := deposit (String.ofList s.finish.output.output.written) storage target
    ⟨0, responses, shown, storage⟩

end ProgramControl.Console
