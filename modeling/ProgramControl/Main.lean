import ProgramControl.Console.Visit

/-!
# The console program

The outermost layer: it hands the arguments, files and streams of a process to the console and
shows what comes back.  Completions go to standard output or a file as soon as they are written,
all else to standard error.
-/

open ProgramControl ProgramControl.Console

namespace ProgramControl.Main

def fileState (path : String) : IO FileState := do
  try
    return .contents (← IO.FS.readBinFile path)
  catch
    | .noFileOrDirectory .. => return .absent
    | _ => return .unreadable

/-- What is found under the path that the arguments take settings from. -/
def configState (arguments : List String) : IO FileState :=
  match Invocation.ofArguments arguments with
  | .ok (.start options) =>
    match options.config with
    | some path => fileState path
    | none => return .absent
  | _ => return .absent

/-- Where lines come from and completions go, and how the log is shown. -/
structure Streams where
  input : IO.FS.Stream
  target : IO.FS.Stream
  style : LogStyle

/-- Show what a session has logged, said and written since an earlier moment. -/
def display (streams : Streams) (before after : Session) : IO Unit := do
  let log (s : Session) := s.system.plant.log
  let courierLog (s : Session) := s.system.plant.courier.log
  for line in streams.style.lines ((log after).drop (log before).length ++
      (courierLog after).drop (courierLog before).length) do
    IO.eprintln line
  for r in after.responses.drop before.responses.length do
    IO.eprintln r.text
  let fresh := after.output.output.written.drop before.output.output.written.length
  unless fresh.isEmpty do
    streams.target.putStr (String.ofList fresh)
    streams.target.flush

/-- The next line, none at the end of the input and where it is no text. -/
def nextLine (input : IO.FS.Stream) : IO (Option (List Char)) := do
  try
    let line := (← input.getLine).toList
    return if line.isEmpty then none else some (line.takeWhile (· != '\n'))
  catch _ => return none

/-- Feed a session with lines up to the end of the input. -/
partial def converse (streams : Streams) (s : Session) : IO Session := do
  match ← nextLine streams.input with
  | none => return s
  | some line =>
    let after := s.feed line
    display streams s after
    converse streams after

def carry (target : IO.FS.Stream) (style : LogStyle) (s : Session) : IO Unit := do
  let streams : Streams := { input := ← IO.getStdin, target, style }
  let s ← converse streams s
  display streams s s.finish

def fail (complaint : String) (exit : Nat) : IO UInt32 := do
  IO.eprintln complaint
  return exit.toUInt32

end ProgramControl.Main

def main (arguments : List String) : IO UInt32 := do
  let config ← Main.configState arguments
  match Opening.ofArguments (fun _ => config) (some ∘ Target.file) arguments with
  | .show text =>
    IO.print text
    return 0
  | .fail complaint exit => Main.fail complaint exit
  | .session s (.file path) style =>
    try
      let file ← IO.FS.Handle.mk path .append
      Main.carry (.ofHandle file) style s
      return 0
    catch e => Main.fail s!"{path}: {e}" 1
  | .session s _ style =>
    Main.carry (← IO.getStdout) style s
    return 0
