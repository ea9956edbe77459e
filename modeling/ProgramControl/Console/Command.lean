import ProgramControl.Directive
import ProgramControl.Text.Blank
import ProgramControl.Text.Number

/-!
# Console commands

A console line is a command word and its arguments, separated by blanks.

| word                              | command                                     |
|-----------------------------------|---------------------------------------------|
| `M0`                              | unconditional pause                         |
| `M1`                              | optional pause                              |
| `M2`                              | program end                                 |
| `M30`                             | program end with repeat                     |
| `M112`, `ESTOP`                   | emergency stop                              |
| `RESUME`                          | the job was resumed                         |
| `SET_OPTIONAL_STOP` `ENABLE=0/1`  | set the optional-stop flag, on by default   |
| `NEW_PROGRAM`                     | begin a new program                         |
| `STATUS`                          | show the state                              |
| `MOVE` milliseconds               | admit a simulated move                      |

The case of ASCII letters does not matter in the word and in `ENABLE`.  Words behind the first
argument are not looked at.
-/

namespace ProgramControl.Console

inductive Command where
  | directive (d : Directive)
  | newProgram
  /-- a move that takes so many milliseconds -/
  | move (ms : Nat)
  | status
  deriving DecidableEq, Repr

inductive CommandFault where
  | empty
  | unknown (word : String)
  | invalidArgument (word argument : String)
  | missingArgument (word : String)
  deriving DecidableEq, Repr

def CommandFault.message : CommandFault → String
  | .empty => "empty command"
  | .unknown word => "unknown command '" ++ word ++ "'"
  | .invalidArgument word argument => word ++ ": invalid argument '" ++ argument ++ "'"
  | .missingArgument word => word ++ ": missing argument"

namespace Command

/-- The command is carried out ahead of all others. -/
def isEmergency : Command → Bool
  | .directive d => d.isEmergency
  | _ => false

def splitAssignment? : List Char → Option (List Char × List Char)
  | [] => none
  | '=' :: s => some ([], s)
  | c :: s => (splitAssignment? s).map fun (key, value) => (c :: key, value)

def enable? (argument : List Char) : Option Bool :=
  match splitAssignment? argument with
  | some (key, value) =>
    if Text.sameLetters key "ENABLE".toList then
      if value = ['1'] then some true
      else if value = ['0'] then some false
      else none
    else none
  | none => none

/-- The milliseconds of a move: an optional plus sign and digits, below 2⁶⁴. -/
def milliseconds? (argument : List Char) : Option Nat :=
  (Text.Natural.read? (match argument with
    | '+' :: s => s
    | s => s)).filter (· < UInt64.size)

/-- The words that stand for a command by themselves. -/
def plainWords : List (String × Command) :=
  [("M0", .directive .pauseUnconditional),
   ("M1", .directive .pauseOptional),
   ("M2", .directive .programEnd),
   ("M30", .directive .programEndRepeat),
   ("M112", .directive .emergencyStop),
   ("ESTOP", .directive .emergencyStop),
   ("RESUME", .directive .resumeObserved),
   ("NEW_PROGRAM", .newProgram),
   ("STATUS", .status)]

def ofSetting (word : String) : Option (List Char) → Except CommandFault Command
  | none => .ok (.directive (.setOptionalStop true))
  | some a =>
    match enable? a with
    | some enabled => .ok (.directive (.setOptionalStop enabled))
    | none => .error (.invalidArgument word (String.ofList a))

def ofMove (word : String) : Option (List Char) → Except CommandFault Command
  | none => .error (.missingArgument word)
  | some a =>
    match milliseconds? a with
    | some ms => .ok (.move ms)
    | none => .error (.invalidArgument word (String.ofList a))

/-- The command of a word in capitals and the first argument, where there is one. -/
def ofWord (word : String) (argument : Option (List Char)) : Except CommandFault Command :=
  match plainWords.lookup word with
  | some command => .ok command
  | none =>
    if word = "SET_OPTIONAL_STOP" then ofSetting word argument
    else if word = "MOVE" then ofMove word argument
    else .error (.unknown word)

def ofLine (line : List Char) : Except CommandFault Command :=
  match Text.words line with
  | [] => .error .empty
  | word :: arguments => ofWord (String.ofList (Text.upper word)) arguments.head?

theorem ofWord_ne_empty (word : String) (argument : Option (List Char)) :
    ofWord word argument ≠ .error .empty := by
  unfold ofWord ofSetting ofMove
  split
  · simp
  · split
    · split
      · simp
      · split <;> simp
    · split
      · split
        · simp
        · split <;> simp
      · simp

theorem ofLine_eq_empty_iff {line : List Char} :
    ofLine line = .error .empty ↔ Text.isBlankText line = true := by
  rw [← Text.words_eq_nil_iff]
  unfold ofLine
  split
  · next h => exact iff_of_true rfl h
  · next h => exact iff_of_false (ofWord_ne_empty _ _) (by simp [h])

end Command

end ProgramControl.Console
