import ProgramControl.Completion.Courier
import ProgramControl.Wire

/-!
# Completions as lines of text

Envelopes are written to an output one JSON object a line, and the output is flushed after each.
A write that fails part way leaves a fragment of a line; then the output is torn, and the next
record starts on a line of its own, so that a reader who skips lines that are no envelope loses
nothing.

The output's behaviour is a list of answers to the writes to come; when the list is used up,
everything is accepted.  Records are ASCII, so a character is a byte.

* `LineOutput.deliver`   one delivery;
* `envelopesIn`          the reader's view of what was written.
-/

namespace ProgramControl

/-- What the output answers to one write of some characters. -/
inductive WriteAnswer where
  /-- it takes so many of them, or all if there are fewer -/
  | accepts (n : Nat)
  /-- nothing was written; try again -/
  | interrupted
  | fails (text : String)
  deriving DecidableEq, Repr

/-- What is behind an output: the answers to come and what was accepted so far. -/
structure Output where
  writes : List WriteAnswer := []
  /-- answers to flushes: the text of a failure or none -/
  flushes : List (Option String) := []
  written : List Char := []
  deriving DecidableEq, Repr

namespace Output

/-- The text of a write that is accepted without taking anything. -/
def wroteNothing : String := "write zero"

/-- Write all of a record.  The answer is what was accepted of it, the failure that ended the
writing, and the answers left over. -/
def writeAll : List WriteAnswer → List Char → List Char × Option String × List WriteAnswer
  | answers, [] => ([], none, answers)
  | [], record => (record, none, [])
  | .interrupted :: answers, record => writeAll answers record
  | .fails text :: answers, _ => ([], some text, answers)
  | .accepts 0 :: answers, _ :: _ => ([], some wroteNothing, answers)
  | .accepts (n + 1) :: answers, record =>
    let rest := writeAll answers (record.drop (n + 1))
    (record.take (n + 1) ++ rest.1, rest.2)

/-- Write a record; the answer is what was accepted of it and the failure, if any. -/
def write (record : List Char) (o : Output) : (List Char × Option String) × Output :=
  let (accepted, failure, writes) := writeAll o.writes record
  ((accepted, failure), { o with writes, written := o.written ++ accepted })

def flush (o : Output) : Option String × Output :=
  match o.flushes with
  | [] => (none, o)
  | answer :: flushes => (answer, { o with flushes })

end Output

structure LineOutput where
  output : Output
  /-- what was written ends in the middle of a line -/
  torn : Bool := false
  deriving DecidableEq, Repr

namespace LineOutput

/-- Answers to come.  An attempt that fails uses one of them up. -/
def answersLeft (l : LineOutput) : Nat := l.output.writes.length + l.output.flushes.length

def record (torn : Bool) (e : Envelope) : List Char :=
  (if torn then ['\n'] else []) ++ e.text ++ ['\n']

/-- The output is torn after a write that failed: it is unchanged if nothing was accepted. -/
def tornAfter (torn : Bool) (accepted : List Char) : Bool :=
  match accepted.getLast? with
  | none => torn
  | some c => c != '\n'

def deliver (e : Envelope) (l : LineOutput) : Except DeliveryFault Unit × LineOutput :=
  match l.output.write (record l.torn e) with
  | ((accepted, some text), output) =>
    (.error (.write text), { output, torn := tornAfter l.torn accepted })
  | ((_, none), output) =>
    match output.flush with
    | (some text, output) => (.error (.write text), { output, torn := false })
    | (none, output) => (.ok (), { output, torn := false })

def receiver : Receiver LineOutput where
  ready _ := true
  deliver e l :=
    match l.deliver e with
    | (.ok (), l) => (.accepted, l)
    | (.error fault, l) => (.failed fault, l)

end LineOutput

/-- The lines of a text.  What follows the last line end is a line too. -/
def linesOf : List Char → List (List Char)
  | [] => [[]]
  | '\n' :: s => [] :: linesOf s
  | c :: s =>
    match linesOf s with
    | [] => [[c]]
    | l :: ls => (c :: l) :: ls

/-- The envelopes that a reader finds who skips every line that is none. -/
def envelopesIn (s : List Char) : List Envelope := (linesOf s).filterMap Envelope.read?

end ProgramControl
