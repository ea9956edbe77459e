import ProgramControl.Settings.Basic
import ProgramControl.Toml.Quoted

/-!
# Settings as TOML text

The written form of settings: the four groups in order, each as a table with all its settings, and
an empty line between two groups.
-/

namespace ProgramControl.Settings

/-- A list of texts: none or one between brackets, or more with one item a line. -/
def writtenTexts : List String → List Char
  | [] => "[]".toList
  | [s] => '[' :: (Toml.quoted s.toList ++ [']'])
  | items =>
    let line (s : String) := "    ".toList ++ Toml.quoted s.toList ++ ",\n".toList
    "[\n".toList ++ items.flatMap line ++ "]".toList

def writtenNat (n : Nat) : List Char := Nat.toDigits 10 n

def writtenBool (b : Bool) : List Char := (if b then "true" else "false").toList

/-- One setting on a line, where its value takes no more. -/
def writtenEntry (name : String) (value : List Char) : List Char :=
  name.toList ++ " = ".toList ++ value ++ "\n".toList

def writtenTable (name : String) (entries : List (String × List Char)) : List Char :=
  "[".toList ++ name.toList ++ "]\n".toList ++ entries.flatMap fun e => writtenEntry e.1 e.2

/-- The groups of the settings with the written forms of their values. -/
def groups (s : Settings) : List (String × List (String × List Char)) :=
  [("shared",
      [("log_level", Toml.quoted s.shared.logLevel.name.toList),
       ("service_name", Toml.quoted s.shared.serviceName.toList)]),
   ("program",
      [("optional_stop_enabled", writtenBool s.program.optionalStop),
       ("directive_queue_depth", writtenNat s.program.channelDepth.toNat)]),
   ("notifier",
      [("queue_depth", writtenNat s.notifier.queueDepth.toNat),
       ("alert_after_attempts", writtenNat s.notifier.alertAfter.toNat),
       ("retry_backoff_ms", writtenNat s.notifier.firstBackoff.toNat),
       ("output", Toml.quoted s.notifier.output.toList)]),
   ("auxiliary", [("shutdown_outputs", writtenTexts s.auxiliary.outputs)])]

def toToml (s : Settings) : List Char :=
  "\n".toList.intercalate (s.groups.map fun g => writtenTable g.1 g.2)

end ProgramControl.Settings
