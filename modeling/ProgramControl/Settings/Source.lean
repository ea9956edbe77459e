import ProgramControl.Roster
import ProgramControl.Settings.Document

/-!
# Settings from a file

A file of settings is read as UTF-8 text.  A path that leads nowhere is told apart from a file
that is there and of no use.

Settings of the right types can still be of no use.  `Settings.validate` finds the first thing
that is wrong, in the order in which settings are listed; names of outputs are looked at one by
one.
-/

namespace ProgramControl

inductive SettingFault where
  | blankServiceName
  | zeroChannelDepth
  | zeroQueueDepth
  | zeroAlertAfter
  | blankOutput
  | tooManyOutputs (count : Nat)
  | blankOutputName
  | repeatedOutputName (name : String)
  deriving DecidableEq, Repr

namespace SettingFault

def message : SettingFault → String
  | .blankServiceName => "shared.service_name cannot be empty"
  | .zeroChannelDepth => "program.directive_queue_depth must be > 0"
  | .zeroQueueDepth => "notifier.queue_depth must be > 0"
  | .zeroAlertAfter => "notifier.alert_after_attempts must be >= 1"
  | .blankOutput => "notifier.output cannot be empty"
  | .tooManyOutputs count =>
    s!"auxiliary.shutdown_outputs has {count} entries, max {Roster.capacity}"
  | .blankOutputName => "auxiliary.shutdown_outputs contains an empty name"
  | .repeatedOutputName name => "auxiliary.shutdown_outputs lists '" ++ name ++ "' twice"

end SettingFault

inductive ConfigFault where
  | notFound (path : String)
  /-- the file cannot be read, or its text does not describe settings -/
  | unreadable (detail : String)
  /-- the settings are of no use -/
  | invalid (reason : String)
  deriving DecidableEq, Repr

def ConfigFault.message : ConfigFault → String
  | .notFound path => "Configuration file not found: " ++ path
  | .unreadable detail => "Failed to parse configuration: " ++ detail
  | .invalid reason => "Configuration validation failed: " ++ reason

def isBlankName (name : String) : Bool := Text.isBlankText name.toList

/-- The first name that is blank or stands among those before it. -/
def outputNamesFault? : (before : List String) → List String → Option SettingFault
  | _, [] => none
  | before, name :: names =>
    if isBlankName name then some .blankOutputName
    else if before.contains name then some (.repeatedOutputName name)
    else outputNamesFault? (name :: before) names

namespace Settings

/-- The first thing that is wrong with the settings. -/
def fault? (s : Settings) : Option SettingFault :=
  if isBlankName s.shared.serviceName then some .blankServiceName
  else if s.program.channelDepth = 0 then some .zeroChannelDepth
  else if s.notifier.queueDepth = 0 then some .zeroQueueDepth
  else if s.notifier.alertAfter = 0 then some .zeroAlertAfter
  else if isBlankName s.notifier.output then some .blankOutput
  else if Roster.capacity < s.auxiliary.outputs.length then
    some (.tooManyOutputs s.auxiliary.outputs.length)
  else outputNamesFault? [] s.auxiliary.outputs

def validate (s : Settings) : Except ConfigFault Unit :=
  match s.fault? with
  | none => .ok ()
  | some fault => .error (.invalid fault.message)

end Settings

/-! ## What is found under a path -/

/-- What is found under a path. -/
inductive FileState where
  | absent
  /-- there is something, but it cannot be read as a file -/
  | unreadable
  | contents (bytes : ByteArray)

namespace Settings

/-- Settings from TOML text, right types or not at all. -/
def parse (s : String) : Except ConfigFault Settings :=
  match ofToml? s.toList with
  | some settings => .ok settings
  | none => .error (.unreadable "not a description of settings")

def validated (s : Settings) : Except ConfigFault Settings := do
  s.validate
  return s

def parseValidated (s : String) : Except ConfigFault Settings := do
  (← parse s).validated

/-- Valid settings from what is found under a path. -/
def load (path : String) : FileState → Except ConfigFault Settings
  | .absent => .error (.notFound path)
  | .unreadable => .error (.unreadable (path ++ ": cannot be read"))
  | .contents bytes =>
    match String.fromUTF8? bytes with
    | some s => parseValidated s
    | none => .error (.unreadable (path ++ ": not UTF-8"))

end Settings

end ProgramControl
