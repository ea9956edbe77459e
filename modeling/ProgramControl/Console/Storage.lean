import ProgramControl.Settings.Source

/-!
# Files within reach

The console reads its settings from a file and may write completions to one.  What it can reach
is the files of its working directory, which has no directories in it, and a few fixed places.

* `Storage.read`         what is found under a path;
* `Storage.appendTo?`    where text goes that is appended under a path, if anywhere;
* `Storage.append`       append it.
-/

namespace ProgramControl.Console

/-- The files of the working directory, each with its text. -/
structure Storage where
  files : List (String × String) := []
  deriving DecidableEq, Repr

inductive Place where
  /-- a directory on the way is missing -/
  | nowhere
  /-- the path cannot be followed: it is too long or leads through a file -/
  | blocked
  | directory
  /-- a name in the working directory -/
  | entry (name : String)
  | nullDevice
  | standardOutput
  | standardError
  /-- a name in another directory -/
  | elsewhere
  deriving DecidableEq, Repr

namespace Place

/-- The longest name, in bytes. -/
def longestName : Nat := 255

/-- Paths are shorter than this, in bytes. -/
def pathBound : Nat := 4096

/-- What is found at the root under names without steps back. -/
def ofRooted : List String → Place
  | [] | ["dev"] | ["dev", "fd"] | ["tmp"] => .directory
  | ["dev", "null"] => .nullDevice
  | ["dev", "stdout"] | ["dev", "fd", "1"] => .standardOutput
  | ["dev", "stderr"] | ["dev", "fd", "2"] => .standardError
  | ["tmp", _] => .elsewhere
  | _ => .nowhere

/-- Where names lead from a directory with a path from the root.  Two dots are a step back, which
can be taken from a directory alone. -/
def walk (before : List String) : List String → Place
  | [] => ofRooted before
  | name :: rest =>
    if name ≠ ".." then walk (before ++ [name]) rest
    else match ofRooted before with
      | .directory => walk before.dropLast rest
      | .nowhere | .elsewhere => .nowhere
      | _ => .blocked

/-- A path that starts at the working directory. -/
def ofRelative (files : List String) : List String → Place
  | [] => .directory
  | [name] => if name = ".." then .directory else .entry name
  | name :: rest =>
    if name = ".." then
      if rest.all (· == "..") then .directory
      else match rest with
        | [_] => .elsewhere
        | _ => .nowhere
    else if files.contains name then .blocked
    else .nowhere

/-- What is found at a place if it has to be a directory. -/
def asDirectory (files : List String) : Place → Place
  | .directory => .directory
  | .entry name => if files.contains name then .blocked else .nowhere
  | .nullDevice | .standardOutput | .standardError => .blocked
  | .nowhere | .elsewhere => .nowhere
  | .blocked => .blocked

/-- Where a path leads.  Empty names and single dots in it say nothing, except that at the end
they ask for a directory. -/
def ofPath (files : List String) (path : String) : Place :=
  let names := path.splitOn "/"
  let parts := names.filter fun n => n != "" && n != "."
  let wantsDirectory := names.getLast? == some "" || names.getLast? == some "."
  if path.toList.contains '\x00' ∨ pathBound ≤ path.utf8ByteSize then .blocked
  else if path = "" then .nowhere
  else if names.any fun n => longestName < n.utf8ByteSize then .blocked
  else
    let place := if path.toList.head? = some '/' then walk [] parts else ofRelative files parts
    if wantsDirectory then place.asDirectory files else place

end Place

inductive Target where
  | standardOutput
  | file (name : String)
  /-- to a place that nobody here looks at -/
  | away
  deriving DecidableEq, Repr

namespace Storage

def place (s : Storage) (path : String) : Place := .ofPath (s.files.map Prod.fst) path

def read (s : Storage) (path : String) : FileState :=
  match s.place path with
  | .nowhere | .elsewhere => .absent
  | .blocked | .directory | .standardOutput | .standardError => .unreadable
  | .nullDevice => .contents .empty
  | .entry name =>
    match s.files.lookup name with
    | some text => .contents text.toUTF8
    | none => .absent

def appendTo? (s : Storage) (path : String) : Option Target :=
  match s.place path with
  | .nowhere | .blocked | .directory => none
  | .entry name => some (.file name)
  | .standardOutput => some .standardOutput
  | .nullDevice | .standardError | .elsewhere => some .away

/-- Append text to a file, which is made if it is not there. -/
def append (name text : String) (s : Storage) : Storage :=
  match s.files.lookup name with
  | none => { files := s.files ++ [(name, text)] }
  | some _ => { files := s.files.map fun f => if f.1 = name then (f.1, f.2 ++ text) else f }

end Storage

end ProgramControl.Console
