import ProgramControl.Toml.Quoted
import ProgramControl.Toml.Table

/-!
# Reading TOML text

A document is a list of lines: headers of tables, keys with values, and lines without content.  A
line stands alone, except that a value may go over several lines where it is bracketed or quoted
three times.  The lines, one after the other, build the document's tables: keys go to the table of
the last header in front of them, and to the document itself before the first header.

The readers take the text from where they stand and give back what they leave.  Fuel bounds the
calls below one another, as for other readers of nested text: each call stands for a character of
its own or follows directly on one that does.

* `line?`   the line in front of a text;
* `lines?`  all lines of a text;
* `read?`   the entries of the document written in a text.
-/

namespace ProgramControl.Toml

/-! ## White space and comments -/

def isSpace (c : Char) : Bool := c == ' ' || c == '\t'

def skipSpaces (s : List Char) : List Char := s.dropWhile isSpace

/-- Blanks, line ends and comments, as they may stand between brackets.  A comment holds plain
characters only (`comment` tells that the reader is within one). -/
def skipGap? : (comment : Bool) → List Char → Option (List Char)
  | _, [] => some []
  | _, '\n' :: r => skipGap? false r
  | _, '\r' :: '\n' :: r => skipGap? false r
  | true, c :: r => if isPlain c then skipGap? true r else none
  | false, c :: r =>
    if isSpace c then skipGap? false r
    else if c = '#' then skipGap? true r
    else some (c :: r)

/-- The rest behind the end of a line, in front of which plain characters may stand if they are a
comment. -/
def endLine? : (comment : Bool) → List Char → Option (List Char)
  | _, [] => some []
  | _, '\n' :: r => some r
  | _, '\r' :: '\n' :: r => some r
  | true, c :: r => if isPlain c then endLine? true r else none
  | false, c :: r =>
    if isSpace c then endLine? false r
    else if c = '#' then endLine? true r
    else none

/-! ## Keys -/

/-- A character of a key without quotes. -/
def isBare (c : Char) : Bool := c.isAlphanum || c == '_' || c == '-'

def simpleKey? (s : List Char) : Option (String × List Char) :=
  match s with
  | '"' :: r => (basic? r).map fun (cs, r) => (String.ofList cs, r)
  | '\'' :: r => (literal? r).map fun (cs, r) => (String.ofList cs, r)
  | s =>
    match s.takeWhile isBare with
    | [] => none
    | key => some (String.ofList key, s.dropWhile isBare)

def keyLimit : Nat := 80

/-- A key with dots between so many parts at most.  Blanks around a dot are left out. -/
def keyWithin? : Nat → List Char → Option (List String × List Char)
  | 0, _ => none
  | parts + 1, s => do
    let (first, r) ← simpleKey? s
    match skipSpaces r with
    | '.' :: r =>
      let (more, r) ← keyWithin? parts (skipSpaces r)
      some (first :: more, r)
    | r => some ([first], r)

def key? (s : List Char) : Option (List String × List Char) := keyWithin? keyLimit s

/-! ## Values -/

/-- A character of a value without quotes or brackets: one that has no place of its own between
values. -/
def isScalarChar (c : Char) : Bool :=
  !(isSpace c || c == '\n' || c == '\r' || c == '#' || c == ',' || c == '=' ||
    c == '[' || c == ']' || c == '\x7b' || c == '\x7d')

/-- The literal of a value without quotes or brackets.  A date may be followed by a blank and a
time of day. -/
def scalarLiteral (s : List Char) : List Char × List Char :=
  let first := s.takeWhile isScalarChar
  match date? first, s.dropWhile isScalarChar with
  | some [], ' ' :: c :: r =>
    if c.isDigit then
      (first ++ ' ' :: (c :: r).takeWhile isScalarChar, (c :: r).dropWhile isScalarChar)
    else (first, ' ' :: c :: r)
  | _, rest => (first, rest)

/-- Arrays and inline tables are not nested deeper than this. -/
def nestingLimit : Nat := 80

mutual
def value? : (fuel depth : Nat) → List Char → Option (Value × List Char)
  | 0, _, _ => none
  | fuel + 1, depth, s =>
    match s with
    | '[' :: r =>
      if depth < nestingLimit then
        (items? fuel (depth + 1) r).map fun (vs, r) => (.array vs, r)
      else none
    | '\x7b' :: r =>
      if depth < nestingLimit then
        (members? fuel (depth + 1) [] r).map fun (es, r) => (.table (entriesToValues es), r)
      else none
    | '"' :: _ | '\'' :: _ => (quoted? s).map fun (cs, r) => (.text (String.ofList cs), r)
    | s =>
      let (literal, r) := scalarLiteral s
      (scalar? literal).map fun v => (v, r)

/-- The items of an array and its closing bracket.  A comma may stand behind the last item. -/
def items? : (fuel depth : Nat) → List Char → Option (List Value × List Char)
  | 0, _, _ => none
  | fuel + 1, depth, s => do
    match ← skipGap? false s with
    | ']' :: r => some ([], r)
    | r =>
      let (v, r) ← value? fuel depth r
      match ← skipGap? false r with
      | ']' :: r => some ([v], r)
      | ',' :: r => (items? fuel depth r).map fun (vs, r) => (v :: vs, r)
      | _ => none

/-- The members of an inline table, added to those before them, and its closing brace.  A comma
may stand behind the last member. -/
def members? : (fuel depth : Nat) → Entries → List Char → Option (Entries × List Char)
  | 0, _, _, _ => none
  | fuel + 1, depth, before, s => do
    match ← skipGap? false s with
    | '\x7d' :: r => some (before, r)
    | r =>
      let (path, r) ← key? r
      match ← skipGap? false r with
      | '=' :: r =>
        let (v, r) ← value? fuel depth (← skipGap? false r)
        let entries ← before.assign v path
        match ← skipGap? false r with
        | '\x7d' :: r => some (entries, r)
        | ',' :: r => members? fuel depth entries r
        | _ => none
      | _ => none
end

/-! ## Lines -/

inductive Line where
  | blank
  /-- `[path.key]` -/
  | table (path : List String) (key : String)
  /-- `[[path.key]]` -/
  | element (path : List String) (key : String)
  /-- `path = v` -/
  | entry (path : List String) (v : Value)
  deriving Repr

/-- Fuel that is enough for what is read from a text. -/
def fuelFor (s : List Char) : Nat := 2 * s.length + 2

def headerKey? (s : List Char) : Option ((List String × String) × List Char) := do
  let (names, r) ← key? (skipSpaces s)
  let key ← names.getLast?
  some ((names.dropLast, key), r)

def content? (s : List Char) : Option (Line × List Char) :=
  match skipSpaces s with
  | '[' :: '[' :: r => do
    match ← headerKey? r with
    | ((path, key), ']' :: ']' :: r) => some (.element path key, r)
    | _ => none
  | '[' :: r => do
    match ← headerKey? r with
    | ((path, key), ']' :: r) => some (.table path key, r)
    | _ => none
  | s =>
    match s with
    | [] | '#' :: _ | '\n' :: _ | '\r' :: '\n' :: _ => some (.blank, s)
    | s => do
      let (path, r) ← key? s
      match r with
      | '=' :: r =>
        let (v, r) ← value? (fuelFor s) 0 (skipSpaces r)
        some (.entry path v, r)
      | _ => none

def line? (s : List Char) : Option (Line × List Char) := do
  let (line, r) ← content? s
  some (line, ← endLine? false r)

def linesWithin : Nat → List Char → Option (List Line)
  | _, [] => some []
  | 0, _ => none
  | fuel + 1, s => do
    let (line, r) ← line? s
    let lines ← linesWithin fuel r
    some (line :: lines)

/-- All lines of a text.  A byte-order mark in front of it is no part of it. -/
def lines? (s : List Char) : Option (List Line) :=
  match s with
  | '\ufeff' :: s => linesWithin s.length s
  | s => linesWithin s.length s

/-! ## Documents -/

structure Document where
  entries : Entries := []
  /-- where keys go -/
  current : List String := []
  deriving Repr

namespace Document

def add (d : Document) : Line → Option Document
  | .blank => some d
  | .table path key => do
    some { entries := ← d.entries.openTable path key, current := path ++ [key] }
  | .element path key => do
    some { entries := ← d.entries.openElement path key, current := path ++ [key] }
  | .entry path v => do
    some { d with entries := ← d.entries.descend (·.assign v path) d.current }

def ofLines? (lines : List Line) : Option Document := lines.foldlM add {}

end Document

def read? (s : List Char) : Option (List (String × Value)) := do
  let d ← Document.ofLines? (← lines? s)
  some (entriesToValues d.entries)

end ProgramControl.Toml
