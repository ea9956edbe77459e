/-!
# Quoted TOML texts

A text is written in one of four forms: between single quotes as it stands (`literal`), between
double quotes with escapes (`basic`), and either of them on several lines between three quotes.

Reading starts behind the opening quotes.  Writing takes the first form that suits the text
(`quoted`).
-/

namespace ProgramControl.Toml

/-- A character that may stand for itself in a text or a comment: no control character but the
tab. -/
def isPlain (c : Char) : Bool := (' ' ≤ c && c != '\x7f') || c == '\t'

/-! ## Reading -/

def hexValue? (c : Char) : Option Nat :=
  if '0' ≤ c ∧ c ≤ '9' then some (c.toNat - '0'.toNat)
  else if 'a' ≤ c ∧ c ≤ 'f' then some (c.toNat - 'a'.toNat + 10)
  else if 'A' ≤ c ∧ c ≤ 'F' then some (c.toNat - 'A'.toNat + 10)
  else none

/-- The character with a code in hexadecimal digits. -/
def charOfHex? (s : List Char) : Option Char := do
  let ds ← s.mapM hexValue?
  let n := ds.foldl (fun n d => n * 16 + d) 0
  if n.isValidChar then some (Char.ofNat n) else none

/-- The character that one letter behind a backslash stands for. -/
def escaped? : Char → Option Char
  | '"' => some '"'
  | '\\' => some '\\'
  | 'b' => some '\x08'
  | 'e' => some '\x1b'
  | 'f' => some '\x0c'
  | 'n' => some '\n'
  | 'r' => some '\r'
  | 't' => some '\t'
  | _ => none

/-- Put a character in front of the text read behind it. -/
def consRead (c : Char) (read : Option (List Char × List Char)) : Option (List Char × List Char) :=
  read.map fun (cs, r) => (c :: cs, r)

def basic? : List Char → Option (List Char × List Char)
  | [] => none
  | '"' :: r => some ([], r)
  | '\\' :: 'x' :: a :: b :: r => do consRead (← charOfHex? [a, b]) (basic? r)
  | '\\' :: 'u' :: a :: b :: c :: d :: r => do consRead (← charOfHex? [a, b, c, d]) (basic? r)
  | '\\' :: 'U' :: a :: b :: c :: d :: e :: f :: g :: h :: r => do
    consRead (← charOfHex? [a, b, c, d, e, f, g, h]) (basic? r)
  | '\\' :: e :: r => do consRead (← escaped? e) (basic? r)
  | c :: r => if isPlain c then consRead c (basic? r) else none

def literal? : List Char → Option (List Char × List Char)
  | [] => none
  | '\'' :: r => some ([], r)
  | c :: r => if isPlain c then consRead c (literal? r) else none

/-- Only spaces and tabs are left on the line. -/
def restIsBlank (s : List Char) : Bool :=
  match s.dropWhile fun c => c == ' ' || c == '\t' with
  | '\n' :: _ | '\r' :: '\n' :: _ => true
  | _ => false

/-- A basic text on several lines, up to its closing quotes.  Up to two quotes may stand directly
in front of these.  After a backslash at the end of a line, blanks and line ends are left out
(`folding`). -/
def basicLines? : Bool → List Char → Option (List Char × List Char)
  | _, [] => none
  | _, '"' :: '"' :: '"' :: '"' :: '"' :: r => some (['"', '"'], r)
  | _, '"' :: '"' :: '"' :: '"' :: r => some (['"'], r)
  | _, '"' :: '"' :: '"' :: r => some ([], r)
  | _, '\\' :: 'x' :: a :: b :: r => do
    consRead (← charOfHex? [a, b]) (basicLines? false r)
  | _, '\\' :: 'u' :: a :: b :: c :: d :: r => do
    consRead (← charOfHex? [a, b, c, d]) (basicLines? false r)
  | _, '\\' :: 'U' :: a :: b :: c :: d :: e :: f :: g :: h :: r => do
    consRead (← charOfHex? [a, b, c, d, e, f, g, h]) (basicLines? false r)
  | _, '\\' :: e :: r =>
    match escaped? e with
    | some c => consRead c (basicLines? false r)
    | none => if restIsBlank (e :: r) then basicLines? true (e :: r) else none
  | folding, '\r' :: '\n' :: r =>
    if folding then basicLines? true r else consRead '\r' (consRead '\n' (basicLines? false r))
  | folding, c :: r =>
    if folding ∧ (c = ' ' ∨ c = '\t' ∨ c = '\n') then basicLines? true r
    else if isPlain c ∨ c = '\n' then consRead c (basicLines? false r)
    else none

/-- A literal text on several lines, up to its closing quotes. -/
def literalLines? : List Char → Option (List Char × List Char)
  | [] => none
  | '\'' :: '\'' :: '\'' :: '\'' :: '\'' :: r => some (['\'', '\''], r)
  | '\'' :: '\'' :: '\'' :: '\'' :: r => some (['\''], r)
  | '\'' :: '\'' :: '\'' :: r => some ([], r)
  | '\r' :: '\n' :: r => consRead '\r' (consRead '\n' (literalLines? r))
  | c :: r => if isPlain c ∨ c = '\n' then consRead c (literalLines? r) else none

/-- A line end directly behind the opening quotes is no part of the text. -/
def dropFirstLineEnd : List Char → List Char
  | '\n' :: s => s
  | '\r' :: '\n' :: s => s
  | s => s

def quoted? : List Char → Option (List Char × List Char)
  | '"' :: '"' :: '"' :: r => basicLines? false (dropFirstLineEnd r)
  | '"' :: r => basic? r
  | '\'' :: '\'' :: '\'' :: r => literalLines? (dropFirstLineEnd r)
  | '\'' :: r => literal? r
  | _ => none

/-! ## Writing -/

/-- The length of the longest run of a character, and of the run at the start. -/
def runs (q : Char) : List Char → Nat × Nat
  | [] => (0, 0)
  | c :: s =>
    let (longest, first) := runs q s
    if c = q then (max longest (first + 1), first + 1) else (longest, 0)

def longestRun (q : Char) (s : List Char) : Nat := (runs q s).1

/-- A control character that has to be escaped in every form: not the tab and not the line end. -/
def needsCode (c : Char) : Bool := !isPlain c && c != '\n'

def upperHex4 (n : Nat) : List Char :=
  let ds := (Nat.toDigits 16 n).map Char.toUpper
  List.replicate (4 - ds.length) '0' ++ ds

/-- A character other than a quote within a basic text. -/
def written (lines : Bool) (c : Char) : List Char :=
  if c = '\\' then ['\\', '\\']
  else if c = '\x08' then ['\\', 'b']
  else if c = '\t' then ['\\', 't']
  else if c = '\n' then (if lines then ['\n'] else ['\\', 'n'])
  else if c = '\x0c' then ['\\', 'f']
  else if c = '\r' then ['\\', 'r']
  else if isPlain c then [c]
  else '\\' :: 'u' :: upperHex4 c.toNat

/-- The inside of a basic text.  Of a run of double quotes, as many as allowed stand for
themselves, the next is escaped, and then the count begins anew. -/
def basicBody (lines : Bool) : (quotes : Nat) → List Char → List Char
  | _, [] => []
  | quotes, c :: s =>
    if c = '"' then
      if quotes < (if lines then 2 else 0) then '"' :: basicBody lines (quotes + 1) s
      else '\\' :: '"' :: basicBody lines 0 s
    else written lines c ++ basicBody lines 0 s

def doubleQuotes : List Char := ['"', '"', '"']
def singleQuotes : List Char := ['\'', '\'', '\'']

/-- A text on several lines starts on a line of its own if it has more than one. -/
def firstLineEnd (s : List Char) : List Char := if s.contains '\n' then ['\n'] else []

/-- The written form of a text: the first of basic, literal, basic on several lines and literal on
several lines in which nothing but tabs needs an escape, else a basic form with escapes. -/
def quoted (s : List Char) : List Char :=
  let control := s.any needsCode
  let breaks := s.contains '\n'
  let slash := s.contains '\\'
  let double := longestRun '"' s
  let single := longestRun '\'' s
  if ¬ control ∧ ¬ slash ∧ double = 0 ∧ ¬ breaks then '"' :: (basicBody false 0 s ++ ['"'])
  else if ¬ control ∧ single = 0 ∧ ¬ breaks then '\'' :: (s ++ ['\''])
  else if ¬ control ∧ ¬ slash ∧ double ≤ 2 then
    doubleQuotes ++ (firstLineEnd s ++ (basicBody true 0 s ++ doubleQuotes))
  else if ¬ control ∧ single ≤ 2 then singleQuotes ++ (firstLineEnd s ++ (s ++ singleQuotes))
  else if breaks then doubleQuotes ++ (firstLineEnd s ++ (basicBody true 0 s ++ doubleQuotes))
  else '"' :: (basicBody false 0 s ++ ['"'])

end ProgramControl.Toml
