import ProgramControl.Text.Number

/-!
# TOML values

What a document holds, and of these the values without quotes or brackets: booleans, integers,
numbers with a fraction or an exponent, and moments in time.  `scalar? s` is the value whose
literal is the whole of `s`.

* Integers are decimal with an optional sign, or hexadecimal, octal or binary without one.
  Underscores may stand between digits, and decimal integers have no leading zero.
* The form of a number is judged first and its worth after that.  A literal with the form of a
  number may be none: too large for a finite double or for 128 bits, without a digit behind the
  mark of its base, or decimal with an underscore and other characters behind that.
* A moment is a date, a time of day, or both, with an offset if both are there; seconds may be
  left out.
-/

namespace ProgramControl.Toml

/-- A value of a document.  Numbers with a fraction or an exponent and moments in time keep the
literal they were written with, and so does a literal with the form of a number that is none: it
may stand where nobody looks at it. -/
inductive Value where
  | text (s : String)
  | integer (n : Int)
  | real (literal : String)
  | noNumber (literal : String)
  | truth (b : Bool)
  | moment (literal : String)
  | array (items : List Value)
  | table (entries : List (String × Value))
  deriving Repr, Inhabited

/-! ## Digits -/

def isHex (c : Char) : Bool :=
  c.isDigit || ('a' ≤ c && c ≤ 'f') || ('A' ≤ c && c ≤ 'F')

def isOctal (c : Char) : Bool := '0' ≤ c && c ≤ '7'

def isBinary (c : Char) : Bool := c == '0' || c == '1'

/-- The value of a digit in any base up to sixteen. -/
def digitValue (c : Char) : Nat :=
  if c.isDigit then c.toNat - '0'.toNat
  else if 'a' ≤ c ∧ c ≤ 'f' then c.toNat - 'a'.toNat + 10
  else c.toNat - 'A'.toNat + 10

def ofDigits (base : Nat) (s : List Char) : Nat :=
  s.foldl (fun n c => n * base + digitValue c) 0

/-- One or more digits with single underscores between them; the answer is the digits. -/
def underscored? (isDigit : Char → Bool) : List Char → Option (List Char)
  | [] => none
  | [c] => if isDigit c then some [c] else none
  | c :: '_' :: s => if isDigit c then (underscored? isDigit s).map (c :: ·) else none
  | c :: s => if isDigit c then (underscored? isDigit s).map (c :: ·) else none

/-- Decimal digits of which only a lone one may be zero at the start. -/
def plainDigits? (s : List Char) : Option (List Char) :=
  match underscored? Char.isDigit s with
  | some ('0' :: _ :: _) => none
  | ds => ds

/-- An optional sign (true for minus), and the rest. -/
def splitSign : List Char → Option Bool × List Char
  | '-' :: s => (some true, s)
  | '+' :: s => (some false, s)
  | s => (none, s)

def withSign (sign : Option Bool) (n : Nat) : Int := if sign = some true then -n else n

/-! ## Integers -/

/-- The integer fits a signed or an unsigned number of 128 bits. -/
def isWide (n : Int) : Bool := -Nat.pow 2 127 ≤ n && n < Nat.pow 2 128

/-- The value of a literal that stands for an integer. -/
def wide (literal : List Char) (n : Int) : Value :=
  if isWide n then .integer n else .noNumber (String.ofList literal)

/-- The base that a literal is marked with, and what is behind the mark. -/
def splitBase? : List Char → Option (Nat × (Char → Bool) × List Char)
  | '0' :: 'x' :: s => some (16, isHex, s)
  | '0' :: 'o' :: s => some (8, isOctal, s)
  | '0' :: 'b' :: s => some (2, isBinary, s)
  | _ => none

/-- Every underscore stands between two digits.  One at the front may stand there if something
that passes for a digit is before it. -/
def isSpaced (isDigit : Char → Bool) : (behindDigit : Bool) → List Char → Bool
  | _, [] => true
  | _, ['_'] => false
  | behindDigit, '_' :: c :: s => behindDigit && isDigit c && isSpaced isDigit true s
  | _, c :: s => isSpaced isDigit (isDigit c) s

/-- What is behind a sign has the form of a decimal integer.  Its underscores are judged as among
digits of any base and may begin at the sign; other characters behind the first are not judged. -/
def isDecimal (signed : Bool) (s : List Char) : Bool :=
  let tail := s.dropWhile Char.isDigit
  s ≠ [] && (s = ['0'] || s.head? ≠ some '0') && (tail.head?.all (· == '_')) &&
    isSpaced isHex signed s

def decimal (literal : List Char) (sign : Option Bool) (s : List Char) : Value :=
  let ds := s.filter (· != '_')
  if ds.all Char.isDigit then wide literal (withSign sign (ofDigits 10 ds))
  else .noNumber (String.ofList literal)

/-! ## Numbers with a fraction or an exponent -/

/-- What is in front of the first character with a property, and what is behind it, if there is
one. -/
def splitAtFirst (p : Char → Bool) (s : List Char) : List Char × Option (List Char) :=
  match s.dropWhile (!p ·) with
  | [] => (s, none)
  | _ :: rest => (s.takeWhile (!p ·), some rest)

/-- The digits in front of point and exponent.  Behind a sign they may begin with an underscore,
and then with zeros. -/
def whole? (signed : Bool) (s : List Char) : Option (List Char) :=
  match signed, s with
  | true, '_' :: s => underscored? Char.isDigit s
  | _, s => plainDigits? s

def fraction? : Option (List Char) → Option (List Char)
  | none => some []
  | some s => underscored? Char.isDigit s

def exponent? : Option (List Char) → Option Int
  | none => some 0
  | some s =>
    let (sign, s) := splitSign s
    (underscored? Char.isDigit s).map fun ds => withSign sign (ofDigits 10 ds)

/-- What is behind a sign has a point or an exponent. -/
def hasPart (s : List Char) : Bool := s.any fun c => c == '.' || c == 'e' || c == 'E'

/-- The value of a literal whose part behind the sign has a point or an exponent. -/
def real? (literal : List Char) (signed : Bool) (s : List Char) : Option Value := do
  let (mantissa, exponent) := splitAtFirst (fun c => c == 'e' || c == 'E') s
  let (whole, fraction) := splitAtFirst (· == '.') mantissa
  let whole ← whole? signed whole
  let fraction ← fraction? fraction
  let exponent ← exponent? exponent
  let digits := whole ++ fraction
  let finite := Text.Magnitude.isFinite (ofDigits 10 digits) digits.length
    (exponent - fraction.length)
  some (if finite then .real (String.ofList literal) else .noNumber (String.ofList literal))

/-! ## Numbers -/

/-- The value of a literal with the form of a number. -/
def number? (literal : List Char) : Option Value :=
  match splitBase? literal with
  | some (_, _, []) => some (.noNumber (String.ofList literal))
  | some (base, isDigit, s) =>
    (underscored? isDigit s).map fun ds => wide literal (ofDigits base ds)
  | none =>
    let (sign, s) := splitSign literal
    if s = "inf".toList ∨ s = "nan".toList then some (.real (String.ofList literal))
    else if hasPart s then real? literal sign.isSome s
    else if isDecimal sign.isSome s then some (decimal literal sign s)
    else none

/-! ## Moments in time -/

/-- Two digits with a value in a range, and the rest. -/
def two? (low high : Nat) : List Char → Option (Nat × List Char)
  | a :: b :: s =>
    let n := ofDigits 10 [a, b]
    if a.isDigit ∧ b.isDigit ∧ low ≤ n ∧ n ≤ high then some (n, s) else none
  | _ => none

def isLeapYear (y : Nat) : Bool := (y % 4 == 0 && y % 100 != 0) || y % 400 == 0

def daysIn (year month : Nat) : Nat :=
  if month = 2 then (if isLeapYear year then 29 else 28)
  else if month = 4 ∨ month = 6 ∨ month = 9 ∨ month = 11 then 30
  else 31

def date? : List Char → Option (List Char)
  | a :: b :: c :: d :: '-' :: s => do
    if ¬ [a, b, c, d].all Char.isDigit then none
    let (month, s) ← two? 1 12 s
    match s with
    | '-' :: s =>
      let (_, s) ← two? 1 (daysIn (ofDigits 10 [a, b, c, d]) month) s
      some s
    | _ => none
  | _ => none

/-- The rest behind a fraction of a second, where there is one. -/
def secondFraction? : List Char → Option (List Char)
  | '.' :: c :: s => if c.isDigit then some (s.dropWhile Char.isDigit) else none
  | '.' :: [] => none
  | s => some s

def time? (s : List Char) : Option (List Char) := do
  let (_, s) ← two? 0 23 s
  match s with
  | ':' :: s =>
    let (_, s) ← two? 0 59 s
    match s with
    | ':' :: s =>
      let (_, s) ← two? 0 60 s
      secondFraction? s
    | s => some s
  | _ => none

/-- The rest is an offset from universal time, or nothing. -/
def isOffset (s : List Char) : Bool :=
  match s with
  | [] | ['Z'] | ['z'] => true
  | c :: s =>
    if c = '+' ∨ c = '-' then
      match two? 0 23 s with
      | some (_, ':' :: s) =>
        match two? 0 59 s with
        | some (_, []) => true
        | _ => false
      | _ => false
    else false

def isMoment (s : List Char) : Bool :=
  match date? s with
  | some [] => true
  | some (c :: s) =>
    if c = 'T' ∨ c = 't' ∨ c = ' ' then
      match time? s with
      | some s => isOffset s
      | none => false
    else false
  | none => time? s == some []

/-! ## All together -/

def scalar? (s : List Char) : Option Value :=
  if s = "true".toList then some (.truth true)
  else if s = "false".toList then some (.truth false)
  else if isMoment s then some (.moment (String.ofList s))
  else number? s

end ProgramControl.Toml
