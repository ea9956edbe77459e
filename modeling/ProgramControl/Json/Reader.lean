import ProgramControl.Json.Value

/-!
# Reading JSON text

`read? s` is the value written in `s`, blanks around it allowed and nothing else.  The readers
below take the text from where they stand and give back what they leave.  Fuel bounds the calls
below one another: each of them stands for a character of its own or follows directly on one that
does, so twice the length of the text is enough.
-/

namespace ProgramControl.Json

def isBlank (c : Char) : Bool := c == ' ' || c == '\n' || c == '\t' || c == '\r'

def skipBlanks (s : List Char) : List Char := s.dropWhile isBlank

/-! ## Numbers -/

/-- The digits in front, and the rest. -/
def spanDigits (s : List Char) : List Char × List Char :=
  (s.takeWhile Char.isDigit, s.dropWhile Char.isDigit)

/-- One or more digits. -/
def digits1? (s : List Char) : Option (List Char × List Char) :=
  match spanDigits s with
  | ([], _) => none
  | (d :: ds, rest) => some (d :: ds, rest)

/-- A whole part: digits of which only a lone one may be zero at the start. -/
def whole? (s : List Char) : Option (List Char × List Char) :=
  match digits1? s with
  | some ('0' :: _ :: _, _) => none
  | r => r

def fraction? (s : List Char) : Option (Option (List Char) × List Char) :=
  match s with
  | '.' :: r => (digits1? r).map fun (ds, r) => (some ds, r)
  | s => some (none, s)

def exponent? (s : List Char) : Option (Option (Bool × List Char) × List Char) :=
  match s with
  | c :: r =>
    if c = 'e' ∨ c = 'E' then
      let (minus, r) := match r with
        | '-' :: r => (true, r)
        | '+' :: r => (false, r)
        | r => (false, r)
      (digits1? r).map fun (ds, r) => (some (minus, ds), r)
    else some (none, c :: r)
  | [] => some (none, [])

def numeral? (s : List Char) : Option (Numeral × List Char) := do
  let (negative, s) := match s with
    | '-' :: r => (true, r)
    | s => (false, s)
  let (whole, s) ← whole? s
  let (fraction, s) ← fraction? s
  let (exponent, s) ← exponent? s
  some ({ negative, whole, fraction, exponent }, s)

/-! ## Texts -/

def hexDigit? (c : Char) : Option Nat :=
  if '0' ≤ c ∧ c ≤ '9' then some (c.toNat - '0'.toNat)
  else if 'a' ≤ c ∧ c ≤ 'f' then some (c.toNat - 'a'.toNat + 10)
  else if 'A' ≤ c ∧ c ≤ 'F' then some (c.toNat - 'A'.toNat + 10)
  else none

def hex4? (a b c d : Char) : Option Nat := do
  let a ← hexDigit? a
  let b ← hexDigit? b
  let c ← hexDigit? c
  let d ← hexDigit? d
  some (((a * 16 + b) * 16 + c) * 16 + d)

/-- A part of a quoted text: a character, or a code written as a number. -/
inductive Piece where
  | char (c : Char)
  | code (n : Nat)
  deriving DecidableEq, Repr

def Piece.ofEscape? : Char → Option Piece
  | '"' => some (.char '"')
  | '\\' => some (.char '\\')
  | '/' => some (.char '/')
  | 'b' => some (.char '\x08')
  | 'f' => some (.char '\x0c')
  | 'n' => some (.char '\n')
  | 'r' => some (.char '\r')
  | 't' => some (.char '\t')
  | _ => none

def pieces? : List Char → Option (List Piece × List Char)
  | [] => none
  | '"' :: r => some ([], r)
  | '\\' :: 'u' :: a :: b :: c :: d :: r => do
    let n ← hex4? a b c d
    let (ps, r) ← pieces? r
    some (.code n :: ps, r)
  | '\\' :: e :: r => do
    let p ← Piece.ofEscape? e
    let (ps, r) ← pieces? r
    some (p :: ps, r)
  | c :: r =>
    if c < ' ' then none
    else do
      let (ps, r) ← pieces? r
      some (.char c :: ps, r)

def isLead (n : Nat) : Bool := 0xD800 ≤ n && n ≤ 0xDBFF
def isTrail (n : Nat) : Bool := 0xDC00 ≤ n && n ≤ 0xDFFF

/-- The characters of a text: a leading surrogate needs a trailing one directly behind it, and the
two are one character. -/
def join? : List Piece → Option (List Char)
  | [] => some []
  | .char c :: ps => (join? ps).map (c :: ·)
  | .code n :: ps =>
    if isLead n then
      match ps with
      | .code t :: ps =>
        if isTrail t then
          (join? ps).map (Char.ofNat (0x10000 + (n - 0xD800) * 0x400 + (t - 0xDC00)) :: ·)
        else none
      | _ => none
    else if isTrail n then none
    else (join? ps).map (Char.ofNat n :: ·)

def text? (s : List Char) : Option (Option String × List Char) :=
  (pieces? s).map fun (ps, r) => ((join? ps).map String.ofList, r)

/-! ## Values -/

mutual
def value? : Nat → List Char → Option (Value × List Char)
  | 0, _ => none
  | fuel + 1, s =>
    match skipBlanks s with
    | '"' :: r => (text? r).map fun (t, r) => (.string t, r)
    | '[' :: r =>
      match skipBlanks r with
      | ']' :: r => some (.array [], r)
      | _ => (items? fuel r).map fun (vs, r) => (.array vs, r)
    | '\x7b' :: r =>
      match skipBlanks r with
      | '\x7d' :: r => some (.object [], r)
      | _ => (members? fuel r).map fun (ms, r) => (.object ms, r)
    | 'n' :: 'u' :: 'l' :: 'l' :: r => some (.null, r)
    | 't' :: 'r' :: 'u' :: 'e' :: r => some (.bool true, r)
    | 'f' :: 'a' :: 'l' :: 's' :: 'e' :: r => some (.bool false, r)
    | s => (numeral? s).map fun (n, r) => (.number n, r)

def items? : Nat → List Char → Option (List Value × List Char)
  | 0, _ => none
  | fuel + 1, s => do
    let (v, r) ← value? fuel s
    match skipBlanks r with
    | ',' :: r => (items? fuel r).map fun (vs, r) => (v :: vs, r)
    | ']' :: r => some ([v], r)
    | _ => none

def members? : Nat → List Char → Option (List (Option String × Value) × List Char)
  | 0, _ => none
  | fuel + 1, s =>
    match skipBlanks s with
    | '"' :: r => do
      let (k, r) ← text? r
      match skipBlanks r with
      | ':' :: r =>
        let (v, r) ← value? fuel r
        match skipBlanks r with
        | ',' :: r => (members? fuel r).map fun (ms, r) => ((k, v) :: ms, r)
        | '\x7d' :: r => some ([(k, v)], r)
        | _ => none
      | _ => none
    | _ => none
end

def read? (s : List Char) : Option Value :=
  match value? (2 * s.length + 2) s with
  | some (v, r) => if (skipBlanks r).isEmpty then some v else none
  | none => none

end ProgramControl.Json
