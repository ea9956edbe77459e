import ProgramControl.Text.Number

/-!
# JSON numbers

A number keeps its digits, because a reader that wants a whole number takes no fraction and no
exponent, not even an empty one.

* `Numeral.nat?`       the whole number it is, if it is one;
* `Numeral.isFinite`   it has a double.
-/

namespace ProgramControl.Json

structure Numeral where
  negative : Bool := false
  whole : List Char
  fraction : Option (List Char) := none
  /-- sign (true for minus) and digits -/
  exponent : Option (Bool × List Char) := none
  deriving DecidableEq, Repr

namespace Numeral

def ofNat (n : Nat) : Numeral := { whole := Nat.toDigits 10 n }

/-- The whole number, if the numeral is written as one without a sign. -/
def nat? (n : Numeral) : Option Nat :=
  if n.negative || n.fraction.isSome || n.exponent.isSome then none
  else some (Nat.ofDigitChars 10 n.whole 0)

/-- The bound of the word in which digits are gathered. -/
def wordBound : Nat := UInt64.size

/-- Digits put behind a number one by one, up to the first that makes it too large for a word.
The answer is the number and the digits left. -/
def gather : Nat → List Char → Nat × List Char
  | n, [] => (n, [])
  | n, c :: s =>
    let m := Nat.ofDigitChars 10 [c] n
    if m < wordBound then gather m s else (n, c :: s)

def writtenExponent (n : Numeral) : Int :=
  match n.exponent with
  | none => 0
  | some (true, ds) => -(Nat.ofDigitChars 10 ds 0)
  | some (false, ds) => Nat.ofDigitChars 10 ds 0

/-- The number as a word and a power of ten.  Digits of the whole part that find no room are
counted as zeros, and those of the fraction are dropped. -/
def scaled (n : Numeral) : Nat × Int :=
  let (w, counted) := gather 0 n.whole
  let fraction := n.fraction.getD []
  let (w, dropped) := gather w fraction
  (w, n.writtenExponent + counted.length - (fraction.length - dropped.length : Nat))

/-- The numeral has a double, which is the product of its word and its power of ten. -/
def isFinite (n : Numeral) : Bool :=
  let (w, e) := n.scaled
  Text.Magnitude.isFiniteProduct w e

def text (n : Numeral) : List Char :=
  (if n.negative then ['-'] else []) ++ n.whole ++
    (match n.fraction with
      | none => []
      | some ds => '.' :: ds) ++
    (match n.exponent with
      | none => []
      | some (minus, ds) => 'e' :: (if minus then '-' :: ds else ds))

end Numeral

end ProgramControl.Json
