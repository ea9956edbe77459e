/-!
# Numbers in text

Natural numbers from decimal digits and back, the size of a decimal literal, and the text of a time.

* `Natural.read?_eq_some_iff`   what is read: one or more digits, leading zeros allowed;
* `Natural.toDigits_eq_cons`    what is written has no leading zero, unless it is zero;
* `Magnitude.isFinite`          a literal is rounded to a double, once;
* `Magnitude.isFiniteProduct`   a whole number and a power of ten are rounded, and their product;
* `elapsed`                     a number of milliseconds.
-/

/-! ## Decimal natural numbers -/

namespace ProgramControl.Text.Natural

/-- One or more digits and nothing else. -/
def areDigits (s : List Char) : Bool := !s.isEmpty && s.all Char.isDigit

def read? (s : List Char) : Option Nat :=
  if areDigits s then some (Nat.ofDigitChars 10 s 0) else none

def write (n : Nat) : List Char := Nat.toDigits 10 n

theorem read?_eq_some_iff {s : List Char} {n : Nat} :
    read? s = some n ↔ areDigits s = true ∧ Nat.ofDigitChars 10 s 0 = n := by
  unfold read?
  split <;> simp_all

theorem toDigits_eq_cons {n : Nat} (positive : 0 < n) :
    ∃ d ds, Nat.toDigits 10 n = d :: ds ∧ d ≠ '0' := by
  induction n using Nat.strongRecOn with
  | _ n ih =>
    by_cases small : n < 10
    · have digits : ∀ m < 10, 0 < m → m.digitChar ≠ '0' := by decide
      exact ⟨_, [], Nat.toDigits_of_lt_base small, digits n small positive⟩
    · obtain ⟨d, ds, tens, nonzero⟩ := ih (n / 10) (by omega) (by omega)
      refine ⟨d, ds ++ [(n % 10).digitChar], ?_, nonzero⟩
      rw [Nat.toDigits_of_base_le (by decide) (by omega), tens, List.cons_append]

end ProgramControl.Text.Natural

/-! ## Size of a decimal number

A decimal literal with a fraction or an exponent stands for a double.  One so large that it would
round to infinity is no number where doubles are read. -/

namespace ProgramControl.Text.Magnitude

/-- The least magnitude that rounds to infinity: the midpoint between the greatest finite double
and the power of two above it. -/
def overflow : Nat := Nat.pow 2 1024 - Nat.pow 2 970

/-- The number `n · 10 ^ e`, where `n` has at most `digits` digits, rounds to a finite double.
Exponents far out are settled by the number of digits alone. -/
def isFinite (n digits : Nat) (e : Int) : Bool :=
  if n = 0 then true
  else if digits + e ≤ 308 then true
  else if 0 ≤ e then
    if e > 309 then false else n * Nat.pow 10 e.toNat < overflow
  else n < overflow * Nat.pow 10 (-e).toNat

/-- The multiple of `unit` nearest to a number, of two the even one. -/
def roundTo (unit n : Nat) : Nat :=
  let quotient := n / unit
  let rest := n % unit
  if 2 * rest < unit ∨ (2 * rest = unit ∧ quotient % 2 = 0) then quotient * unit
  else (quotient + 1) * unit

/-- The double nearest to a whole number, of two the even one, if the range had no end. -/
def double (n : Nat) : Nat := roundTo (Nat.pow 2 (n.log2 - 52)) n

/-- The doubles nearest to `n` and to `10 ^ e` have a product that rounds to a finite double.  A
product at the midpoint goes to infinity, as that end is the even one. -/
def isFiniteProduct (n : Nat) (e : Int) : Bool :=
  if n = 0 then true
  else if e < 0 then true
  else if e > 308 then false
  else double n * double (Nat.pow 10 e.toNat) < overflow

end ProgramControl.Text.Magnitude

/-! ## Text of an elapsed time

A time is a whole number of milliseconds.  Its text is `0ns` for zero, whole milliseconds below
one second (`250ms`), and otherwise seconds with a decimal fraction that has no trailing zeros
(`1s`, `1.5s`, `61.001s`). -/

namespace ProgramControl.Text

/-- The digits of the thousandths of a second, without trailing zeros: empty for none. -/
def thousandths (n : Nat) : String :=
  if n % 1000 = 0 then ""
  else if n % 100 = 0 then s!"{n / 100}"
  else if n % 10 = 0 then s!"{n / 100}{n / 10 % 10}"
  else s!"{n / 100}{n / 10 % 10}{n % 10}"

def elapsed (ms : Nat) : String :=
  if ms = 0 then "0ns"
  else if ms < 1000 then s!"{ms}ms"
  else if ms % 1000 = 0 then s!"{ms / 1000}s"
  else s!"{ms / 1000}.{thousandths (ms % 1000)}s"

end ProgramControl.Text
