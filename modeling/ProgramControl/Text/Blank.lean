/-!
# Blank characters, words and letter case

A line is cut into words at blanks, where a blank is any of the 25 characters with the Unicode
`White_Space` property.  Letter case is folded for the 26 ASCII letters only.

* `isBlank c`      the character separates words;
* `words s`        the maximal runs without a blank, in order;
* `isBlankText s`  nothing but blanks, which is the same as having no word (`words_eq_nil_iff`);
* `sameLetters`    equality up to the case of ASCII letters.
-/

namespace ProgramControl.Text

/-- The characters with the `White_Space` property. -/
def isBlank (c : Char) : Bool :=
  ('\u0009' ≤ c && c ≤ '\u000D') || c == ' ' || c == '\u0085' || c == '\u00A0' || c == '\u1680' ||
    ('\u2000' ≤ c && c ≤ '\u200A') || c == '\u2028' || c == '\u2029' || c == '\u202F' ||
    c == '\u205F' || c == '\u3000'

/-- Put a character in front of the words of the text behind it.  It joins the first of them
unless that text starts with a blank. -/
def joinWord (c : Char) : List Char → List (List Char) → List (List Char)
  | d :: _, w :: ws => if isBlank d then [c] :: w :: ws else (c :: w) :: ws
  | _, ws => [c] :: ws

def words : List Char → List (List Char)
  | [] => []
  | c :: s => if isBlank c then words s else joinWord c s (words s)

def isBlankText (s : List Char) : Bool := s.all isBlank

/-- ASCII letters in upper case, every other character unchanged. -/
def upper (s : List Char) : List Char := s.map Char.toUpper

/-- Equality up to the case of ASCII letters. -/
def sameLetters (s t : List Char) : Bool := upper s == upper t

/-! ## Small laws -/

theorem words_cons_of_isBlank {c : Char} (h : isBlank c = true) (s : List Char) :
    words (c :: s) = words s := by
  rw [words, if_pos h]

theorem words_cons_ne_nil {c : Char} (h : isBlank c = false) (s : List Char) :
    words (c :: s) ≠ [] := by
  rw [words, h]
  simp only [Bool.false_eq_true, if_false]
  unfold joinWord
  split
  · split <;> simp
  · simp

theorem words_eq_nil_iff {s : List Char} : words s = [] ↔ isBlankText s = true := by
  induction s with
  | nil => exact iff_of_true rfl rfl
  | cons c s ih =>
    rw [isBlankText, List.all_cons]
    cases h : isBlank c with
    | true => rw [words_cons_of_isBlank h, ih, Bool.true_and, isBlankText]
    | false => exact iff_of_false (words_cons_ne_nil h s) (by simp)

end ProgramControl.Text
