import ProgramControl.Proofs.Json.Grammar

/-!
# How JSON is spelt

The readers and their grammar (`Reads`) say what is found at the front of a text.  Here the rules
of the format go the other way: they say how values are written, in all the ways there are.  A
value may have blanks around it, a member too; a number has one spelling but for the sign and the
letter of its exponent; each character of a quoted text has several.

* `SpellsNumeral`, `SpellsText`   the spellings of numbers and of quoted texts;
* `Spells`                  the spellings of values, their elements and their members;
* `isFound_of_spells`, `isSpelt_of_reads`   what is spelt is read, and what is read was spelt;
* `read?_eq_some_iff_spells`   the texts of a value are its spellings.
-/

namespace ProgramControl.Json

/-! ## Blanks and numbers -/

def AreBlanks (s : List Char) : Prop := ∀ c ∈ s, isBlank c = true

def AreDigits (s : List Char) : Prop := s ≠ [] ∧ ∀ c ∈ s, c.isDigit = true

/-- Digits without a zero too many. -/
def AreWhole (s : List Char) : Prop := AreDigits s ∧ (s = ['0'] ∨ s.head? ≠ some '0')

inductive SpellsFraction : Option (List Char) → List Char → Prop where
  | none : SpellsFraction none []
  | some {ds} (digits : AreDigits ds) : SpellsFraction (some ds) ('.' :: ds)

inductive SpellsExponent : Option (Bool × List Char) → List Char → Prop where
  | none : SpellsExponent none []
  | minus {e ds} (letter : e = 'e' ∨ e = 'E') (digits : AreDigits ds) :
      SpellsExponent (some (true, ds)) (e :: '-' :: ds)
  | plus {e ds} (letter : e = 'e' ∨ e = 'E') (digits : AreDigits ds) :
      SpellsExponent (some (false, ds)) (e :: '+' :: ds)
  | unsigned {e ds} (letter : e = 'e' ∨ e = 'E') (digits : AreDigits ds) :
      SpellsExponent (some (false, ds)) (e :: ds)

def minusSign (negative : Bool) : List Char := if negative then ['-'] else []

inductive SpellsNumeral : Numeral → List Char → Prop where
  | mk {negative ds fraction f exponent x} (whole : AreWhole ds)
      (fractionSpelt : SpellsFraction fraction f) (exponentSpelt : SpellsExponent exponent x) :
      SpellsNumeral ⟨negative, ds, fraction, exponent⟩ (minusSign negative ++ (ds ++ (f ++ x)))

/-- A character that ends a number. -/
def EndsNumber (c : Char) : Prop := c.isDigit = false ∧ c ≠ '.' ∧ c ≠ 'e' ∧ c ≠ 'E'

instance (c : Char) : Decidable (EndsNumber c) := inferInstanceAs (Decidable (_ ∧ _))

/-- A number that stands in front of the text does not go on in it. -/
def Stops (s : List Char) : Prop := ∀ c ∈ s.head?, EndsNumber c

section

variable {s t rest : List Char} {c : Char}

theorem areBlanks_nil : AreBlanks [] := fun _ mem => absurd mem List.not_mem_nil

theorem stops_cons (ends : EndsNumber c) : Stops (c :: s) := by
  rintro d ⟨⟩
  exact ends

theorem endsNumber_of_isBlank (blank : isBlank c = true) : EndsNumber c := by
  simp only [isBlank, Bool.or_eq_true, beq_iff_eq] at blank
  rcases blank with ((rfl | rfl) | rfl) | rfl <;> decide

theorem stops_append (blanks : AreBlanks s) (stops : Stops rest) : Stops (s ++ rest) := by
  cases s with
  | nil => exact stops
  | cons c s => exact stops_cons (endsNumber_of_isBlank (blanks c List.mem_cons_self))

theorem skipBlanks_of_areBlanks (blanks : AreBlanks s) (t : List Char) :
    skipBlanks (s ++ t) = skipBlanks t := List.dropWhile_append_of_pos blanks

theorem skipBlanks_cons (visible : isBlank c = false) (s : List Char) :
    skipBlanks (c :: s) = c :: s := by
  have visible : ¬ isBlank c = true := Bool.eq_false_iff.1 visible
  exact List.dropWhile_cons_of_neg visible

/-- What is left of a text without the blanks in front of it, and those blanks. -/
theorem exists_blanks (front : skipBlanks s = t) : ∃ b, AreBlanks b ∧ s = b ++ t := by
  refine ⟨s.takeWhile isBlank, ?_, ?_⟩
  · exact List.all_eq_true.1 List.all_takeWhile
  · rw [← front]
    exact List.takeWhile_append_dropWhile.symm

theorem areBlanks_of_skipBlanks (none : skipBlanks s = []) : AreBlanks s := by
  obtain ⟨b, blanks, rfl⟩ := exists_blanks none
  rwa [List.append_nil]

/-! ### Digits -/

/-- Where the text begins, digits that came before it have ended. -/
def EndsDigits (s : List Char) : Prop := ∀ c ∈ s.head?, c.isDigit = false

theorem digits1?_append (digits : AreDigits s) (ends : EndsDigits rest) :
    digits1? (s ++ rest) = some (s, rest) := by
  obtain ⟨more, all⟩ := digits
  have none : rest.takeWhile Char.isDigit = [] ∧ rest.dropWhile Char.isDigit = rest := by
    cases rest with
    | nil => exact ⟨rfl, rfl⟩
    | cons c rest =>
      have other : ¬ c.isDigit = true := Bool.eq_false_iff.1 (ends c rfl)
      exact ⟨List.takeWhile_cons_of_neg other, List.dropWhile_cons_of_neg other⟩
  have split : spanDigits (s ++ rest) = (s, rest) := by
    rw [spanDigits, List.takeWhile_append_of_pos all, List.dropWhile_append_of_pos all, none.1,
      none.2, List.append_nil]
  obtain ⟨d, ds, rfl⟩ := List.exists_cons_of_ne_nil more
  rw [digits1?, split]

theorem areDigits_of_digits1? {ds : List Char} (h : digits1? s = some (ds, rest)) :
    s = ds ++ rest ∧ AreDigits ds := by
  unfold digits1? at h
  split at h
  · cases h
  · next d ds' r split =>
    cases h
    obtain ⟨front, left⟩ := Prod.mk.inj split
    have all : ∀ c ∈ s.takeWhile Char.isDigit, c.isDigit = true :=
      List.all_eq_true.1 List.all_takeWhile
    rw [front] at all
    refine ⟨?_, List.cons_ne_nil d ds', all⟩
    rw [← front, ← left]
    exact List.takeWhile_append_dropWhile.symm

theorem whole?_append (whole : AreWhole s) (ends : EndsDigits rest) :
    whole? (s ++ rest) = some (s, rest) := by
  obtain ⟨digits, zero⟩ := whole
  rw [whole?, digits1?_append digits ends]
  split
  · next same =>
    obtain ⟨rfl, -⟩ := Prod.mk.inj (Option.some.inj same)
    rcases zero with one | other
    · cases one
    · exact absurd rfl other
  · rfl

theorem areWhole_of_whole? {ds : List Char} (h : whole? s = some (ds, rest)) :
    s = ds ++ rest ∧ AreWhole ds := by
  unfold whole? at h
  split at h
  · cases h
  · next zero =>
    obtain ⟨text, digits⟩ := areDigits_of_digits1? h
    refine ⟨text, digits, ?_⟩
    by_cases starts : ds.head? = some '0'
    · cases ds with
      | nil => cases starts
      | cons d ds =>
        cases starts
        cases ds with
        | nil => exact .inl rfl
        | cons e ds => exact absurd h (zero e ds rest)
    · exact .inr starts

/-! ### Fractions and exponents -/

theorem fraction?_append {fraction : Option (List Char)} (spelt : SpellsFraction fraction s)
    (ends : EndsDigits rest) (point : rest.head? ≠ some '.') :
    fraction? (s ++ rest) = some (fraction, rest) := by
  cases spelt with
  | none =>
    rw [List.nil_append]
    unfold fraction?
    split
    · exact absurd rfl point
    · rfl
  | some digits =>
    rw [List.cons_append, fraction?, digits1?_append digits ends]
    rfl

theorem spelt_of_fraction? {fraction : Option (List Char)}
    (h : fraction? s = some (fraction, rest)) : ∃ f, s = f ++ rest ∧ SpellsFraction fraction f := by
  unfold fraction? at h
  split at h
  · obtain ⟨⟨ds, r⟩, digits, same⟩ := Option.map_eq_some_iff.1 h
    cases same
    obtain ⟨rfl, areDigits⟩ := areDigits_of_digits1? digits
    exact ⟨'.' :: ds, rfl, .some areDigits⟩
  · cases h
    exact ⟨[], rfl, .none⟩

theorem signed_of_areDigits (digits : AreDigits s) (rest : List Char) :
    signed (s ++ rest) = (false, s ++ rest) := by
  obtain ⟨d, ds, rfl⟩ := List.exists_cons_of_ne_nil digits.1
  have digit : d.isDigit = true := digits.2 d List.mem_cons_self
  have minus : d ≠ '-' := by
    rintro rfl
    cases digit
  have plus : d ≠ '+' := by
    rintro rfl
    cases digit
  rw [List.cons_append, signed_cons, if_neg minus, if_neg plus]

theorem exponent?_append {exponent : Option (Bool × List Char)}
    (spelt : SpellsExponent exponent s) (stops : Stops rest) :
    exponent? (s ++ rest) = some (exponent, rest) := by
  have ends : EndsDigits rest := fun c first => (stops c first).1
  cases spelt with
  | none =>
    cases rest with
    | nil => rfl
    | cons c rest =>
      obtain ⟨-, -, small, large⟩ := stops c rfl
      rw [List.nil_append, exponent?_cons, if_neg (not_or.2 ⟨small, large⟩)]
  | @minus e ds letter digits =>
    have sign : signed ('-' :: (ds ++ rest)) = (true, ds ++ rest) := rfl
    rw [List.cons_append, List.cons_append, exponent?_cons, if_pos letter, sign,
      digits1?_append digits ends]
    rfl
  | @plus e ds letter digits =>
    have sign : signed ('+' :: (ds ++ rest)) = (false, ds ++ rest) := rfl
    rw [List.cons_append, List.cons_append, exponent?_cons, if_pos letter, sign,
      digits1?_append digits ends]
    rfl
  | unsigned letter digits =>
    rw [List.cons_append, exponent?_cons, if_pos letter, signed_of_areDigits digits,
      digits1?_append digits ends]
    rfl

theorem spelt_of_exponent? {exponent : Option (Bool × List Char)}
    (h : exponent? s = some (exponent, rest)) :
    ∃ x, s = x ++ rest ∧ SpellsExponent exponent x := by
  cases s with
  | nil =>
    cases h
    exact ⟨[], rfl, .none⟩
  | cons c s =>
    rw [exponent?_cons] at h
    by_cases letter : c = 'e' ∨ c = 'E'
    · rw [if_pos letter] at h
      obtain ⟨⟨ds, r⟩, digits, same⟩ := Option.map_eq_some_iff.1 h
      cases same
      obtain ⟨text, areDigits⟩ := areDigits_of_digits1? digits
      cases s with
      | nil =>
        have none : digits1? [] = none := rfl
        cases none.symm.trans digits
      | cons d s =>
        rw [signed_cons] at text ⊢
        by_cases minus : d = '-'
        · rw [if_pos minus] at text ⊢
          have text : s = ds ++ r := text
          refine ⟨c :: '-' :: ds, ?_, .minus letter areDigits⟩
          rw [minus, text, List.cons_append, List.cons_append]
        · rw [if_neg minus] at text ⊢
          by_cases plus : d = '+'
          · rw [if_pos plus] at text ⊢
            have text : s = ds ++ r := text
            refine ⟨c :: '+' :: ds, ?_, .plus letter areDigits⟩
            rw [plus, text, List.cons_append, List.cons_append]
          · rw [if_neg plus] at text ⊢
            exact ⟨c :: ds, congrArg (c :: ·) text, .unsigned letter areDigits⟩
    · rw [if_neg letter] at h
      cases h
      exact ⟨[], rfl, .none⟩

/-! ### Numbers -/

/-- What stands behind the digits of a fraction. -/
theorem head?_exponent {exponent : Option (Bool × List Char)} (spelt : SpellsExponent exponent s)
    (stops : Stops rest) : ∀ c ∈ (s ++ rest).head?, c.isDigit = false ∧ c ≠ '.' := by
  have letters {e : Char} (letter : e = 'e' ∨ e = 'E') : e.isDigit = false ∧ e ≠ '.' := by
    rcases letter with rfl | rfl <;> decide
  cases spelt with
  | none => exact fun c first => ⟨(stops c first).1, (stops c first).2.1⟩
  | minus letter => rintro c ⟨⟩; exact letters letter
  | plus letter => rintro c ⟨⟩; exact letters letter
  | unsigned letter => rintro c ⟨⟩; exact letters letter

theorem endsDigits_fraction {fraction : Option (List Char)} (spelt : SpellsFraction fraction s)
    (ends : EndsDigits rest) : EndsDigits (s ++ rest) := by
  cases spelt with
  | none => exact ends
  | some digits =>
    rintro c ⟨⟩
    decide

theorem numeral?_append {n : Numeral} (spelt : SpellsNumeral n s) (stops : Stops rest) :
    numeral? (s ++ rest) = some (n, rest) := by
  obtain @⟨negative, ds, fraction, f, exponent, x, whole, speltFraction, speltExponent⟩ := spelt
  have behind := head?_exponent speltExponent stops
  have ends : EndsDigits (x ++ rest) := fun c first => (behind c first).1
  have point : (x ++ rest).head? ≠ some '.' := fun first => (behind '.' first).2 rfl
  have sign : negated (minusSign negative ++ (ds ++ (f ++ (x ++ rest)))) =
      (negative, ds ++ (f ++ (x ++ rest))) := by
    cases negative with
    | true => rfl
    | false =>
      obtain ⟨d, ds, rfl⟩ := List.exists_cons_of_ne_nil whole.1.1
      have digit : d.isDigit = true := whole.1.2 d List.mem_cons_self
      have positive : d ≠ '-' := by
        rintro rfl
        cases digit
      show negated (d :: (ds ++ (f ++ (x ++ rest)))) = _
      rw [negated_cons, if_neg positive]
      rfl
  rw [List.append_assoc, List.append_assoc, List.append_assoc, numeral?_eq, sign,
    whole?_append whole (endsDigits_fraction speltFraction ends), Option.bind_some,
    fraction?_append speltFraction ends point, Option.bind_some,
    exponent?_append speltExponent stops, Option.bind_some]

theorem spelt_of_numeral? {n : Numeral} (h : numeral? s = some (n, rest)) :
    ∃ t, s = t ++ rest ∧ SpellsNumeral n t := by
  rw [numeral?_eq] at h
  obtain ⟨⟨ds, r₁⟩, whole, h⟩ := Option.bind_eq_some_iff.1 h
  obtain ⟨⟨fraction, r₂⟩, readFraction, h⟩ := Option.bind_eq_some_iff.1 h
  obtain ⟨⟨exponent, r₃⟩, readExponent, h⟩ := Option.bind_eq_some_iff.1 h
  cases h
  obtain ⟨text, areWhole⟩ := areWhole_of_whole? whole
  obtain ⟨f, text₁, speltFraction⟩ := spelt_of_fraction? readFraction
  obtain ⟨x, text₂, speltExponent⟩ := spelt_of_exponent? readExponent
  have sign : s = minusSign (negated s).1 ++ (negated s).2 := by
    cases s with
    | nil => rfl
    | cons c s =>
      rw [negated_cons]
      by_cases minus : c = '-'
      · rw [if_pos minus, minus]
        rfl
      · rw [if_neg minus]
        rfl
  dsimp only at text text₁ text₂
  refine ⟨minusSign (negated s).1 ++ (ds ++ (f ++ x)), ?_,
    .mk areWhole speltFraction speltExponent⟩
  rw [List.append_assoc, List.append_assoc, List.append_assoc, ← text₂, ← text₁, ← text]
  exact sign

end

/-! ## Quoted texts -/

/-- A character that stands for itself in a quoted text. -/
def isPlain (c : Char) : Bool := c != '"' && c != '\\' && !(c < ' ')

/-- What may stand behind a backslash, and the character it stands for. -/
def escapes : List (Char × Char) :=
  [('"', '"'), ('\\', '\\'), ('/', '/'), ('b', '\x08'), ('f', '\x0c'), ('n', '\n'), ('r', '\r'),
    ('t', '\t')]

inductive SpellsPieces : List Piece → List Char → Prop where
  | nil : SpellsPieces [] []
  | plain {c ps s} (plain : isPlain c = true) (more : SpellsPieces ps s) :
      SpellsPieces (.char c :: ps) (c :: s)
  | escape {e c ps s} (escape : (e, c) ∈ escapes) (more : SpellsPieces ps s) :
      SpellsPieces (.char c :: ps) ('\\' :: e :: s)
  | code {a b c d n ps s} (hex : hex4? a b c d = some n) (more : SpellsPieces ps s) :
      SpellsPieces (.code n :: ps) ('\\' :: 'u' :: a :: b :: c :: d :: s)

/-- The pieces are these characters: surrogates come in pairs, and a pair is one character. -/
inductive Joins : List Piece → List Char → Prop where
  | nil : Joins [] []
  | char {c ps cs} (more : Joins ps cs) : Joins (.char c :: ps) (c :: cs)
  | code {n ps cs} (lead : isLead n = false) (trail : isTrail n = false) (more : Joins ps cs) :
      Joins (.code n :: ps) (Char.ofNat n :: cs)
  | pair {n t ps cs} (lead : isLead n = true) (trail : isTrail t = true) (more : Joins ps cs) :
      Joins (.code n :: .code t :: ps)
        (Char.ofNat (0x10000 + (n - 0xD800) * 0x400 + (t - 0xDC00)) :: cs)

/-- What stands between the quotes. -/
inductive SpellsText : Option String → List Char → Prop where
  | text {ps cs s} (pieces : SpellsPieces ps s) (joined : Joins ps cs) :
      SpellsText (some (String.ofList cs)) s
  | noText {ps s} (pieces : SpellsPieces ps s) (apart : ∀ cs, ¬ Joins ps cs) : SpellsText none s

section

variable {s rest : List Char} {ps : List Piece} {cs : List Char}

theorem isPlain_iff {c : Char} : isPlain c = true ↔ c ≠ '"' ∧ c ≠ '\\' ∧ ¬ c < ' ' := by
  simp only [isPlain, Bool.and_eq_true, bne_iff_ne, Bool.not_eq_true', decide_eq_false_iff_not,
    and_assoc]

theorem ofEscape?_eq_some_iff {e : Char} {p : Piece} :
    Piece.ofEscape? e = some p ↔ ∃ c, (e, c) ∈ escapes ∧ p = .char c := by
  constructor
  · intro h
    unfold Piece.ofEscape? at h
    split at h <;> cases h <;> exact ⟨_, by simp [escapes], rfl⟩
  · rintro ⟨c, mem, rfl⟩
    simp only [escapes, List.mem_cons, Prod.mk.injEq, List.not_mem_nil, or_false] at mem
    rcases mem with ⟨rfl, rfl⟩ | ⟨rfl, rfl⟩ | ⟨rfl, rfl⟩ | ⟨rfl, rfl⟩ | ⟨rfl, rfl⟩ | ⟨rfl, rfl⟩ |
      ⟨rfl, rfl⟩ | ⟨rfl, rfl⟩ <;> rfl

theorem pieces?_of_spells (spelt : SpellsPieces ps s) (rest : List Char) :
    pieces? (s ++ '"' :: rest) = some (ps, rest) := by
  induction spelt with
  | nil => rfl
  | plain plain _ ih =>
    obtain ⟨quote, escape, visible⟩ := isPlain_iff.1 plain
    rw [List.cons_append, pieces?_char quote escape visible, ih]
    rfl
  | @escape e c ps s escape _ ih =>
    have named : Piece.ofEscape? e = some (.char c) := ofEscape?_eq_some_iff.2 ⟨c, escape, rfl⟩
    have plain : e ≠ 'u' := by
      rintro rfl
      cases named
    rw [List.cons_append, List.cons_append, pieces?_escape plain, named, Option.bind_some, ih]
    rfl
  | @code a b c d n ps s hex _ ih =>
    show pieces? ('\\' :: 'u' :: a :: b :: c :: d :: (s ++ '"' :: rest)) = _
    rw [pieces?, hex, ih]
    rfl

theorem spells_of_pieces? (h : pieces? s = some (ps, rest)) :
    ∃ t, s = t ++ '"' :: rest ∧ SpellsPieces ps t := by
  fun_induction pieces? s generalizing ps rest with
  | case1 => cases h
  | case2 r =>
    cases h
    exact ⟨[], rfl, .nil⟩
  | case3 a b c d s ih =>
    obtain ⟨n, hex, h⟩ := Option.bind_eq_some_iff.1 h
    obtain ⟨⟨qs, r⟩, more, h⟩ := Option.bind_eq_some_iff.1 h
    cases h
    obtain ⟨t, rfl, spelt⟩ := ih more
    exact ⟨'\\' :: 'u' :: a :: b :: c :: d :: t, rfl, .code hex spelt⟩
  | case4 e s short ih =>
    obtain ⟨p, named, h⟩ := Option.bind_eq_some_iff.1 h
    obtain ⟨⟨qs, r⟩, more, h⟩ := Option.bind_eq_some_iff.1 h
    cases h
    obtain ⟨t, rfl, spelt⟩ := ih more
    obtain ⟨c, escape, rfl⟩ := ofEscape?_eq_some_iff.1 named
    exact ⟨'\\' :: e :: t, rfl, .escape escape spelt⟩
  | case5 => cases h
  | case6 c s quote code escape visible ih =>
    obtain ⟨⟨qs, r⟩, more, h⟩ := Option.bind_eq_some_iff.1 h
    cases h
    obtain ⟨t, rfl, spelt⟩ := ih more
    have backslash : c ≠ '\\' := by
      intro same
      cases t with
      | nil => exact escape '"' rest same rfl
      | cons e t => exact escape e (t ++ '"' :: rest) same rfl
    exact ⟨c :: t, rfl, .plain (isPlain_iff.2 ⟨quote, backslash, visible⟩) spelt⟩

theorem joins_of_join? (h : join? ps = some cs) : Joins ps cs := by
  fun_induction join? ps generalizing cs with
  | case1 =>
    cases h
    exact .nil
  | case2 c ps ih =>
    obtain ⟨ds, more, rfl⟩ := Option.map_eq_some_iff.1 h
    exact .char (ih more)
  | case3 n lead t ps trail ih =>
    obtain ⟨ds, more, rfl⟩ := Option.map_eq_some_iff.1 h
    exact .pair lead trail (ih more)
  | case4 => cases h
  | case5 => cases h
  | case6 => cases h
  | case7 n ps lead trail ih =>
    obtain ⟨ds, more, rfl⟩ := Option.map_eq_some_iff.1 h
    exact .code (Bool.eq_false_iff.2 lead) (Bool.eq_false_iff.2 trail) (ih more)

theorem join?_of_joins (h : Joins ps cs) : join? ps = some cs := by
  induction h with
  | nil => rfl
  | char _ ih => rw [join?, ih, Option.map_some]
  | code lead trail _ ih =>
    unfold join?
    rw [if_neg (Bool.eq_false_iff.1 lead), if_neg (Bool.eq_false_iff.1 trail), ih, Option.map_some]
  | pair lead trail _ ih =>
    unfold join?
    rw [if_pos lead]
    dsimp only
    rw [if_pos trail, ih, Option.map_some]

theorem text?_of_spells {k : Option String} (spelt : SpellsText k s) (rest : List Char) :
    text? (s ++ '"' :: rest) = some (k, rest) := by
  cases spelt with
  | text pieces joined =>
    rw [text?, pieces?_of_spells pieces, Option.map_some]
    dsimp only
    rw [join?_of_joins joined, Option.map_some]
  | @noText ps _ pieces apart =>
    have none : join? ps = none := by
      cases joined : join? ps with
      | none => rfl
      | some cs => exact absurd (joins_of_join? joined) (apart cs)
    rw [text?, pieces?_of_spells pieces, Option.map_some]
    dsimp only
    rw [none, Option.map_none]

theorem spells_of_text? {k : Option String} (h : text? s = some (k, rest)) :
    ∃ t, s = t ++ '"' :: rest ∧ SpellsText k t := by
  obtain ⟨⟨ps, r⟩, pieces, same⟩ := Option.map_eq_some_iff.1 h
  cases same
  obtain ⟨t, rfl, spelt⟩ := spells_of_pieces? pieces
  refine ⟨t, rfl, ?_⟩
  cases joined : join? ps with
  | none =>
    refine .noText spelt fun cs joins => ?_
    cases joined.symm.trans (join?_of_joins joins)
  | some cs => exact .text spelt (joins_of_join? joined)

theorem spellsText_of_isPlain (k : String) (plain : k.toList.all isPlain = true) :
    SpellsText (some k) k.toList := by
  have pieces : ∀ {s : List Char}, s.all isPlain = true → SpellsPieces (s.map .char) s := by
    intro s plain
    induction s with
    | nil => exact .nil
    | cons c s ih =>
      obtain ⟨first, others⟩ := Bool.and_eq_true_iff.1 plain
      exact .plain first (ih others)
  have joined : ∀ s : List Char, Joins (s.map .char) s := by
    intro s
    induction s with
    | nil => exact .nil
    | cons c s ih => exact .char ih
  have spelt := SpellsText.text (pieces plain) (joined k.toList)
  rwa [String.ofList_toList] at spelt

end

/-! ## Values -/

/-- What is written: a value, a value with the blanks around it, the inside of an array, a member
or the inside of an object. -/
inductive Form where
  | value (v : Value)
  | element (v : Value)
  | elements (vs : List Value)
  | member (k : Option String) (v : Value)
  | members (ms : List (Option String × Value))

inductive Spells : Form → List Char → Prop where
  | null : Spells (.value .null) ['n', 'u', 'l', 'l']
  | true : Spells (.value (.bool true)) ['t', 'r', 'u', 'e']
  | false : Spells (.value (.bool false)) ['f', 'a', 'l', 's', 'e']
  | number {n s} (numeral : SpellsNumeral n s) : Spells (.value (.number n)) s
  | string {k s} (text : SpellsText k s) : Spells (.value (.string k)) ('"' :: (s ++ ['"']))
  | emptyArray {b} (blanks : AreBlanks b) : Spells (.value (.array [])) ('[' :: (b ++ [']']))
  | array {vs s} (inside : Spells (.elements vs) s) :
      Spells (.value (.array vs)) ('[' :: (s ++ [']']))
  | emptyObject {b} (blanks : AreBlanks b) :
      Spells (.value (.object [])) ('\x7b' :: (b ++ ['\x7d']))
  | object {ms s} (inside : Spells (.members ms) s) :
      Spells (.value (.object ms)) ('\x7b' :: (s ++ ['\x7d']))
  | element {a v s b} (before : AreBlanks a) (value : Spells (.value v) s) (behind : AreBlanks b) :
      Spells (.element v) (a ++ (s ++ b))
  | lastElement {v s} (last : Spells (.element v) s) : Spells (.elements [v]) s
  | elements {v s vs t} (first : Spells (.element v) s) (more : Spells (.elements vs) t) :
      Spells (.elements (v :: vs)) (s ++ ',' :: t)
  | member {a k s b v t} (before : AreBlanks a) (key : SpellsText k s) (behind : AreBlanks b)
      (element : Spells (.element v) t) :
      Spells (.member k v) (a ++ '"' :: (s ++ '"' :: (b ++ ':' :: t)))
  | lastMember {k v s} (last : Spells (.member k v) s) : Spells (.members [(k, v)]) s
  | members {k v s ms t} (first : Spells (.member k v) s) (more : Spells (.members ms) t) :
      Spells (.members ((k, v) :: ms)) (s ++ ',' :: t)

section

variable {a b s t rest : List Char} {c : Char}

theorem skipBlanks_append_cons (blanks : AreBlanks b) (visible : isBlank c = false)
    (s : List Char) : skipBlanks (b ++ c :: s) = c :: s := by
  rw [skipBlanks_of_areBlanks blanks, skipBlanks_cons visible]

theorem enclosed_append (c d : Char) (s rest : List Char) :
    (c :: (s ++ [d])) ++ rest = c :: (s ++ d :: rest) := by
  rw [List.cons_append, List.append_assoc, List.singleton_append]

theorem skipBlanks_append_enclosed (blanks : AreBlanks b) (visible : isBlank c = false) (d : Char)
    (s rest : List Char) :
    skipBlanks (b ++ ((c :: (s ++ [d])) ++ rest)) = c :: (s ++ d :: rest) := by
  rw [enclosed_append]
  exact skipBlanks_append_cons blanks visible _

theorem skipBlanks_append_numeral {n : Numeral} (blanks : AreBlanks b) (spelt : SpellsNumeral n s)
    (stops : Stops rest) : skipBlanks (b ++ (s ++ rest)) = s ++ rest := by
  obtain ⟨c, r, front, first⟩ := numeral?_front (numeral?_append spelt stops)
  have visible : isBlank c = false := by
    rcases first with rfl | digit
    · rfl
    · cases blank : isBlank c with
      | false => rfl
      | true =>
        have ends := (endsNumber_of_isBlank blank).1
        cases digit.symm.trans ends
  rw [front, skipBlanks_append_cons blanks visible]

/-- The readers find what is spelt so, blanks in front of it or not, in every text that goes on
as it may. -/
def Form.IsFound (s : List Char) : Form → Prop
  | .value v => ∀ {b rest}, AreBlanks b → Stops rest → Reads (b ++ (s ++ rest)) (.value v) rest
  | .element v => ∀ {rest}, Stops rest → ∃ b, AreBlanks b ∧ Reads (s ++ rest) (.value v) (b ++ rest)
  | .elements vs => ∀ rest, Reads (s ++ ']' :: rest) (.items vs) rest
  | .member k v => ∀ {rest}, Stops rest → ∃ r r₁ r₂ b, skipBlanks (s ++ rest) = '"' :: r ∧
      text? r = some (k, r₁) ∧ skipBlanks r₁ = ':' :: r₂ ∧ AreBlanks b ∧
      Reads r₂ (.value v) (b ++ rest)
  | .members ms => ∀ rest, Reads (s ++ '\x7d' :: rest) (.members ms) rest

theorem isFound_of_spells {form : Form} (h : Spells form s) : form.IsFound s := by
  induction h with
  | null => exact fun blanks _ => .null (skipBlanks_append_cons blanks rfl _)
  | true => exact fun blanks _ => .true (skipBlanks_append_cons blanks rfl _)
  | false => exact fun blanks _ => .false (skipBlanks_append_cons blanks rfl _)
  | number numeral =>
    intro b rest blanks stops
    refine .number ?_
    rw [skipBlanks_append_numeral blanks numeral stops]
    exact numeral?_append numeral stops
  | string text =>
    intro b rest blanks _
    exact .string (skipBlanks_append_enclosed blanks rfl '"' _ rest) (text?_of_spells text rest)
  | emptyArray within =>
    intro b rest blanks _
    exact .emptyArray (skipBlanks_append_enclosed blanks rfl ']' _ rest)
      (skipBlanks_append_cons within rfl rest)
  | array _ ih =>
    intro b rest blanks _
    exact .array (skipBlanks_append_enclosed blanks rfl ']' _ rest) (ih rest)
  | emptyObject within =>
    intro b rest blanks _
    exact .emptyObject (skipBlanks_append_enclosed blanks rfl '\x7d' _ rest)
      (skipBlanks_append_cons within rfl rest)
  | object _ ih =>
    intro b rest blanks _
    exact .object (skipBlanks_append_enclosed blanks rfl '\x7d' _ rest) (ih rest)
  | @element a v s b before _ behind ih =>
    intro rest stops
    refine ⟨b, behind, ?_⟩
    rw [List.append_assoc, List.append_assoc]
    exact ih before (stops_append behind stops)
  | lastElement _ ih =>
    intro rest
    obtain ⟨b, blanks, value⟩ := ih (stops_cons (s := rest) (c := ']') (by decide))
    exact .lastItem value (skipBlanks_append_cons blanks rfl rest)
  | @elements v s vs t _ _ ih more =>
    intro rest
    obtain ⟨b, blanks, value⟩ := ih (stops_cons (s := t ++ ']' :: rest) (c := ',') (by decide))
    rw [List.append_assoc, List.cons_append]
    exact .item value (skipBlanks_append_cons blanks rfl _) (more rest)
  | @member a k s b v t before key behind _ ih =>
    intro rest stops
    obtain ⟨b', blanks, value⟩ := ih stops
    refine ⟨s ++ '"' :: (b ++ ':' :: (t ++ rest)), b ++ ':' :: (t ++ rest), t ++ rest, b', ?_,
      text?_of_spells key _, skipBlanks_append_cons behind rfl _, blanks, value⟩
    simp only [List.append_assoc, List.cons_append]
    exact skipBlanks_append_cons before rfl _
  | lastMember _ ih =>
    intro rest
    obtain ⟨r, r₁, r₂, b, front, key, colon, blanks, value⟩ :=
      ih (stops_cons (s := rest) (c := '\x7d') (by decide))
    exact .lastMember front key colon value (skipBlanks_append_cons blanks rfl rest)
  | @members k v s ms t _ _ ih more =>
    intro rest
    obtain ⟨r, r₁, r₂, b, front, key, colon, blanks, value⟩ :=
      ih (stops_cons (s := t ++ '\x7d' :: rest) (c := ',') (by decide))
    rw [List.append_assoc, List.cons_append]
    exact .member front key colon value (skipBlanks_append_cons blanks rfl _) (more rest)

/-- Between where the part begins and what follows it stands one of its spellings. -/
def Part.IsSpelt (s rest : List Char) : Part → Prop
  | .value v => ∃ b t, AreBlanks b ∧ s = b ++ (t ++ rest) ∧ Spells (.value v) t
  | .items vs => ∃ t, s = t ++ ']' :: rest ∧ Spells (.elements vs) t
  | .members ms => ∃ t, s = t ++ '\x7d' :: rest ∧ Spells (.members ms) t

theorem isSpelt_of_reads {p : Part} (h : Reads s p rest) : p.IsSpelt s rest := by
  induction h with
  | null front =>
    obtain ⟨b, blanks, rfl⟩ := exists_blanks front
    exact ⟨b, _, blanks, rfl, .null⟩
  | true front =>
    obtain ⟨b, blanks, rfl⟩ := exists_blanks front
    exact ⟨b, _, blanks, rfl, .true⟩
  | false front =>
    obtain ⟨b, blanks, rfl⟩ := exists_blanks front
    exact ⟨b, _, blanks, rfl, .false⟩
  | number numeral =>
    obtain ⟨t, front, spelt⟩ := spelt_of_numeral? numeral
    obtain ⟨b, blanks, rfl⟩ := exists_blanks front
    exact ⟨b, t, blanks, rfl, .number spelt⟩
  | string front text =>
    obtain ⟨b, blanks, rfl⟩ := exists_blanks front
    obtain ⟨t, rfl, spelt⟩ := spells_of_text? text
    exact ⟨b, _, blanks, congrArg (b ++ ·) (enclosed_append ..).symm, .string spelt⟩
  | emptyArray front close =>
    obtain ⟨b, blanks, rfl⟩ := exists_blanks front
    obtain ⟨inner, within, rfl⟩ := exists_blanks close
    exact ⟨b, _, blanks, congrArg (b ++ ·) (enclosed_append ..).symm, .emptyArray within⟩
  | array front _ ih =>
    obtain ⟨b, blanks, rfl⟩ := exists_blanks front
    obtain ⟨t, rfl, spelt⟩ := ih
    exact ⟨b, _, blanks, congrArg (b ++ ·) (enclosed_append ..).symm, .array spelt⟩
  | emptyObject front close =>
    obtain ⟨b, blanks, rfl⟩ := exists_blanks front
    obtain ⟨inner, within, rfl⟩ := exists_blanks close
    exact ⟨b, _, blanks, congrArg (b ++ ·) (enclosed_append ..).symm, .emptyObject within⟩
  | object front _ ih =>
    obtain ⟨b, blanks, rfl⟩ := exists_blanks front
    obtain ⟨t, rfl, spelt⟩ := ih
    exact ⟨b, _, blanks, congrArg (b ++ ·) (enclosed_append ..).symm, .object spelt⟩
  | lastItem _ close ih =>
    obtain ⟨b, t, before, rfl, spelt⟩ := ih
    obtain ⟨b', behind, rfl⟩ := exists_blanks close
    refine ⟨b ++ (t ++ b'), ?_, .lastElement (.element before spelt behind)⟩
    simp only [List.append_assoc]
  | item _ comma _ ih more =>
    obtain ⟨b, t, before, rfl, spelt⟩ := ih
    obtain ⟨b', behind, rfl⟩ := exists_blanks comma
    obtain ⟨t', rfl, spelt'⟩ := more
    refine ⟨b ++ (t ++ b') ++ ',' :: t', ?_, .elements (.element before spelt behind) spelt'⟩
    simp only [List.append_assoc, List.cons_append]
  | lastMember front key colon _ close ih =>
    obtain ⟨a, before, rfl⟩ := exists_blanks front
    obtain ⟨k, rfl, name⟩ := spells_of_text? key
    obtain ⟨b, behind, rfl⟩ := exists_blanks colon
    obtain ⟨c, t, blanks, rfl, spelt⟩ := ih
    obtain ⟨d, blanks', rfl⟩ := exists_blanks close
    refine ⟨_, ?_, .lastMember (.member before name behind (.element blanks spelt blanks'))⟩
    simp only [List.append_assoc, List.cons_append]
  | member front key colon _ comma _ ih more =>
    obtain ⟨a, before, rfl⟩ := exists_blanks front
    obtain ⟨k, rfl, name⟩ := spells_of_text? key
    obtain ⟨b, behind, rfl⟩ := exists_blanks colon
    obtain ⟨c, t, blanks, rfl, spelt⟩ := ih
    obtain ⟨d, blanks', rfl⟩ := exists_blanks comma
    obtain ⟨t', rfl, spelt'⟩ := more
    refine ⟨_, ?_, .members (.member before name behind (.element blanks spelt blanks')) spelt'⟩
    simp only [List.append_assoc, List.cons_append]

theorem read?_eq_some_iff_spells {v : Value} : read? s = some v ↔ Spells (.element v) s := by
  rw [read?_eq_some_iff]
  constructor
  · rintro ⟨r, reads, none⟩
    obtain ⟨b, t, before, rfl, spelt⟩ := isSpelt_of_reads reads
    exact .element before spelt (areBlanks_of_skipBlanks none)
  · intro spelt
    have stops : Stops [] := fun c first => by cases first
    obtain ⟨b, blanks, reads⟩ := isFound_of_spells spelt stops
    rw [List.append_nil] at reads
    refine ⟨b ++ [], reads, ?_⟩
    rw [skipBlanks_of_areBlanks blanks]
    rfl

end

end ProgramControl.Json
