import ProgramControl.Proofs.Toml.QuotedText
import ProgramControl.Text.Number
import ProgramControl.Toml.Reader

/-!
# Documents are read as they are written

A document that is a list of tables, each with a header of its own and a line for each entry, is
read as these tables.

* `scalar?_toDigits`   decimal digits are read as their number;
* `ReadsAs`            a text is read as a value where a line ends behind it;
* `items?_lines`       texts with a line for each, as the items of an array;
* `line?_header`, `line?_entry`   the two kinds of lines;
* `ReadsLines`         a text is read line by line;
* `read?_of_readsLines`   tables with names and keys of their own make the document.
-/

namespace ProgramControl.Toml

/-! ## Decimal integers -/

section

variable {s r : List Char} {c : Char}

/-- Nothing but digits. -/
def AreDigits (s : List Char) : Prop := ∀ c ∈ s, c.isDigit = true

theorem areDigits_toDigits (n : Nat) : AreDigits (Nat.toDigits 10 n) :=
  fun _ mem => Nat.isDigit_of_mem_toDigits (by decide) (by decide) mem

theorem ne_of_class {p : Char → Bool} {d : Char} (inside : p c = true) (outside : p d = false) :
    c ≠ d := by
  rintro rfl
  rw [inside] at outside
  cases outside

theorem ofDigits_toDigits (n : Nat) : ofDigits 10 (Nat.toDigits 10 n) = n := by
  have same (ds : List Char) (digits : AreDigits ds) (m : Nat) :
      ds.foldl (fun n c => n * 10 + digitValue c) m = Nat.ofDigitChars 10 ds m := by
    induction ds generalizing m with
    | nil => rfl
    | cons c ds ih =>
      obtain ⟨digit, digits⟩ := List.forall_mem_cons.1 digits
      rw [List.foldl_cons, ih digits, Nat.ofDigitChars_cons, digitValue, if_pos digit, Nat.mul_comm]
  rw [ofDigits, same _ (areDigits_toDigits n), Nat.ofDigitChars_ten_toDigits]

/-- Digits alone are no date: it has a dash behind the year. -/
theorem date?_of_digits (digits : AreDigits s) : date? s = none := by
  unfold date?
  split
  · exact absurd rfl (ne_of_class (digits '-' (by simp)) (by decide))
  · rfl

/-- Nor are they a time of day: it has a colon behind the hours. -/
theorem time?_of_digits (digits : AreDigits s) : time? s = none := by
  unfold time?
  cases hours : two? 0 23 s with
  | none => rfl
  | some end_ =>
    obtain ⟨n, r⟩ := end_
    have suffix : r <:+ s := by
      unfold two? at hours
      split at hours
      · dsimp only at hours
        split at hours
        · cases hours
          exact ⟨[_, _], rfl⟩
        · cases hours
      · cases hours
    dsimp only [Option.bind_eq_bind, Option.bind_some]
    split
    · exact absurd rfl (ne_of_class (digits ':' (suffix.mem (by simp))) (by decide))
    · rfl

theorem isMoment_of_digits (digits : AreDigits s) : isMoment s = false := by
  rw [isMoment, date?_of_digits digits, time?_of_digits digits]
  rfl

theorem isSpaced_of_digits (digits : AreDigits s) (behindDigit : Bool) :
    isSpaced isHex behindDigit s = true := by
  induction s generalizing behindDigit with
  | nil => rfl
  | cons c s ih =>
    obtain ⟨digit, digits⟩ := List.forall_mem_cons.1 digits
    have other := ne_of_class (d := '_') digit (by decide)
    rw [isSpaced]
    · exact ih digits _
    · exact fun same _ => other same
    · exact fun _ _ same _ => other same

theorem number?_toDigits {n : Nat} (wide : n < Nat.pow 2 128) :
    number? (Nat.toDigits 10 n) = some (.integer n) := by
  have digits := areDigits_toDigits n
  have whole : splitBase? (Nat.toDigits 10 n) = none := by
    have letter {d : Char} {t : List Char} (same : Nat.toDigits 10 n = '0' :: d :: t) :
        d.isDigit = true := digits d (same ▸ by simp)
    unfold splitBase?
    split
    · rename_i same; exact absurd (letter same) (by decide)
    · rename_i same; exact absurd (letter same) (by decide)
    · rename_i same; exact absurd (letter same) (by decide)
    · rfl
  have unsigned : splitSign (Nat.toDigits 10 n) = (none, Nat.toDigits 10 n) := by
    unfold splitSign
    split <;> rename_i same
    · rw [same] at digits
      exact absurd (digits '-' (by simp)) (by decide)
    · rw [same] at digits
      exact absurd (digits '+' (by simp)) (by decide)
    · rfl
  have named (name : List Char) (letter : ¬ AreDigits name) : Nat.toDigits 10 n ≠ name :=
    fun same => letter (same ▸ digits)
  have part : hasPart (Nat.toDigits 10 n) = false := by
    refine List.any_eq_false.2 fun c mem => ?_
    have digit := digits c mem
    simp [ne_of_class (d := '.') digit (by decide), ne_of_class (d := 'e') digit (by decide),
      ne_of_class (d := 'E') digit (by decide)]
  have lead : Nat.toDigits 10 n = ['0'] ∨ (Nat.toDigits 10 n).head? ≠ some '0' := by
    rcases Nat.eq_zero_or_pos n with rfl | positive
    · exact .inl rfl
    · obtain ⟨d, ds, cons, nonzero⟩ := Text.Natural.toDigits_eq_cons positive
      exact .inr (by simp [cons, nonzero])
  have decimal_ : isDecimal false (Nat.toDigits 10 n) = true := by
    have tail : (Nat.toDigits 10 n ++ []).dropWhile Char.isDigit = [] :=
      List.dropWhile_append_of_pos digits
    rw [List.append_nil] at tail
    simp [isDecimal, tail, lead, isSpaced_of_digits digits, Nat.toDigits_ne_nil]
  have plain : (Nat.toDigits 10 n).filter (· != '_') = Nat.toDigits 10 n := by
    refine List.filter_eq_self.2 fun c mem => ?_
    simpa using ne_of_class (d := '_') (digits c mem) (by decide)
  rw [number?, whole]
  simp only [unsigned]
  rw [if_neg, part, Option.isSome_none, decimal_, if_neg Bool.false_ne_true, if_pos rfl, decimal,
    plain, if_pos (List.all_eq_true.2 digits), ofDigits_toDigits]
  · have fits : isWide n = true := by
      simp only [isWide, Bool.and_eq_true, decide_eq_true_eq]
      omega
    simp [withSign, Toml.wide, fits]
  · rintro (same | same)
    · exact named _ (by simp [AreDigits]) same
    · exact named _ (by simp [AreDigits]) same

theorem scalar?_toDigits {n : Nat} (wide : n < Nat.pow 2 128) :
    scalar? (Nat.toDigits 10 n) = some (.integer n) := by
  have digits := areDigits_toDigits n
  rw [scalar?, if_neg, if_neg, isMoment_of_digits digits, if_neg Bool.false_ne_true,
    number?_toDigits wide]
  · intro same
    rw [same] at digits
    simp [AreDigits] at digits
  · intro same
    rw [same] at digits
    simp [AreDigits] at digits

end

/-! ## Values -/

/-- The text is read as the value where a line ends behind it. -/
def ReadsAs (text : List Char) (v : Value) : Prop :=
  ∀ fuel r, text.length + 2 ≤ fuel → value? fuel 0 (text ++ '\n' :: r) = some (v, '\n' :: r)

/-- The text starts with a character that is none of blank space. -/
def StartsVisibly (text : List Char) : Prop := ∃ c t, text = c :: t ∧ isSpace c = false

section

variable {s r : List Char} {c : Char}

theorem endsText_cons (double : c ≠ '"') (single : c ≠ '\'') : EndsText (c :: r) :=
  ⟨fun same => double (Option.some.inj same), fun same => single (Option.some.inj same)⟩

theorem quoted_eq_cons (s : List Char) : ∃ q t, quoted s = q :: t ∧ (q = '"' ∨ q = '\'') := by
  unfold quoted
  dsimp only
  split
  · exact ⟨_, _, rfl, .inl rfl⟩
  split
  · exact ⟨_, _, rfl, .inr rfl⟩
  split
  · exact ⟨_, _, rfl, .inl rfl⟩
  split
  · exact ⟨_, _, rfl, .inr rfl⟩
  split
  · exact ⟨_, _, rfl, .inl rfl⟩
  · exact ⟨_, _, rfl, .inl rfl⟩

theorem value?_quoted (s : List Char) (ends : EndsText r) (fuel depth : Nat) :
    value? (fuel + 1) depth (quoted s ++ r) = some (.text (String.ofList s), r) := by
  have read := quoted?_quoted s ends
  obtain ⟨q, t, cons, quote⟩ := quoted_eq_cons s
  rw [cons, List.cons_append] at read ⊢
  rcases quote with rfl | rfl
  · rw [value?, read]
    rfl
  · rw [value?, read]
    rfl

theorem readsAs_quoted (s : String) : ReadsAs (quoted s.toList) (.text s) := by
  intro fuel r enough
  obtain ⟨fuel, rfl⟩ := Nat.exists_eq_succ_of_ne_zero (n := fuel) (by omega)
  rw [value?_quoted _ (endsText_cons (by decide) (by decide)), String.ofList_toList]

theorem isScalarChar_of_isAlphanum (letter : c.isAlphanum = true) : isScalarChar c = true := by
  simp only [isScalarChar, isSpace, Bool.not_eq_true', Bool.or_eq_false_iff, beq_eq_false_iff_ne]
  and_intros <;> exact ne_of_class letter (by decide)

theorem readsAs_scalar {v : Value} (visible : s ≠ []) (plain : ∀ c ∈ s, c.isAlphanum = true)
    (undated : date? s = none) (scalar : scalar? s = some v) : ReadsAs s v := by
  intro fuel r enough
  obtain ⟨fuel, rfl⟩ := Nat.exists_eq_succ_of_ne_zero (n := fuel) (by omega)
  have chars : ∀ c ∈ s, isScalarChar c = true :=
    fun c mem => isScalarChar_of_isAlphanum (plain c mem)
  have stop : ¬ isScalarChar '\n' = true := by decide
  have literal : scalarLiteral (s ++ '\n' :: r) = (s, '\n' :: r) := by
    unfold scalarLiteral
    rw [List.takeWhile_append_of_pos chars, List.dropWhile_append_of_pos chars,
      List.takeWhile_cons_of_neg stop, List.dropWhile_cons_of_neg stop, List.append_nil]
    dsimp only
    rw [undated]
  obtain ⟨c, t, rfl⟩ := List.exists_cons_of_ne_nil visible
  have ne (d : Char) (other : d.isAlphanum = false) : c ≠ d :=
    ne_of_class (plain c List.mem_cons_self) other
  rw [List.cons_append] at literal ⊢
  rw [value?]
  · simp only [literal, scalar, Option.map_some]
  · exact fun _ same => ne '[' (by decide) (List.cons.inj same).1
  · exact fun _ same => ne '\x7b' (by decide) (List.cons.inj same).1
  · exact fun _ same => ne '"' (by decide) (List.cons.inj same).1
  · exact fun _ same => ne '\'' (by decide) (List.cons.inj same).1

/-! ### Lists of texts -/

theorem skipGap?_false_cons (space : isSpace c = false) (lineEnd : c ≠ '\n')
    (carriage : c ≠ '\r') (comment : c ≠ '#') : skipGap? false (c :: r) = some (c :: r) := by
  rw [skipGap?.eq_def]
  split <;> simp_all

theorem skipGap?_quoted (s r : List Char) :
    skipGap? false (quoted s ++ r) = some (quoted s ++ r) := by
  obtain ⟨q, t, cons, rfl | rfl⟩ := quoted_eq_cons s <;> rw [cons]
  · exact skipGap?_false_cons (by decide) (by decide) (by decide) (by decide)
  · exact skipGap?_false_cons (by decide) (by decide) (by decide) (by decide)

/-- An item with a bracket behind it is the last one. -/
theorem items?_last {t : List Char} {v : Value} {fuel depth : Nat}
    (skips : skipGap? false s = some (c :: t)) (inside : c ≠ ']')
    (read : value? fuel depth (c :: t) = some (v, ']' :: r)) :
    items? (fuel + 1) depth s = some ([v], r) := by
  rw [items?, skips, Option.bind_eq_bind, Option.bind_some]
  split
  · rename_i same
    exact absurd (List.cons.inj same).1 inside
  · rw [read]
    rfl

/-- Behind an item with a comma there may be others. -/
theorem items?_more {t : List Char} {v : Value} {vs : List Value} {fuel depth : Nat}
    {rest : List Char} (skips : skipGap? false s = some (c :: t)) (inside : c ≠ ']')
    (read : value? fuel depth (c :: t) = some (v, ',' :: rest))
    (others : items? fuel depth rest = some (vs, r)) :
    items? (fuel + 1) depth s = some (v :: vs, r) := by
  rw [items?, skips, Option.bind_eq_bind, Option.bind_some]
  split
  · rename_i same
    exact absurd (List.cons.inj same).1 inside
  · rw [read]
    show (items? fuel depth rest).map _ = _
    rw [others]
    rfl

theorem items?_close (depth fuel : Nat) (r : List Char) :
    items? (fuel + 1) depth (']' :: r) = some ([], r) := rfl

/-- Texts as items of an array, with a line for each. -/
def itemLines (items : List String) : List Char :=
  items.flatMap fun s => "    ".toList ++ quoted s.toList ++ ",\n".toList

theorem itemLines_cons (s : String) (items : List String) (r : List Char) :
    itemLines (s :: items) ++ r =
      "    ".toList ++ (quoted s.toList ++ ',' :: '\n' :: (itemLines items ++ r)) := by
  rw [itemLines, List.flatMap_cons, List.append_assoc, List.append_assoc, List.append_assoc]
  rfl

theorem length_le_itemLines (items : List String) : items.length ≤ (itemLines items).length := by
  induction items with
  | nil => exact Nat.le_refl 0
  | cons s items ih =>
    have head : "    ".toList.length = 4 := rfl
    rw [itemLines, List.flatMap_cons, ← itemLines, List.length_append, List.length_append,
      List.length_append, head, List.length_cons]
    omega

theorem items?_lines (items : List String) (depth fuel : Nat) (r : List Char) :
    items? (items.length + (fuel + 1)) depth ('\n' :: (itemLines items ++ ']' :: r)) =
      some (items.map .text, r) := by
  induction items generalizing fuel with
  | nil =>
    rw [List.length_nil, Nat.zero_add]
    rfl
  | cons s items ih =>
    obtain ⟨q, t, cons, quote⟩ := quoted_eq_cons s.toList
    have inside : q ≠ ']' := by
      rcases quote with rfl | rfl <;> decide
    generalize rest : itemLines items ++ ']' :: r = others at ih
    have skips : skipGap? false ('\n' :: ("    ".toList ++ (quoted s.toList ++
        ',' :: '\n' :: others))) = some (quoted s.toList ++ ',' :: '\n' :: others) :=
      skipGap?_quoted ..
    have read : value? (items.length + (fuel + 1)) depth
        (quoted s.toList ++ ',' :: '\n' :: others) = some (.text s, ',' :: '\n' :: others) := by
      have read := value?_quoted s.toList
        (endsText_cons (c := ',') (r := '\n' :: others) (by decide) (by decide))
        (items.length + fuel) depth
      rwa [String.ofList_toList] at read
    rw [itemLines_cons, rest, List.length_cons, Nat.add_right_comm]
    rw [cons] at skips read ⊢
    exact items?_more skips inside read (ih fuel)

end

/-! ## Lines -/

section

variable {s r : List Char} {c : Char} {name : String}

/-- A name that can be a key as it stands. -/
def IsBareKey (name : String) : Prop := name.toList ≠ [] ∧ ∀ c ∈ name.toList, isBare c = true

instance (name : String) : Decidable (IsBareKey name) :=
  decidable_of_iff (name.toList ≠ [] ∧ name.toList.all isBare)
    (and_congr_right fun _ => List.all_eq_true)

theorem first_of_bare (bare : IsBareKey name) :
    ∃ d t, name.toList = d :: t ∧ isBare d = true := by
  obtain ⟨d, t, cons⟩ := List.exists_cons_of_ne_nil bare.1
  exact ⟨d, t, cons, bare.2 d (cons ▸ List.mem_cons_self)⟩

theorem simpleKey?_bare (bare : IsBareKey name) (stop : isBare c = false) (r : List Char) :
    simpleKey? (name.toList ++ c :: r) = some (name, c :: r) := by
  obtain ⟨d, t, cons, first⟩ := first_of_bare bare
  obtain ⟨visible, chars⟩ := bare
  have split : (name.toList ++ c :: r).takeWhile isBare = name.toList ∧
      (name.toList ++ c :: r).dropWhile isBare = c :: r := by
    have stop : ¬ isBare c = true := by rw [stop]; exact Bool.false_ne_true
    rw [List.takeWhile_append_of_pos chars, List.dropWhile_append_of_pos chars,
      List.takeWhile_cons_of_neg stop, List.dropWhile_cons_of_neg stop, List.append_nil]
    exact ⟨rfl, rfl⟩
  unfold simpleKey?
  split
  · rename_i same
    rw [cons] at same
    exact absurd (List.cons.inj same).1 (ne_of_class (d := '"') first (by decide))
  · rename_i same
    rw [cons] at same
    exact absurd (List.cons.inj same).1 (ne_of_class (d := '\'') first (by decide))
  · rw [split.1, split.2]
    split
    · rename_i none
      exact absurd none visible
    · rw [String.ofList_toList]

theorem key?_bare (bare : IsBareKey name) (stop : isBare c = false) {d : Char} {t : List Char}
    (skips : skipSpaces (c :: r) = d :: t) (alone : d ≠ '.') :
    key? (name.toList ++ c :: r) = some ([name], d :: t) := by
  rw [key?, keyLimit, keyWithin?, simpleKey?_bare bare stop]
  simp only [Option.bind_eq_bind, Option.bind_some, skips]
  split
  · rename_i same
    exact absurd (List.cons.inj same).1 alone
  · rfl

theorem skipSpaces_cons (visible : isSpace c = false) (r : List Char) :
    skipSpaces (c :: r) = c :: r := by
  rw [skipSpaces, List.dropWhile_cons_of_neg]
  rw [visible]
  exact Bool.false_ne_true

theorem skipSpaces_bare (bare : IsBareKey name) (r : List Char) :
    skipSpaces (name.toList ++ r) = name.toList ++ r := by
  obtain ⟨d, t, cons, first⟩ := first_of_bare bare
  rw [cons]
  refine skipSpaces_cons ?_ _
  simp only [isSpace, Bool.or_eq_false_iff, beq_eq_false_iff_ne]
  exact ⟨ne_of_class first (by decide), ne_of_class first (by decide)⟩

theorem line?_header (bare : IsBareKey name) (r : List Char) :
    line? ("[".toList ++ name.toList ++ "]\n".toList ++ r) = some (.table [] name, r) := by
  have whole : "[".toList ++ name.toList ++ "]\n".toList ++ r =
      '[' :: (name.toList ++ ']' :: '\n' :: r) := by
    rw [List.append_assoc, List.append_assoc]
    rfl
  have header : headerKey? (name.toList ++ ']' :: '\n' :: r) =
      some (([], name), ']' :: '\n' :: r) := by
    have key := key?_bare bare (c := ']') (by decide) (r := '\n' :: r) (d := ']') rfl (by decide)
    rw [headerKey?, skipSpaces_bare bare, key]
    rfl
  have content : content? ('[' :: (name.toList ++ ']' :: '\n' :: r)) =
      some (.table [] name, '\n' :: r) := by
    obtain ⟨d, t, cons, first⟩ := first_of_bare bare
    rw [content?, skipSpaces_cons (by decide)]
    rw [cons] at header ⊢
    split
    · rename_i same
      exact absurd (List.cons.inj (List.cons.inj same).2).1 (ne_of_class first (by decide))
    · rename_i same
      cases same
      rw [header]
      rfl
    · rename_i other
      exact absurd rfl (other _)
  rw [whole, line?, content]
  rfl

theorem line?_entry (bare : IsBareKey name) {text : List Char} {v : Value}
    (visible : StartsVisibly text) (reads : ReadsAs text v) (r : List Char) :
    line? (name.toList ++ " = ".toList ++ text ++ "\n".toList ++ r) =
      some (.entry [name] v, r) := by
  have whole : name.toList ++ " = ".toList ++ text ++ "\n".toList ++ r =
      name.toList ++ ' ' :: '=' :: ' ' :: (text ++ '\n' :: r) := by
    rw [List.append_assoc, List.append_assoc, List.append_assoc]
    rfl
  have key := key?_bare bare (c := ' ') (by decide) (r := '=' :: ' ' :: (text ++ '\n' :: r))
    (d := '=') rfl (by decide)
  have value : value? (fuelFor (name.toList ++ ' ' :: '=' :: ' ' :: (text ++ '\n' :: r))) 0
      (skipSpaces (' ' :: (text ++ '\n' :: r))) = some (v, '\n' :: r) := by
    obtain ⟨c, t, cons, space⟩ := visible
    have start : skipSpaces (' ' :: (text ++ '\n' :: r)) = text ++ '\n' :: r := by
      rw [cons]
      exact skipSpaces_cons space _
    rw [start]
    refine reads _ r ?_
    simp only [fuelFor, List.length_append, List.length_cons]
    omega
  have content : content? (name.toList ++ ' ' :: '=' :: ' ' :: (text ++ '\n' :: r)) =
      some (.entry [name] v, '\n' :: r) := by
    obtain ⟨d, t, cons, first⟩ := first_of_bare bare
    have ne (c : Char) (outside : isBare c = false) : d ≠ c := ne_of_class first outside
    rw [content?, skipSpaces_bare bare]
    rw [cons] at key value ⊢
    split
    · rename_i same
      exact absurd (List.cons.inj same).1 (ne '[' (by decide))
    · rename_i same
      exact absurd (List.cons.inj same).1 (ne '[' (by decide))
    · split
      · rename_i same
        cases same
      · rename_i same
        exact absurd (List.cons.inj same).1 (ne '#' (by decide))
      · rename_i same
        exact absurd (List.cons.inj same).1 (ne '\n' (by decide))
      · rename_i same
        exact absurd (List.cons.inj same).1 (ne '\r' (by decide))
      · rw [key]
        simp only [Option.bind_eq_bind, Option.bind_some, value]
  rw [whole, line?, content]
  rfl

theorem line?_blank (r : List Char) : line? ('\n' :: r) = some (.blank, r) := rfl

/-! ## All lines of a text -/

/-- The text is read as these lines. -/
inductive ReadsLines : List Char → List Line → Prop where
  | nil : ReadsLines [] []
  | cons {s r : List Char} {line : Line} {lines : List Line} (first : line? s = some (line, r))
      (shorter : r.length < s.length) (rest : ReadsLines r lines) : ReadsLines s (line :: lines)

theorem ReadsLines.linesWithin {lines : List Line} (reads : ReadsLines s lines) {fuel : Nat}
    (enough : s.length ≤ fuel) : linesWithin fuel s = some lines := by
  induction reads generalizing fuel with
  | nil =>
    cases fuel <;> rfl
  | @cons s r line lines first shorter _ ih =>
    obtain ⟨fuel, rfl⟩ := Nat.exists_eq_succ_of_ne_zero (n := fuel) (by omega)
    have rest := ih (show r.length ≤ fuel by omega)
    rw [Toml.linesWithin]
    · rw [first]
      show (Toml.linesWithin fuel r).bind _ = _
      rw [rest]
      rfl
    · rintro rfl
      exact absurd shorter (Nat.not_lt_zero _)

theorem ReadsLines.lines? {lines : List Line} (reads : ReadsLines s lines)
    (unmarked : s.head? ≠ some '\ufeff') : lines? s = some lines := by
  unfold Toml.lines?
  split
  · exact absurd rfl unmarked
  · exact reads.linesWithin (Nat.le_refl _)

end

/-! ## Tables -/

/-- A table with a header of its own: the header's line, and a line for each entry. -/
def tableLines (t : String × List (String × Value)) : List Line :=
  .table [] t.1 :: t.2.map fun e => .entry [e.1] e.2

section

variable {key : String} {f : Option Node → Option Node} {es : Entries}

theorem alter_absent (absent : key ∉ es.map Prod.fst) :
    Entries.alter key f es = (f none).map fun n => es ++ [(key, n)] := by
  induction es with
  | nil => rfl
  | cons e es ih =>
    obtain ⟨k, n⟩ := e
    rw [List.map_cons, List.mem_cons, not_or] at absent
    rw [Entries.alter, if_neg (Ne.symm absent.1), ih absent.2, Option.map_map]
    rfl

theorem alter_last (absent : key ∉ es.map Prod.fst) (n : Node) :
    Entries.alter key f (es ++ [(key, n)]) = (f (some n)).map fun n => es ++ [(key, n)] := by
  induction es with
  | nil =>
    rw [List.nil_append, Entries.alter, if_pos rfl]
    rfl
  | cons e es ih =>
    obtain ⟨k, m⟩ := e
    rw [List.map_cons, List.mem_cons, not_or] at absent
    rw [List.cons_append, Entries.alter, if_neg (Ne.symm absent.1), ih absent.2, Option.map_map]
    rfl

theorem add_entry {name : String} {ns : List (String × Node)} (last : name ∉ es.map Prod.fst)
    (fresh : key ∉ ns.map Prod.fst) (v : Value) :
    Document.add ⟨es ++ [(name, .table .header ns)], [name]⟩ (.entry [key] v) =
      some ⟨es ++ [(name, .table .header (ns ++ [(key, .value v)]))], [name]⟩ := by
  show (Entries.alter name _ _).bind _ = _
  rw [alter_last last]
  show ((((Entries.assign v [key] ns).map (Node.table .header)).map _).bind _) = _
  rw [Entries.assign, Entries.assignIn, if_neg Bool.false_ne_true, alter_absent fresh]
  rfl

theorem add_entries {name : String} (last : name ∉ es.map Prod.fst)
    (entries : List (String × Value)) {ns : List (String × Node)}
    (nodup : (ns.map Prod.fst ++ entries.map Prod.fst).Nodup) :
    (entries.map fun e => Line.entry [e.1] e.2).foldlM Document.add
        ⟨es ++ [(name, .table .header ns)], [name]⟩ =
      some ⟨es ++ [(name, .table .header (ns ++ entries.map fun e => (e.1, .value e.2)))],
        [name]⟩ := by
  induction entries generalizing ns with
  | nil =>
    rw [List.map_nil, List.map_nil, List.append_nil]
    rfl
  | cons e entries ih =>
    obtain ⟨k, v⟩ := e
    have fresh : k ∉ ns.map Prod.fst := by
      intro mem
      exact (List.nodup_append.1 nodup).2.2 k mem k List.mem_cons_self rfl
    rw [List.map_cons, List.foldlM_cons, add_entry last fresh]
    refine (ih ?_).trans ?_
    · rw [List.map_append, List.append_assoc]
      exact nodup
    · rw [List.append_assoc]
      rfl

theorem add_table {d : Document} {t : String × List (String × Value)}
    (fresh : t.1 ∉ d.entries.map Prod.fst) (nodup : (t.2.map Prod.fst).Nodup) :
    (tableLines t).foldlM Document.add d =
      some ⟨d.entries ++ [(t.1, .table .header (t.2.map fun e => (e.1, .value e.2)))], [t.1]⟩ := by
  have header : d.add (.table [] t.1) =
      some ⟨d.entries ++ [(t.1, .table .header [])], [t.1]⟩ := by
    show (Entries.alter t.1 _ d.entries).bind _ = _
    rw [alter_absent fresh]
    rfl
  rw [tableLines, List.foldlM_cons, header]
  exact add_entries fresh t.2 nodup

/-- The lines of tables, with a blank line between two of them. -/
def documentLines (ts : List (String × List (String × Value))) : List Line :=
  [Line.blank].intercalate (ts.map tableLines)

theorem add_tables (ts : List (String × List (String × Value))) {d : Document}
    (names : (d.entries.map Prod.fst ++ ts.map Prod.fst).Nodup)
    (keys : ∀ t ∈ ts, (t.2.map Prod.fst).Nodup) :
    ∃ current, (documentLines ts).foldlM Document.add d =
      some ⟨d.entries ++
        ts.map fun t => (t.1, .table .header (t.2.map fun e => (e.1, .value e.2))), current⟩ := by
  induction ts generalizing d with
  | nil => exact ⟨d.current, by rw [List.map_nil, List.append_nil]; rfl⟩
  | cons t ts ih =>
    obtain ⟨first, others⟩ := List.forall_mem_cons.1 keys
    have fresh : t.1 ∉ d.entries.map Prod.fst := by
      intro mem
      exact (List.nodup_append.1 names).2.2 t.1 mem t.1 List.mem_cons_self rfl
    have table := add_table fresh first
    cases ts with
    | nil =>
      refine ⟨[t.1], ?_⟩
      rw [documentLines, List.map_cons, List.map_nil, List.intercalate_singleton, table]
      rfl
    | cons t' ts =>
      obtain ⟨current, rest⟩ := ih (d := ⟨d.entries ++
          [(t.1, .table .header (t.2.map fun e => (e.1, .value e.2)))], [t.1]⟩)
        (by
          rw [List.map_append, List.append_assoc]
          exact names) others
      refine ⟨current, ?_⟩
      have lines : documentLines (t :: t' :: ts) =
          tableLines t ++ (.blank :: documentLines (t' :: ts)) := by
        simp [documentLines]
      rw [lines, List.foldlM_append, table]
      refine rest.trans ?_
      rw [List.append_assoc]
      rfl

theorem entriesToValues_values (entries : List (String × Value)) :
    entriesToValues (entries.map fun e => (e.1, .value e.2)) = entries := by
  induction entries with
  | nil => rfl
  | cons e entries ih =>
    rw [List.map_cons, entriesToValues, ih]
    rfl

/-- Tables whose names and keys differ are read as they are written. -/
theorem read?_of_readsLines {s : List Char} {ts : List (String × List (String × Value))}
    (reads : ReadsLines s (documentLines ts)) (unmarked : s.head? ≠ some '\ufeff')
    (names : (ts.map Prod.fst).Nodup) (keys : ∀ t ∈ ts, (t.2.map Prod.fst).Nodup) :
    read? s = some (ts.map fun t => (t.1, .table t.2)) := by
  obtain ⟨current, tables⟩ := add_tables ts (d := {}) names keys
  have values (ts : List (String × List (String × Value))) :
      entriesToValues (ts.map fun t =>
        (t.1, Node.table .header (t.2.map fun e => (e.1, .value e.2)))) =
        ts.map fun t => (t.1, .table t.2) := by
    induction ts with
    | nil => rfl
    | cons t ts ih =>
      rw [List.map_cons, entriesToValues, ih, Node.toValue, entriesToValues_values]
      rfl
  rw [read?, reads.lines? unmarked]
  show (Option.bind ((documentLines ts).foldlM Document.add {}) _) = _
  rw [tables]
  exact congrArg some (values ts)

end

end ProgramControl.Toml
