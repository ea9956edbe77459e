import ProgramControl.Json.Reader

/-!
# The grammar of JSON texts

The readers of JSON text take fuel and try one form after the other.  Here the forms stand on their
own, as the rules of a grammar (`Reads`); the readers follow it, and fuel of twice the length of
the text is enough for them.

* `Reads`                 a text begins with a part, and this is what follows it;
* `reads_of_isRead`, `isRead_of_reads`   the readers find what the grammar allows and nothing else;
* `Reads.append`          what is read stays the same when more text follows, unless it is a number
                          that might go on;
* `eq_nil_of_read?_append`   no piece of the text of an array or object, cut off before its end,
                          is a text.
-/

namespace ProgramControl.Json

/-! ## Blanks, numbers and texts -/

section

variable {α : Type} {s r : List Char}

theorem skipBlanks_suffix (s : List Char) : skipBlanks s <:+ s := List.dropWhile_suffix _

theorem skipBlanks_append (t : List Char) (h : skipBlanks s ≠ []) :
    skipBlanks (s ++ t) = skipBlanks s ++ t := by
  unfold skipBlanks at h ⊢
  rw [List.dropWhile_append, if_neg (mt List.isEmpty_iff.1 h)]

/-- A reader leaves the end of its text, and where it leaves something, it reads the same from a
longer text. -/
def Front (f : List Char → Option (α × List Char)) : Prop :=
  ∀ {s a r}, f s = some (a, r) → r <:+ s ∧ ∀ t, r ≠ [] → f (s ++ t) = some (a, r ++ t)

theorem front_digits1? : Front digits1? := by
  intro s ds r h
  unfold digits1? spanDigits at h
  split at h
  · cases h
  · next d ds' r' split =>
    cases h
    obtain ⟨front, left⟩ := Prod.mk.inj split
    refine ⟨left ▸ List.dropWhile_suffix _, fun t more => ?_⟩
    have whole : (s.takeWhile Char.isDigit).length ≠ s.length := by
      intro same
      have all := congrArg List.length (s.takeWhile_append_dropWhile (p := Char.isDigit))
      rw [List.length_append, same, left] at all
      exact more (List.eq_nil_of_length_eq_zero (by omega))
    rw [digits1?, spanDigits, List.takeWhile_append, if_neg whole, front, List.dropWhile_append,
      left, if_neg (mt List.isEmpty_iff.1 more)]

theorem front_whole? : Front whole? := by
  intro s ds r h
  unfold whole? at h
  split at h
  · cases h
  · next fine =>
    obtain ⟨suffix, same⟩ := front_digits1? h
    refine ⟨suffix, fun t more => ?_⟩
    unfold whole?
    rw [same t more]
    split
    · next zero => exact absurd (h.trans (by cases zero; rfl)) (fine _ _ _)
    · rfl

theorem front_fraction? : Front fraction? := by
  intro s f r h
  unfold fraction? at h
  split at h
  · next r' =>
    obtain ⟨⟨ds, r''⟩, digits, same⟩ := Option.map_eq_some_iff.1 h
    cases same
    obtain ⟨suffix, longer⟩ := front_digits1? digits
    refine ⟨suffix.trans (List.suffix_cons ..), fun t more => ?_⟩
    rw [List.cons_append, fraction?, longer t more]
    rfl
  · next point =>
    cases h
    refine ⟨List.suffix_rfl, fun t more => ?_⟩
    obtain ⟨c, s', rfl⟩ := List.exists_cons_of_ne_nil more
    unfold fraction?
    split
    · next r' same =>
      obtain ⟨rfl, -⟩ := List.cons.inj same
      exact absurd rfl (point s')
    · rfl

/-- The sign of an exponent, and what follows it. -/
def signed (s : List Char) : Bool × List Char :=
  match s with
  | '-' :: r => (true, r)
  | '+' :: r => (false, r)
  | r => (false, r)

theorem exponent?_cons (c : Char) (s : List Char) : exponent? (c :: s) =
    if c = 'e' ∨ c = 'E' then
      (digits1? (signed s).2).map fun x => (some ((signed s).1, x.1), x.2)
    else some (none, c :: s) := rfl

theorem signed_cons (c : Char) (s : List Char) : signed (c :: s) =
    if c = '-' then (true, s) else if c = '+' then (false, s) else (false, c :: s) := by
  unfold signed
  split
  · next same => cases same; rfl
  · next same => cases same; rfl
  · next minus plus =>
    rw [if_neg fun same => minus s (by rw [same]), if_neg fun same => plus s (by rw [same])]

theorem signed_suffix (s : List Char) : (signed s).2 <:+ s := by
  cases s with
  | nil => exact List.suffix_rfl
  | cons c s =>
    rw [signed_cons]
    split
    · exact List.suffix_cons ..
    · split
      · exact List.suffix_cons ..
      · exact List.suffix_rfl

theorem signed_append (t : List Char) (h : s ≠ []) :
    signed (s ++ t) = ((signed s).1, (signed s).2 ++ t) := by
  obtain ⟨c, s, rfl⟩ := List.exists_cons_of_ne_nil h
  rw [List.cons_append, signed_cons, signed_cons]
  split
  · rfl
  · split <;> rfl

theorem front_exponent? : Front exponent? := by
  intro s x r h
  cases s with
  | nil =>
    cases h
    exact ⟨List.suffix_rfl, fun t more => absurd rfl more⟩
  | cons c s =>
    rw [exponent?_cons] at h
    by_cases isE : c = 'e' ∨ c = 'E'
    · rw [if_pos isE] at h
      obtain ⟨⟨ds, r'⟩, digits, same⟩ := Option.map_eq_some_iff.1 h
      cases same
      obtain ⟨suffix, longer⟩ := front_digits1? digits
      have some : s ≠ [] := by
        rintro rfl
        cases digits
      refine ⟨(suffix.trans (signed_suffix s)).trans (List.suffix_cons ..), fun t more => ?_⟩
      rw [List.cons_append, exponent?_cons, if_pos isE, signed_append t some, longer t more]
      rfl
    · rw [if_neg isE] at h
      cases h
      refine ⟨List.suffix_rfl, fun t more => ?_⟩
      rw [List.cons_append, exponent?_cons, if_neg isE]

/-- The sign of a number, and what follows it. -/
def negated (s : List Char) : Bool × List Char :=
  match s with
  | '-' :: r => (true, r)
  | s => (false, s)

theorem numeral?_eq (s : List Char) : numeral? s = (whole? (negated s).2).bind fun w =>
    (fraction? w.2).bind fun f => (exponent? f.2).bind fun e =>
      some ({ negative := (negated s).1, whole := w.1, fraction := f.1, exponent := e.1 }, e.2) :=
  rfl

theorem negated_cons (c : Char) (s : List Char) :
    negated (c :: s) = if c = '-' then (true, s) else (false, c :: s) := by
  unfold negated
  split
  · next same => cases same; rfl
  · next minus => rw [if_neg fun same => minus s (by rw [same])]

theorem front_numeral? : Front numeral? := by
  intro s n r h
  rw [numeral?_eq] at h
  obtain ⟨⟨w, r₁⟩, whole, h⟩ := Option.bind_eq_some_iff.1 h
  obtain ⟨⟨f, r₂⟩, fraction, h⟩ := Option.bind_eq_some_iff.1 h
  obtain ⟨⟨e, r₃⟩, exponent, h⟩ := Option.bind_eq_some_iff.1 h
  cases h
  obtain ⟨suffix₁, longer₁⟩ := front_whole? whole
  obtain ⟨suffix₂, longer₂⟩ := front_fraction? fraction
  obtain ⟨suffix₃, longer₃⟩ := front_exponent? exponent
  cases s with
  | nil => cases whole
  | cons c s =>
    have within : (negated (c :: s)).2 <:+ c :: s := by
      rw [negated_cons]
      split
      · exact List.suffix_cons ..
      · exact List.suffix_rfl
    have outside : ∀ t, negated (c :: (s ++ t)) =
        ((negated (c :: s)).1, (negated (c :: s)).2 ++ t) := by
      intro t
      rw [negated_cons, negated_cons]
      split <;> rfl
    refine ⟨((suffix₃.trans suffix₂).trans suffix₁).trans within, fun t more => ?_⟩
    have more₂ : r₂ ≠ [] := fun none => more (List.suffix_nil.1 (none ▸ suffix₃))
    have more₁ : r₁ ≠ [] := fun none => more₂ (List.suffix_nil.1 (none ▸ suffix₂))
    rw [List.cons_append, numeral?_eq, outside, longer₁ t more₁]
    show ((fraction? (r₁ ++ t)).bind fun f => _) = _
    rw [longer₂ t more₂]
    show ((exponent? (r₂ ++ t)).bind fun e => _) = _
    rw [longer₃ t more]
    rfl

theorem numeral?_front {n : Numeral} (h : numeral? s = some (n, r)) :
    ∃ c s', s = c :: s' ∧ (c = '-' ∨ c.isDigit = true) := by
  cases s with
  | nil => cases h
  | cons c s' =>
    refine ⟨c, s', rfl, ?_⟩
    by_cases minus : c = '-'
    · exact .inl minus
    · refine .inr ?_
      rw [numeral?_eq, negated_cons, if_neg minus] at h
      obtain ⟨⟨w, r₁⟩, whole, -⟩ := Option.bind_eq_some_iff.1 h
      have digits : digits1? (c :: s') = some (w, r₁) := by
        unfold whole? at whole
        split at whole
        · cases whole
        · exact whole
      by_cases digit : c.isDigit = true
      · exact digit
      · rw [digits1?, spanDigits, List.takeWhile_cons_of_neg digit] at digits
        cases digits

theorem pieces?_escape {e : Char} (plain : e ≠ 'u') (s : List Char) :
    pieces? ('\\' :: e :: s) = (Piece.ofEscape? e).bind fun p =>
      (pieces? s).bind fun x => some (p :: x.1, x.2) := by
  rw [pieces?]
  · rfl
  · exact fun a b c d r same _ => plain same

theorem pieces?_char {c : Char} (quote : c ≠ '"') (escape : c ≠ '\\') (visible : ¬ c < ' ')
    (s : List Char) : pieces? (c :: s) = (pieces? s).bind fun x => some (.char c :: x.1, x.2) := by
  rw [pieces?, if_neg visible]
  · rfl
  · exact quote
  · exact fun a b c d r same _ => escape same
  · exact fun e r same _ => escape same

/-- The pieces of a text end at its quote, whatever follows. -/
theorem pieces?_append {ps : List Piece} (t : List Char) (h : pieces? s = some (ps, r)) :
    r <:+ s ∧ pieces? (s ++ t) = some (ps, r ++ t) := by
  fun_induction pieces? s generalizing ps r with
  | case1 => cases h
  | case2 r' =>
    cases h
    exact ⟨List.suffix_cons .., rfl⟩
  | case3 a b c d s ih =>
    obtain ⟨n, code, h⟩ := Option.bind_eq_some_iff.1 h
    obtain ⟨⟨qs, r'⟩, more, h⟩ := Option.bind_eq_some_iff.1 h
    cases h
    obtain ⟨suffix, longer⟩ := ih more
    refine ⟨suffix.trans (List.suffix_append ['\\', 'u', a, b, c, d] s), ?_⟩
    show pieces? ('\\' :: 'u' :: a :: b :: c :: d :: (s ++ t)) = _
    rw [pieces?, code, longer]
    rfl
  | case4 e s short ih =>
    obtain ⟨p, escape, h⟩ := Option.bind_eq_some_iff.1 h
    obtain ⟨⟨qs, r'⟩, more, h⟩ := Option.bind_eq_some_iff.1 h
    cases h
    obtain ⟨suffix, longer⟩ := ih more
    have plain : e ≠ 'u' := by
      rintro rfl
      cases escape
    refine ⟨suffix.trans (List.suffix_append ['\\', e] s), ?_⟩
    show pieces? ('\\' :: e :: (s ++ t)) = _
    rw [pieces?_escape plain, escape, longer]
    rfl
  | case5 => cases h
  | case6 c s quote code escape visible ih =>
    obtain ⟨⟨qs, r'⟩, more, h⟩ := Option.bind_eq_some_iff.1 h
    cases h
    obtain ⟨suffix, longer⟩ := ih more
    have whole : c ≠ '\\' := by
      intro same
      cases s with
      | nil => cases more
      | cons e s => exact escape e s same rfl
    refine ⟨suffix.trans (List.suffix_cons c s), ?_⟩
    rw [List.cons_append, pieces?_char quote whole visible, longer]
    rfl

theorem text?_append {k : Option String} (t : List Char) (h : text? s = some (k, r)) :
    r <:+ s ∧ text? (s ++ t) = some (k, r ++ t) := by
  obtain ⟨⟨ps, r'⟩, pieces, same⟩ := Option.map_eq_some_iff.1 h
  cases same
  obtain ⟨suffix, longer⟩ := pieces?_append t pieces
  refine ⟨suffix, ?_⟩
  rw [text?, longer]
  rfl

theorem suffix_of_skipBlanks {c : Char} (front : skipBlanks s = c :: r) :
    r <:+ s ∧ r.length < s.length := by
  have within := front ▸ skipBlanks_suffix s
  have shorter := within.length_le
  exact ⟨(List.suffix_cons c r).trans within, shorter⟩

end

/-! ## The grammar -/

/-- What is read: a value, or the inside of an array or of an object with its end. -/
inductive Part where
  | value (v : Value)
  | items (vs : List Value)
  | members (ms : List (Option String × Value))

/-- The text begins with the part, and `rest` follows it. -/
inductive Reads : List Char → Part → List Char → Prop where
  | null {s rest} (front : skipBlanks s = 'n' :: 'u' :: 'l' :: 'l' :: rest) :
      Reads s (.value .null) rest
  | true {s rest} (front : skipBlanks s = 't' :: 'r' :: 'u' :: 'e' :: rest) :
      Reads s (.value (.bool true)) rest
  | false {s rest} (front : skipBlanks s = 'f' :: 'a' :: 'l' :: 's' :: 'e' :: rest) :
      Reads s (.value (.bool false)) rest
  | number {s n rest} (numeral : numeral? (skipBlanks s) = some (n, rest)) :
      Reads s (.value (.number n)) rest
  | string {s r k rest} (front : skipBlanks s = '"' :: r) (text : text? r = some (k, rest)) :
      Reads s (.value (.string k)) rest
  | emptyArray {s r rest} (front : skipBlanks s = '[' :: r) (close : skipBlanks r = ']' :: rest) :
      Reads s (.value (.array [])) rest
  | array {s r vs rest} (front : skipBlanks s = '[' :: r) (inside : Reads r (.items vs) rest) :
      Reads s (.value (.array vs)) rest
  | emptyObject {s r rest} (front : skipBlanks s = '\x7b' :: r)
      (close : skipBlanks r = '\x7d' :: rest) : Reads s (.value (.object [])) rest
  | object {s r ms rest} (front : skipBlanks s = '\x7b' :: r)
      (inside : Reads r (.members ms) rest) : Reads s (.value (.object ms)) rest
  | lastItem {s v r rest} (value : Reads s (.value v) r) (close : skipBlanks r = ']' :: rest) :
      Reads s (.items [v]) rest
  | item {s v r r' vs rest} (value : Reads s (.value v) r) (comma : skipBlanks r = ',' :: r')
      (more : Reads r' (.items vs) rest) : Reads s (.items (v :: vs)) rest
  | lastMember {s r k r₁ r₂ v r₃ rest} (front : skipBlanks s = '"' :: r)
      (key : text? r = some (k, r₁)) (colon : skipBlanks r₁ = ':' :: r₂)
      (value : Reads r₂ (.value v) r₃) (close : skipBlanks r₃ = '\x7d' :: rest) :
      Reads s (.members [(k, v)]) rest
  | member {s r k r₁ r₂ v r₃ r₄ ms rest} (front : skipBlanks s = '"' :: r)
      (key : text? r = some (k, r₁)) (colon : skipBlanks r₁ = ':' :: r₂)
      (value : Reads r₂ (.value v) r₃) (comma : skipBlanks r₃ = ',' :: r₄)
      (more : Reads r₄ (.members ms) rest) : Reads s (.members ((k, v) :: ms)) rest

/-- Where the part ends with the text, it might have gone on. -/
def Part.isOpen : Part → Bool
  | .value (.number _) => true
  | _ => false

namespace Reads

variable {s rest : List Char} {p : Part}

theorem suffix (h : Reads s p rest) : rest <:+ s := by
  induction h with
  | null front =>
    have within := front ▸ skipBlanks_suffix _
    exact (List.suffix_append ['n', 'u', 'l', 'l'] _).trans within
  | true front =>
    have within := front ▸ skipBlanks_suffix _
    exact (List.suffix_append ['t', 'r', 'u', 'e'] _).trans within
  | false front =>
    have within := front ▸ skipBlanks_suffix _
    exact (List.suffix_append ['f', 'a', 'l', 's', 'e'] _).trans within
  | number numeral => exact (front_numeral? numeral).1.trans (skipBlanks_suffix _)
  | string front text =>
    exact (text?_append [] text).1.trans (suffix_of_skipBlanks front).1
  | emptyArray front close =>
    exact (suffix_of_skipBlanks close).1.trans (suffix_of_skipBlanks front).1
  | array front _ ih => exact ih.trans (suffix_of_skipBlanks front).1
  | emptyObject front close =>
    exact (suffix_of_skipBlanks close).1.trans (suffix_of_skipBlanks front).1
  | object front _ ih => exact ih.trans (suffix_of_skipBlanks front).1
  | lastItem _ close ih => exact (suffix_of_skipBlanks close).1.trans ih
  | item _ comma _ ih more => exact (more.trans (suffix_of_skipBlanks comma).1).trans ih
  | lastMember front key colon _ close ih =>
    have toValue := ((suffix_of_skipBlanks colon).1.trans (text?_append [] key).1).trans
      (suffix_of_skipBlanks front).1
    exact ((suffix_of_skipBlanks close).1.trans ih).trans toValue
  | member front key colon _ comma _ ih more =>
    have toValue := ((suffix_of_skipBlanks colon).1.trans (text?_append [] key).1).trans
      (suffix_of_skipBlanks front).1
    exact ((more.trans (suffix_of_skipBlanks comma).1).trans ih).trans toValue

theorem append (t : List Char) (h : Reads s p rest) (whole : rest ≠ [] ∨ p.isOpen = Bool.false) :
    Reads (s ++ t) p (rest ++ t) := by
  have longer : ∀ {s r : List Char} {c : Char}, skipBlanks s = c :: r →
      skipBlanks (s ++ t) = c :: (r ++ t) := by
    intro s r c front
    rw [skipBlanks_append t (by rw [front]; exact List.cons_ne_nil c r), front, List.cons_append]
  have some : ∀ {s r : List Char} {c : Char}, skipBlanks s = c :: r → s ≠ [] := by
    rintro s r c front rfl
    cases front
  induction h with
  | null front => exact .null (longer front)
  | true front => exact .true (longer front)
  | false front => exact .false (longer front)
  | @number s n rest numeral =>
    have more : rest ≠ [] := whole.resolve_right nofun
    obtain ⟨c, s', front, -⟩ := numeral?_front numeral
    refine .number ?_
    rw [skipBlanks_append t (by rw [front]; exact List.cons_ne_nil c s')]
    exact (front_numeral? numeral).2 t more
  | string front text => exact .string (longer front) (text?_append t text).2
  | emptyArray front close => exact .emptyArray (longer front) (longer close)
  | array front _ ih => exact .array (longer front) (ih (.inr rfl))
  | emptyObject front close => exact .emptyObject (longer front) (longer close)
  | object front _ ih => exact .object (longer front) (ih (.inr rfl))
  | lastItem _ close ih => exact .lastItem (ih (.inl (some close))) (longer close)
  | item _ comma _ ih more =>
    exact .item (ih (.inl (some comma))) (longer comma) (more (.inr rfl))
  | lastMember front key colon _ close ih =>
    exact .lastMember (longer front) (text?_append t key).2 (longer colon)
      (ih (.inl (some close))) (longer close)
  | member front key colon _ comma _ ih more =>
    exact .member (longer front) (text?_append t key).2 (longer colon)
      (ih (.inl (some comma))) (longer comma) (more (.inr rfl))

end Reads

/-! ## The readers follow the grammar -/

/-- The reader of the part finds it with this fuel. -/
def Part.IsRead (fuel : Nat) (s rest : List Char) : Part → Prop
  | .value v => value? fuel s = some (v, rest)
  | .items vs => items? fuel s = some (vs, rest)
  | .members ms => members? fuel s = some (ms, rest)

section

variable {fuel : Nat} {s rest : List Char}

theorem reads_of_value? {v : Value}
    (ih : ∀ {s rest : List Char} {p : Part}, p.IsRead fuel s rest → Reads s p rest)
    (h : value? (fuel + 1) s = some (v, rest)) : Reads s (.value v) rest := by
  unfold value? at h
  split at h
  · next front =>
    obtain ⟨⟨k, r'⟩, text, same⟩ := Option.map_eq_some_iff.1 h
    cases same
    exact .string front text
  · next front =>
    split at h
    · next close =>
      cases h
      exact .emptyArray front close
    · obtain ⟨⟨vs, r'⟩, inside, same⟩ := Option.map_eq_some_iff.1 h
      cases same
      exact .array front (ih inside)
  · next front =>
    split at h
    · next close =>
      cases h
      exact .emptyObject front close
    · obtain ⟨⟨ms, r'⟩, inside, same⟩ := Option.map_eq_some_iff.1 h
      cases same
      exact .object front (ih inside)
  · next front =>
    cases h
    exact .null front
  · next front =>
    cases h
    exact .true front
  · next front =>
    cases h
    exact .false front
  · obtain ⟨⟨n, r'⟩, numeral, same⟩ := Option.map_eq_some_iff.1 h
    cases same
    exact .number numeral

theorem reads_of_items? {vs : List Value}
    (ih : ∀ {s rest : List Char} {p : Part}, p.IsRead fuel s rest → Reads s p rest)
    (h : items? (fuel + 1) s = some (vs, rest)) : Reads s (.items vs) rest := by
  unfold items? at h
  obtain ⟨⟨v, r⟩, value, h⟩ := Option.bind_eq_some_iff.1 h
  dsimp only at h
  have first : Reads s (.value v) r := ih value
  split at h
  · next comma =>
    obtain ⟨⟨vs, r'⟩, more, same⟩ := Option.map_eq_some_iff.1 h
    cases same
    exact .item first comma (ih more)
  · next close =>
    cases h
    exact .lastItem first close
  · cases h

theorem reads_of_members? {ms : List (Option String × Value)}
    (ih : ∀ {s rest : List Char} {p : Part}, p.IsRead fuel s rest → Reads s p rest)
    (h : members? (fuel + 1) s = some (ms, rest)) : Reads s (.members ms) rest := by
  unfold members? at h
  split at h
  · next front =>
    obtain ⟨⟨k, r₁⟩, key, h⟩ := Option.bind_eq_some_iff.1 h
    dsimp only at h
    split at h
    · next colon =>
      obtain ⟨⟨v, r₃⟩, value, h⟩ := Option.bind_eq_some_iff.1 h
      dsimp only at h
      have first : Reads _ (.value v) r₃ := ih value
      split at h
      · next comma =>
        obtain ⟨⟨ms, r'⟩, more, same⟩ := Option.map_eq_some_iff.1 h
        cases same
        exact .member front key colon first comma (ih more)
      · next close =>
        cases h
        exact .lastMember front key colon first close
      · cases h
    · cases h
  · cases h

theorem reads_of_isRead {p : Part} (h : p.IsRead fuel s rest) : Reads s p rest := by
  induction fuel generalizing s p rest with
  | zero => cases p <;> cases h
  | succ fuel ih =>
    cases p with
    | value v => exact reads_of_value? ih h
    | items vs => exact reads_of_items? ih h
    | members ms => exact reads_of_members? ih h

end

theorem front_ne_of_numeral? {s r r' : List Char} {n : Numeral} {d : Char}
    (numeral : numeral? s = some (n, r)) (other : d ∈ ['"', '[', ']', '\x7b', 'n', 't', 'f']) :
    s ≠ d :: r' := by
  obtain ⟨c, s', rfl, first⟩ := numeral?_front numeral
  intro same
  obtain ⟨rfl, -⟩ := List.cons.inj same
  rcases first with rfl | digit
  · simp at other
  · simp only [List.mem_cons, List.not_mem_nil, or_false] at other
    rcases other with rfl | rfl | rfl | rfl | rfl | rfl | rfl <;> cases digit

theorem Reads.front_items {s rest r : List Char} {vs : List Value} (h : Reads s (.items vs) rest) :
    skipBlanks s ≠ ']' :: r := by
  have value : ∃ v r', Reads s (.value v) r' := by
    cases h with
    | lastItem value => exact ⟨_, _, value⟩
    | item value => exact ⟨_, _, value⟩
  obtain ⟨v, r', value⟩ := value
  intro close
  cases value with
  | number numeral => exact front_ne_of_numeral? numeral (by simp) close
  | null front => cases front.symm.trans close
  | true front => cases front.symm.trans close
  | false front => cases front.symm.trans close
  | string front => cases front.symm.trans close
  | emptyArray front => cases front.symm.trans close
  | array front => cases front.symm.trans close
  | emptyObject front => cases front.symm.trans close
  | object front => cases front.symm.trans close

theorem value?_number {fuel : Nat} {s r : List Char} {n : Numeral}
    (numeral : numeral? (skipBlanks s) = some (n, r)) :
    value? (fuel + 1) s = some (.number n, r) := by
  unfold value?
  split
  · next front => exact absurd front (front_ne_of_numeral? numeral (by simp))
  · next front => exact absurd front (front_ne_of_numeral? numeral (by simp))
  · next front => exact absurd front (front_ne_of_numeral? numeral (by simp))
  · next front => exact absurd front (front_ne_of_numeral? numeral (by simp))
  · next front => exact absurd front (front_ne_of_numeral? numeral (by simp))
  · next front => exact absurd front (front_ne_of_numeral? numeral (by simp))
  · rw [numeral]
    rfl

/-- Fuel that is enough for a part, as a bound on its text. -/
def Part.fuel (s : List Char) : Part → Nat
  | .items _ => 2 * s.length + 1
  | _ => 2 * s.length

theorem exists_fuel {fuel : Nat} {s r : List Char} {c : Char} (front : skipBlanks s = c :: r)
    (enough : 2 * s.length ≤ fuel) : ∃ f, fuel = f + 1 ∧ 2 * r.length + 1 ≤ f := by
  have shorter := (suffix_of_skipBlanks front).2
  exact ⟨fuel - 1, by omega, by omega⟩

theorem isRead_of_reads {fuel : Nat} {s rest : List Char} {p : Part} (h : Reads s p rest)
    (enough : p.fuel s ≤ fuel) : p.IsRead fuel s rest := by
  induction h generalizing fuel with
  | null front =>
    obtain ⟨f, rfl, -⟩ := exists_fuel front enough
    show value? (f + 1) _ = _
    simp only [value?, front]
  | true front =>
    obtain ⟨f, rfl, -⟩ := exists_fuel front enough
    show value? (f + 1) _ = _
    simp only [value?, front]
  | false front =>
    obtain ⟨f, rfl, -⟩ := exists_fuel front enough
    show value? (f + 1) _ = _
    simp only [value?, front]
  | number numeral =>
    obtain ⟨c, r, front, -⟩ := numeral?_front numeral
    obtain ⟨f, rfl, -⟩ := exists_fuel front enough
    exact value?_number numeral
  | string front text =>
    obtain ⟨f, rfl, -⟩ := exists_fuel front enough
    show value? (f + 1) _ = _
    simp only [value?, front, text, Option.map_some]
  | emptyArray front close =>
    obtain ⟨f, rfl, -⟩ := exists_fuel front enough
    show value? (f + 1) _ = _
    simp only [value?, front, close]
  | @array s r vs rest front inside ih =>
    obtain ⟨f, rfl, left⟩ := exists_fuel front enough
    have items : items? f r = some (vs, rest) := ih left
    show value? (f + 1) _ = _
    simp only [value?, front]
    split
    · next close => exact absurd close inside.front_items
    · rw [items]
      rfl
  | emptyObject front close =>
    obtain ⟨f, rfl, -⟩ := exists_fuel front enough
    show value? (f + 1) _ = _
    simp only [value?, front, close]
  | @object s r ms rest front inside ih =>
    obtain ⟨f, rfl, left⟩ := exists_fuel front enough
    have members : members? f r = some (ms, rest) := ih (Nat.le_of_succ_le left)
    show value? (f + 1) _ = _
    simp only [value?, front]
    split
    · next close =>
      cases inside with
      | lastMember front => cases front.symm.trans close
      | member front => cases front.symm.trans close
    · rw [members]
      rfl
  | @lastItem s v r rest value close ih =>
    have enough : 2 * s.length + 1 ≤ fuel := enough
    obtain ⟨f, rfl⟩ : ∃ f, fuel = f + 1 := ⟨fuel - 1, by omega⟩
    have first : value? f s = some (v, r) := ih (Nat.le_of_succ_le_succ enough)
    show items? (f + 1) s = _
    simp only [items?, first, Option.bind_eq_bind, Option.bind_some, close]
  | @item s v r r' vs rest value comma more ih ih' =>
    have enough : 2 * s.length + 1 ≤ fuel := enough
    obtain ⟨f, rfl⟩ : ∃ f, fuel = f + 1 := ⟨fuel - 1, by omega⟩
    have first : value? f s = some (v, r) := ih (Nat.le_of_succ_le_succ enough)
    have shorter := (suffix_of_skipBlanks comma).2
    have within := value.suffix.length_le
    have others : items? f r' = some (vs, rest) := ih' (by simp only [Part.fuel]; omega)
    show items? (f + 1) s = _
    simp only [items?, first, Option.bind_eq_bind, Option.bind_some, comma, others, Option.map_some]
  | @lastMember s r k r₁ r₂ v r₃ rest front key colon value close ih =>
    obtain ⟨f, rfl, left⟩ := exists_fuel front enough
    have shorter := (suffix_of_skipBlanks colon).2
    have within := (text?_append [] key).1.length_le
    have first : value? f r₂ = some (v, r₃) := ih (by simp only [Part.fuel]; omega)
    show members? (f + 1) s = _
    simp only [members?, front, key, Option.bind_eq_bind, Option.bind_some, colon, first, close]
  | @member s r k r₁ r₂ v r₃ r₄ ms rest front key colon value comma more ih ih' =>
    obtain ⟨f, rfl, left⟩ := exists_fuel front enough
    have shorter := (suffix_of_skipBlanks colon).2
    have within := (text?_append [] key).1.length_le
    have shorter' := (suffix_of_skipBlanks comma).2
    have within' := value.suffix.length_le
    have first : value? f r₂ = some (v, r₃) := ih (by simp only [Part.fuel]; omega)
    have others : members? f r₄ = some (ms, rest) := ih' (by simp only [Part.fuel]; omega)
    show members? (f + 1) s = _
    simp only [members?, front, key, Option.bind_eq_bind, Option.bind_some, colon, first, comma,
      others, Option.map_some]

/-- A text has one reading. -/
theorem Reads.unique {s r r' : List Char} {v v' : Value} (h : Reads s (.value v) r)
    (h' : Reads s (.value v') r') : v = v' ∧ r = r' := by
  have one : value? (2 * s.length) s = some (v, r) := isRead_of_reads h (Nat.le_refl _)
  have two : value? (2 * s.length) s = some (v', r') := isRead_of_reads h' (Nat.le_refl _)
  exact Prod.mk.inj (Option.some.inj (one.symm.trans two))

theorem read?_eq_some_iff {s : List Char} {v : Value} :
    read? s = some v ↔ ∃ r, Reads s (.value v) r ∧ skipBlanks r = [] := by
  unfold read?
  constructor
  · intro h
    split at h
    · next v' r value =>
      split at h
      · next blank =>
        cases h
        exact ⟨r, reads_of_isRead value, List.isEmpty_iff.1 blank⟩
      · cases h
    · cases h
  · rintro ⟨r, reads, blank⟩
    have value : value? (2 * s.length + 2) s = some (v, r) :=
      isRead_of_reads reads (Nat.le_add_right ..)
    rw [value]
    exact if_pos (List.isEmpty_iff.2 blank)

/-- If a text is a value to its last character, then a piece of it that is a text too, and not just
a number, is all of it. -/
theorem eq_nil_of_read?_append {s t : List Char} {v v' : Value}
    (whole : Reads (s ++ t) (.value v) []) (h : read? s = some v')
    (closed : (Part.value v').isOpen = false) : t = [] := by
  obtain ⟨r, reads, -⟩ := read?_eq_some_iff.1 h
  have longer := reads.append t (.inr closed)
  exact (List.append_eq_nil_iff.1 (whole.unique longer).2.symm).2

end ProgramControl.Json
