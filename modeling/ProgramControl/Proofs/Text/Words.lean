import ProgramControl.Text.Blank

/-!
# Texts made of words

A text is cut into words from its front, character by character.  Here the result is described
without the cutting: words and the blanks around them, put one behind the other, make the text.

* `IsMadeOf s ws`        `s` is made of the words `ws`, with blanks between them and around them;
* `words_eq_iff`         `words` finds those words and no others, so they depend on nothing of the
                         blanks but where they are;
* `mem_upper_iff`        letter case leaves all signs that are no letters alone.
-/

namespace ProgramControl.Text

/-! ## Words -/

/-- A word: one or more characters, none of them a blank. -/
def IsWord (w : List Char) : Prop := w ≠ [] ∧ ∀ c ∈ w, isBlank c = false

/-- Where the text begins, a word that came before it has ended. -/
def EndsWord (s : List Char) : Prop := ∀ c ∈ s.head?, isBlank c = true

/-- The text is made of these words, with any blanks in front of them and behind the last, and at
least one between two of them. -/
inductive IsMadeOf : List Char → List (List Char) → Prop where
  | blanks {s} (blank : isBlankText s = true) : IsMadeOf s []
  | word {front w rest ws} (blank : isBlankText front = true) (word : IsWord w)
      (ends : EndsWord rest) (others : IsMadeOf rest ws) : IsMadeOf (front ++ (w ++ rest)) (w :: ws)

theorem words_append_of_isBlankText {front : List Char} (blank : isBlankText front = true)
    (s : List Char) : words (front ++ s) = words s := by
  induction front with
  | nil => rfl
  | cons c front ih =>
    rw [isBlankText, List.all_cons, Bool.and_eq_true] at blank
    rw [List.cons_append, words_cons_of_isBlank blank.1, ih blank.2]

theorem joinWord_of_endsWord {s : List Char} (ends : EndsWord s) (c : Char)
    (ws : List (List Char)) : joinWord c s ws = [c] :: ws := by
  cases s with
  | nil => rfl
  | cons d s =>
    have blank : isBlank d = true := ends d rfl
    cases ws with
    | nil => rfl
    | cons w ws => exact if_pos blank

theorem words_append_of_isWord {w rest : List Char} (word : IsWord w) (ends : EndsWord rest) :
    words (w ++ rest) = w :: words rest := by
  obtain ⟨some, visible⟩ := word
  induction w with
  | nil => exact absurd rfl some
  | cons c w ih =>
    have first : isBlank c = false := visible c List.mem_cons_self
    rw [List.cons_append, words, first, if_neg Bool.false_ne_true]
    cases w with
    | nil => exact joinWord_of_endsWord ends c _
    | cons d w =>
      have second : isBlank d = false := visible d (List.mem_cons_of_mem _ List.mem_cons_self)
      rw [ih (List.cons_ne_nil d w) fun e mem => visible e (List.mem_cons_of_mem _ mem)]
      rw [List.cons_append, joinWord, second, if_neg Bool.false_ne_true]

theorem words_of_isMadeOf {s : List Char} {ws : List (List Char)} (made : IsMadeOf s ws) :
    words s = ws := by
  induction made with
  | blanks blank => exact words_eq_nil_iff.2 blank
  | word blank word ends others ih =>
    rw [words_append_of_isBlankText blank, words_append_of_isWord word ends, ih]

theorem IsMadeOf.cons_blank {c : Char} {s : List Char} {ws : List (List Char)}
    (blank : isBlank c = true) (made : IsMadeOf s ws) : IsMadeOf (c :: s) ws := by
  have also {t : List Char} (blanks : isBlankText t = true) : isBlankText (c :: t) = true := by
    rw [isBlankText, List.all_cons, blank, Bool.true_and]
    exact blanks
  cases made with
  | blanks blanks => exact .blanks (also blanks)
  | word blanks word ends others => exact .word (also blanks) word ends others

/-- Every text is made of words. -/
theorem exists_isMadeOf (s : List Char) : ∃ ws, IsMadeOf s ws := by
  induction s with
  | nil => exact ⟨[], .blanks rfl⟩
  | cons c s ih =>
    obtain ⟨ws, made⟩ := ih
    by_cases blank : isBlank c = true
    · exact ⟨ws, made.cons_blank blank⟩
    · have visible : isBlank c = false := Bool.eq_false_iff.2 blank
      have alone : IsWord [c] := ⟨List.cons_ne_nil c [], by
        intro d mem
        rwa [List.mem_singleton.1 mem]⟩
      -- the character is a word of its own unless a word begins right behind it
      cases made with
      | blanks blanks =>
        have ends : EndsWord s := by
          intro d first
          exact List.all_eq_true.1 blanks d (List.mem_of_head? first)
        have single : IsMadeOf ([] ++ ([c] ++ s)) [[c]] := .word rfl alone ends (.blanks blanks)
        exact ⟨_, single⟩
      | @word front w rest ws blanks word ends others =>
        cases front with
        | nil =>
          have longer : IsWord (c :: w) := ⟨List.cons_ne_nil c w, by
            intro d mem
            rcases List.mem_cons.1 mem with same | mem
            · rwa [same]
            · exact word.2 d mem⟩
          have joined : IsMadeOf ([] ++ (c :: w ++ rest)) ((c :: w) :: ws) :=
            .word rfl longer ends others
          exact ⟨_, joined⟩
        | cons d front =>
          have starts : EndsWord (d :: front ++ (w ++ rest)) := by
            intro e first
            cases first
            exact List.all_eq_true.1 blanks d List.mem_cons_self
          have single : IsMadeOf ([] ++ ([c] ++ (d :: front ++ (w ++ rest)))) ([c] :: w :: ws) :=
            .word rfl alone starts (.word blanks word ends others)
          exact ⟨_, single⟩

theorem words_eq_iff {s : List Char} {ws : List (List Char)} : words s = ws ↔ IsMadeOf s ws := by
  constructor
  · intro cut
    obtain ⟨ws', made⟩ := exists_isMadeOf s
    have same : ws' = ws := (words_of_isMadeOf made).symm.trans cut
    exact same ▸ made
  · exact words_of_isMadeOf

/-! ## Letter case -/

/-- What is no letter is the capital of nothing but itself. -/
theorem toUpper_eq_iff {c d : Char} (other : ¬ ('A' ≤ d ∧ d ≤ 'Z')) (plain : d.toUpper = d) :
    c.toUpper = d ↔ c = d := by
  constructor
  · intro same
    unfold Char.toUpper at same
    split at same
    · next small =>
      refine absurd ?_ other
      have low : 97 ≤ c.val.toNat := small.1
      have high : c.val.toNat ≤ 122 := small.2
      have value := congrArg (fun e => e.val.toNat) same
      have gap : ('A'.val - 'a'.val).toNat = 4294967264 := by decide
      dsimp only at value
      rw [UInt32.toNat_add, gap] at value
      constructor
      · show 65 ≤ d.val.toNat
        omega
      · show d.val.toNat ≤ 90
        omega
    · exact same
  · rintro rfl
    exact plain

/-- Letter case has nothing to do with the signs in a text. -/
theorem mem_upper_iff {d : Char} (other : ¬ ('A' ≤ d ∧ d ≤ 'Z')) (plain : d.toUpper = d)
    {s : List Char} : d ∈ upper s ↔ d ∈ s := by
  rw [upper, List.mem_map]
  constructor
  · rintro ⟨c, mem, same⟩
    rwa [← (toUpper_eq_iff other plain).1 same]
  · intro mem
    exact ⟨d, mem, plain⟩

end ProgramControl.Text
