import ProgramControl.Toml.Quoted

/-!
# Quoted texts are read back

The reader of quoted texts undoes the writer, whichever form the writer chose.

* `basic?_basicBody`, `literal?_append`             the forms on one line;
* `basicLines?_basicBody`, `literalLines?_append`   the forms on several lines, in front of which
                                                    up to two quotes may already stand;
* `quoted?_quoted`                                  all of them.

A quote behind a text could be taken for a part of it, so none may stand there (`EndsText`).
-/

namespace ProgramControl.Toml

/-! ## Texts on one line -/

theorem consRead_some (c : Char) (cs r : List Char) :
    consRead c (some (cs, r)) = some (c :: cs, r) := rfl

theorem literal?_append {s : List Char} (h : ∀ c ∈ s, isPlain c = true ∧ c ≠ '\'') (r : List Char) :
    literal? (s ++ '\'' :: r) = some (s, r) := by
  induction s with
  | nil => rfl
  | cons c s ih =>
    obtain ⟨⟨hp, hq⟩, hs⟩ := List.forall_mem_cons.1 h
    rw [List.cons_append, literal?]
    · rw [if_pos hp, ih hs, consRead_some]
    · exact fun e => hq e

theorem basic?_of_isPlain {c : Char} (hp : isPlain c = true) (hq : c ≠ '"') (hb : c ≠ '\\')
    (r : List Char) : basic? (c :: r) = consRead c (basic? r) := by
  rw [basic?.eq_def]
  split <;> simp_all

theorem toNat_lt_of_not_isPlain {c : Char} (h : isPlain c = false) : c.toNat < 128 := by
  unfold isPlain at h
  by_cases hs : ' ' ≤ c
  · by_cases hd : c = '\x7f'
    · subst hd; decide
    · simp [hs, hd] at h
  · have : c.val < ' '.val := Char.not_le.1 hs
    have := UInt32.lt_iff_toNat_lt.1 this
    exact Nat.lt_trans this (by decide)

theorem hexValue?_toUpper : ∀ d < 16, hexValue? d.digitChar.toUpper = some d := by decide

theorem upperHex4_eq {n : Nat} (byte : n < 256) : upperHex4 n =
    ['0', '0', (n / 16).digitChar.toUpper, (n % 16).digitChar.toUpper] := by
  by_cases small : n < 16
  · have high : n / 16 = 0 := Nat.div_eq_of_lt small
    have low : n % 16 = n := Nat.mod_eq_of_lt small
    rw [upperHex4, Nat.toDigits_of_lt_base small, high, low]
    rfl
  · have high : n / 16 < 16 := by omega
    rw [upperHex4, Nat.toDigits_of_base_le (by decide) (Nat.le_of_not_lt small),
      Nat.toDigits_of_lt_base high]
    rfl

theorem charOfHex?_upperHex4 {n : Nat} (byte : n < 256) :
    charOfHex? (upperHex4 n) = some (Char.ofNat n) := by
  have zero : hexValue? '0' = some 0 := by decide
  have high : hexValue? (n / 16).digitChar.toUpper = some (n / 16) :=
    hexValue?_toUpper _ (by omega)
  have low : hexValue? (n % 16).digitChar.toUpper = some (n % 16) :=
    hexValue?_toUpper _ (by omega)
  have value : n / 16 * 16 + n % 16 = n := by omega
  have valid : n.isValidChar := .inl (by omega)
  rw [upperHex4_eq byte]
  simp [charOfHex?, zero, high, low, value, valid]

theorem basic?_written {c : Char} (hq : c ≠ '"') (r : List Char) :
    basic? (written false c ++ r) = consRead c (basic? r) := by
  unfold written
  split
  · subst_vars; simp [basic?, escaped?]
  split
  · subst_vars; simp [basic?, escaped?]
  split
  · subst_vars; simp [basic?, escaped?]
  split
  · subst_vars; simp [basic?, escaped?]
  split
  · subst_vars; simp [basic?, escaped?]
  split
  · subst_vars; simp [basic?, escaped?]
  split
  · next hb _ _ _ _ _ hp => exact basic?_of_isPlain hp hq hb r
  · next hp =>
    have hlt := toNat_lt_of_not_isPlain (by simpa using hp)
    have e := upperHex4_eq (Nat.lt_trans hlt (by decide))
    have hc := charOfHex?_upperHex4 (Nat.lt_trans hlt (by decide))
    rw [Char.ofNat_toNat] at hc
    rw [e] at hc ⊢
    simp [basic?, hc]

theorem basic?_basicBody (s r : List Char) :
    basic? (basicBody false 0 s ++ '"' :: r) = some (s, r) := by
  induction s with
  | nil => rfl
  | cons c s ih =>
    unfold basicBody
    split
    · next h =>
      subst h
      simp [basic?, escaped?, ih, consRead_some]
    · next h => rw [List.append_assoc, basic?_written h, ih, consRead_some]


/-! ## Basic texts on several lines -/

/-- The text does not start with this character. -/
def NotStartingWith (q : Char) (s : List Char) : Prop := s.head? ≠ some q

theorem basicLines?_of_isPlain {c : Char} (hp : isPlain c = true ∨ c = '\n') (hq : c ≠ '"')
    (hb : c ≠ '\\') (r : List Char) :
    basicLines? false (c :: r) = consRead c (basicLines? false r) := by
  have hr : c ≠ '\r' := by
    rintro rfl
    revert hp
    decide
  rw [basicLines?.eq_def]
  split <;> grind

theorem basicLines?_written {c : Char} (hq : c ≠ '"') (r : List Char) :
    basicLines? false (written true c ++ r) = consRead c (basicLines? false r) := by
  unfold written
  split
  · subst_vars; simp [basicLines?, escaped?]
  split
  · subst_vars; simp [basicLines?, escaped?]
  split
  · subst_vars; simp [basicLines?, escaped?]
  split
  · subst_vars; simp [basicLines?, isPlain]
  split
  · subst_vars; simp [basicLines?, escaped?]
  split
  · subst_vars; simp [basicLines?, escaped?]
  split
  · next hb _ _ _ _ _ hp => exact basicLines?_of_isPlain (.inl hp) hq hb r
  · next hp =>
    have hlt := toNat_lt_of_not_isPlain (by simpa using hp)
    have e := upperHex4_eq (Nat.lt_trans hlt (by decide))
    have hc := charOfHex?_upperHex4 (Nat.lt_trans hlt (by decide))
    rw [Char.ofNat_toNat] at hc
    rw [e] at hc ⊢
    simp [basicLines?, hc]

theorem head?_written {c : Char} (hq : c ≠ '"') (lines : Bool) (r : List Char) :
    ∃ d t, written lines c ++ r = d :: t ∧ d ≠ '"' := by
  unfold written
  split
  · exact ⟨_, _, rfl, by decide⟩
  split
  · exact ⟨_, _, rfl, by decide⟩
  split
  · exact ⟨_, _, rfl, by decide⟩
  split
  · split <;> exact ⟨_, _, rfl, by decide⟩
  split
  · exact ⟨_, _, rfl, by decide⟩
  split
  · exact ⟨_, _, rfl, by decide⟩
  split
  · exact ⟨_, _, rfl, hq⟩
  · exact ⟨_, _, rfl, by decide⟩

theorem basicLines?_quote {d : Char} (hd : d ≠ '"') (r : List Char) :
    basicLines? false ('"' :: d :: r) = consRead '"' (basicLines? false (d :: r)) := by
  have hp : isPlain '"' = true := by decide
  rw [basicLines?.eq_def]
  split <;> grind

theorem basicLines?_two_quotes {d : Char} (hd : d ≠ '"') (r : List Char) :
    basicLines? false ('"' :: '"' :: d :: r) =
      consRead '"' (consRead '"' (basicLines? false (d :: r))) := by
  have hp : isPlain '"' = true := by decide
  rw [← basicLines?_quote hd, basicLines?.eq_def]
  split <;> grind

/-- Up to two quotes in front of another character stand for themselves. -/
theorem basicLines?_replicate {q : Nat} (hq : q ≤ 2) {d : Char} (hd : d ≠ '"')
    {r cs rest : List Char} (h : basicLines? false (d :: r) = some (cs, rest)) :
    basicLines? false (List.replicate q '"' ++ d :: r) =
      some (List.replicate q '"' ++ cs, rest) := by
  match q, hq with
  | 0, _ => exact h
  | 1, _ => exact (basicLines?_quote hd r).trans (by rw [h]; rfl)
  | 2, _ => exact (basicLines?_two_quotes hd r).trans (by rw [h]; rfl)

theorem basicLines?_close {q : Nat} (hq : q ≤ 2) {r : List Char} (hr : NotStartingWith '"' r) :
    basicLines? false (List.replicate q '"' ++ (doubleQuotes ++ r)) =
      some (List.replicate q '"', r) := by
  match q, hq with
  | 0, _ | 1, _ =>
    cases r with
    | nil => rfl
    | cons d r =>
      have hd : d ≠ '"' := fun e => hr (e ▸ rfl)
      simp only [doubleQuotes, List.replicate, List.nil_append, List.cons_append]
      rw [basicLines?.eq_def]
      split <;> grind
  | 2, _ => rfl

theorem basicLines?_basicBody {r : List Char} (hr : NotStartingWith '"' r) {q : Nat} (hq : q ≤ 2)
    (s : List Char) :
    basicLines? false (List.replicate q '"' ++ (basicBody true q s ++ (doubleQuotes ++ r))) =
      some (List.replicate q '"' ++ s, r) := by
  induction s generalizing q with
  | nil => rw [basicBody, List.nil_append, List.append_nil, basicLines?_close hq hr]
  | cons c s ih =>
    unfold basicBody
    split
    · next h =>
      subst h
      rw [if_pos rfl]
      split
      · next hlt =>
        have := ih (q := q + 1) hlt
        rw [List.replicate_succ', List.append_assoc, List.append_assoc] at this
        exact this
      · have := ih (q := 0) (Nat.zero_le 2)
        rw [List.replicate_zero, List.nil_append, List.nil_append] at this
        refine basicLines?_replicate hq (by decide) ?_
        simp [basicLines?, escaped?, this, consRead_some]
    · next h =>
      have := ih (q := 0) (Nat.zero_le 2)
      rw [List.replicate_zero, List.nil_append, List.nil_append] at this
      obtain ⟨d, t, e, hd⟩ := head?_written h true (basicBody true 0 s ++ (doubleQuotes ++ r))
      rw [List.append_assoc, e]
      refine basicLines?_replicate hq hd ?_
      rw [← e, basicLines?_written h, this, consRead_some]


/-! ## Literal texts on several lines -/

theorem literalLines?_close {q : Nat} (hq : q ≤ 2) {r : List Char} (hr : NotStartingWith '\'' r) :
    literalLines? (List.replicate q '\'' ++ (singleQuotes ++ r)) =
      some (List.replicate q '\'', r) := by
  match q, hq with
  | 0, _ | 1, _ =>
    cases r with
    | nil => rfl
    | cons d r =>
      have hd : d ≠ '\'' := fun e => hr (e ▸ rfl)
      simp only [singleQuotes, List.replicate, List.nil_append, List.cons_append]
      rw [literalLines?.eq_def]
      split <;> grind
  | 2, _ => rfl

theorem literalLines?_of_isPlain {c : Char} (hp : isPlain c = true ∨ c = '\n') (hq : c ≠ '\'')
    (r : List Char) : literalLines? (c :: r) = consRead c (literalLines? r) := by
  have hr : c ≠ '\r' := by
    rintro rfl
    revert hp
    decide
  rw [literalLines?.eq_def]
  split <;> grind

theorem literalLines?_quote {d : Char} (hd : d ≠ '\'') (r : List Char) :
    literalLines? ('\'' :: d :: r) = consRead '\'' (literalLines? (d :: r)) := by
  have hp : isPlain '\'' = true := by decide
  rw [literalLines?.eq_def]
  split <;> grind

theorem literalLines?_two_quotes {d : Char} (hd : d ≠ '\'') (r : List Char) :
    literalLines? ('\'' :: '\'' :: d :: r) =
      consRead '\'' (consRead '\'' (literalLines? (d :: r))) := by
  have hp : isPlain '\'' = true := by decide
  rw [← literalLines?_quote hd, literalLines?.eq_def]
  split <;> grind

theorem literalLines?_replicate {q : Nat} (hq : q ≤ 2) {d : Char} (hd : d ≠ '\'')
    {r cs rest : List Char} (h : literalLines? (d :: r) = some (cs, rest)) :
    literalLines? (List.replicate q '\'' ++ d :: r) =
      some (List.replicate q '\'' ++ cs, rest) := by
  match q, hq with
  | 0, _ => exact h
  | 1, _ => exact (literalLines?_quote hd r).trans (by rw [h]; rfl)
  | 2, _ => exact (literalLines?_two_quotes hd r).trans (by rw [h]; rfl)

theorem runs_cons_of_ne {q c : Char} (h : c ≠ q) (s : List Char) :
    runs q (c :: s) = ((runs q s).1, 0) := by
  simp only [runs, if_neg h]

theorem runs_cons_self (q : Char) (s : List Char) :
    runs q (q :: s) = (max (runs q s).1 ((runs q s).2 + 1), (runs q s).2 + 1) := by
  simp only [runs, if_pos]

theorem runs_snd_le_fst (q : Char) (s : List Char) : (runs q s).2 ≤ (runs q s).1 := by
  cases s with
  | nil => exact Nat.le_refl 0
  | cons c s =>
    by_cases h : c = q
    · subst h
      rw [runs_cons_self]
      exact Nat.le_max_right ..
    · rw [runs_cons_of_ne h]
      exact Nat.zero_le _

theorem literalLines?_append {r : List Char} (hr : NotStartingWith '\'' r) {q : Nat}
    {s : List Char} (hs : ∀ c ∈ s, isPlain c = true ∨ c = '\n') (hl : (runs '\'' s).1 ≤ 2)
    (hq : q + (runs '\'' s).2 ≤ 2) :
    literalLines? (List.replicate q '\'' ++ (s ++ (singleQuotes ++ r))) =
      some (List.replicate q '\'' ++ s, r) := by
  induction s generalizing q with
  | nil =>
    rw [List.nil_append, List.append_nil,
      literalLines?_close (Nat.le_trans (Nat.le_add_right ..) hq) hr]
  | cons c s ih =>
    obtain ⟨hc, hs'⟩ := List.forall_mem_cons.1 hs
    by_cases h : c = '\''
    · subst h
      rw [runs_cons_self] at hl hq
      have := ih (q := q + 1) hs' (by omega) (by omega)
      rw [List.replicate_succ', List.append_assoc, List.append_assoc] at this
      exact this
    · rw [runs_cons_of_ne h] at hl hq
      refine literalLines?_replicate (by omega) h ?_
      have first := runs_snd_le_fst '\'' s
      have := ih (q := 0) hs' hl (by omega)
      rw [List.replicate_zero, List.nil_append, List.nil_append] at this
      rw [List.append_eq, literalLines?_of_isPlain hc h, this, consRead_some]

/-! ## All forms -/

/-- What stands behind a quoted text: no quote, which might belong to it. -/
def EndsText (r : List Char) : Prop := NotStartingWith '"' r ∧ NotStartingWith '\'' r

theorem longestRun_eq_zero_iff {q : Char} {s : List Char} : longestRun q s = 0 ↔ q ∉ s := by
  unfold longestRun
  induction s with
  | nil => simp [runs]
  | cons c s ih =>
    by_cases h : c = q
    · subst h; simp [runs_cons_self]
    · rw [runs_cons_of_ne h, ih, List.mem_cons, not_or]
      exact ⟨fun hs => ⟨fun e => h e.symm, hs⟩, fun hs => hs.2⟩

theorem dropFirstLineEnd_firstLineEnd {s t : List Char}
    (h : s.contains '\n' = false → NotStartingWith '\n' t ∧ NotStartingWith '\r' t) :
    dropFirstLineEnd (firstLineEnd s ++ t) = t := by
  unfold firstLineEnd
  split
  · rfl
  · next hs =>
    obtain ⟨hn, hr⟩ := h (by simpa using hs)
    rw [List.nil_append]
    unfold dropFirstLineEnd
    split
    · exact absurd rfl hn
    · exact absurd rfl hr
    · rfl

/-- The inside of a basic text does not start with a quote of its own. -/
theorem head?_basicBody {s : List Char} (hs : s ≠ []) (r : List Char) :
    ∃ d t, basicBody false 0 s ++ r = d :: t ∧ d ≠ '"' := by
  cases s with
  | nil => exact absurd rfl hs
  | cons c s =>
    unfold basicBody
    split
    · exact ⟨_, _, rfl, by decide⟩
    · next h =>
      rw [List.append_assoc]
      exact head?_written h false _

theorem quoted?_basic (s : List Char) {r : List Char} (hr : NotStartingWith '"' r) :
    quoted? ('"' :: (basicBody false 0 s ++ '"' :: r)) = some (s, r) := by
  have h := basic?_basicBody s r
  revert h
  generalize ht : basicBody false 0 s ++ '"' :: r = t
  have hd : ∀ t', t ≠ '"' :: '"' :: t' := by
    rintro t' rfl
    by_cases hs : s = []
    · subst hs
      rw [basicBody, List.nil_append, List.cons.injEq] at ht
      exact hr (by rw [ht.2]; rfl)
    · obtain ⟨d, u, e, hd⟩ := head?_basicBody hs ('"' :: r)
      rw [ht, List.cons.injEq] at e
      exact hd e.1.symm
  intro h
  unfold quoted?
  split <;> grind

theorem quoted?_literal {s : List Char} (hs : ∀ c ∈ s, isPlain c = true ∧ c ≠ '\'') {r : List Char}
    (hr : NotStartingWith '\'' r) : quoted? ('\'' :: (s ++ '\'' :: r)) = some (s, r) := by
  have h := literal?_append hs r
  revert h
  generalize ht : s ++ '\'' :: r = t
  have hd : ∀ t', t ≠ '\'' :: '\'' :: t' := by
    rintro t' rfl
    cases s with
    | nil =>
      rw [List.nil_append, List.cons.injEq] at ht
      exact hr (by rw [ht.2]; rfl)
    | cons c s =>
      rw [List.cons_append, List.cons.injEq] at ht
      exact (hs c List.mem_cons_self).2 ht.1
  intro h
  unfold quoted?
  split <;> grind

theorem notStartingWith_written {c : Char} (hc : c ≠ '\n') (lines : Bool) (r : List Char) :
    NotStartingWith '\n' (written lines c ++ r) ∧ NotStartingWith '\r' (written lines c ++ r) := by
  unfold written NotStartingWith
  split
  · simp
  split
  · simp
  split
  · simp
  split
  · simp
  split
  · simp
  split
  · next hr _ => simp [hc, hr]
  · simp

theorem notStartingWith_basicBody {s : List Char} (hs : '\n' ∉ s) (r : List Char) :
    NotStartingWith '\n' (basicBody true 0 s ++ (doubleQuotes ++ r)) ∧
      NotStartingWith '\r' (basicBody true 0 s ++ (doubleQuotes ++ r)) := by
  cases s with
  | nil => simp [basicBody, doubleQuotes, NotStartingWith]
  | cons c s =>
    unfold basicBody
    split
    · simp [NotStartingWith]
    · rw [List.append_assoc]
      exact notStartingWith_written (fun e => hs (e ▸ List.mem_cons_self)) true _

theorem quoted?_basicLines (s : List Char) {r : List Char} (hr : NotStartingWith '"' r) :
    quoted? (doubleQuotes ++ (firstLineEnd s ++ (basicBody true 0 s ++ (doubleQuotes ++ r)))) =
      some (s, r) := by
  have h := basicLines?_basicBody hr (Nat.zero_le 2) s
  rw [List.replicate_zero, List.nil_append, List.nil_append] at h
  simp only [doubleQuotes, List.cons_append, List.nil_append, quoted?]
  rw [dropFirstLineEnd_firstLineEnd]
  · exact h
  · intro hs
    exact notStartingWith_basicBody (by simpa using hs) r

theorem quoted?_literalLines {s : List Char} (hs : ∀ c ∈ s, isPlain c = true ∨ c = '\n')
    (hl : longestRun '\'' s ≤ 2) {r : List Char} (hr : NotStartingWith '\'' r) :
    quoted? (singleQuotes ++ (firstLineEnd s ++ (s ++ (singleQuotes ++ r)))) = some (s, r) := by
  have h := literalLines?_append hr (q := 0) hs hl
    (by have := runs_snd_le_fst '\'' s; unfold longestRun at hl; omega)
  rw [List.replicate_zero, List.nil_append, List.nil_append] at h
  simp only [singleQuotes, List.cons_append, List.nil_append, quoted?]
  rw [dropFirstLineEnd_firstLineEnd]
  · exact h
  · intro hn
    cases s with
    | nil => simp [NotStartingWith]
    | cons c s =>
      have hc := hs c List.mem_cons_self
      have : c ≠ '\n' := by rintro rfl; simp at hn
      have : c ≠ '\r' := by
        rintro rfl
        revert hc
        decide
      simp_all [NotStartingWith]

theorem isPlain_or_of_not_needsCode {c : Char} (h : needsCode c = false) :
    isPlain c = true ∨ c = '\n' := by
  unfold needsCode at h
  cases hp : isPlain c with
  | true => exact .inl rfl
  | false => exact .inr (by simpa [hp] using h)

/-- What is written is read back, whatever stands behind it but a quote. -/
theorem quoted?_quoted (s : List Char) {r : List Char} (hr : EndsText r) :
    quoted? (quoted s ++ r) = some (s, r) := by
  have control (h : ¬ (s.any needsCode) = true) : ∀ c ∈ s, isPlain c = true ∨ c = '\n' :=
    fun c hc => isPlain_or_of_not_needsCode (by
      simpa using fun e => h (List.any_eq_true.2 ⟨c, hc, e⟩))
  unfold quoted
  simp only
  split
  · simpa using quoted?_basic s hr.1
  split
  · next h =>
    obtain ⟨hc, hq, hn⟩ := h
    have := quoted?_literal (s := s) (fun c m => ⟨(control hc c m).resolve_right fun e =>
      hn (by simpa using e ▸ m), fun e => longestRun_eq_zero_iff.1 hq (e ▸ m)⟩) hr.2
    simpa using this
  split
  · simpa using quoted?_basicLines s hr.1
  split
  · next h => simpa using quoted?_literalLines (control h.1) h.2 hr.2
  split
  · simpa using quoted?_basicLines s hr.1
  · simpa using quoted?_basic s hr.1

end ProgramControl.Toml
