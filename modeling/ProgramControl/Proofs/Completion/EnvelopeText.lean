import ProgramControl.Proofs.Json.Spelling
import ProgramControl.Text.Number
import ProgramControl.Wire

/-!
# The text of an envelope

The written form of an envelope is one line.  It is read back as the envelope, and no piece of it
that is cut off before its end is read as anything.

* `Envelope.reads_text`       the text follows the grammar, to its last character;
* `Envelope.read?_of_prefix`  what a reader makes of a piece of it;
* `Envelope.visible_text`     its characters are bytes, and none is a line end.
-/

namespace ProgramControl

namespace Json

variable {s rest : List Char} {c : Char}

/-! ## Names and numbers -/

theorem text?_name (k : String) (plain : k.toList.all isPlain = true) (rest : List Char) :
    text? (k.toList ++ '"' :: rest) = some (some k, rest) :=
  text?_of_spells (spellsText_of_isPlain k plain) rest

theorem areWhole_toDigits (n : Nat) : AreWhole (Nat.toDigits 10 n) := by
  have digits : AreDigits (Nat.toDigits 10 n) := by
    refine ⟨Nat.toDigits_ne_nil, fun d mem => ?_⟩
    exact Nat.isDigit_of_mem_toDigits (by decide) (by decide) mem
  refine ⟨digits, ?_⟩
  rcases Nat.eq_zero_or_pos n with rfl | positive
  · exact .inl (Nat.toDigits_zero 10)
  · obtain ⟨d, ds, cons, nonzero⟩ := Text.Natural.toDigits_eq_cons positive
    rw [cons]
    exact .inr fun zero => nonzero (Option.some.inj zero)

theorem spellsNumeral_ofNat (n : Nat) : SpellsNumeral (.ofNat n) (Nat.toDigits 10 n) := by
  have spelt : SpellsNumeral (.ofNat n) (minusSign false ++ (Nat.toDigits 10 n ++ ([] ++ []))) :=
    .mk (areWhole_toDigits n) .none .none
  rwa [List.append_nil, List.append_nil] at spelt

theorem reads_ofNat (n : Nat) (stop : EndsNumber c) (rest : List Char) :
    Reads (Nat.toDigits 10 n ++ c :: rest) (.value (.ofNat n)) (c :: rest) :=
  isFound_of_spells (.number (spellsNumeral_ofNat n)) areBlanks_nil (stops_cons stop)

theorem membersText_cons (k : Option String) (v : Value) (m : Option String × Value)
    (ms : List (Option String × Value)) : Value.membersText ((k, v) :: m :: ms) =
      quoted k ++ ':' :: (v.text ++ ',' :: Value.membersText (m :: ms)) := by
  rw [Value.membersText]
  exact fun none => List.cons_ne_nil m ms none

end Json

namespace Envelope

open Json

theorem text_eq (e : Envelope) : e.text =
    '\x7b' :: '"' :: ("sequence".toList ++ '"' :: ':' :: (Nat.toDigits 10 e.sequence ++
    ',' :: '"' :: ("program".toList ++ '"' :: ':' :: (Nat.toDigits 10 e.program ++
    ',' :: '"' :: ("event".toList ++ '"' :: ':' ::
      '\x7b' :: '"' :: ("repeatRequested".toList ++ '"' :: ':' ::
        ((Value.bool e.completion.repeatRequested).text ++ ['\x7d', '\x7d']))))))) := by
  have names : quoted (some "sequence") = '"' :: ("sequence".toList ++ ['"']) ∧
      quoted (some "program") = '"' :: ("program".toList ++ ['"']) ∧
      quoted (some "event") = '"' :: ("event".toList ++ ['"']) ∧
      quoted (some "repeatRequested") = '"' :: ("repeatRequested".toList ++ ['"']) := by decide
  obtain ⟨sequence, program, event, repeatRequested⟩ := names
  have number : ∀ n, (Value.ofNat n).text = Nat.toDigits 10 n := by
    intro n
    simp [Value.ofNat, Value.text, Numeral.text, Numeral.ofNat]
  have completion : e.completion.toJson.text = '\x7b' :: (quoted (some "repeatRequested") ++
      ':' :: ((Value.bool e.completion.repeatRequested).text ++ ['\x7d'])) := by
    rw [Completion.toJson, Value.record, List.map_cons, List.map_nil, Value.text,
      Value.membersText, List.append_assoc, List.cons_append]
  rw [text, toJson, Value.record, List.map_cons, List.map_cons, List.map_cons, List.map_nil,
    Value.text, membersText_cons, membersText_cons, Value.membersText]
  rw [number, number, completion, sequence, program, event, repeatRequested]
  simp only [List.append_assoc, List.cons_append, List.nil_append]

theorem reads_text (e : Envelope) : Reads e.text (.value e.toJson) [] := by
  have flag : ∀ rest, Reads ((Value.bool e.completion.repeatRequested).text ++ rest)
      (.value (.bool e.completion.repeatRequested)) rest := by
    intro rest
    cases e.completion.repeatRequested with
    | true => exact .true rfl
    | false => exact .false rfl
  have event : Reads ('\x7b' :: '"' :: ("repeatRequested".toList ++ '"' :: ':' ::
      ((Value.bool e.completion.repeatRequested).text ++ ['\x7d', '\x7d'])))
      (.value e.completion.toJson) ['\x7d'] :=
    .object rfl (.lastMember rfl (text?_name _ (by decide) _) rfl (flag _) rfl)
  rw [text_eq]
  refine .object rfl ?_
  refine .member rfl (text?_name _ (by decide) _) rfl (reads_ofNat _ (by decide) _) rfl ?_
  refine .member rfl (text?_name _ (by decide) _) rfl (reads_ofNat _ (by decide) _) rfl ?_
  exact .lastMember rfl (text?_name _ (by decide) _) rfl event rfl

theorem word?_ofNat {n : Nat} (fits : n < wireBound) : word? (.ofNat n) = some n := by
  have number : (Value.ofNat n).nat? = some n := congrArg some Nat.ofDigitChars_ten_toDigits
  rw [word?, number, Option.filter_some, if_pos (decide_eq_true fits)]

theorem ofJson?_toJson {e : Envelope} (fits : e.Fits) : ofJson? e.toJson = some e := by
  have completion : Completion.ofJson? e.completion.toJson = some e.completion := by
    simp [Completion.ofJson?, Completion.toJson, Value.record, Value.fields?, Value.knownMembers,
      Value.bool?]
  have fields : e.toJson.fields? ["sequence", "program", "event"] = some
      [("sequence", .ofNat e.sequence), ("program", .ofNat e.program),
        ("event", e.completion.toJson)] := by
    simp [toJson, Value.record, Value.fields?, Value.knownMembers]
  have program : ("program" == "sequence") = false := by decide
  have event : ("event" == "sequence") = false ∧ ("event" == "program") = false := by decide
  simp [ofJson?, fields, List.lookup_cons, program, event, word?_ofNat fits.1, word?_ofNat fits.2,
    completion]

theorem read?_of_prefix {e : Envelope} (fits : e.Fits) {s : List Char} (piece : s <+: e.text) :
    read? s = if s = e.text then some e else none := by
  split
  · next all =>
    have value : Json.read? s = some e.toJson := by
      rw [all, read?_eq_some_iff]
      exact ⟨[], reads_text e, rfl⟩
    rw [read?, value]
    exact ofJson?_toJson fits
  · next part =>
    obtain ⟨t, whole⟩ := piece
    cases value : Json.read? s with
    | none => rw [read?, value, Option.bind_none]
    | some v =>
      -- only a number may go on, and an envelope is none
      have number : (Part.value v).isOpen = true := by
        cases closed : (Part.value v).isOpen with
        | true => rfl
        | false =>
          have none := eq_nil_of_read?_append (whole.symm ▸ reads_text e) value closed
          exact absurd (by rw [← whole, none, List.append_nil]) part
      rw [read?, value]
      cases v <;> first | rfl | cases number

theorem text_ne_nil (e : Envelope) : e.text ≠ [] := by
  rw [text_eq]
  exact List.cons_ne_nil _ _

/-- A visible character of one byte. -/
def isVisible (c : Char) : Bool := '!' ≤ c && c ≤ '~'

theorem visible_text (e : Envelope) : e.text.all isVisible = true := by
  have digits : ∀ n, (Nat.toDigits 10 n).all isVisible = true := by
    intro n
    refine List.all_eq_true.2 fun c mem => ?_
    have digit := Nat.isDigit_of_mem_toDigits (by decide) (by decide) mem
    simp only [Char.isDigit, Bool.and_eq_true, decide_eq_true_eq] at digit
    exact Bool.and_eq_true_iff.2 ⟨decide_eq_true (Nat.le_trans (by decide) digit.1),
      decide_eq_true (Nat.le_trans digit.2 (by decide))⟩
  have flag : ∀ b, (Value.bool b).text.all isVisible = true := by decide
  rw [text_eq]
  simp only [List.all_append, List.all_cons, digits, flag]
  decide

theorem newline_not_mem (e : Envelope) : '\n' ∉ e.text := by
  intro mem
  cases List.all_eq_true.1 e.visible_text _ mem

end Envelope

end ProgramControl
