import ProgramControl.Console.Command
import ProgramControl.Proofs.Text.Words

/-!
# What console lines mean

The grammar of console lines on its own: which words stand for which command, and what has to
stand behind them.  Decoding follows it for every line.

* `Assigns`, `IsSwitch`, `IsCount`   what the arguments look like;
* `StandsFor`   what a command word in capitals and the word behind it stand for;
* `Means`       what the words of a line mean;
* `Command.ofLine_eq_iff`   decoding finds exactly that;
* `Command.ofLine_follows`   the same with what follows from it: neither letter case nor blanks
  matter, and only two words stop the machine.
-/

namespace ProgramControl.Console

/-! ## Arguments -/

/-- The text is a key and a value around its first equals sign. -/
def Assigns (a key value : List Char) : Prop := a = key ++ '=' :: value ∧ '=' ∉ key

/-- `ENABLE`, in any letter case, is set to `1` or to `0`. -/
def IsSwitch (a : List Char) (on : Bool) : Prop :=
  ∃ key value, Assigns a key value ∧ Text.upper key = "ENABLE".toList ∧
    value = if on then ['1'] else ['0']

/-- One or more digits, behind at most one plus sign, are a number of 64 bits. -/
def IsCount (a : List Char) (n : Nat) : Prop :=
  ∃ sign digits, a = sign ++ digits ∧ (sign = [] ∨ sign = ['+']) ∧ digits ≠ [] ∧
    (∀ c ∈ digits, '0' ≤ c ∧ c ≤ '9') ∧ Nat.ofDigitChars 10 digits 0 = n ∧ n < UInt64.size

namespace Command

theorem splitAssignment?_eq_some_iff {a key value : List Char} :
    splitAssignment? a = some (key, value) ↔ Assigns a key value := by
  induction a generalizing key with
  | nil =>
    constructor
    · intro split
      cases split
    · rintro ⟨none, -⟩
      cases key <;> cases none
  | cons c a ih =>
    by_cases sign : c = '='
    · subst sign
      constructor
      · intro split
        cases split
        exact ⟨rfl, List.not_mem_nil⟩
      · rintro ⟨text, first⟩
        cases key with
        | nil =>
          cases text
          rfl
        | cons d key =>
          cases text
          exact absurd List.mem_cons_self first
    · have later : splitAssignment? (c :: a) =
          (splitAssignment? a).map fun parts => (c :: parts.1, parts.2) := by
        rw [splitAssignment?]
        rintro rfl
        exact sign rfl
      rw [later, Option.map_eq_some_iff]
      constructor
      · rintro ⟨⟨key', value'⟩, split, same⟩
        cases same
        obtain ⟨text, first⟩ := ih.1 split
        refine ⟨congrArg (c :: ·) text, fun mem => ?_⟩
        rcases List.mem_cons.1 mem with same | mem
        · exact sign same.symm
        · exact first mem
      · rintro ⟨text, first⟩
        cases key with
        | nil =>
          cases text
          exact absurd rfl sign
        | cons d key =>
          cases text
          exact ⟨(key, value), ih.2 ⟨rfl, fun mem => first (List.mem_cons_of_mem _ mem)⟩, rfl⟩

theorem enable?_eq_some_iff {a : List Char} {on : Bool} : enable? a = some on ↔ IsSwitch a on := by
  unfold enable?
  cases split : splitAssignment? a with
  | none =>
    refine iff_of_false nofun ?_
    rintro ⟨key, value, assigns, -⟩
    cases split.symm.trans (splitAssignment?_eq_some_iff.2 assigns)
  | some parts =>
    obtain ⟨key, value⟩ := parts
    have assigns := splitAssignment?_eq_some_iff.1 split
    have only : IsSwitch a on ↔ Text.upper key = "ENABLE".toList ∧
        value = if on then ['1'] else ['0'] := by
      constructor
      · rintro ⟨key', value', assigns', name⟩
        have same := split.symm.trans (splitAssignment?_eq_some_iff.2 assigns')
        cases same
        exact name
      · intro name
        exact ⟨key, value, assigns, name⟩
    have named : Text.sameLetters key "ENABLE".toList = true ↔
        Text.upper key = "ENABLE".toList := beq_iff_eq
    rw [only, ← named]
    dsimp only
    by_cases letters : Text.sameLetters key "ENABLE".toList = true
    · rw [if_pos letters, and_iff_right letters]
      by_cases one : value = ['1']
      · rw [if_pos one, one]
        cases on <;> decide
      · rw [if_neg one]
        by_cases zero : value = ['0']
        · rw [if_pos zero, zero]
          cases on <;> decide
        · rw [if_neg zero]
          cases on with
          | true => exact iff_of_false nofun one
          | false => exact iff_of_false nofun zero
    · rw [if_neg letters]
      exact iff_of_false nofun fun both => letters both.1

theorem areDigits_iff {s : List Char} :
    Text.Natural.areDigits s = true ↔ s ≠ [] ∧ ∀ c ∈ s, '0' ≤ c ∧ c ≤ '9' := by
  have digit (c : Char) : c.isDigit = true ↔ '0' ≤ c ∧ c ≤ '9' := by
    simp only [Char.isDigit, Bool.and_eq_true, decide_eq_true_eq]
    exact Iff.rfl
  simp only [Text.Natural.areDigits, Bool.and_eq_true, Bool.not_eq_true', List.isEmpty_eq_false_iff,
    List.all_eq_true, digit]

/-- The digits that are read: a plus sign in front of them is left out. -/
def unsigned (a : List Char) : List Char :=
  match a with
  | '+' :: s => s
  | s => s

theorem unsigned_cons_of_ne {c : Char} (other : c ≠ '+') (s : List Char) :
    unsigned (c :: s) = c :: s := by
  unfold unsigned
  split
  · next same => exact absurd (List.cons.inj same).1 other
  · rfl

theorem exists_sign (a : List Char) :
    ∃ sign, a = sign ++ unsigned a ∧ (sign = [] ∨ sign = ['+']) := by
  unfold unsigned
  split
  · exact ⟨['+'], rfl, .inr rfl⟩
  · exact ⟨[], rfl, .inl rfl⟩

theorem unsigned_append {sign digits : List Char} (only : sign = [] ∨ sign = ['+'])
    (areDigits : ∀ c ∈ digits, '0' ≤ c ∧ c ≤ '9') : unsigned (sign ++ digits) = digits := by
  rcases only with rfl | rfl
  · cases digits with
    | nil => rfl
    | cons c digits =>
      refine unsigned_cons_of_ne ?_ digits
      rintro rfl
      exact absurd (areDigits '+' List.mem_cons_self).1 (by decide)
  · rfl

theorem milliseconds?_eq_some_iff {a : List Char} {n : Nat} :
    milliseconds? a = some n ↔ IsCount a n := by
  have reads : milliseconds? a = (Text.Natural.read? (unsigned a)).filter (· < UInt64.size) := rfl
  rw [reads, Option.filter_eq_some_iff, Text.Natural.read?_eq_some_iff, areDigits_iff,
    decide_eq_true_eq]
  constructor
  · rintro ⟨⟨⟨some, digits⟩, value⟩, fits⟩
    obtain ⟨sign, text, only⟩ := exists_sign a
    exact ⟨sign, unsigned a, text, only, some, digits, value, fits⟩
  · rintro ⟨sign, digits, rfl, only, some, areDigits, value, fits⟩
    rw [unsigned_append only areDigits]
    exact ⟨⟨⟨some, areDigits⟩, value⟩, fits⟩

end Command

/-! ## Commands -/

/-- All words that begin a command. -/
def commandWords : List String :=
  ["M0", "M1", "M2", "M30", "M112", "ESTOP", "RESUME", "NEW_PROGRAM", "STATUS",
    "SET_OPTIONAL_STOP", "MOVE"]

/-- What a command word in capitals stands for, with the word behind it if there is one. -/
inductive StandsFor : String → Option (List Char) → Except CommandFault Command → Prop where
  | pauseUnconditional {a} : StandsFor "M0" a (.ok (.directive .pauseUnconditional))
  | pauseOptional {a} : StandsFor "M1" a (.ok (.directive .pauseOptional))
  | programEnd {a} : StandsFor "M2" a (.ok (.directive .programEnd))
  | programEndRepeat {a} : StandsFor "M30" a (.ok (.directive .programEndRepeat))
  | emergencyCode {a} : StandsFor "M112" a (.ok (.directive .emergencyStop))
  | emergencyStop {a} : StandsFor "ESTOP" a (.ok (.directive .emergencyStop))
  | resume {a} : StandsFor "RESUME" a (.ok (.directive .resumeObserved))
  | newProgram {a} : StandsFor "NEW_PROGRAM" a (.ok .newProgram)
  | status {a} : StandsFor "STATUS" a (.ok .status)
  | setByDefault : StandsFor "SET_OPTIONAL_STOP" none (.ok (.directive (.setOptionalStop true)))
  | set {a on} (switch : IsSwitch a on) :
      StandsFor "SET_OPTIONAL_STOP" (some a) (.ok (.directive (.setOptionalStop on)))
  | setToNothing {a} (other : ∀ on, ¬ IsSwitch a on) : StandsFor "SET_OPTIONAL_STOP" (some a)
      (.error (.invalidArgument "SET_OPTIONAL_STOP" (String.ofList a)))
  | moveForNothing : StandsFor "MOVE" none (.error (.missingArgument "MOVE"))
  | move {a ms} (count : IsCount a ms) : StandsFor "MOVE" (some a) (.ok (.move ms))
  | moveForNoCount {a} (other : ∀ ms, ¬ IsCount a ms) :
      StandsFor "MOVE" (some a) (.error (.invalidArgument "MOVE" (String.ofList a)))
  | unknown {word a} (other : word ∉ commandWords) : StandsFor word a (.error (.unknown word))

/-- What the words of a line mean: the first is the command word, the second may be looked at, and
all others are not. -/
inductive Means : List (List Char) → Except CommandFault Command → Prop where
  | nothing : Means [] (.error .empty)
  | word {w ws r} (stands : StandsFor (String.ofList (Text.upper w)) ws.head? r) : Means (w :: ws) r

namespace Command

theorem standsFor_of_lookup {word : String} {command : Command}
    (plain : plainWords.lookup word = some command) (a : Option (List Char)) :
    StandsFor word a (.ok command) := by
  obtain ⟨before, after, parts, -⟩ := List.lookup_eq_some_iff.1 plain
  have mem : (word, command) ∈ plainWords := parts ▸ List.mem_append_right _ List.mem_cons_self
  simp only [plainWords, List.mem_cons, List.not_mem_nil, or_false, Prod.mk.injEq] at mem
  rcases mem with ⟨rfl, rfl⟩ | ⟨rfl, rfl⟩ | ⟨rfl, rfl⟩ | ⟨rfl, rfl⟩ | ⟨rfl, rfl⟩ | ⟨rfl, rfl⟩ |
    ⟨rfl, rfl⟩ | ⟨rfl, rfl⟩ | ⟨rfl, rfl⟩
  all_goals constructor

theorem standsFor_ofSetting (a : Option (List Char)) :
    StandsFor "SET_OPTIONAL_STOP" a (ofSetting "SET_OPTIONAL_STOP" a) := by
  cases a with
  | none => exact .setByDefault
  | some a =>
    simp only [ofSetting]
    cases switch : enable? a with
    | some on => exact .set (enable?_eq_some_iff.1 switch)
    | none =>
      refine .setToNothing fun on isSwitch => ?_
      cases switch.symm.trans (enable?_eq_some_iff.2 isSwitch)

theorem standsFor_ofMove (a : Option (List Char)) : StandsFor "MOVE" a (ofMove "MOVE" a) := by
  cases a with
  | none => exact .moveForNothing
  | some a =>
    simp only [ofMove]
    cases count : milliseconds? a with
    | some ms => exact .move (milliseconds?_eq_some_iff.1 count)
    | none =>
      refine .moveForNoCount fun ms isCount => ?_
      cases count.symm.trans (milliseconds?_eq_some_iff.2 isCount)

theorem not_mem_commandWords_iff {word : String} : word ∉ commandWords ↔
    plainWords.lookup word = none ∧ word ≠ "SET_OPTIONAL_STOP" ∧ word ≠ "MOVE" := by
  rw [List.lookup_eq_none_iff]
  simp [commandWords, plainWords, and_assoc]

theorem standsFor_ofWord (word : String) (a : Option (List Char)) :
    StandsFor word a (ofWord word a) := by
  unfold ofWord
  split
  · next plain => exact standsFor_of_lookup plain a
  · next other =>
    by_cases set : word = "SET_OPTIONAL_STOP"
    · subst set
      rw [if_pos rfl]
      exact standsFor_ofSetting a
    · rw [if_neg set]
      by_cases move : word = "MOVE"
      · subst move
        rw [if_pos rfl]
        exact standsFor_ofMove a
      · rw [if_neg move]
        exact .unknown (not_mem_commandWords_iff.2 ⟨other, set, move⟩)

theorem ofWord_eq_of_standsFor {word : String} {a : Option (List Char)}
    {r : Except CommandFault Command} (stands : StandsFor word a r) : ofWord word a = r := by
  cases stands with
  | set switch =>
    show ofSetting _ (some _) = _
    simp only [ofSetting, enable?_eq_some_iff.2 switch]
  | @setToNothing a other =>
    show ofSetting _ (some _) = _
    have none : enable? a = none :=
      Option.eq_none_iff_forall_ne_some.2 fun on switch => other on (enable?_eq_some_iff.1 switch)
    simp only [ofSetting, none]
  | move count =>
    show ofMove _ (some _) = _
    simp only [ofMove, milliseconds?_eq_some_iff.2 count]
  | @moveForNoCount a other =>
    show ofMove _ (some _) = _
    have none : milliseconds? a = none :=
      Option.eq_none_iff_forall_ne_some.2 fun ms count =>
        other ms (milliseconds?_eq_some_iff.1 count)
    simp only [ofMove, none]
  | unknown other =>
    obtain ⟨plain, set, move⟩ := not_mem_commandWords_iff.1 other
    simp only [ofWord, plain, if_neg set, if_neg move]
  | _ => rfl

theorem ofLine_eq_iff {line : List Char} {r : Except CommandFault Command} :
    ofLine line = r ↔ ∃ ws, Text.IsMadeOf line ws ∧ Means ws r := by
  constructor
  · rintro rfl
    refine ⟨Text.words line, Text.words_eq_iff.1 rfl, ?_⟩
    unfold ofLine
    cases Text.words line with
    | nil => exact .nothing
    | cons w ws => exact .word (standsFor_ofWord ..)
  · rintro ⟨ws, made, means⟩
    rw [ofLine, Text.words_of_isMadeOf made]
    cases means with
    | nothing => rfl
    | word stands => exact ofWord_eq_of_standsFor stands

end Command

/-! ## Letter case and blanks -/

/-- The same assignment with its key in another letter case. -/
def IsRecased (a a' : List Char) : Prop :=
  ∃ key key' value, '=' ∉ key ∧ a = key ++ '=' :: value ∧ a' = key' ++ '=' :: value ∧
    Text.upper key' = Text.upper key

/-- The same fault, with this argument in the place of the one that it quotes. -/
def CommandFault.quoting (a : List Char) : CommandFault → CommandFault
  | .invalidArgument word _ => .invalidArgument word (String.ofList a)
  | fault => fault

theorem IsRecased.assigns {a a' : List Char} (recased : IsRecased a a') :
    ∃ key key' value, Assigns a key value ∧ Assigns a' key' value ∧
      Text.upper key' = Text.upper key := by
  obtain ⟨key, key', value, first, rfl, rfl, same⟩ := recased
  have sign {s : List Char} : '=' ∈ Text.upper s ↔ '=' ∈ s :=
    Text.mem_upper_iff (by decide) (by decide)
  have first' : '=' ∉ key' := by
    rw [← sign, same, sign]
    exact first
  exact ⟨key, key', value, ⟨rfl, first⟩, ⟨rfl, first'⟩, same⟩

theorem Assigns.not_isCount {a key value : List Char} (assigns : Assigns a key value) (n : Nat) :
    ¬ IsCount a n := by
  rintro ⟨sign, digits, text, only, -, areDigits, -⟩
  have mem : '=' ∈ sign ++ digits := by
    rw [← text, assigns.1]
    exact List.mem_append_right _ List.mem_cons_self
  rcases List.mem_append.1 mem with mem | mem
  · rcases only with rfl | rfl
    · cases mem
    · cases List.mem_singleton.1 mem
  · exact absurd (areDigits '=' mem).2 (by decide)

namespace Command

variable {a a' : List Char}

theorem enable?_of_isRecased (recased : IsRecased a a') : enable? a' = enable? a := by
  obtain ⟨key, key', value, assigns, assigns', same⟩ := recased.assigns
  have split := splitAssignment?_eq_some_iff.2 assigns
  have split' := splitAssignment?_eq_some_iff.2 assigns'
  have named : Text.sameLetters key' "ENABLE".toList = Text.sameLetters key "ENABLE".toList := by
    rw [Text.sameLetters, Text.sameLetters, same]
  simp only [enable?, split, split', named]

theorem milliseconds?_of_isRecased (recased : IsRecased a a') :
    milliseconds? a = none ∧ milliseconds? a' = none := by
  obtain ⟨key, key', value, assigns, assigns', -⟩ := recased.assigns
  have none {b : List Char} (other : ∀ n, ¬ IsCount b n) : milliseconds? b = none :=
    Option.eq_none_iff_forall_ne_some.2 fun n count => other n (milliseconds?_eq_some_iff.1 count)
  exact ⟨none assigns.not_isCount, none assigns'.not_isCount⟩

/-- The letter case of a key shows nowhere but in a fault, which quotes the argument as it is. -/
theorem ofWord_of_isRecased (recased : IsRecased a a') (word : String) :
    ofWord word (some a') = (ofWord word (some a)).mapError (·.quoting a') := by
  have same := enable?_of_isRecased recased
  obtain ⟨none, none'⟩ := milliseconds?_of_isRecased recased
  unfold ofWord
  split
  · rfl
  · by_cases set : word = "SET_OPTIONAL_STOP"
    · rw [if_pos set, if_pos set]
      simp only [ofSetting, same]
      cases enable? a <;> rfl
    · rw [if_neg set, if_neg set]
      by_cases move : word = "MOVE"
      · rw [if_pos move, if_pos move]
        simp only [ofMove, none, none']
        rfl
      · rw [if_neg move, if_neg move]
        rfl

theorem ofLine_of_isMadeOf {line w : List Char} {ws : List (List Char)}
    (made : Text.IsMadeOf line (w :: ws)) :
    ofLine line = ofWord (String.ofList (Text.upper w)) ws.head? := by
  rw [ofLine, Text.words_of_isMadeOf made]

theorem ofLine_eq_empty_iff_isMadeOf {line : List Char} :
    ofLine line = .error .empty ↔ Text.IsMadeOf line [] := by
  rw [ofLine_eq_empty_iff, ← Text.words_eq_nil_iff, Text.words_eq_iff]

theorem isEmergency_iff_of_standsFor {word : String} {argument : Option (List Char)}
    {command : Command} (stands : StandsFor word argument (.ok command)) :
    command.isEmergency = true ↔ word = "M112" ∨ word = "ESTOP" := by
  cases stands with
  | emergencyCode => decide
  | emergencyStop => decide
  | @set a on switch => cases on <;> decide
  | move => exact iff_of_false Bool.false_ne_true (by decide)
  | _ => decide

theorem ofLine_isEmergency_iff {line : List Char} :
    (∃ command, ofLine line = .ok command ∧ command.isEmergency = true) ↔
      ∃ w ws, Text.IsMadeOf line (w :: ws) ∧
        (Text.upper w = "M112".toList ∨ Text.upper w = "ESTOP".toList) := by
  have spelt {w : List Char} {word : String} :
      String.ofList (Text.upper w) = word ↔ Text.upper w = word.toList := by
    rw [← String.toList_inj, String.toList_ofList]
  constructor
  · rintro ⟨command, decoded, emergency⟩
    obtain ⟨ws, made, means⟩ := ofLine_eq_iff.1 decoded
    cases means with
    | @word w ws _ stands =>
      have words := (isEmergency_iff_of_standsFor stands).1 emergency
      rw [spelt, spelt] at words
      exact ⟨w, ws, made, words⟩
  · rintro ⟨w, ws, made, words⟩
    have decoded : ofLine line = .ok (.directive .emergencyStop) := by
      rw [ofLine_of_isMadeOf made]
      rcases words with word | word
      · rw [spelt.2 word]
        exact ofWord_eq_of_standsFor .emergencyCode
      · rw [spelt.2 word]
        exact ofWord_eq_of_standsFor .emergencyStop
    exact ⟨_, decoded, rfl⟩

/-- Decoding finds for every line what its words mean, and nothing for a line without words.  So it
does not look at the blanks between them, nor at any word but the first two, nor at the letter case
of the first and of a key in the second; only a fault quotes its argument as it is written.  The
commands that stop the machine are those of two words. -/
theorem ofLine_follows :
    (∀ line r, ofLine line = r ↔ ∃ ws, Text.IsMadeOf line ws ∧ Means ws r) ∧
    (∀ line, ofLine line = .error .empty ↔ Text.IsMadeOf line []) ∧
    (∀ line line' ws, Text.IsMadeOf line ws → Text.IsMadeOf line' ws →
      ofLine line' = ofLine line) ∧
    (∀ line line' w w' ws ws', Text.IsMadeOf line (w :: ws) → Text.IsMadeOf line' (w' :: ws') →
      Text.upper w' = Text.upper w →
      (ws'.head? = ws.head? → ofLine line' = ofLine line) ∧
      ∀ a a', ws.head? = some a → ws'.head? = some a' → IsRecased a a' →
        (∀ command, ofLine line' = .ok command ↔ ofLine line = .ok command) ∧
        ofLine line' = (ofLine line).mapError (·.quoting a')) ∧
    (∀ line, (∃ command, ofLine line = .ok command ∧ command.isEmergency = true) ↔
      ∃ w ws, Text.IsMadeOf line (w :: ws) ∧
        (Text.upper w = "M112".toList ∨ Text.upper w = "ESTOP".toList)) := by
  refine ⟨fun _ _ => ofLine_eq_iff, fun _ => ofLine_eq_empty_iff_isMadeOf, ?_, ?_,
    fun _ => ofLine_isEmergency_iff⟩
  · intro line line' ws made made'
    have words : Text.words line' = Text.words line :=
      (Text.words_of_isMadeOf made').trans (Text.words_of_isMadeOf made).symm
    rw [ofLine, ofLine, words]
  · intro line line' w w' ws ws' made made' same
    rw [ofLine_of_isMadeOf made, ofLine_of_isMadeOf made', same]
    refine ⟨fun head => by rw [head], fun a a' first first' recased => ?_⟩
    rw [first, first', ofWord_of_isRecased recased]
    refine ⟨fun command => ?_, rfl⟩
    cases ofWord (String.ofList (Text.upper w)) (some a) with
    | error fault => exact iff_of_false nofun nofun
    | ok other => exact Iff.rfl

/-- The same setting twice: in capitals, and in small letters behind a no-break space, with a word
that nobody looks at. -/
theorem ofLine_follows_setting :
    let line := "SET_OPTIONAL_STOP ENABLE=0".toList
    let line' := " set_optional_stop\u00a0Enable=0 please".toList
    Text.IsMadeOf line ["SET_OPTIONAL_STOP".toList, "ENABLE=0".toList] ∧
    Text.IsMadeOf line' ["set_optional_stop".toList, "Enable=0".toList, "please".toList] ∧
    IsRecased "ENABLE=0".toList "Enable=0".toList ∧
    ofLine line' = .ok (.directive (.setOptionalStop false)) := by
  intro line line'
  have made : Text.IsMadeOf line ["SET_OPTIONAL_STOP".toList, "ENABLE=0".toList] :=
    Text.words_eq_iff.1 (by decide)
  have made' : Text.IsMadeOf line'
      ["set_optional_stop".toList, "Enable=0".toList, "please".toList] :=
    Text.words_eq_iff.1 (by decide)
  have recased : IsRecased "ENABLE=0".toList "Enable=0".toList :=
    ⟨"ENABLE".toList, "Enable".toList, ['0'], by decide, by decide, by decide, by decide⟩
  obtain ⟨-, -, -, letters, -⟩ := ofLine_follows
  obtain ⟨-, key⟩ := letters line line' _ _ _ _ made made' (by decide)
  obtain ⟨same, -⟩ := key _ _ rfl rfl recased
  exact ⟨made, made', recased, (same _).2 rfl⟩

end Command

end ProgramControl.Console
