import ProgramControl.Proofs.Completion.EnvelopeText

/-!
# The codec of envelopes

An envelope is written in one way and read in many.  A record is an object that has its fields by
name, each of them once, in any order and among any others, or an array that has them by place;
around its parts stand blanks as anywhere in JSON.  What is read is what was written, and less
than all of it is read as nothing.

* `knownMembers_eq_some`, `exists_knownMembers`   the fields that are found by name, and when;
* `exists_fields_iff`       the readers of records against the records there are (`IsRecord`);
* `Envelope.read?_eq_some_iff`   all the texts of an envelope;
* `Envelope.written_is_read`   the written text is read back, and so is every text of an object
                          that has the fields.
-/

namespace ProgramControl

namespace Json

/-! ## Fields by name -/

abbrev Member := Option String × Value

/-- The members of this name. -/
def named (name : String) (ms : List Member) : List Member := ms.filter (·.1 == some name)

/-- One member has this name, and this value. -/
def Once (ms : List Member) (name : String) (v : Value) : Prop := named name ms = [(some name, v)]

/-- All names are texts. -/
def HasNames (ms : List Member) : Prop := ∀ m ∈ ms, m.1 ≠ none

section

variable {known : List String} {ms : List Member} {fs : List (String × Value)} {name : String}

theorem named_cons (k : String) (v : Value) (ms : List Member) :
    named name ((some k, v) :: ms) =
      if k = name then (some k, v) :: named name ms else named name ms := by
  by_cases same : k = name
  · have here : (some k == some name) = true := by rw [same]; exact beq_self_eq_true _
    rw [if_pos same]
    exact List.filter_cons_of_pos here
  · have elsewhere : ¬ (some k == some name) = true := fun same' =>
      same (Option.some.inj (eq_of_beq same'))
    rw [if_neg same]
    exact List.filter_cons_of_neg elsewhere

theorem hasNames_cons {m : Member} : HasNames (m :: ms) ↔ m.1 ≠ none ∧ HasNames ms :=
  List.forall_mem_cons

theorem any_eq_isSome_lookup (fs : List (String × Value)) (name : String) :
    fs.any (·.1 == name) = (fs.lookup name).isSome := by
  induction fs with
  | nil => rfl
  | cons f fs ih =>
    obtain ⟨k, v⟩ := f
    rw [List.any_cons, List.lookup_cons, ih, BEq.comm]
    cases name == k <;> rfl

theorem knownMembers_eq_some (h : Value.knownMembers known ms = some fs) : HasNames ms ∧
    ∀ name ∈ known, named name ms = ((fs.lookup name).map (some name, ·)).toList := by
  induction ms generalizing fs with
  | nil =>
    cases h
    exact ⟨nofun, fun name _ => rfl⟩
  | cons m ms ih =>
    obtain ⟨k, v⟩ := m
    cases k with
    | none => cases h
    | some k =>
      simp only [Value.knownMembers] at h
      cases others : Value.knownMembers known ms with
      | none =>
        rw [others] at h
        cases h
      | some gs =>
        obtain ⟨names, found⟩ := ih others
        rw [others] at h
        dsimp only at h
        refine ⟨hasNames_cons.2 ⟨Option.some_ne_none k, names⟩, fun name isKnown => ?_⟩
        rw [named_cons, found name isKnown]
        by_cases wanted : known.contains k = true
        · rw [if_pos wanted] at h
          cases twice : gs.any (·.1 == k) with
          | true =>
            rw [twice] at h
            cases h
          | false =>
            rw [twice] at h
            cases h
            rw [List.lookup_cons]
            by_cases same : k = name
            · have new : gs.lookup name = none := by
                rw [any_eq_isSome_lookup, same] at twice
                exact Option.isNone_iff_eq_none.1 (Option.isSome_eq_false_iff.1 twice)
              have here : (name == k) = true := by rw [same]; exact beq_self_eq_true name
              rw [if_pos same, here, new, same]
              rfl
            · have elsewhere : (name == k) = false := beq_false_of_ne (Ne.symm same)
              rw [if_neg same, elsewhere]
        · rw [if_neg wanted] at h
          cases h
          have other : k ≠ name := by
            rintro rfl
            exact wanted (List.contains_iff_mem.2 isKnown)
          rw [if_neg other]

theorem exists_knownMembers (names : HasNames ms)
    (once : ∀ name ∈ known, (named name ms).length ≤ 1) :
    ∃ fs, Value.knownMembers known ms = some fs := by
  induction ms with
  | nil => exact ⟨[], rfl⟩
  | cons m ms ih =>
    obtain ⟨k, v⟩ := m
    obtain ⟨isText, texts⟩ := hasNames_cons.1 names
    obtain ⟨k, rfl⟩ := Option.ne_none_iff_exists'.1 isText
    have fewer : ∀ name ∈ known, (named name ms).length ≤ 1 := by
      intro name isKnown
      have bound := once name isKnown
      rw [named_cons] at bound
      split at bound
      · rw [List.length_cons] at bound
        omega
      · exact bound
    obtain ⟨fs, others⟩ := ih texts fewer
    simp only [Value.knownMembers, others]
    by_cases wanted : known.contains k = true
    · have isKnown : k ∈ known := List.contains_iff_mem.1 wanted
      have bound := once k isKnown
      rw [named_cons, if_pos rfl, List.length_cons, (knownMembers_eq_some others).2 k isKnown]
        at bound
      have new : fs.any (·.1 == k) = false := by
        rw [any_eq_isSome_lookup]
        cases found : fs.lookup k with
        | none => rfl
        | some w =>
          rw [found] at bound
          simp at bound
      rw [if_pos wanted, new]
      exact ⟨(k, v) :: fs, rfl⟩
    · rw [if_neg wanted]
      exact ⟨fs, rfl⟩

end

/-! ## Records -/

/-- The value has these fields: by name, each once, or by place. -/
inductive IsRecord (fields : List (String × Value)) : Value → Prop where
  | byName {ms} (names : HasNames ms) (once : ∀ f ∈ fields, Once ms f.1 f.2) :
      IsRecord fields (.object ms)
  | byPlace : IsRecord fields (.array (fields.map Prod.snd))

section

variable {fields : List (String × Value)}

theorem lookup_zip_iff {items : List Value} (distinct : (fields.map Prod.fst).Nodup) :
    items.length ≤ fields.length ∧
      (∀ f ∈ fields, ((fields.map Prod.fst).zip items).lookup f.1 = some f.2) ↔
    items = fields.map Prod.snd := by
  induction fields generalizing items with
  | nil => simp
  | cons f fs ih =>
    obtain ⟨new, distinct⟩ := List.nodup_cons.1 distinct
    have apart : ∀ g ∈ fs, (g.1 == f.1) = false := fun g mem =>
      beq_false_of_ne fun same => new (same ▸ List.mem_map_of_mem mem)
    cases items with
    | nil =>
      constructor
      · rintro ⟨-, each⟩
        cases each f List.mem_cons_self
      · intro same
        cases same
    | cons v items =>
      have others : (∀ g ∈ fs, (((f :: fs).map Prod.fst).zip (v :: items)).lookup g.1 = some g.2) ↔
          ∀ g ∈ fs, ((fs.map Prod.fst).zip items).lookup g.1 = some g.2 := by
        refine forall₂_congr fun g mem => ?_
        rw [List.map_cons, List.zip_cons_cons, List.lookup_cons, apart g mem]
      have first : (((f :: fs).map Prod.fst).zip (v :: items)).lookup f.1 = some v := by
        rw [List.map_cons, List.zip_cons_cons, List.lookup_cons_self]
      rw [List.forall_mem_cons, others, first, List.length_cons, List.length_cons,
        Nat.succ_le_succ_iff, Option.some_inj, List.map_cons, List.cons.injEq, ← ih distinct]
      exact and_left_comm

theorem exists_fields_iff {v : Value} (distinct : (fields.map Prod.fst).Nodup) :
    (∃ fs, v.fields? (fields.map Prod.fst) = some fs ∧ ∀ f ∈ fields, fs.lookup f.1 = some f.2) ↔
      IsRecord fields v := by
  constructor
  · rintro ⟨fs, found, each⟩
    cases v with
    | object ms =>
      obtain ⟨names, only⟩ := knownMembers_eq_some found
      refine .byName names fun f mem => ?_
      have one := only f.1 (List.mem_map_of_mem mem)
      rwa [each f mem] at one
    | array items =>
      simp only [Value.fields?, List.length_map] at found
      split at found
      · next short =>
        cases found
        obtain rfl := (lookup_zip_iff distinct).1 ⟨short, each⟩
        exact .byPlace
      · cases found
    | _ => cases found
  · intro record
    cases record with
    | @byName ms names once =>
      have most : ∀ name ∈ fields.map Prod.fst, (named name ms).length ≤ 1 := by
        intro name known
        obtain ⟨f, mem, rfl⟩ := List.mem_map.1 known
        rw [once f mem]
        exact Nat.le_refl 1
      obtain ⟨fs, found⟩ := exists_knownMembers names most
      refine ⟨fs, found, fun f mem => ?_⟩
      have one := (knownMembers_eq_some found).2 f.1 (List.mem_map_of_mem mem)
      rw [once f mem] at one
      cases value : fs.lookup f.1 with
      | none =>
        rw [value] at one
        cases one
      | some w =>
        rw [value] at one
        cases one
        rfl
    | byPlace =>
      obtain ⟨-, each⟩ := (lookup_zip_iff distinct).2 rfl
      refine ⟨_, if_pos ?_, each⟩
      exact Nat.le_of_eq (by rw [List.length_map, List.length_map])

end

end Json

open Json

/-! ## Envelopes -/

/-- The number, written with its digits alone. -/
def Json.IsDecimal (n : Nat) (v : Value) : Prop :=
  ∃ ds, v = .number { whole := ds } ∧ Nat.ofDigitChars 10 ds 0 = n

theorem Completion.ofJson?_eq_some_iff {v : Value} {c : Completion} :
    ofJson? v = some c ↔ IsRecord [("repeatRequested", .bool c.repeatRequested)] v := by
  have distinct : ([("repeatRequested", Value.bool c.repeatRequested)].map Prod.fst).Nodup := by
    simp
  rw [← exists_fields_iff distinct]
  constructor
  · intro h
    obtain ⟨fs, found, h⟩ := Option.bind_eq_some_iff.1 h
    obtain ⟨w, flag, h⟩ := Option.bind_eq_some_iff.1 h
    obtain ⟨b, isFlag, h⟩ := Option.bind_eq_some_iff.1 h
    cases h
    cases w with
    | bool b' =>
      cases isFlag
      refine ⟨fs, found, fun f mem => ?_⟩
      obtain rfl := List.mem_singleton.1 mem
      exact flag
    | _ => cases isFlag
  · rintro ⟨fs, found, each⟩
    have flag := each _ List.mem_cons_self
    have found : v.fields? ["repeatRequested"] = some fs := found
    simp only [ofJson?, found, Option.bind_eq_bind, Option.bind_some]
    rw [flag]
    rfl

namespace Envelope

theorem word?_eq_some_iff {v : Value} {n : Nat} :
    word? v = some n ↔ n < wireBound ∧ IsDecimal n v := by
  have nat?_eq_some_iff : v.nat? = some n ↔ IsDecimal n v := by
    constructor
    · intro h
      cases v with
      | number numeral =>
        obtain ⟨negative, ds, fraction, exponent⟩ := numeral
        have h : (if negative || fraction.isSome || exponent.isSome then none
          else some (Nat.ofDigitChars 10 ds 0)) = some n := h
        split at h
        · cases h
        · next plain =>
          simp only [Bool.or_eq_true, not_or, Bool.not_eq_true, Option.isSome_eq_false_iff,
            Option.isNone_iff_eq_none] at plain
          obtain ⟨⟨rfl, rfl⟩, rfl⟩ := plain
          exact ⟨ds, rfl, Option.some.inj h⟩
      | _ => cases h
    · rintro ⟨ds, rfl, rfl⟩
      rfl
  rw [word?, Option.filter_eq_some_iff, nat?_eq_some_iff, decide_eq_true_eq, and_comm]

/-- The value is a record of the envelope. -/
def Holds (e : Envelope) (v : Value) : Prop :=
  ∃ sequence program event, IsDecimal e.sequence sequence ∧ IsDecimal e.program program ∧
    IsRecord [("repeatRequested", .bool e.completion.repeatRequested)] event ∧
    IsRecord [("sequence", sequence), ("program", program), ("event", event)] v

theorem ofJson?_eq_some_iff {v : Value} {e : Envelope} :
    ofJson? v = some e ↔ e.Fits ∧ e.Holds v := by
  have distinct : ∀ sequence program event : Value,
      ([("sequence", sequence), ("program", program), ("event", event)].map Prod.fst).Nodup := by
    simp
  constructor
  · intro h
    obtain ⟨fs, found, h⟩ := Option.bind_eq_some_iff.1 h
    obtain ⟨sequence, first, h⟩ := Option.bind_eq_some_iff.1 h
    obtain ⟨m, word₁, h⟩ := Option.bind_eq_some_iff.1 h
    obtain ⟨program, second, h⟩ := Option.bind_eq_some_iff.1 h
    obtain ⟨n, word₂, h⟩ := Option.bind_eq_some_iff.1 h
    obtain ⟨event, third, h⟩ := Option.bind_eq_some_iff.1 h
    obtain ⟨c, completion, h⟩ := Option.bind_eq_some_iff.1 h
    cases h
    obtain ⟨fits₁, decimal₁⟩ := word?_eq_some_iff.1 word₁
    obtain ⟨fits₂, decimal₂⟩ := word?_eq_some_iff.1 word₂
    refine ⟨⟨fits₁, fits₂⟩, sequence, program, event, decimal₁, decimal₂,
      Completion.ofJson?_eq_some_iff.1 completion, ?_⟩
    refine (exists_fields_iff (distinct sequence program event)).1 ⟨fs, found, fun f mem => ?_⟩
    simp only [List.mem_cons, List.not_mem_nil, or_false] at mem
    rcases mem with rfl | rfl | rfl
    · exact first
    · exact second
    · exact third
  · rintro ⟨⟨fits₁, fits₂⟩, sequence, program, event, decimal₁, decimal₂, completion, record⟩
    obtain ⟨fs, found, each⟩ := (exists_fields_iff (distinct sequence program event)).2 record
    have found : v.fields? ["sequence", "program", "event"] = some fs := found
    have first : fs.lookup "sequence" = some sequence := each ("sequence", sequence) (by simp)
    have second : fs.lookup "program" = some program := each ("program", program) (by simp)
    have third : fs.lookup "event" = some event := each ("event", event) (by simp)
    have word₁ : word? sequence = some e.sequence := word?_eq_some_iff.2 ⟨fits₁, decimal₁⟩
    have word₂ : word? program = some e.program := word?_eq_some_iff.2 ⟨fits₂, decimal₂⟩
    have completion : Completion.ofJson? event = some e.completion :=
      Completion.ofJson?_eq_some_iff.2 completion
    simp only [ofJson?, found, first, second, third, word₁, word₂, completion,
      Option.bind_eq_bind, Option.bind_some]

theorem read?_eq_some_iff {s : List Char} {e : Envelope} :
    read? s = some e ↔ e.Fits ∧ ∃ v, Spells (.element v) s ∧ e.Holds v := by
  simp only [read?, Option.bind_eq_some_iff, read?_eq_some_iff_spells, ofJson?_eq_some_iff]
  constructor
  · rintro ⟨v, spelt, fits, holds⟩
    exact ⟨fits, v, spelt, holds⟩
  · rintro ⟨fits, v, spelt, holds⟩
    exact ⟨v, spelt, fits, holds⟩

/-- An object with these members, and with `inside` as those of its event, has the fields of the
envelope, each of them once.  Other members may stand among them, whatever their values. -/
structure IsToldBy (e : Envelope) (members inside : List Member) : Prop where
  names : HasNames members
  sequence : ∃ v, IsDecimal e.sequence v ∧ Once members "sequence" v
  program : ∃ v, IsDecimal e.program v ∧ Once members "program" v
  event : Once members "event" (.object inside)
  namesInside : HasNames inside
  repeatRequested : Once inside "repeatRequested" (.bool e.completion.repeatRequested)

theorem IsToldBy.holds {e : Envelope} {members inside : List Member}
    (told : e.IsToldBy members inside) : e.Holds (.object members) := by
  obtain ⟨sequence, decimal₁, once₁⟩ := told.sequence
  obtain ⟨program, decimal₂, once₂⟩ := told.program
  refine ⟨sequence, program, .object inside, decimal₁, decimal₂, ?_, ?_⟩
  · refine .byName told.namesInside fun f mem => ?_
    obtain rfl := List.mem_singleton.1 mem
    exact told.repeatRequested
  · refine .byName told.names fun f mem => ?_
    simp only [List.mem_cons, List.not_mem_nil, or_false] at mem
    rcases mem with rfl | rfl | rfl
    · exact once₁
    · exact once₂
    · exact told.event

/-- The written text of an envelope is one line that is read back, and none of its beginnings is
read as anything.  The texts of objects with the fields are read as the envelope too; and what was
read from any text is read again from its own. -/
theorem written_is_read :
    (∀ e : Envelope, e.Fits → '\n' ∉ e.text ∧ '\r' ∉ e.text ∧ read? e.text = some e ∧
      ∀ s, s <+: e.text → s ≠ e.text → read? s = none) ∧
    (∀ (e : Envelope) (members inside : List Member) (s : List Char), e.Fits →
      e.IsToldBy members inside → Spells (.element (.object members)) s → read? s = some e) ∧
    ∀ (s : List Char) (e : Envelope), read? s = some e → read? e.text = some e := by
  have back : ∀ e : Envelope, e.Fits → read? e.text = some e := by
    intro e fits
    have all := read?_of_prefix fits List.prefix_rfl
    rw [all, if_pos rfl]
  refine ⟨?_, ?_, ?_⟩
  · intro e fits
    refine ⟨e.newline_not_mem, ?_, back e fits, fun s piece part => ?_⟩
    · intro mem
      cases List.all_eq_true.1 e.visible_text _ mem
    · have cut := read?_of_prefix fits piece
      rw [cut, if_neg part]
  · intro e members inside s fits told spelt
    exact read?_eq_some_iff.2 ⟨fits, .object members, spelt, told.holds⟩
  · intro s e h
    exact back e (read?_eq_some_iff.1 h).1

/-- The fields the other way round, blanks, and a note that holds a number without a double. -/
theorem written_is_read_turned :
    read? ("\x7b\"event\":\x7b\"repeatRequested\":true\x7d, \"note\":[1e400],\n" ++
      "\"program\":7,\"sequence\":3\x7d").toList = some ⟨3, 7, ⟨true⟩⟩ := by
  let note : Numeral := { whole := ['1'], exponent := some (false, ['4', '0', '0']) }
  let inside : List Member := [(some "repeatRequested", .bool true)]
  let members : List Member := [(some "event", .object inside),
    (some "note", .array [.number note]), (some "program", .ofNat 7), (some "sequence", .ofNat 3)]
  have told : IsToldBy ⟨3, 7, ⟨true⟩⟩ members inside := by
    refine ⟨?_, ⟨_, ⟨_, rfl, by decide⟩, rfl⟩, ⟨_, ⟨_, rfl, by decide⟩, rfl⟩, rfl, ?_, rfl⟩
    · simp [HasNames, members]
    · simp [HasNames, inside]
  have element {v : Value} {t : List Char} (value : Spells (.value v) t) :
      Spells (.element v) ([] ++ (t ++ [])) := .element areBlanks_nil value areBlanks_nil
  have member {a : List Char} (k : String) (blanks : AreBlanks a)
      (plain : k.toList.all isPlain = true) {v : Value} {t : List Char}
      (value : Spells (.value v) t) : Spells (.member (some k) v)
        (a ++ '"' :: (k.toList ++ '"' :: ([] ++ ':' :: ([] ++ (t ++ []))))) :=
    .member blanks (spellsText_of_isPlain k plain) areBlanks_nil (element value)
  have number (n : Nat) : Spells (.value (.ofNat n)) (Nat.toDigits 10 n) :=
    .number (spellsNumeral_ofNat n)
  have space : AreBlanks [' '] := by simp [AreBlanks, isBlank]
  have newline : AreBlanks ['\n'] := by simp [AreBlanks, isBlank]
  have one : AreWhole ['1'] := areWhole_toDigits 1
  have digits : AreDigits ['4', '0', '0'] := (areWhole_toDigits 400).1
  have noted : Spells (.value (.number note)) _ :=
    .number (.mk one .none (.unsigned (.inl rfl) digits))
  have event : Spells (.value (.object inside)) _ :=
    .object (.lastMember (member "repeatRequested" areBlanks_nil (by decide) .true))
  have spelt : Spells (.value (.object members)) _ :=
    .object (.members (member "event" areBlanks_nil (by decide) event)
      (.members (member "note" space (by decide) (.array (.lastElement (element noted))))
        (.members (member "program" newline (by decide) (number 7))
          (.lastMember (member "sequence" areBlanks_nil (by decide) (number 3))))))
  refine Eq.trans (congrArg read? ?_)
    (written_is_read.2.1 ⟨3, 7, ⟨true⟩⟩ members inside _ (by decide) told (element spelt))
  decide

end Envelope

end ProgramControl
