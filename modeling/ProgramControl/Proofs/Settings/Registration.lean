import ProgramControl.Settings.Source

/-!
# Valid settings can be put to use

Two parts of the program look at the names of the auxiliary outputs.  Validation counts them and
looks each up among those before it; registration at the start puts one after the other on a
roster, which takes no name twice and only so many.  They accept the same lists.

* `Roster.ofNames_eq_ok_iff`   names can be registered exactly if they are those of a roster;
* `Settings.fault?_eq_none_iff`   validation accepts exactly the settings of use (`IsUseful`);
* `repeatedOutputName_iff_duplicate`   where there is room, both stop at the same name;
* `Settings.validate_iff_registers`   all of this for every choice of settings.
-/

namespace ProgramControl

/-! ## Registration -/

namespace Roster

variable {r r' : Roster} {name : String} {names : List String}

theorem eq_of_names (same : r.names = r'.names) : r = r' := by
  cases r
  cases r'
  cases same
  rfl

theorem register_of_mem (mem : name ∈ r.names) : r.register name = .error (.duplicate name) :=
  dif_pos mem

/-- A name is accepted exactly if the names with it at their end are those of a roster. -/
theorem register_eq_ok_iff : r.register name = .ok r' ↔ r'.names = r.names ++ [name] := by
  refine ⟨names_register, fun longer => ?_⟩
  have fresh : name ∉ r.names := by
    intro mem
    have nodup : (r.names ++ [name]).Nodup := longer ▸ r'.nodup
    exact (List.nodup_append.1 nodup).2.2 name mem name (List.mem_singleton_self name) rfl
  have room : r.names.length < capacity := by
    have short : (r.names ++ [name]).length ≤ capacity := longer ▸ r'.length_le
    rw [List.length_append, List.length_singleton] at short
    omega
  rw [register, dif_neg fresh, dif_pos room]
  exact congrArg Except.ok (eq_of_names longer.symm)

theorem foldlM_register_cons (r : Roster) (name : String) (names : List String) :
    (name :: names).foldlM register r = (r.register name).bind (names.foldlM register ·) := rfl

theorem foldlM_register_eq_ok_iff :
    names.foldlM register r = .ok r' ↔ r'.names = r.names ++ names := by
  induction names generalizing r with
  | nil =>
    rw [List.append_nil]
    constructor
    · intro same
      cases same
      rfl
    · intro same
      rw [eq_of_names same]
      rfl
  | cons name names ih =>
    rw [foldlM_register_cons]
    constructor
    · intro all
      cases first : r.register name with
      | error fault =>
        rw [first] at all
        cases all
      | ok next =>
        rw [first] at all
        rw [ih.1 all, register_eq_ok_iff.1 first, List.append_assoc, List.singleton_append]
    · intro longer
      -- the roster after the first name is a front part of the last one
      have front : r.names ++ [name] <+: r'.names := ⟨names, by rw [longer, List.append_assoc]; rfl⟩
      let next : Roster := ⟨r.names ++ [name], front.sublist.nodup r'.nodup,
        Nat.le_trans front.length_le r'.length_le⟩
      have first : r.register name = .ok next := register_eq_ok_iff.2 rfl
      rw [first]
      exact ih.2 (by rw [longer, List.append_assoc]; rfl)

/-- Names can be registered one after the other exactly if they are the names of a roster, and
then they make that roster. -/
theorem ofNames_eq_ok_iff : ofNames names = .ok r ↔ r.names = names :=
  foldlM_register_eq_ok_iff

theorem exists_ofNames_iff :
    (∃ r, ofNames names = .ok r) ↔ names.Nodup ∧ names.length ≤ capacity := by
  constructor
  · rintro ⟨r, registered⟩
    obtain rfl := ofNames_eq_ok_iff.1 registered
    exact ⟨r.nodup, r.length_le⟩
  · rintro ⟨nodup, few⟩
    exact ⟨⟨names, nodup, few⟩, ofNames_eq_ok_iff.2 rfl⟩

theorem ofNames_fails_iff :
    (∃ fault, ofNames names = .error fault) ↔ ¬ ∃ r, ofNames names = .ok r := by
  cases ofNames names with
  | error fault => exact iff_of_true ⟨fault, rfl⟩ (by rintro ⟨r, ⟨⟩⟩)
  | ok r => exact iff_of_false (by rintro ⟨fault, ⟨⟩⟩) (not_not_intro ⟨r, rfl⟩)

end Roster

/-! ## Validation -/

/-- The name is not made of blanks alone. -/
def ShowsSomething (name : String) : Prop := ∃ c ∈ name.toList, Text.isBlank c = false

theorem isBlankName_eq_false_iff {name : String} :
    isBlankName name = false ↔ ShowsSomething name := by
  rw [isBlankName, Text.isBlankText, List.all_eq_false]
  simp only [ShowsSomething, Bool.not_eq_true]

instance (name : String) : Decidable (ShowsSomething name) :=
  decidable_of_iff _ isBlankName_eq_false_iff

theorem outputNamesFault?_eq_none_iff {before names : List String} :
    outputNamesFault? before names = none ↔
      (∀ name ∈ names, ShowsSomething name) ∧ names.Nodup ∧ ∀ name ∈ names, name ∉ before := by
  induction names generalizing before with
  | nil => simp [outputNamesFault?]
  | cons name names ih =>
    rw [outputNamesFault?]
    by_cases blank : isBlankName name = true
    · rw [if_pos blank]
      refine iff_of_false nofun fun fine => ?_
      have shows := isBlankName_eq_false_iff.2 (fine.1 name List.mem_cons_self)
      rw [blank] at shows
      cases shows
    · have shows : ShowsSomething name :=
        isBlankName_eq_false_iff.1 (Bool.eq_false_iff.2 blank)
      rw [if_neg blank]
      by_cases seen : before.contains name = true
      · rw [if_pos seen]
        refine iff_of_false nofun fun fine => ?_
        exact fine.2.2 name List.mem_cons_self (List.contains_iff_mem.1 seen)
      · have fresh : name ∉ before := mt List.contains_iff_mem.2 seen
        rw [if_neg seen, ih]
        simp only [List.mem_cons, List.nodup_cons, not_or]
        grind

namespace Settings

/-- The settings that stand on their own are of use. -/
structure IsSound (s : Settings) : Prop where
  serviceName : ShowsSomething s.shared.serviceName
  channelDepth : s.program.channelDepth ≠ 0
  queueDepth : s.notifier.queueDepth ≠ 0
  alertAfter : s.notifier.alertAfter ≠ 0
  output : ShowsSomething s.notifier.output

/-- Settings of use: the names of the outputs too, together and each by itself. -/
structure IsUseful (s : Settings) : Prop extends IsSound s where
  few : s.auxiliary.outputs.length ≤ Roster.capacity
  nodup : s.auxiliary.outputs.Nodup
  outputNames : ∀ name ∈ s.auxiliary.outputs, ShowsSomething name

/-- What validation finds in settings whose outputs alone can be at fault. -/
theorem fault?_of_isSound {s : Settings} (sound : s.IsSound) :
    s.fault? = if Roster.capacity < s.auxiliary.outputs.length then
      some (.tooManyOutputs s.auxiliary.outputs.length)
    else outputNamesFault? [] s.auxiliary.outputs := by
  have serviceName := isBlankName_eq_false_iff.2 sound.serviceName
  have output := isBlankName_eq_false_iff.2 sound.output
  rw [fault?, serviceName, output, if_neg sound.channelDepth, if_neg sound.queueDepth,
    if_neg sound.alertAfter]
  rfl

theorem fault?_eq_none_iff {s : Settings} : s.fault? = none ↔ s.IsUseful := by
  have passes {p : Prop} [Decidable p] {fault : SettingFault} {later : Option SettingFault} :
      (if p then some fault else later) = none ↔ ¬ p ∧ later = none := by
    by_cases wrong : p
    · rw [if_pos wrong]
      exact iff_of_false nofun fun fine => fine.1 wrong
    · rw [if_neg wrong]
      exact (and_iff_right wrong).symm
  unfold fault?
  simp only [passes, Bool.not_eq_true, isBlankName_eq_false_iff, Nat.not_lt,
    outputNamesFault?_eq_none_iff]
  constructor
  · rintro ⟨serviceName, channelDepth, queueDepth, alertAfter, output, few, shows, nodup, -⟩
    exact ⟨⟨serviceName, channelDepth, queueDepth, alertAfter, output⟩, few, nodup, shows⟩
  · intro useful
    exact ⟨useful.serviceName, useful.channelDepth, useful.queueDepth, useful.alertAfter,
      useful.output, useful.few, useful.outputNames, useful.nodup, fun _ _ => List.not_mem_nil⟩

theorem validate_eq_ok_iff {s : Settings} : s.validate = .ok () ↔ s.fault? = none := by
  unfold validate
  cases s.fault? with
  | none => exact iff_of_true rfl rfl
  | some fault => exact iff_of_false nofun nofun

theorem validate_fails_iff {s : Settings} :
    (∃ fault, s.validate = .error fault) ↔ s.fault? ≠ none := by
  unfold validate
  cases s.fault? with
  | none => exact iff_of_false (by rintro ⟨fault, ⟨⟩⟩) (not_not_intro rfl)
  | some fault => exact iff_of_true ⟨_, rfl⟩ nofun

end Settings

/-! ## Both together -/

/-- Where the names looked through are the ones registered, and there is room for the others, the
first that is found twice is the first that is refused. -/
theorem repeatedOutputName_iff_duplicate {before names : List String} {r : Roster}
    (same : ∀ name, name ∈ before ↔ name ∈ r.names)
    (shows : ∀ name ∈ names, ShowsSomething name)
    (room : r.names.length + names.length ≤ Roster.capacity) (twice : String) :
    outputNamesFault? before names = some (.repeatedOutputName twice) ↔
      names.foldlM Roster.register r = .error (.duplicate twice) := by
  induction names generalizing before r with
  | nil => exact iff_of_false nofun nofun
  | cons name names ih =>
    have visible : isBlankName name = false :=
      isBlankName_eq_false_iff.2 (shows name List.mem_cons_self)
    rw [outputNamesFault?, visible, if_neg Bool.false_ne_true, Roster.foldlM_register_cons]
    by_cases mem : name ∈ r.names
    · have seen : before.contains name = true := List.contains_iff_mem.2 ((same name).2 mem)
      rw [if_pos seen, Roster.register_of_mem mem]
      simp [Except.bind]
    · have fresh : ¬ before.contains name = true := fun seen =>
        mem ((same name).1 (List.contains_iff_mem.1 seen))
      rw [List.length_cons] at room
      have accepted : ∃ next, r.register name = .ok next := by
        rw [Roster.register, dif_neg mem, dif_pos (by omega)]
        exact ⟨_, rfl⟩
      obtain ⟨next, accepted⟩ := accepted
      have longer := Roster.names_register accepted
      rw [if_neg fresh, accepted]
      refine ih (fun other => ?_) (fun other mem => shows other (List.mem_cons_of_mem _ mem)) ?_
      · rw [longer, List.mem_cons, List.mem_append, List.mem_singleton, same, or_comm]
      · rw [longer, List.length_append, List.length_singleton]
        omega

/-- Validation accepts exactly the settings of use, and then all outputs can be registered in the
order in which they are listed.  Where nothing else is wrong, validation fails exactly if one of
the registrations does, at the same name unless there are too many. -/
theorem Settings.validate_iff_registers (s : Settings) :
    let outputs := s.auxiliary.outputs
    (s.validate = .ok () ↔ s.IsUseful) ∧
    (s.validate = .ok () → ∃ r, Roster.ofNames outputs = .ok r ∧ r.names = outputs) ∧
    (s.IsSound → (∀ name ∈ outputs, ShowsSomething name) →
      ((∃ fault, s.validate = .error fault) ↔ ∃ fault, Roster.ofNames outputs = .error fault) ∧
      (outputs.length ≤ Roster.capacity → ∀ name,
        s.fault? = some (.repeatedOutputName name) ↔
          Roster.ofNames outputs = .error (.duplicate name))) := by
  intro outputs
  refine ⟨validate_eq_ok_iff.trans fault?_eq_none_iff, fun valid => ?_, fun sound shows => ⟨?_, ?_⟩⟩
  · have useful := fault?_eq_none_iff.1 (validate_eq_ok_iff.1 valid)
    obtain ⟨r, registered⟩ := Roster.exists_ofNames_iff.2 ⟨useful.nodup, useful.few⟩
    exact ⟨r, registered, Roster.ofNames_eq_ok_iff.1 registered⟩
  · have useful : s.IsUseful ↔ outputs.Nodup ∧ outputs.length ≤ Roster.capacity :=
      ⟨fun useful => ⟨useful.nodup, useful.few⟩,
        fun fits => { sound with few := fits.2, nodup := fits.1, outputNames := shows }⟩
    rw [validate_fails_iff, Roster.ofNames_fails_iff, Roster.exists_ofNames_iff, Ne,
      fault?_eq_none_iff, useful]
  · intro few name
    rw [fault?_of_isSound sound, if_neg (Nat.not_lt.2 few)]
    refine repeatedOutputName_iff_duplicate (fun _ => ?_) shows ?_ name
    · exact iff_of_false List.not_mem_nil List.not_mem_nil
    · rw [show Roster.empty.names.length = 0 from rfl, Nat.zero_add]
      exact few

/-- With two outputs that have names of their own all is well; a third one that takes the name of
the first is found by validation and refused at registration. -/
theorem Settings.validate_iff_registers_thirdOutput :
    let two : Settings := { auxiliary := ⟨["spindle", "coolant"]⟩ }
    let three : Settings := { auxiliary := ⟨["spindle", "coolant", "spindle"]⟩ }
    (two.validate = .ok () ∧ ∃ r, Roster.ofNames two.auxiliary.outputs = .ok r ∧
      r.names = two.auxiliary.outputs) ∧
    three.IsSound ∧ (∀ name ∈ three.auxiliary.outputs, ShowsSomething name) ∧
    (∃ fault, three.validate = .error fault) ∧
    Roster.ofNames three.auxiliary.outputs = .error (.duplicate "spindle") := by
  intro two three
  have useful : two.IsUseful := ⟨⟨by decide, by decide, by decide, by decide, by decide⟩, by decide,
    by decide, by decide⟩
  have sound : three.IsSound := ⟨by decide, by decide, by decide, by decide, by decide⟩
  have shows : ∀ name ∈ three.auxiliary.outputs, ShowsSomething name := by decide
  obtain ⟨accepts, registers, -⟩ := validate_iff_registers two
  obtain ⟨-, -, others⟩ := validate_iff_registers three
  obtain ⟨fails, named⟩ := others sound shows
  have refused := (named (by decide) "spindle").1 (by decide)
  exact ⟨⟨accepts.2 useful, registers (accepts.2 useful)⟩, sound, shows, fails.2 ⟨_, refused⟩,
    refused⟩

end ProgramControl
