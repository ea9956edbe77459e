import ProgramControl.Settings.Document

/-!
# What a document tells of the settings

A document need not tell everything.  A `Draft` holds what one tells: some of the groups, and some
of the settings of each.  It is told by entries that have one value for what is there and none for
what is missing, wherever they stand among the others; the settings that are read then are the
standard ones with the draft's own in their places.

* `Node.word64?_eq_some_iff`, `Node.texts?_eq_some_iff`, …   the values that are settings of a kind;
* `Tells`, `fieldOr_iff`   what entries tell of one setting, and what is read of it;
* `Draft.IsToldBy`, `Draft.replacing`   what a document tells, and what it makes of settings;
* `ofNode?_program_iff`, `ofNode?_notifier_iff`, …   a group is read if it tells a draft;
* `ofNode?_iff`           so is a document, and no others are;
* `Flaw`, `ofNode?_of_flaw`  what keeps any document from being read.
-/

namespace ProgramControl

theorem LogLevel.ofName?_eq_some_iff {s : String} {l : LogLevel} :
    ofName? s = some l ↔ s = l.name := by
  constructor
  · intro read
    unfold ofName? at read
    split at read <;> cases read <;> rfl
  · rintro rfl
    exact ofName?_name l

namespace Settings

/-! ## Values -/

section

variable {n : Node}

theorem Node.truth?_eq_some_iff {b : Bool} : n.truth? = some b ↔ n = .truth b := by
  cases n <;> simp [Node.truth?]

theorem Node.text?_eq_some_iff {s : String} : n.text? = some s ↔ n = .text s := by
  cases n <;> simp [Node.text?]

theorem Node.nat?_eq_some_iff {bound m : Nat} :
    n.nat? bound = some m ↔ m < bound ∧ n = .integer m := by
  constructor
  · intro read
    unfold Node.nat? at read
    split at read
    · split at read
      · cases read
        exact ⟨by assumption, rfl⟩
      · cases read
    · cases read
  · rintro ⟨fits, rfl⟩
    exact if_pos fits

theorem Node.word64?_eq_some_iff {w : UInt64} : n.word64? = some w ↔ n = .integer w.toNat := by
  rw [Node.word64?, Option.map_eq_some_iff]
  constructor
  · rintro ⟨m, read, rfl⟩
    obtain ⟨fits, rfl⟩ := Node.nat?_eq_some_iff.1 read
    rw [UInt64.toNat_ofNat_of_lt' fits]
  · rintro rfl
    exact ⟨w.toNat, Node.nat?_eq_some_iff.2 ⟨w.toNat_lt, rfl⟩, UInt64.ofNat_toNat⟩

theorem Node.word32?_eq_some_iff {w : UInt32} : n.word32? = some w ↔ n = .integer w.toNat := by
  rw [Node.word32?, Option.map_eq_some_iff]
  constructor
  · rintro ⟨m, read, rfl⟩
    obtain ⟨fits, rfl⟩ := Node.nat?_eq_some_iff.1 read
    rw [UInt32.toNat_ofNat_of_lt' fits]
  · rintro rfl
    exact ⟨w.toNat, Node.nat?_eq_some_iff.2 ⟨w.toNat_lt, rfl⟩, UInt32.ofNat_toNat⟩

theorem Node.texts?_eq_some_iff {ss : List String} :
    n.texts? = some ss ↔ n = .list (ss.map .text) := by
  have items (ns : List Node) (ss : List String) :
      ns.mapM Node.text? = some ss ↔ ns = ss.map .text := by
    induction ns generalizing ss with
    | nil => cases ss <;> simp
    | cons n ns ih =>
      cases ss with
      | nil => simp [Option.bind_eq_some_iff]
      | cons s ss => simp [Option.bind_eq_some_iff, Node.text?_eq_some_iff, ih]
  cases n <;> simp [Node.texts?, items]

/-- The two forms of a log level. -/
inductive SpellsLevel (dialect : Dialect) (l : LogLevel) : Node → Prop where
  | name : SpellsLevel dialect l (.text l.name)
  | table {content : Node} (nothing : dialect.isNothing content = true) :
      SpellsLevel dialect l (.table [(l.name, content)])

theorem Node.logLevel?_eq_some_iff {dialect : Dialect} {l : LogLevel} :
    n.logLevel? dialect = some l ↔ SpellsLevel dialect l n := by
  constructor
  · intro read
    unfold Node.logLevel? at read
    split at read
    · cases LogLevel.ofName?_eq_some_iff.1 read
      exact .name
    · split at read
      · cases LogLevel.ofName?_eq_some_iff.1 read
        exact .table (by assumption)
      · cases read
    · cases read
  · rintro (_ | nothing)
    · exact LogLevel.ofName?_name l
    · rw [Node.logLevel?, if_pos nothing]
      exact LogLevel.ofName?_name l

end

/-! ## One setting -/

section

variable {α δ : Type} {spells : α → Node → Prop} {read : Node → Option α} {standard a : α}
  {name : String} {entries : List (String × Node)} {n : Node}

theorem mem_valuesOf : n ∈ valuesOf name entries ↔ (name, n) ∈ entries := by
  simp [valuesOf]

/-- What entries tell of a setting: one value in one of its forms, or nothing. -/
inductive Tells (spells : α → Node → Prop) (name : String) (entries : List (String × Node)) :
    Option α → Prop where
  | missing (absent : valuesOf name entries = []) : Tells spells name entries none
  | given {a : α} {n : Node} (only : valuesOf name entries = [n]) (spelt : spells a n) :
      Tells spells name entries (some a)

theorem Tells.spelt_of_mem {a? : Option α} (told : Tells spells name entries a?)
    (mem : (name, n) ∈ entries) : ∃ a, a? = some a ∧ spells a n := by
  have mem := mem_valuesOf.2 mem
  cases told with
  | missing absent =>
    rw [absent] at mem
    cases mem
  | given only value =>
    rw [only, List.mem_singleton] at mem
    exact ⟨_, rfl, mem ▸ value⟩

theorem Tells.not_twice {a? : Option α} (told : Tells spells name entries a?) :
    ¬ 1 < (valuesOf name entries).length := by
  cases told with
  | missing absent => rw [absent]; exact Nat.not_lt.2 (Nat.zero_le 1)
  | given only _ => rw [only]; exact Nat.lt_irrefl 1

/-- A setting is read if it is told.  It is what is made of what is told, or the standard. -/
theorem fieldOr_map_iff {spells : δ → Node → Prop} {fill : δ → α}
    (reads : ∀ n a, read n = some a ↔ ∃ d, spells d n ∧ a = fill d) :
    fieldOr standard read name entries = some a ↔
      ∃ d?, Tells spells name entries d? ∧ a = (d?.map fill).getD standard := by
  rw [fieldOr]
  constructor
  · intro found
    split at found
    · next absent =>
      cases found
      exact ⟨none, .missing absent, rfl⟩
    · next n only =>
      obtain ⟨d, spelt, rfl⟩ := (reads n a).1 found
      exact ⟨some d, .given only spelt, rfl⟩
    · cases found
  · rintro ⟨_, absent | ⟨only, spelt⟩, rfl⟩
    · rw [absent]
    · rw [only]
      exact (reads _ _).2 ⟨_, spelt, rfl⟩

theorem fieldOr_iff (reads : ∀ n a, read n = some a ↔ spells a n) :
    fieldOr standard read name entries = some a ↔
      ∃ a?, Tells spells name entries a? ∧ a = a?.getD standard := by
  have same : ∀ n a, read n = some a ↔ ∃ b, spells b n ∧ a = id b := by simp [reads]
  simp [fieldOr_map_iff same]

theorem field_iff (reads : ∀ n a, read n = some a ↔ spells a n) :
    field read name entries = some a ↔ Tells spells name entries (some a) := by
  rw [field]
  constructor
  · intro found
    split at found
    · next n only => exact .given only ((reads n a).1 found)
    · cases found
  · rintro (_ | ⟨only, spelt⟩)
    exact only ▸ (reads _ _).2 spelt

end

/-! ## The entries of a group -/

/-- The entries of a group: those of a table, or the values of a list under their usual names. -/
inductive Holds (dialect : Dialect) (names : List String) : Node → List (String × Node) → Prop where
  | table {entries : List (String × Node)} : Holds dialect names (.table entries) entries
  | list {items : List Node} (fits : items.length ≤ names.length ∨ dialect.allowsSurplus = true) :
      Holds dialect names (.list items) (names.zip items)

/-- All names are among those given. -/
def AreKnown (names : List String) (entries : List (String × Node)) : Prop :=
  ∀ e ∈ entries, e.1 ∈ names

section

variable {dialect : Dialect} {names : List String} {n : Node} {entries : List (String × Node)}

theorem fields?_eq_some_iff :
    fields? dialect names n = some entries ↔ Holds dialect names n entries := by
  constructor
  · intro found
    unfold fields? at found
    split at found
    · cases found
      exact .table
    · split at found
      · next fits =>
        cases found
        exact .list fits
      · cases found
    · cases found
  · rintro (_ | fits)
    · rfl
    · exact if_pos fits

theorem strictFields?_eq_some_iff : strictFields? dialect names n = some entries ↔
    Holds dialect names n entries ∧ AreKnown names entries := by
  rw [strictFields?, Option.filter_eq_some_iff, fields?_eq_some_iff, List.all_eq_true]
  simp only [List.contains_iff_mem, AreKnown]

theorem looseFields?_eq_some_iff : looseFields? dialect names n = some entries ↔
    Holds dialect names n entries ∧ allEntriesWhole entries = true := by
  rw [looseFields?, Option.filter_eq_some_iff, fields?_eq_some_iff]

theorem Holds.unique {entries' : List (String × Node)} (holds : Holds dialect names n entries)
    (holds' : Holds dialect names n entries') : entries = entries' := by
  cases holds <;> cases holds' <;> rfl

end

/-! ## Drafts -/

/-- Shared settings that are told.  The service is named in any case. -/
structure SharedDraft where
  logLevel : Option LogLevel := none
  serviceName : String

structure ProgramDraft where
  optionalStop : Option Bool := none
  channelDepth : Option UInt64 := none

structure NotifierDraft where
  queueDepth : Option UInt64 := none
  alertAfter : Option UInt32 := none
  firstBackoff : Option UInt64 := none
  output : Option String := none

structure AuxiliaryDraft where
  outputs : Option (List String) := none

structure Draft where
  shared : Option SharedDraft := none
  program : Option ProgramDraft := none
  notifier : Option NotifierDraft := none
  auxiliary : Option AuxiliaryDraft := none

/-! ### The settings with a draft's own in their places -/

def SharedDraft.replacing (d : SharedDraft) (s : SharedSettings) : SharedSettings where
  logLevel := d.logLevel.getD s.logLevel
  serviceName := d.serviceName

def ProgramDraft.replacing (d : ProgramDraft) (p : ProgramSettings) : ProgramSettings where
  optionalStop := d.optionalStop.getD p.optionalStop
  channelDepth := d.channelDepth.getD p.channelDepth

def NotifierDraft.replacing (d : NotifierDraft) (n : NotifierSettings) : NotifierSettings where
  queueDepth := d.queueDepth.getD n.queueDepth
  alertAfter := d.alertAfter.getD n.alertAfter
  firstBackoff := d.firstBackoff.getD n.firstBackoff
  output := d.output.getD n.output

def AuxiliaryDraft.replacing (d : AuxiliaryDraft) (a : AuxiliarySettings) : AuxiliarySettings where
  outputs := d.outputs.getD a.outputs

def Draft.replacing (d : Draft) (s : Settings) : Settings where
  shared := (d.shared.map (·.replacing s.shared)).getD s.shared
  program := (d.program.map (·.replacing s.program)).getD s.program
  notifier := (d.notifier.map (·.replacing s.notifier)).getD s.notifier
  auxiliary := (d.auxiliary.map (·.replacing s.auxiliary)).getD s.auxiliary

/-! ### Entries that tell a draft -/

/-- The entries tell the shared settings of the draft.  Others may stand among them, with values
that are well made. -/
structure SharedDraft.IsToldBy (dialect : Dialect) (d : SharedDraft)
    (entries : List (String × Node)) : Prop where
  whole : allEntriesWhole entries = true
  logLevel : Tells (SpellsLevel dialect) "log_level" entries d.logLevel
  serviceName : Tells (fun s n => n = .text s) "service_name" entries (some d.serviceName)

structure ProgramDraft.IsToldBy (d : ProgramDraft) (entries : List (String × Node)) : Prop where
  known : AreKnown programNames entries
  optionalStop : Tells (fun b n => n = .truth b) "optional_stop_enabled" entries d.optionalStop
  channelDepth : Tells (fun (w : UInt64) n => n = .integer w.toNat) "directive_queue_depth" entries
    d.channelDepth

structure NotifierDraft.IsToldBy (d : NotifierDraft) (entries : List (String × Node)) : Prop where
  known : AreKnown notifierNames entries
  queueDepth : Tells (fun (w : UInt64) n => n = .integer w.toNat) "queue_depth" entries d.queueDepth
  alertAfter : Tells (fun (w : UInt32) n => n = .integer w.toNat) "alert_after_attempts" entries
    d.alertAfter
  firstBackoff : Tells (fun (w : UInt64) n => n = .integer w.toNat) "retry_backoff_ms" entries
    d.firstBackoff
  output : Tells (fun s n => n = .text s) "output" entries d.output

structure AuxiliaryDraft.IsToldBy (d : AuxiliaryDraft) (entries : List (String × Node)) : Prop where
  known : AreKnown auxiliaryNames entries
  outputs : Tells (fun ss n => n = .list (ss.map .text)) "shutdown_outputs" entries d.outputs

/-- A group whose entries tell something. -/
def InGroup {δ : Type} (dialect : Dialect) (names : List String)
    (tells : δ → List (String × Node) → Prop) (d : δ) (n : Node) : Prop :=
  ∃ entries, Holds dialect names n entries ∧ tells d entries

/-- The groups that stand among the entries of a document tell the groups of the draft. -/
structure Draft.IsToldBy (dialect : Dialect) (d : Draft) (entries : List (String × Node)) :
    Prop where
  known : AreKnown groupNames entries
  shared : Tells (InGroup dialect sharedNames (SharedDraft.IsToldBy dialect)) "shared" entries
    d.shared
  program : Tells (InGroup dialect programNames ProgramDraft.IsToldBy) "program" entries d.program
  notifier : Tells (InGroup dialect notifierNames NotifierDraft.IsToldBy) "notifier" entries
    d.notifier
  auxiliary : Tells (InGroup dialect auxiliaryNames AuxiliaryDraft.IsToldBy) "auxiliary" entries
    d.auxiliary

/-! ## What is read has been told -/

section

variable {dialect : Dialect}

theorem ofNode?_shared_iff (n : Node) (s : SharedSettings) :
    SharedSettings.ofNode? dialect n = some s ↔
      ∃ d, InGroup dialect sharedNames (SharedDraft.IsToldBy dialect) d n ∧ s = d.replacing {} := by
  simp only [SharedSettings.ofNode?, Option.bind_eq_bind, Option.bind_eq_some_iff,
    looseFields?_eq_some_iff]
  constructor
  · rintro ⟨entries, ⟨holds, whole⟩, level, levelRead, name, nameRead, ⟨⟩⟩
    obtain ⟨level?, level, rfl⟩ := (fieldOr_iff fun _ _ => Node.logLevel?_eq_some_iff).1 levelRead
    have name := (field_iff fun _ _ => Node.text?_eq_some_iff).1 nameRead
    exact ⟨⟨level?, _⟩, ⟨entries, holds, whole, level, name⟩, rfl⟩
  · rintro ⟨d, ⟨entries, holds, told⟩, rfl⟩
    exact ⟨entries, ⟨holds, told.whole⟩,
      _, (fieldOr_iff fun _ _ => Node.logLevel?_eq_some_iff).2 ⟨_, told.logLevel, rfl⟩,
      _, (field_iff fun _ _ => Node.text?_eq_some_iff).2 told.serviceName, rfl⟩

theorem ofNode?_program_iff (n : Node) (p : ProgramSettings) :
    ProgramSettings.ofNode? dialect n = some p ↔
      ∃ d, InGroup dialect programNames ProgramDraft.IsToldBy d n ∧ p = d.replacing {} := by
  simp only [ProgramSettings.ofNode?, Option.bind_eq_bind, Option.bind_eq_some_iff,
    strictFields?_eq_some_iff]
  constructor
  · rintro ⟨entries, ⟨holds, known⟩, stop, stopRead, depth, depthRead, ⟨⟩⟩
    obtain ⟨stop?, stop, rfl⟩ := (fieldOr_iff fun _ _ => Node.truth?_eq_some_iff).1 stopRead
    obtain ⟨depth?, depth, rfl⟩ := (fieldOr_iff fun _ _ => Node.word64?_eq_some_iff).1 depthRead
    exact ⟨⟨stop?, depth?⟩, ⟨entries, holds, known, stop, depth⟩, rfl⟩
  · rintro ⟨d, ⟨entries, holds, told⟩, rfl⟩
    exact ⟨entries, ⟨holds, told.known⟩,
      _, (fieldOr_iff fun _ _ => Node.truth?_eq_some_iff).2 ⟨_, told.optionalStop, rfl⟩,
      _, (fieldOr_iff fun _ _ => Node.word64?_eq_some_iff).2 ⟨_, told.channelDepth, rfl⟩, rfl⟩

theorem ofNode?_notifier_iff (n : Node) (s : NotifierSettings) :
    NotifierSettings.ofNode? dialect n = some s ↔
      ∃ d, InGroup dialect notifierNames NotifierDraft.IsToldBy d n ∧ s = d.replacing {} := by
  simp only [NotifierSettings.ofNode?, Option.bind_eq_bind, Option.bind_eq_some_iff,
    strictFields?_eq_some_iff]
  constructor
  · rintro ⟨entries, ⟨holds, known⟩, depth, depthRead, alert, alertRead, backoff, backoffRead,
      output, outputRead, ⟨⟩⟩
    obtain ⟨depth?, depth, rfl⟩ := (fieldOr_iff fun _ _ => Node.word64?_eq_some_iff).1 depthRead
    obtain ⟨alert?, alert, rfl⟩ := (fieldOr_iff fun _ _ => Node.word32?_eq_some_iff).1 alertRead
    obtain ⟨backoff?, backoff, rfl⟩ :=
      (fieldOr_iff fun _ _ => Node.word64?_eq_some_iff).1 backoffRead
    obtain ⟨output?, output, rfl⟩ := (fieldOr_iff fun _ _ => Node.text?_eq_some_iff).1 outputRead
    exact ⟨⟨depth?, alert?, backoff?, output?⟩,
      ⟨entries, holds, known, depth, alert, backoff, output⟩, rfl⟩
  · rintro ⟨d, ⟨entries, holds, told⟩, rfl⟩
    exact ⟨entries, ⟨holds, told.known⟩,
      _, (fieldOr_iff fun _ _ => Node.word64?_eq_some_iff).2 ⟨_, told.queueDepth, rfl⟩,
      _, (fieldOr_iff fun _ _ => Node.word32?_eq_some_iff).2 ⟨_, told.alertAfter, rfl⟩,
      _, (fieldOr_iff fun _ _ => Node.word64?_eq_some_iff).2 ⟨_, told.firstBackoff, rfl⟩,
      _, (fieldOr_iff fun _ _ => Node.text?_eq_some_iff).2 ⟨_, told.output, rfl⟩, rfl⟩

theorem ofNode?_auxiliary_iff (n : Node) (a : AuxiliarySettings) :
    AuxiliarySettings.ofNode? dialect n = some a ↔
      ∃ d, InGroup dialect auxiliaryNames AuxiliaryDraft.IsToldBy d n ∧ a = d.replacing {} := by
  simp only [AuxiliarySettings.ofNode?, Option.bind_eq_bind, Option.bind_eq_some_iff,
    strictFields?_eq_some_iff]
  constructor
  · rintro ⟨entries, ⟨holds, known⟩, outputs, outputsRead, ⟨⟩⟩
    obtain ⟨outputs?, outputs, rfl⟩ :=
      (fieldOr_iff fun _ _ => Node.texts?_eq_some_iff).1 outputsRead
    exact ⟨⟨outputs?⟩, ⟨entries, holds, known, outputs⟩, rfl⟩
  · rintro ⟨d, ⟨entries, holds, told⟩, rfl⟩
    exact ⟨entries, ⟨holds, told.known⟩,
      _, (fieldOr_iff fun _ _ => Node.texts?_eq_some_iff).2 ⟨_, told.outputs, rfl⟩, rfl⟩

/-- A document is read if it tells a draft, and only then. -/
theorem ofNode?_iff (n : Node) (s : Settings) :
    ofNode? dialect n = some s ↔
      ∃ d, InGroup dialect groupNames (Draft.IsToldBy dialect) d n ∧ s = d.replacing {} := by
  simp only [ofNode?, Option.bind_eq_bind, Option.bind_eq_some_iff, strictFields?_eq_some_iff]
  constructor
  · rintro ⟨entries, ⟨holds, known⟩, shared, sharedRead, program, programRead,
      notifier, notifierRead, auxiliary, auxiliaryRead, ⟨⟩⟩
    obtain ⟨shared?, shared, rfl⟩ := (fieldOr_map_iff ofNode?_shared_iff).1 sharedRead
    obtain ⟨program?, program, rfl⟩ := (fieldOr_map_iff ofNode?_program_iff).1 programRead
    obtain ⟨notifier?, notifier, rfl⟩ := (fieldOr_map_iff ofNode?_notifier_iff).1 notifierRead
    obtain ⟨auxiliary?, auxiliary, rfl⟩ := (fieldOr_map_iff ofNode?_auxiliary_iff).1 auxiliaryRead
    exact ⟨⟨shared?, program?, notifier?, auxiliary?⟩,
      ⟨entries, holds, known, shared, program, notifier, auxiliary⟩, rfl⟩
  · rintro ⟨d, ⟨entries, holds, told⟩, rfl⟩
    exact ⟨entries, ⟨holds, told.known⟩,
      _, (fieldOr_map_iff ofNode?_shared_iff).2 ⟨_, told.shared, rfl⟩,
      _, (fieldOr_map_iff ofNode?_program_iff).2 ⟨_, told.program, rfl⟩,
      _, (fieldOr_map_iff ofNode?_notifier_iff).2 ⟨_, told.notifier, rfl⟩,
      _, (fieldOr_map_iff ofNode?_auxiliary_iff).2 ⟨_, told.auxiliary, rfl⟩, rfl⟩

theorem ofNode?_table_iff {entries : List (String × Node)} {s : Settings} :
    ofNode? dialect (.table entries) = some s ↔
      ∃ d : Draft, d.IsToldBy dialect entries ∧ s = d.replacing {} := by
  rw [ofNode?_iff]
  constructor
  · rintro ⟨d, ⟨_, ⟨⟩, told⟩, rfl⟩
    exact ⟨d, told, rfl⟩
  · rintro ⟨d, told, rfl⟩
    exact ⟨d, ⟨entries, .table, told⟩, rfl⟩

end

/-! ## What keeps a document from being read -/

/-- The kinds of values that settings take. -/
inductive Kind where
  | truth
  /-- a whole number below a bound -/
  | number (bound : Nat)
  | text
  | texts

def Kind.Has : Kind → Node → Prop
  | .truth, n => ∃ b, n = .truth b
  | .number bound, n => ∃ m < bound, n = .integer (Nat.cast m)
  | .text, n => ∃ s, n = .text s
  | .texts, n => ∃ ss : List String, n = .list (ss.map .text)

/-- The settings and their kinds, with their groups.  A log level has a form of its own. -/
def kinds : List (String × String × Kind) :=
  [("shared", "service_name", .text),
   ("program", "optional_stop_enabled", .truth),
   ("program", "directive_queue_depth", .number UInt64.size),
   ("notifier", "queue_depth", .number UInt64.size),
   ("notifier", "alert_after_attempts", .number UInt32.size),
   ("notifier", "retry_backoff_ms", .number UInt64.size),
   ("notifier", "output", .text),
   ("auxiliary", "shutdown_outputs", .texts)]

/-- The groups with the names of their settings. -/
def settingNames : List (String × List String) :=
  [("shared", sharedNames), ("program", programNames), ("notifier", notifierNames),
   ("auxiliary", auxiliaryNames)]

/-- Something is wrong with the entries of a group.  Other names may stand among the shared
settings alone, which in turn must name the service. -/
inductive GroupFlaw (group : String) (names : List String) (entries : List (String × Node)) :
    Prop where
  | unknown (closed : group ≠ "shared") (stray : ¬ AreKnown names entries)
  | repeated {name : String} (known : name ∈ names) (twice : 1 < (valuesOf name entries).length)
  | nameless (shared : group = "shared") (absent : "service_name" ∉ entries.map Prod.fst)
  | unfit {name : String} {kind : Kind} {n : Node} (known : (group, name, kind) ∈ kinds)
      (mem : (name, n) ∈ entries) (other : ¬ kind.Has n)

/-- Something is wrong with the groups of a document: there is one that is unknown or stands there
twice, one that holds no settings at all, or one with a flaw of its own. -/
inductive Flaw (dialect : Dialect) (entries : List (String × Node)) : Prop where
  | unknown (stray : ¬ AreKnown groupNames entries)
  | repeated {name : String} (known : name ∈ groupNames)
      (twice : 1 < (valuesOf name entries).length)
  | misplaced {name : String} {names : List String} {n : Node}
      (known : (name, names) ∈ settingNames) (mem : (name, n) ∈ entries)
      (none : ∀ settings, ¬ Holds dialect names n settings)
  | group {name : String} {names : List String} {n : Node} {settings : List (String × Node)}
      (known : (name, names) ∈ settingNames) (mem : (name, n) ∈ entries)
      (holds : Holds dialect names n settings) (flaw : GroupFlaw name names settings)

section

variable {dialect : Dialect} {entries : List (String × Node)}

theorem Tells.has {α : Type} {spells : α → Node → Prop} {name : String} {n : Node} {a? : Option α}
    {kind : Kind} (told : Tells spells name entries a?) (kinds : ∀ a n, spells a n → kind.Has n)
    (mem : (name, n) ∈ entries) : kind.Has n := by
  obtain ⟨a, -, spelt⟩ := told.spelt_of_mem mem
  exact kinds a n spelt

theorem has_text (s : String) (n : Node) (same : n = .text s) : Kind.text.Has n := ⟨s, same⟩

theorem has_word64 (w : UInt64) (n : Node) (same : n = .integer w.toNat) :
    (Kind.number UInt64.size).Has n := ⟨w.toNat, w.toNat_lt, same⟩

theorem has_word32 (w : UInt32) (n : Node) (same : n = .integer w.toNat) :
    (Kind.number UInt32.size).Has n := ⟨w.toNat, w.toNat_lt, same⟩

/-! ### A draft that is told has no flaw -/

theorem SharedDraft.IsToldBy.not_flaw {d : SharedDraft} (told : d.IsToldBy dialect entries) :
    ¬ GroupFlaw "shared" sharedNames entries := by
  rintro (⟨closed, _⟩ | ⟨known, twice⟩ | ⟨_, absent⟩ | ⟨known, mem, other⟩)
  · exact closed rfl
  · obtain rfl | rfl : _ ∨ _ := by simpa [sharedNames] using known
    · exact told.logLevel.not_twice twice
    · exact told.serviceName.not_twice twice
  · cases told.serviceName with
    | given only _ =>
      have mem := mem_valuesOf.1 (only ▸ List.mem_cons_self)
      exact absent (List.mem_map.2 ⟨_, mem, rfl⟩)
  · obtain ⟨rfl, rfl⟩ : _ ∧ _ := by simpa [kinds] using known
    exact other (told.serviceName.has has_text mem)

theorem ProgramDraft.IsToldBy.not_flaw {d : ProgramDraft} (told : d.IsToldBy entries) :
    ¬ GroupFlaw "program" programNames entries := by
  rintro (⟨_, stray⟩ | ⟨known, twice⟩ | ⟨shared, _⟩ | ⟨known, mem, other⟩)
  · exact stray told.known
  · obtain rfl | rfl : _ ∨ _ := by simpa [programNames] using known
    · exact told.optionalStop.not_twice twice
    · exact told.channelDepth.not_twice twice
  · exact absurd shared (by decide)
  · obtain ⟨rfl, rfl⟩ | ⟨rfl, rfl⟩ : _ ∨ _ := by simpa [kinds] using known
    · exact other (told.optionalStop.has (fun b _ same => ⟨b, same⟩) mem)
    · exact other (told.channelDepth.has has_word64 mem)

theorem NotifierDraft.IsToldBy.not_flaw {d : NotifierDraft} (told : d.IsToldBy entries) :
    ¬ GroupFlaw "notifier" notifierNames entries := by
  rintro (⟨_, stray⟩ | ⟨known, twice⟩ | ⟨shared, _⟩ | ⟨known, mem, other⟩)
  · exact stray told.known
  · obtain rfl | rfl | rfl | rfl : _ ∨ _ ∨ _ ∨ _ := by simpa [notifierNames] using known
    · exact told.queueDepth.not_twice twice
    · exact told.alertAfter.not_twice twice
    · exact told.firstBackoff.not_twice twice
    · exact told.output.not_twice twice
  · exact absurd shared (by decide)
  · obtain ⟨rfl, rfl⟩ | ⟨rfl, rfl⟩ | ⟨rfl, rfl⟩ | ⟨rfl, rfl⟩ : _ ∨ _ ∨ _ ∨ _ := by
      simpa [kinds] using known
    · exact other (told.queueDepth.has has_word64 mem)
    · exact other (told.alertAfter.has has_word32 mem)
    · exact other (told.firstBackoff.has has_word64 mem)
    · exact other (told.output.has has_text mem)

theorem AuxiliaryDraft.IsToldBy.not_flaw {d : AuxiliaryDraft} (told : d.IsToldBy entries) :
    ¬ GroupFlaw "auxiliary" auxiliaryNames entries := by
  rintro (⟨_, stray⟩ | ⟨known, twice⟩ | ⟨shared, _⟩ | ⟨known, mem, other⟩)
  · exact stray told.known
  · obtain rfl : _ = _ := by simpa [auxiliaryNames] using known
    exact told.outputs.not_twice twice
  · exact absurd shared (by decide)
  · obtain ⟨rfl, rfl⟩ : _ ∧ _ := by simpa [kinds] using known
    exact other (told.outputs.has (fun ss _ same => ⟨ss, same⟩) mem)

theorem Tells.holds {δ : Type} {tells : δ → List (String × Node) → Prop} {group : String}
    {names : List String} {d? : Option δ} {n : Node}
    (told : Tells (InGroup dialect names tells) group entries d?)
    (sound : ∀ d settings, tells d settings → ¬ GroupFlaw group names settings)
    (mem : (group, n) ∈ entries) :
    ∃ settings, Holds dialect names n settings ∧ ¬ GroupFlaw group names settings := by
  obtain ⟨d, -, settings, holds, told⟩ := told.spelt_of_mem mem
  exact ⟨settings, holds, sound d settings told⟩

theorem Draft.IsToldBy.not_flaw {d : Draft} (told : d.IsToldBy dialect entries) :
    ¬ Flaw dialect entries := by
  have each : ∀ name names n, (name, names) ∈ settingNames → (name, n) ∈ entries →
      ∃ settings, Holds dialect names n settings ∧ ¬ GroupFlaw name names settings := by
    intro name names n known mem
    obtain ⟨rfl, rfl⟩ | ⟨rfl, rfl⟩ | ⟨rfl, rfl⟩ | ⟨rfl, rfl⟩ : _ ∨ _ ∨ _ ∨ _ := by
      simpa [settingNames] using known
    · exact told.shared.holds (fun _ _ told => told.not_flaw) mem
    · exact told.program.holds (fun _ _ told => told.not_flaw) mem
    · exact told.notifier.holds (fun _ _ told => told.not_flaw) mem
    · exact told.auxiliary.holds (fun _ _ told => told.not_flaw) mem
  rintro (stray | ⟨known, twice⟩ | ⟨known, mem, none⟩ | ⟨known, mem, holds, flaw⟩)
  · exact stray told.known
  · obtain rfl | rfl | rfl | rfl : _ ∨ _ ∨ _ ∨ _ := by simpa [groupNames] using known
    · exact told.shared.not_twice twice
    · exact told.program.not_twice twice
    · exact told.notifier.not_twice twice
    · exact told.auxiliary.not_twice twice
  · obtain ⟨settings, holds, -⟩ := each _ _ _ known mem
    exact none settings holds
  · obtain ⟨settings, same, sound⟩ := each _ _ _ known mem
    exact sound (holds.unique same ▸ flaw)

/-- A document with a flaw is not read, whatever else it holds. -/
theorem ofNode?_of_flaw (flaw : Flaw dialect entries) :
    ofNode? dialect (.table entries) = none := by
  rw [Option.eq_none_iff_forall_ne_some]
  intro s read
  obtain ⟨d, told, -⟩ := ofNode?_table_iff.1 read
  exact told.not_flaw flaw

end

end Settings

end ProgramControl
