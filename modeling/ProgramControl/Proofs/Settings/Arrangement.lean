import Mathlib.Data.List.Forall2
import ProgramControl.Proofs.Settings.Drafts
import ProgramControl.Proofs.Settings.WrittenForms
import ProgramControl.Settings.Source

/-!
# Settings that are told in any order

A draft is written with an entry for each setting that is there, group by group, and among the
shared settings there may be others that nobody knows.  However the groups and the entries in them
are arranged, the document tells the draft.

* `Spelling`, `Draft.listing`   the entries of a draft, for any kind of document;
* `Rearranged`          the same groups and entries in another order;
* `Draft.isToldBy_of_rearranged`   in any order they tell the draft;
* `ofJson?_jsonOf`      as JSON they are read;
* `read?_tomlOf`, `ofToml?_tomlOf`   and as TOML text;
* `draft_replaces_standard`   the settings that are read from a document, and the documents refused;
* `parse_toToml`        settings written as text are read back, whatever they are.
-/

namespace ProgramControl.Settings

open Toml

/-! ## Entries of a draft -/

/-- How the kinds of values are written in a kind of document. -/
structure Spelling (V : Type) where
  truth : Bool → V
  number : Nat → V
  text : String → V
  texts : List String → V

section

variable {V W α : Type}

/-- An entry, if there is something to say. -/
def given (name : String) (make : α → V) (a? : Option α) : List (String × V) :=
  (a?.map fun a => (name, make a)).toList

def SharedDraft.listing (sp : Spelling V) (d : SharedDraft) : List (String × V) :=
  given "log_level" (fun l => sp.text l.name) d.logLevel ++
    given "service_name" sp.text (some d.serviceName)

def ProgramDraft.listing (sp : Spelling V) (d : ProgramDraft) : List (String × V) :=
  given "optional_stop_enabled" sp.truth d.optionalStop ++
    given "directive_queue_depth" (fun w => sp.number w.toNat) d.channelDepth

def NotifierDraft.listing (sp : Spelling V) (d : NotifierDraft) : List (String × V) :=
  given "queue_depth" (fun w => sp.number w.toNat) d.queueDepth ++
    given "alert_after_attempts" (fun w => sp.number w.toNat) d.alertAfter ++
    given "retry_backoff_ms" (fun w => sp.number w.toNat) d.firstBackoff ++
    given "output" sp.text d.output

def AuxiliaryDraft.listing (sp : Spelling V) (d : AuxiliaryDraft) : List (String × V) :=
  given "shutdown_outputs" sp.texts d.outputs

/-- The groups of a draft with their entries.  Entries with other names stand behind the shared
settings. -/
def Draft.listing (sp : Spelling V) (others : List (String × V)) (d : Draft) :
    List (String × List (String × V)) :=
  given "shared" (fun s => s.listing sp ++ others) d.shared ++
    given "program" (·.listing sp) d.program ++
    given "notifier" (·.listing sp) d.notifier ++
    given "auxiliary" (·.listing sp) d.auxiliary

/-- The same groups in some order, each with the same entries in some order. -/
def Rearranged (gs hs : List (String × List (String × V))) : Prop :=
  ∃ ms, gs.Perm ms ∧ List.Forall₂ (fun g h => g.1 = h.1 ∧ g.2.Perm h.2) ms hs

theorem Rearranged.refl (gs : List (String × List (String × V))) : Rearranged gs gs :=
  ⟨gs, .refl gs, List.forall₂_same.2 fun _ _ => ⟨rfl, .refl _⟩⟩

variable {name name' : String} {make : α → V} {a? : Option α}

theorem valuesOf_append (es es' : List (String × V)) :
    valuesOf name (es ++ es') = valuesOf name es ++ valuesOf name es' := by
  simp [valuesOf]

theorem mem_given {e : String × V} :
    e ∈ given name make a? ↔ ∃ a, a? = some a ∧ e = (name, make a) := by
  cases a? <;> simp [given]

theorem valuesOf_given :
    valuesOf name (given name' make a?) = if name' = name then (a?.map make).toList else [] := by
  cases a? with
  | none => simp [given, valuesOf]
  | some a =>
    by_cases same : name' = name
    · simp [given, valuesOf, same]
    · simp [given, valuesOf, same]

theorem valuesOf_map (f : V → W) (es : List (String × V)) :
    valuesOf name (es.map fun e => (e.1, f e.2)) = (valuesOf name es).map f := by
  rw [valuesOf, valuesOf, List.filter_map, List.map_map, List.map_map]
  rfl

theorem valuesOf_eq_nil {es : List (String × V)} (strange : ∀ e ∈ es, e.1 ≠ name) :
    valuesOf name es = [] := by
  rw [valuesOf, List.map_eq_nil_iff, List.filter_eq_nil_iff]
  exact fun e mem same => strange e mem (beq_iff_eq.1 same)

theorem valuesOf_perm {es es' : List (String × V)} (perm : es.Perm es') (name : String) :
    (valuesOf name es).Perm (valuesOf name es') :=
  (perm.filter _).map _

theorem Rearranged.valuesOf {gs hs : List (String × List (String × V))} (re : Rearranged gs hs)
    (name : String) :
    ∃ ms, (valuesOf name gs).Perm ms ∧ List.Forall₂ List.Perm ms (valuesOf name hs) := by
  obtain ⟨ms, perm, each⟩ := re
  refine ⟨Settings.valuesOf name ms, valuesOf_perm perm name, ?_⟩
  clear perm
  induction each with
  | nil => exact .nil
  | @cons g h ms hs both each ih =>
    rw [Settings.valuesOf, Settings.valuesOf, List.filter_cons, List.filter_cons, both.1]
    cases same : h.1 == name with
    | true => exact .cons both.2 ih
    | false => exact ih

/-! ## Values as nodes -/

/-- The entries with their values as nodes. -/
def nodesOf (node : V → Node) (es : List (String × V)) : List (String × Node) :=
  es.map fun e => (e.1, node e.2)

/-- The groups as tables. -/
def tablesOf (node : V → Node) (gs : List (String × List (String × V))) : List (String × Node) :=
  nodesOf (fun es => .table (nodesOf node es)) gs

/-- Every value is read as it is meant. -/
structure Spelling.Faithful (sp : Spelling V) (node : V → Node) : Prop where
  truth : ∀ b, node (sp.truth b) = .truth b
  number : ∀ n : Nat, node (sp.number n) = .integer n
  text : ∀ s, node (sp.text s) = .text s
  texts : ∀ ss, node (sp.texts ss) = .list (ss.map .text)

variable {node : V → Node}

theorem allEntriesWhole_iff {entries : List (String × Node)} :
    allEntriesWhole entries = true ↔ ∀ e ∈ entries, e.2.isWhole = true := by
  induction entries with
  | nil => simp [allEntriesWhole]
  | cons e entries ih => simp [allEntriesWhole, ih]

theorem tells_of_perm {spells : α → Node → Prop} {es hs : List (String × V)} (make : α → V)
    (perm : es.Perm hs) (values : valuesOf name hs = (a?.map make).toList)
    (spelt : ∀ a, spells a (node (make a))) :
    Tells spells name (nodesOf node es) a? := by
  have found : valuesOf name (nodesOf node es) = (valuesOf name es).map node := valuesOf_map node es
  have perm := valuesOf_perm perm name
  rw [values] at perm
  cases a? with
  | none => exact .missing (by rw [found, perm.eq_nil]; rfl)
  | some a => exact .given (by rw [found, List.perm_singleton.1 perm]; rfl) (spelt a)

theorem tells_of_rearranged {δ : Type} {dialect : Dialect} {names : List String}
    {tells : δ → List (String × Node) → Prop} {d? : Option δ} {make : δ → List (String × V)}
    {gs hs : List (String × List (String × V))} (re : Rearranged gs hs)
    (values : valuesOf name hs = (d?.map make).toList)
    (told : ∀ d es, es.Perm (make d) → tells d (nodesOf node es)) :
    Tells (InGroup dialect names tells) name (tablesOf node gs) d? := by
  have found : valuesOf name (tablesOf node gs) =
      (valuesOf name gs).map fun es => .table (nodesOf node es) :=
    valuesOf_map (fun es => Node.table (nodesOf node es)) gs
  -- one table at most stands under the name, so only the order within it is left
  obtain ⟨ms, perm, each⟩ := re.valuesOf name
  rw [values] at each
  cases d? with
  | none =>
    cases each
    exact .missing (by rw [found, perm.eq_nil]; rfl)
  | some d =>
    obtain ⟨es, _, one, none, rfl⟩ := List.forall₂_cons_right_iff.1 each
    cases none
    exact .given (by rw [found, List.perm_singleton.1 perm]; rfl) ⟨_, .table, told d es one⟩

/-! ## Names -/

theorem names_given : ((given name make a?).map Prod.fst).Sublist [name] := by
  cases a? with
  | none => exact List.nil_sublist _
  | some a => exact List.Sublist.refl _

theorem areKnown_nodesOf {names : List String} {es : List (String × V)}
    (part : es.map Prod.fst ⊆ names) : AreKnown names (nodesOf node es) := by
  intro e mem
  obtain ⟨e, found, rfl⟩ := List.mem_map.1 mem
  exact part (List.mem_map.2 ⟨e, found, rfl⟩)

theorem areKnown_of_perm {names : List String} {es hs : List (String × V)} (perm : es.Perm hs)
    (part : (hs.map Prod.fst).Sublist names) : AreKnown names (nodesOf node es) :=
  areKnown_nodesOf (List.Subset.trans (perm.map Prod.fst).subset part.subset)

variable {sp : Spelling V}

theorem SharedDraft.names_listing (d : SharedDraft) :
    ((d.listing sp).map Prod.fst).Sublist sharedNames := by
  rw [SharedDraft.listing, List.map_append]
  exact names_given.append names_given

theorem ProgramDraft.names_listing (d : ProgramDraft) :
    ((d.listing sp).map Prod.fst).Sublist programNames := by
  rw [ProgramDraft.listing, List.map_append]
  exact names_given.append names_given

theorem NotifierDraft.names_listing (d : NotifierDraft) :
    ((d.listing sp).map Prod.fst).Sublist notifierNames := by
  rw [NotifierDraft.listing, List.map_append, List.map_append, List.map_append]
  exact ((names_given.append names_given).append names_given).append names_given

theorem AuxiliaryDraft.names_listing (d : AuxiliaryDraft) :
    ((d.listing sp).map Prod.fst).Sublist auxiliaryNames := names_given

theorem Draft.names_listing (others : List (String × V)) (d : Draft) :
    ((d.listing sp others).map Prod.fst).Sublist groupNames := by
  rw [Draft.listing, List.map_append, List.map_append, List.map_append]
  exact ((names_given.append names_given).append names_given).append names_given

/-! ## Any order tells the draft -/

variable {dialect : Dialect} {es others : List (String × V)}

theorem SharedDraft.isToldBy_of_perm {d : SharedDraft} (faithful : sp.Faithful node)
    (strange : ∀ e ∈ others, e.1 ∉ sharedNames)
    (whole : ∀ e ∈ others, (node e.2).isWhole = true) (perm : es.Perm (d.listing sp ++ others)) :
    d.IsToldBy dialect (nodesOf node es) where
  whole := by
    rw [allEntriesWhole_iff]
    rintro _ mem
    obtain ⟨e, found, rfl⟩ := List.mem_map.1 mem
    rcases List.mem_append.1 (perm.mem_iff.1 found) with told | other
    · obtain ⟨s, text⟩ : ∃ s, e.2 = sp.text s := by
        rcases List.mem_append.1 told with level | name
        · obtain ⟨l, -, rfl⟩ := mem_given.1 level
          exact ⟨l.name, rfl⟩
        · obtain ⟨s, -, rfl⟩ := mem_given.1 name
          exact ⟨s, rfl⟩
      rw [text, faithful.text]
      rfl
    · exact whole e other
  logLevel := by
    refine tells_of_perm (fun l => sp.text l.name) perm ?_ fun l => ?_
    · have absent : valuesOf "log_level" others = [] :=
        valuesOf_eq_nil fun e mem same => strange e mem (by rw [same]; decide)
      simp [SharedDraft.listing, valuesOf_append, valuesOf_given, absent]
    · rw [faithful.text]
      exact .name
  serviceName := by
    refine tells_of_perm sp.text perm ?_ faithful.text
    have absent : valuesOf "service_name" others = [] :=
      valuesOf_eq_nil fun e mem same => strange e mem (by rw [same]; decide)
    simp [SharedDraft.listing, valuesOf_append, valuesOf_given, absent]

theorem ProgramDraft.isToldBy_of_perm {d : ProgramDraft} (faithful : sp.Faithful node)
    (perm : es.Perm (d.listing sp)) : d.IsToldBy (nodesOf node es) where
  known := areKnown_of_perm perm d.names_listing
  optionalStop := by
    refine tells_of_perm sp.truth perm ?_ faithful.truth
    simp [ProgramDraft.listing, valuesOf_append, valuesOf_given]
  channelDepth := by
    refine tells_of_perm (fun w => sp.number w.toNat) perm ?_ fun w => faithful.number _
    simp [ProgramDraft.listing, valuesOf_append, valuesOf_given]

theorem NotifierDraft.isToldBy_of_perm {d : NotifierDraft} (faithful : sp.Faithful node)
    (perm : es.Perm (d.listing sp)) : d.IsToldBy (nodesOf node es) where
  known := areKnown_of_perm perm d.names_listing
  queueDepth := by
    refine tells_of_perm (fun w => sp.number w.toNat) perm ?_ fun w => faithful.number _
    simp [NotifierDraft.listing, valuesOf_append, valuesOf_given]
  alertAfter := by
    refine tells_of_perm (fun w => sp.number w.toNat) perm ?_ fun w => faithful.number _
    simp [NotifierDraft.listing, valuesOf_append, valuesOf_given]
  firstBackoff := by
    refine tells_of_perm (fun w => sp.number w.toNat) perm ?_ fun w => faithful.number _
    simp [NotifierDraft.listing, valuesOf_append, valuesOf_given]
  output := by
    refine tells_of_perm sp.text perm ?_ faithful.text
    simp [NotifierDraft.listing, valuesOf_append, valuesOf_given]

theorem AuxiliaryDraft.isToldBy_of_perm {d : AuxiliaryDraft} (faithful : sp.Faithful node)
    (perm : es.Perm (d.listing sp)) : d.IsToldBy (nodesOf node es) where
  known := areKnown_of_perm perm d.names_listing
  outputs := by
    refine tells_of_perm sp.texts perm ?_ faithful.texts
    simp [AuxiliaryDraft.listing, valuesOf_given]

theorem Rearranged.perm_names {gs hs : List (String × List (String × V))}
    (re : Rearranged gs hs) : (gs.map Prod.fst).Perm (hs.map Prod.fst) := by
  obtain ⟨ms, perm, each⟩ := re
  have same : ms.map Prod.fst = hs.map Prod.fst := by
    clear perm
    induction each with
    | nil => rfl
    | cons both _ ih => rw [List.map_cons, List.map_cons, both.1, ih]
  exact same ▸ perm.map Prod.fst

theorem Draft.isToldBy_of_rearranged {d : Draft} {gs : List (String × List (String × V))}
    (faithful : sp.Faithful node) (strange : ∀ e ∈ others, e.1 ∉ sharedNames)
    (whole : ∀ e ∈ others, (node e.2).isWhole = true) (re : Rearranged gs (d.listing sp others)) :
    d.IsToldBy dialect (tablesOf node gs) where
  known := areKnown_nodesOf (List.Subset.trans re.perm_names.subset (d.names_listing others).subset)
  shared := by
    refine tells_of_rearranged re ?_ fun _ _ => SharedDraft.isToldBy_of_perm faithful strange whole
    simp [Draft.listing, valuesOf_append, valuesOf_given]
  program := by
    refine tells_of_rearranged re ?_ fun _ _ => ProgramDraft.isToldBy_of_perm faithful
    simp [Draft.listing, valuesOf_append, valuesOf_given]
  notifier := by
    refine tells_of_rearranged re ?_ fun _ _ => NotifierDraft.isToldBy_of_perm faithful
    simp [Draft.listing, valuesOf_append, valuesOf_given]
  auxiliary := by
    refine tells_of_rearranged re ?_ fun _ _ => AuxiliaryDraft.isToldBy_of_perm faithful
    simp [Draft.listing, valuesOf_append, valuesOf_given]

end

/-! ## JSON -/

/-- Values in JSON. -/
def Spelling.json : Spelling Json.Value where
  truth := .bool
  number := .ofNat
  text := .ofString
  texts ss := .array (ss.map .ofString)

/-- A document with a member for each group. -/
def jsonOf (gs : List (String × List (String × Json.Value))) : Json.Value :=
  .record (gs.map fun g => (g.1, .record g.2))

theorem faithful_json : Spelling.json.Faithful Node.ofJson where
  truth _ := rfl
  number n := by
    show Node.ofJson (.number (.ofNat n)) = _
    rw [Node.ofJson, Json.Numeral.nat?, Json.Numeral.ofNat]
    simp
  text _ := rfl
  texts ss := by
    show Node.list (itemsOfJson (ss.map .ofString)) = _
    congr 1
    induction ss with
    | nil => rfl
    | cons s ss ih => rw [List.map_cons, itemsOfJson, ih]; rfl

mutual
theorem isWhole_ofJson : ∀ v : Json.Value, (Node.ofJson v).isWhole = true
  | .null | .bool _ | .string (some _) | .string none => rfl
  | .number n => by
    rw [Node.ofJson]
    split <;> rfl
  | .array items => allWhole_ofJson items
  | .object members => by
    rw [Node.ofJson]
    split
    · next entries found => exact allEntriesWhole_ofJson members entries found
    · rfl

theorem allWhole_ofJson : ∀ vs : List Json.Value, allWhole (itemsOfJson vs) = true
  | [] => rfl
  | v :: vs => by rw [itemsOfJson, allWhole, isWhole_ofJson v, allWhole_ofJson vs]; rfl

theorem allEntriesWhole_ofJson : ∀ (ms : List (Option String × Json.Value))
    (entries : List (String × Node)), membersOfJson ms = some entries →
    allEntriesWhole entries = true
  | [], _, found => by cases found; rfl
  | (some k, v) :: ms, _, found => by
    obtain ⟨entries, rest, rfl⟩ := Option.map_eq_some_iff.1 found
    rw [allEntriesWhole, isWhole_ofJson v, allEntriesWhole_ofJson ms entries rest]
    rfl
  | (none, _) :: _, _, found => nomatch found
end

/-- A name that is no text spoils its object, and nothing else does. -/
theorem membersOfJson_eq_none_iff {ms : List (Option String × Json.Value)} :
    membersOfJson ms = none ↔ none ∈ ms.map Prod.fst := by
  induction ms with
  | nil => simp [membersOfJson]
  | cons m ms ih =>
    obtain ⟨_ | k, v⟩ := m
    · simp [membersOfJson]
    · simp only [membersOfJson, Option.map_eq_none_iff, ih]
      simp

theorem membersOfJson_texts (ms : List (String × Json.Value)) :
    membersOfJson (ms.map fun m => (some m.1, m.2)) = some (nodesOf Node.ofJson ms) := by
  induction ms with
  | nil => rfl
  | cons m ms ih => rw [List.map_cons, membersOfJson, ih]; rfl

theorem ofJson_record (ms : List (String × Json.Value)) :
    Node.ofJson (.record ms) = .table (nodesOf Node.ofJson ms) := by
  rw [Json.Value.record, Node.ofJson, membersOfJson_texts]

theorem ofJson_jsonOf (gs : List (String × List (String × Json.Value))) :
    Node.ofJson (jsonOf gs) = .table (tablesOf Node.ofJson gs) := by
  rw [jsonOf, ofJson_record, nodesOf, List.map_map]
  congr 1
  exact List.map_congr_left fun g _ => by rw [Function.comp_apply, ofJson_record]

theorem ofJson?_jsonOf {d : Draft} {gs : List (String × List (String × Json.Value))}
    {others : List (String × Json.Value)} (strange : ∀ e ∈ others, e.1 ∉ sharedNames)
    (re : Rearranged gs (d.listing .json others)) :
    ofJson? (jsonOf gs) = some (d.replacing {}) := by
  have told : d.IsToldBy .json (tablesOf Node.ofJson gs) :=
    Draft.isToldBy_of_rearranged faithful_json strange (fun e _ => isWhole_ofJson e.2) re
  rw [ofJson?, ofJson_jsonOf]
  exact ofNode?_table_iff.2 ⟨d, told, rfl⟩

/-! ## TOML -/

/-- Values in TOML text, with what they are read as. -/
def Spelling.toml : Spelling (List Char × Toml.Value) where
  truth b := (writtenBool b, .truth b)
  number n := (writtenNat n, .integer n)
  text s := (quoted s.toList, .text s)
  texts ss := (writtenTexts ss, .array (ss.map .text))

def nodeOfToml (v : List Char × Toml.Value) : Node := .ofToml v.2

theorem faithful_toml : Spelling.toml.Faithful nodeOfToml where
  truth _ := rfl
  number _ := rfl
  text _ := rfl
  texts ss := by
    show Node.list (itemsOfToml (ss.map .text)) = _
    congr 1
    induction ss with
    | nil => rfl
    | cons s ss ih => rw [List.map_cons, itemsOfToml, ih]; rfl

/-- The text of a document with a table for each group. -/
def tomlOf (gs : List (String × List (String × List Char × Toml.Value))) : List Char :=
  "\n".toList.intercalate (gs.map fun g => writtenTable g.1 (g.2.map fun e => (e.1, e.2.1)))

/-- The values of the same document. -/
def valuesOfToml (gs : List (String × List (String × List Char × Toml.Value))) :
    List (String × List (String × Toml.Value)) :=
  gs.map fun g => (g.1, g.2.map fun e => (e.1, e.2.2))

/-- An entry whose text is read as its value. -/
def IsReadable (e : String × List Char × Toml.Value) : Prop := Renders (e.1, e.2.1) (e.1, e.2.2)

theorem read?_tomlOf {gs : List (String × List (String × List Char × Toml.Value))}
    (bare : ∀ g ∈ gs, IsBareKey g.1) (readable : ∀ g ∈ gs, ∀ e ∈ g.2, IsReadable e)
    (groups : (gs.map Prod.fst).Nodup) (keys : ∀ g ∈ gs, (g.2.map Prod.fst).Nodup) :
    Toml.read? (tomlOf gs) = some ((valuesOfToml gs).map fun t => (t.1, .table t.2)) := by
  have renders : List.Forall₂ RendersGroup
      (gs.map fun g => (g.1, g.2.map fun e => (e.1, e.2.1))) (valuesOfToml gs) := by
    rw [valuesOfToml, List.forall₂_map_left_iff, List.forall₂_map_right_iff, List.forall₂_same]
    refine fun g mem => ⟨rfl, bare g mem, ?_⟩
    rw [List.forall₂_map_left_iff, List.forall₂_map_right_iff, List.forall₂_same]
    exact readable g mem
  have reads := readsLines_tables renders
  rw [List.map_map] at reads
  refine read?_of_readsLines reads ?_ ?_ ?_
  · cases gs with
    | nil => exact nofun
    | cons g gs =>
      obtain ⟨t, cons⟩ : ∃ t, tomlOf (g :: gs) = '[' :: t := by
        cases gs with
        | nil => exact ⟨_, rfl⟩
        | cons => exact ⟨_, rfl⟩
      show (tomlOf (g :: gs)).head? ≠ _
      rw [cons]
      exact (by decide : some '[' ≠ some '\ufeff')
  · rw [valuesOfToml, List.map_map]
    exact groups
  · intro t mem
    obtain ⟨g, found, rfl⟩ := List.mem_map.1 mem
    rw [List.map_map]
    exact keys g found

theorem entriesOfToml_eq_nodesOf (es : List (String × Toml.Value)) :
    entriesOfToml es = nodesOf .ofToml es := by
  induction es with
  | nil => rfl
  | cons e es ih => rw [entriesOfToml, ih]; rfl

theorem entriesOfToml_valuesOfToml (gs : List (String × List (String × List Char × Toml.Value))) :
    entriesOfToml ((valuesOfToml gs).map fun t => (t.1, .table t.2)) = tablesOf nodeOfToml gs := by
  rw [entriesOfToml_eq_nodesOf, valuesOfToml, nodesOf, List.map_map, List.map_map]
  refine List.map_congr_left fun g _ => ?_
  show (g.1, Node.table (entriesOfToml _)) = _
  rw [entriesOfToml_eq_nodesOf, nodesOf, List.map_map]
  rfl

theorem isReadable_given {α : Type} {name : String} {make : α → List Char × Toml.Value}
    {a? : Option α} (bare : IsBareKey name)
    (readable : ∀ a, IsBareKey name → IsReadable (name, make a)) :
    ∀ e ∈ given name make a?, IsReadable e := by
  intro e mem
  obtain ⟨a, -, rfl⟩ := mem_given.1 mem
  exact readable a bare

theorem SharedDraft.isReadable_listing (d : SharedDraft) :
    ∀ e ∈ d.listing .toml, IsReadable e :=
  List.forall_mem_append.2
    ⟨isReadable_given (by decide) fun _ bare => renders_text bare _,
      isReadable_given (by decide) fun _ bare => renders_text bare _⟩

theorem ProgramDraft.isReadable_listing (d : ProgramDraft) :
    ∀ e ∈ d.listing .toml, IsReadable e :=
  List.forall_mem_append.2
    ⟨isReadable_given (by decide) fun _ bare => renders_truth bare _,
      isReadable_given (by decide) fun w bare => renders_number bare w.toNat_lt⟩

theorem NotifierDraft.isReadable_listing (d : NotifierDraft) :
    ∀ e ∈ d.listing .toml, IsReadable e :=
  List.forall_mem_append.2 ⟨List.forall_mem_append.2 ⟨List.forall_mem_append.2
    ⟨isReadable_given (by decide) fun w bare => renders_number bare w.toNat_lt,
      isReadable_given (by decide) fun w bare => renders_number bare (toNat_lt_word w)⟩,
      isReadable_given (by decide) fun w bare => renders_number bare w.toNat_lt⟩,
      isReadable_given (by decide) fun _ bare => renders_text bare _⟩

theorem AuxiliaryDraft.isReadable_listing (d : AuxiliaryDraft) :
    ∀ e ∈ d.listing .toml, IsReadable e :=
  isReadable_given (by decide) fun _ bare => renders_texts bare _

/-- Entries that nobody knows, as they may stand among the shared settings. -/
structure AreOthers (others : List (String × List Char × Toml.Value)) : Prop where
  strange : ∀ e ∈ others, e.1 ∉ sharedNames
  distinct : (others.map Prod.fst).Nodup
  readable : ∀ e ∈ others, IsReadable e
  /-- there is no number without a value -/
  whole : ∀ e ∈ others, (nodeOfToml e.2).isWhole = true

theorem areOthers_nil : AreOthers [] := ⟨nofun, List.nodup_nil, nofun, nofun⟩

/-- A group with entries that are read, each under a name of its own. -/
structure IsReadableGroup (g : String × List (String × List Char × Toml.Value)) : Prop where
  bare : IsBareKey g.1
  readable : ∀ e ∈ g.2, IsReadable e
  keys : (g.2.map Prod.fst).Nodup

theorem isReadableGroup_given {δ : Type} {name : String}
    {listing : δ → List (String × List Char × Toml.Value)} {d? : Option δ} (bare : IsBareKey name)
    (readable : ∀ d, ∀ e ∈ listing d, IsReadable e)
    (keys : ∀ d, ((listing d).map Prod.fst).Nodup) :
    ∀ g ∈ given name listing d?, IsReadableGroup g := by
  intro g mem
  obtain ⟨d, -, rfl⟩ := mem_given.1 mem
  exact ⟨bare, readable d, keys d⟩

theorem Draft.isReadableGroup_listing {d : Draft}
    {others : List (String × List Char × Toml.Value)} (unknown : AreOthers others) :
    ∀ g ∈ d.listing .toml others, IsReadableGroup g := by
  have shared : ∀ g ∈ given "shared" (fun s => s.listing .toml ++ others) d.shared,
      IsReadableGroup g := by
    refine isReadableGroup_given (by decide)
      (fun s => List.forall_mem_append.2 ⟨s.isReadable_listing, unknown.readable⟩) fun s => ?_
    rw [List.map_append, List.nodup_append]
    refine ⟨s.names_listing.nodup (by decide), unknown.distinct, ?_⟩
    rintro name known _ other rfl
    obtain ⟨e, mem, rfl⟩ := List.mem_map.1 other
    exact unknown.strange e mem (s.names_listing.subset known)
  have program : ∀ g ∈ given "program" (·.listing .toml) d.program, IsReadableGroup g :=
    isReadableGroup_given (by decide) (·.isReadable_listing) (·.names_listing.nodup (by decide))
  have notifier : ∀ g ∈ given "notifier" (·.listing .toml) d.notifier, IsReadableGroup g :=
    isReadableGroup_given (by decide) (·.isReadable_listing) (·.names_listing.nodup (by decide))
  have auxiliary : ∀ g ∈ given "auxiliary" (·.listing .toml) d.auxiliary, IsReadableGroup g :=
    isReadableGroup_given (by decide) (·.isReadable_listing) (·.names_listing.nodup (by decide))
  simp only [Draft.listing, List.forall_mem_append]
  exact ⟨⟨⟨shared, program⟩, notifier⟩, auxiliary⟩

theorem Rearranged.exists_mem {V : Type} {gs hs : List (String × List (String × V))}
    (re : Rearranged gs hs) {g : String × List (String × V)} (mem : g ∈ gs) :
    ∃ h ∈ hs, g.1 = h.1 ∧ g.2.Perm h.2 := by
  obtain ⟨ms, perm, each⟩ := re
  replace mem := perm.mem_iff.1 mem
  clear perm
  induction each with
  | nil => cases mem
  | cons both _ ih =>
    rcases List.mem_cons.1 mem with rfl | mem
    · exact ⟨_, List.mem_cons_self, both⟩
    · obtain ⟨h, found, both⟩ := ih mem
      exact ⟨h, List.mem_cons_of_mem _ found, both⟩

theorem Rearranged.isReadableGroup {gs hs : List (String × List (String × List Char × Toml.Value))}
    (re : Rearranged gs hs) (readable : ∀ h ∈ hs, IsReadableGroup h) :
    ∀ g ∈ gs, IsReadableGroup g := by
  intro g mem
  obtain ⟨h, found, name, perm⟩ := re.exists_mem mem
  obtain ⟨bare, entries, keys⟩ := readable h found
  exact ⟨name ▸ bare, fun e mem => entries e (perm.mem_iff.1 mem),
    (perm.map Prod.fst).nodup_iff.2 keys⟩

theorem ofToml?_tomlOf {d : Draft} {gs : List (String × List (String × List Char × Toml.Value))}
    {others : List (String × List Char × Toml.Value)} (unknown : AreOthers others)
    (re : Rearranged gs (d.listing .toml others)) :
    ofToml? (tomlOf gs) = some (d.replacing {}) := by
  have readable := re.isReadableGroup (d.isReadableGroup_listing unknown)
  have groups : (gs.map Prod.fst).Nodup :=
    re.perm_names.nodup_iff.2 ((d.names_listing others).nodup (by decide))
  have read := read?_tomlOf (fun g mem => (readable g mem).bare)
    (fun g mem => (readable g mem).readable) groups fun g mem => (readable g mem).keys
  have told : d.IsToldBy .toml (tablesOf nodeOfToml gs) :=
    Draft.isToldBy_of_rearranged faithful_toml unknown.strange unknown.whole re
  rw [ofToml?, read, Option.bind_eq_bind, Option.bind_some, entriesOfToml_valuesOfToml]
  exact ofNode?_table_iff.2 ⟨d, told, rfl⟩

/-! ## Documents and drafts -/

theorem parse_eq_ok_iff {s : String} {settings : Settings} :
    parse s = .ok settings ↔ ∃ entries d, Toml.read? s.toList = some entries ∧
      Draft.IsToldBy .toml d (entriesOfToml entries) ∧ settings = d.replacing {} := by
  have ok : parse s = .ok settings ↔ ofToml? s.toList = some settings := by
    rw [parse]
    split <;> simp [*]
  rw [ok, ofToml?, Option.bind_eq_bind, Option.bind_eq_some_iff]
  simp only [ofNode?_table_iff, exists_and_left]

theorem parse_eq_error {s : String} (none : ∀ settings, parse s ≠ .ok settings) :
    ∃ reason, parse s = .error (.unreadable reason) := by
  rw [parse] at none ⊢
  split at none
  · exact absurd rfl (none _)
  · exact ⟨_, rfl⟩

theorem parse_tomlOf {d : Draft} {others : List (String × List Char × Toml.Value)}
    {gs : List (String × List (String × List Char × Toml.Value))} (unknown : AreOthers others)
    (re : Rearranged gs (d.listing .toml others)) :
    parse (String.ofList (tomlOf gs)) = .ok (d.replacing {}) := by
  rw [parse, String.toList_ofList, ofToml?_tomlOf unknown re]

theorem parse_of_flaw {s : String}
    (flaw : ∀ entries, Toml.read? s.toList = some entries → Flaw .toml (entriesOfToml entries)) :
    ∃ reason, parse s = .error (.unreadable reason) := by
  refine parse_eq_error fun settings ok => ?_
  obtain ⟨entries, d, read, told, -⟩ := parse_eq_ok_iff.1 ok
  exact told.not_flaw (flaw entries read)

theorem ofJson?_of_flaw {members : List (Option String × Json.Value)}
    (flaw : ∀ entries, membersOfJson members = some entries → Flaw .json entries) :
    ofJson? (.object members) = none := by
  rw [ofJson?, Node.ofJson]
  split
  · next entries found => exact ofNode?_of_flaw (flaw entries found)
  · rfl

/-- **A document is read if it tells a draft, as the standard settings with the draft's own in their
places**, in TOML as in JSON.  Every draft is told by its groups and their entries in any order,
whatever else stands among the shared settings.  A document with a flaw is refused, and so is an
object with a name that is no text. -/
theorem draft_replaces_standard :
    (∀ (s : String) (settings : Settings),
      parse s = .ok settings ↔ ∃ entries d, Toml.read? s.toList = some entries ∧
        Draft.IsToldBy .toml d (entriesOfToml entries) ∧ settings = d.replacing {}) ∧
    (∀ (v : Json.Value) (settings : Settings),
      ofJson? v = some settings ↔
        ∃ d, InGroup .json groupNames (Draft.IsToldBy .json) d (.ofJson v) ∧
          settings = d.replacing {}) ∧
    (∀ (d : Draft) (others : List (String × List Char × Toml.Value))
        (gs : List (String × List (String × List Char × Toml.Value))),
      AreOthers others → Rearranged gs (d.listing .toml others) →
      parse (String.ofList (tomlOf gs)) = .ok (d.replacing {})) ∧
    (∀ (d : Draft) (others : List (String × Json.Value))
        (gs : List (String × List (String × Json.Value))),
      (∀ e ∈ others, e.1 ∉ sharedNames) → Rearranged gs (d.listing .json others) →
      ofJson? (jsonOf gs) = some (d.replacing {})) ∧
    (∀ s : String,
      (∀ entries, Toml.read? s.toList = some entries → Flaw .toml (entriesOfToml entries)) →
      ∃ reason, parse s = .error (.unreadable reason)) ∧
    (∀ members : List (Option String × Json.Value),
      (none ∈ members.map Prod.fst ∨
        ∀ entries, membersOfJson members = some entries → Flaw .json entries) →
      ofJson? (.object members) = none) := by
  refine ⟨fun _ _ => parse_eq_ok_iff, fun v settings => ofNode?_iff (.ofJson v) settings,
    fun _ _ _ unknown re => parse_tomlOf unknown re,
    fun _ _ _ strange re => ofJson?_jsonOf strange re,
    fun _ flaw => parse_of_flaw flaw, ?_⟩
  rintro members (spoilt | flaw)
  · refine ofJson?_of_flaw fun entries found => ?_
    rw [membersOfJson_eq_none_iff.2 spoilt] at found
    cases found
  · exact ofJson?_of_flaw flaw

/-- Nothing is told by an empty document.  Two groups are told in another order than the usual one,
with an entry that nobody knows.  An unknown group is refused, a truth for a number, a number that
is given twice, and a name that is no text. -/
theorem draft_replaces_standard_cell :
    let s : Settings := { shared := { serviceName := "cell 4" },
                          notifier := { queueDepth := 3, output := "log.txt" } }
    let depth (v : Json.Value) : Option String × Json.Value := (some "directive_queue_depth", v)
    let program (ds : List (Option String × Json.Value)) : Option String × Json.Value :=
      (some "program", .object ds)
    parse "" = .ok {} ∧ ofJson? (.object []) = some {} ∧
      parse ("[notifier]\noutput = \"log.txt\"\nqueue_depth = 3\n\n" ++
        "[shared]\nsite = \"hall 2\"\nservice_name = \"cell 4\"\n") = .ok s ∧
      ofJson? (jsonOf
        [("notifier", [("output", .ofString "log.txt"), ("queue_depth", .ofNat 3)]),
         ("shared", [("site", .null), ("service_name", .ofString "cell 4")])]) = some s ∧
      (∃ reason, parse "[tooling]\n" = .error (.unreadable reason)) ∧
      ofJson? (.object [program [depth (.bool true)]]) = none ∧
      ofJson? (.object [program [depth (.ofNat 4), depth (.bool true)]]) = none ∧
      ofJson? (.object [(none, .ofNat 1)]) = none := by
  obtain ⟨toml, json, anyToml, anyJson, flawedToml, flawedJson⟩ := draft_replaces_standard
  have nothing (dialect : Dialect) : ({} : Draft).IsToldBy dialect [] :=
    ⟨List.forall_mem_nil _, .missing rfl, .missing rfl, .missing rfl, .missing rfl⟩
  let d : Draft := { shared := some { serviceName := "cell 4" },
                     notifier := some { queueDepth := some 3, output := some "log.txt" } }
  -- the groups are swapped, and in each of them the two entries
  have swapped {V : Type} (sp : Spelling V) (site : V) : Rearranged
      [("notifier", [("output", sp.text "log.txt"), ("queue_depth", sp.number 3)]),
       ("shared", [("site", site), ("service_name", sp.text "cell 4")])]
      (d.listing sp [("site", site)]) :=
    ⟨[("shared", [("site", site), ("service_name", sp.text "cell 4")]),
      ("notifier", [("output", sp.text "log.txt"), ("queue_depth", sp.number 3)])],
      .swap .., .cons ⟨rfl, .swap ..⟩ (.cons ⟨rfl, .swap ..⟩ .nil)⟩
  have site : AreOthers [("site", Spelling.toml.text "hall 2")] :=
    ⟨by simp [sharedNames], by decide,
      List.forall_mem_singleton.2 (renders_text (by decide : IsBareKey "site") "hall 2"),
      List.forall_mem_singleton.2 rfl⟩
  have text := anyToml d _ _ site (swapped .toml _)
  have tooling : Toml.read? "[tooling]\n".toList = some [("tooling", .table [])] :=
    @read?_tomlOf [("tooling", [])] (List.forall_mem_singleton.2 (by decide))
      (List.forall_mem_singleton.2 (List.forall_mem_nil _)) (by decide)
      (List.forall_mem_singleton.2 (by decide))
  -- the group of the program has the flaw, whatever it is
  have flawed (ds : List (String × Node))
      (flaw : GroupFlaw "program" programNames ds) : Flaw .json [("program", .table ds)] :=
    .group (by simp [settingNames]) List.mem_cons_self .table flaw
  refine ⟨(toml "" {}).2 ⟨[], {}, rfl, nothing .toml, rfl⟩,
    (json (.object []) {}).2 ⟨{}, ⟨[], .table, nothing .json⟩, rfl⟩, ?_,
    anyJson d [("site", .null)] _ (by simp [sharedNames]) (swapped .json .null), ?_, ?_, ?_,
    flawedJson _ (.inl List.mem_cons_self)⟩
  · refine Eq.trans (congrArg parse ?_) text
    rw [← String.toList_inj, String.toList_ofList]
    decide +kernel
  · refine flawedToml _ fun entries read => .unknown fun known => ?_
    rw [tooling] at read
    cases read
    exact absurd (known _ List.mem_cons_self) (by decide)
  · refine flawedJson _ (.inr fun entries found => ?_)
    cases found
    have number : ¬ (Kind.number UInt64.size).Has (.truth true) := by
      rintro ⟨m, -, same⟩
      cases same
    exact flawed _ (.unfit (by simp [kinds]) List.mem_cons_self number)
  · refine flawedJson _ (.inr fun entries found => ?_)
    cases found
    exact flawed _ (.repeated (List.mem_cons_of_mem _ List.mem_cons_self) (by decide))

/-! ## Settings written as text are read back

The written form of settings is a document that tells all of them, in the usual order. -/

/-- The draft in which nothing is missing. -/
def Draft.ofSettings (s : Settings) : Draft where
  shared := some { logLevel := some s.shared.logLevel, serviceName := s.shared.serviceName }
  program := some { optionalStop := some s.program.optionalStop,
                    channelDepth := some s.program.channelDepth }
  notifier := some { queueDepth := some s.notifier.queueDepth,
                     alertAfter := some s.notifier.alertAfter,
                     firstBackoff := some s.notifier.firstBackoff,
                     output := some s.notifier.output }
  auxiliary := some { outputs := some s.auxiliary.outputs }

theorem ofToml?_toToml (s : Settings) : ofToml? s.toToml = some s := by
  have text : s.toToml = tomlOf ((Draft.ofSettings s).listing .toml []) := rfl
  rw [text]
  exact ofToml?_tomlOf areOthers_nil (.refl _)

/-- Settings written as text and read back are the same settings, valid or not.  With validation
they are read if they are valid, and refused with what is wrong with them if they are not. -/
theorem parse_toToml (s : Settings) :
    parse (String.ofList s.toToml) = .ok s ∧
      parseValidated (String.ofList s.toToml) = s.validate.map fun _ => s := by
  have read : parse (String.ofList s.toToml) = .ok s := by
    rw [parse, String.toList_ofList, ofToml?_toToml]
  refine ⟨read, ?_⟩
  rw [parseValidated, read]
  show s.validated = _
  rw [validated]
  cases s.validate <;> rfl

end ProgramControl.Settings
