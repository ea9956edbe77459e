import Mathlib.Data.List.Forall2
import ProgramControl.Proofs.Toml.DocumentText
import ProgramControl.Settings.Written

/-!
# The written forms of settings are read

Each kind of value has a written form, and the reader undoes the form that was chosen.  Values
under keys of their own make a table, and tables make a document.

* `readsAs_writtenNat`, `readsAs_writtenBool`, `readsAs_writtenTexts`   the kinds of values;
* `Renders`, `renders_number`, …   a value under its name;
* `readsLines_tables`   groups with their values, line by line.
-/

namespace ProgramControl.Settings

open Toml

/-! ## Values -/

theorem readsAs_writtenNat {n : Nat} (word : n < UInt64.size) :
    ReadsAs (writtenNat n) (.integer n) := by
  have digits := areDigits_toDigits n
  refine readsAs_scalar Nat.toDigits_ne_nil (fun c mem => ?_) (date?_of_digits digits)
    (scalar?_toDigits (Nat.lt_trans word (by decide)))
  rw [Char.isAlphanum, digits c mem, Bool.or_true]

theorem readsAs_writtenBool (b : Bool) : ReadsAs (writtenBool b) (.truth b) := by
  cases b with
  | true => exact readsAs_scalar (by decide) (List.all_eq_true.1 (by decide)) (by decide) rfl
  | false => exact readsAs_scalar (by decide) (List.all_eq_true.1 (by decide)) (by decide) rfl

theorem value?_array {rest r : List Char} {vs : List Toml.Value} {fuel : Nat}
    (read : items? fuel 1 rest = some (vs, r)) :
    value? (fuel + 1) 0 ('[' :: rest) = some (.array vs, r) := by
  rw [value?, if_pos (by decide), read]
  rfl

theorem readsAs_oneText (s : String) : ReadsAs (writtenTexts [s]) (.array [.text s]) := by
  intro fuel r enough
  have three : 3 ≤ fuel := by
    rw [writtenTexts, List.length_cons] at enough
    omega
  obtain ⟨fuel, rfl⟩ := Nat.exists_eq_add_of_le' three
  obtain ⟨q, t, cons, quote⟩ := quoted_eq_cons s.toList
  have inside : q ≠ ']' := by
    rcases quote with rfl | rfl <;> decide
  have skips := skipGap?_quoted s.toList (']' :: '\n' :: r)
  have read := value?_quoted s.toList
    (endsText_cons (c := ']') (r := '\n' :: r) (by decide) (by decide)) fuel 1
  have whole : writtenTexts [s] ++ '\n' :: r = '[' :: (quoted s.toList ++ ']' :: '\n' :: r) := by
    rw [writtenTexts, List.cons_append, List.append_assoc]
    rfl
  rw [String.ofList_toList] at read
  rw [whole]
  rw [cons] at skips read ⊢
  exact value?_array (items?_last skips inside read)

theorem readsAs_severalTexts (s₁ s₂ : String) (rest : List String) :
    ReadsAs (writtenTexts (s₁ :: s₂ :: rest)) (.array ((s₁ :: s₂ :: rest).map .text)) := by
  generalize several : s₁ :: s₂ :: rest = items
  have written : writtenTexts items = '[' :: '\n' :: (itemLines items ++ [']']) := by
    subst several
    rfl
  intro fuel r enough
  have long : items.length + 3 ≤ fuel := by
    have := length_le_itemLines items
    rw [written, List.length_cons, List.length_cons, List.length_append] at enough
    omega
  obtain ⟨fuel, rfl⟩ := Nat.exists_eq_add_of_le' long
  have read := items?_lines items 1 (fuel + 1) ('\n' :: r)
  have same : items.length + (fuel + 1 + 1) + 1 = fuel + (items.length + 3) := by omega
  rw [written, List.cons_append, List.cons_append, List.append_assoc, ← same]
  exact value?_array read

/-- A list of texts between brackets, each on a line if there are several. -/
theorem readsAs_writtenTexts (items : List String) :
    ReadsAs (writtenTexts items) (.array (items.map .text)) := by
  match items with
  | [] =>
    intro fuel r enough
    have two : 2 ≤ fuel := Nat.le_trans (Nat.le_add_left ..) enough
    obtain ⟨fuel, rfl⟩ := Nat.exists_eq_add_of_le' two
    exact value?_array (items?_close 1 fuel _)
  | [s] => exact readsAs_oneText s
  | s₁ :: s₂ :: rest => exact readsAs_severalTexts s₁ s₂ rest

theorem startsVisibly_quoted (s : List Char) : StartsVisibly (quoted s) := by
  obtain ⟨q, t, cons, rfl | rfl⟩ := quoted_eq_cons s
  · exact ⟨_, _, cons, by decide⟩
  · exact ⟨_, _, cons, by decide⟩

theorem startsVisibly_writtenNat (n : Nat) : StartsVisibly (writtenNat n) := by
  obtain ⟨d, ds, cons⟩ := List.exists_cons_of_ne_nil (Nat.toDigits_ne_nil (n := n) (b := 10))
  have digit := areDigits_toDigits n d (cons ▸ List.mem_cons_self)
  refine ⟨d, ds, cons, ?_⟩
  simp only [isSpace, Bool.or_eq_false_iff, beq_eq_false_iff_ne]
  exact ⟨ne_of_class digit (by decide), ne_of_class digit (by decide)⟩

theorem startsVisibly_writtenBool (b : Bool) : StartsVisibly (writtenBool b) := by
  cases b with
  | true => exact ⟨_, _, rfl, by decide⟩
  | false => exact ⟨_, _, rfl, by decide⟩

theorem startsVisibly_writtenTexts (items : List String) : StartsVisibly (writtenTexts items) := by
  match items with
  | [] => exact ⟨_, _, rfl, by decide⟩
  | [_] => exact ⟨_, _, rfl, by decide⟩
  | _ :: _ :: _ => exact ⟨_, _, rfl, by decide⟩

/-! ## Groups -/

/-- A setting's name and written form, with the value that it is read as. -/
structure Renders (e : String × List Char) (w : String × Toml.Value) : Prop where
  name : e.1 = w.1
  bare : IsBareKey e.1
  visible : StartsVisibly e.2
  reads : ReadsAs e.2 w.2

section

variable {name : String}

theorem renders_text (bare : IsBareKey name) (v : String) :
    Renders (name, quoted v.toList) (name, .text v) :=
  ⟨rfl, bare, startsVisibly_quoted _, readsAs_quoted v⟩

theorem renders_number (bare : IsBareKey name) {n : Nat} (word : n < UInt64.size) :
    Renders (name, writtenNat n) (name, .integer n) :=
  ⟨rfl, bare, startsVisibly_writtenNat n, readsAs_writtenNat word⟩

theorem renders_truth (bare : IsBareKey name) (b : Bool) :
    Renders (name, writtenBool b) (name, .truth b) :=
  ⟨rfl, bare, startsVisibly_writtenBool b, readsAs_writtenBool b⟩

theorem renders_texts (bare : IsBareKey name) (items : List String) :
    Renders (name, writtenTexts items) (name, .array (items.map .text)) :=
  ⟨rfl, bare, startsVisibly_writtenTexts items, readsAs_writtenTexts items⟩

end

theorem toNat_lt_word (n : UInt32) : n.toNat < UInt64.size := Nat.lt_trans n.toNat_lt (by decide)

theorem readsLines_entries {es : List (String × List Char)} {ws : List (String × Toml.Value)}
    (renders : List.Forall₂ Renders es ws) {r : List Char} {lines : List Line}
    (rest : ReadsLines r lines) :
    ReadsLines (es.flatMap (fun e => writtenEntry e.1 e.2) ++ r)
      (ws.map (fun w => .entry [w.1] w.2) ++ lines) := by
  induction renders with
  | nil => exact rest
  | @cons e w es ws first _ ih =>
    rw [List.flatMap_cons, List.append_assoc, List.map_cons, List.cons_append, ← first.name]
    refine .cons (line?_entry first.bare first.visible first.reads _) ?_ ih
    simp only [writtenEntry, List.length_append]
    have : "\n".toList.length = 1 := rfl
    omega

theorem readsLines_table {name : String} (bare : IsBareKey name) {es : List (String × List Char)}
    {ws : List (String × Toml.Value)} (renders : List.Forall₂ Renders es ws) {r : List Char}
    {lines : List Line} (rest : ReadsLines r lines) :
    ReadsLines (writtenTable name es ++ r) (tableLines (name, ws) ++ lines) := by
  rw [writtenTable, List.append_assoc]
  refine .cons (line?_header bare _) ?_ (readsLines_entries renders rest)
  simp only [List.length_append]
  have : "[".toList.length = 1 := rfl
  omega

/-- A group's written form and its values. -/
structure RendersGroup (g : String × List (String × List Char))
    (t : String × List (String × Toml.Value)) : Prop where
  name : g.1 = t.1
  bare : IsBareKey g.1
  entries : List.Forall₂ Renders g.2 t.2

theorem readsLines_tables {gs : List (String × List (String × List Char))}
    {ts : List (String × List (String × Toml.Value))} (renders : List.Forall₂ RendersGroup gs ts) :
    ReadsLines ("\n".toList.intercalate (gs.map fun g => writtenTable g.1 g.2))
      (documentLines ts) := by
  induction renders with
  | nil => exact .nil
  | @cons g t gs ts first rest ih =>
    obtain ⟨name, entries⟩ := g
    obtain ⟨name', values⟩ := t
    obtain ⟨rfl, bare, entries⟩ := first
    cases rest with
    | nil =>
      have table := readsLines_table bare entries .nil
      simpa [documentLines] using table
    | @cons g' t' gs ts first' rest =>
      have blank : ReadsLines ('\n' :: "\n".toList.intercalate
          ((g' :: gs).map fun g => writtenTable g.1 g.2))
          (.blank :: documentLines (t' :: ts)) :=
        .cons (line?_blank _) (Nat.lt_succ_self _) ih
      have table := readsLines_table bare entries blank
      simpa [documentLines] using table

end ProgramControl.Settings
