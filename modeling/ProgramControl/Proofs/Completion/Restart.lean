import ProgramControl.Proofs.Completion.Lines

/-!
# An output that outlives its owner

Completions are appended to an output that may hold something already: what an earlier owner wrote
before the machine was switched off.  A new owner takes the output to be whole and does not look
whether it ends within a line.  It knows what it wrote itself, and repairs only that.

* `Stint`, `Stint.outputAfter`   what one owner delivers, and what the output holds after several
                                 owners, one after the other;
* `linesOf_goesOn`               what is written next goes on with the last line;
* `Stint.stands_iff`             a delivery that was accepted stands on a line of its own just if
                                 its owner started on a fresh line or had written something before;
* `Stint.fragment_takes_a_record`   otherwise it may be lost.
-/

namespace ProgramControl

/-- What one owner of an output does, from its start to its end: the answers it gets and the
envelopes it delivers. -/
structure Stint where
  writes : List WriteAnswer := []
  flushes : List (Option String) := []
  envelopes : List Envelope := []
  deriving DecidableEq, Repr

namespace Stint

open LineOutput

/-- A new owner has written nothing and takes the output to be whole. -/
def start (i : Stint) : LineOutput := { output := { writes := i.writes, flushes := i.flushes } }

/-- What an owner appends. -/
def written (i : Stint) : List Char := (i.start.deliverAll i.envelopes).output.written

/-- What an output holds after some owners, if it held `s` before. -/
def outputAfter (s : List Char) (stints : List Stint) : List Char :=
  s ++ (stints.map written).flatten

variable {e : Envelope} {i : Stint}

theorem intact_start (i : Stint) : i.start.Intact :=
  iff_of_false Bool.false_ne_true (not_not_intro (.inl rfl))

end Stint

/-! ## The last line of a text -/

section

variable {s t : List Char}

theorem atLineStart_append (some : t ≠ []) : AtLineStart (s ++ t) ↔ AtLineStart t := by
  obtain ⟨c, last⟩ := Option.ne_none_iff_exists'.1 (mt List.getLast?_eq_none_iff.1 some)
  obtain ⟨front, rfl⟩ := List.getLast?_eq_some_iff.1 last
  rw [← List.append_assoc, atLineStart_concat, atLineStart_concat]

theorem length_linesOf (s : List Char) : (linesOf s).length = s.count '\n' + 1 := by
  induction s with
  | nil => rfl
  | cons c s ih =>
    by_cases lineEnd : c = '\n'
    · subst lineEnd
      rw [linesOf, List.length_cons, ih, List.count_cons_self]
    · obtain ⟨l, ls, rest⟩ := linesOf_eq_cons s
      rw [linesOf_cons lineEnd rest, List.count_cons_of_ne lineEnd, ← ih, rest]
      rfl

theorem exists_lastLine (s : List Char) :
    ∃ front line, s = front ++ line ∧ AtLineStart front ∧ '\n' ∉ line := by
  induction s with
  | nil => exact ⟨[], [], rfl, .inl rfl, List.not_mem_nil⟩
  | cons c s ih =>
    obtain ⟨front, line, rfl, start, visible⟩ := ih
    cases front with
    | cons d front =>
      have start' : AtLineStart ([c] ++ d :: front) :=
        (atLineStart_append (List.cons_ne_nil d front)).2 start
      exact ⟨c :: d :: front, line, rfl, start', visible⟩
    | nil =>
      by_cases lineEnd : c = '\n'
      · subst lineEnd
        exact ⟨['\n'], line, rfl, .inr rfl, visible⟩
      · exact ⟨[], c :: line, rfl, .inl rfl,
          List.not_mem_cons_of_ne_of_not_mem (Ne.symm lineEnd) visible⟩

theorem linesOf_atLineStart (start : AtLineStart s) :
    ∃ front, ∀ t, linesOf (s ++ t) = front ++ linesOf t := by
  rcases start with rfl | lineEnd
  · exact ⟨[], fun _ => rfl⟩
  · obtain ⟨s, rfl⟩ := List.getLast?_eq_some_iff.1 lineEnd
    refine ⟨linesOf s, fun t => ?_⟩
    rw [List.append_assoc, List.singleton_append, linesOf_append]

/-- What is written next goes on with the last line, and is a line of its own if that was empty. -/
theorem linesOf_goesOn (text : '\n' ∉ t) (r : List Char) :
    (linesOf (s ++ (t ++ '\n' :: r)))[s.count '\n']? = some t ↔ AtLineStart s := by
  obtain ⟨before, line, rfl, start, visible⟩ := exists_lastLine s
  obtain ⟨front, lines⟩ := linesOf_atLineStart start
  have atLine : (before ++ line).count '\n' = front.length := by
    have length := length_linesOf (before ++ line)
    rw [lines, linesOf_of_not_mem visible, List.length_append, List.length_singleton] at length
    omega
  have fresh : '\n' ∉ line ++ t := fun mem => (List.mem_append.1 mem).elim visible text
  have found : (linesOf (before ++ line ++ (t ++ '\n' :: r)))[front.length]? =
      some (line ++ t) := by
    rw [List.append_assoc, ← List.append_assoc line, lines, linesOf_append,
      linesOf_of_not_mem fresh, List.getElem?_append_right (Nat.le_refl _), Nat.sub_self]
    rfl
  rw [atLine, found, Option.some.injEq, List.append_left_eq_self]
  refine ⟨fun none => ?_, fun atStart => ?_⟩
  · rw [none, List.append_nil]
    exact start
  · refine Decidable.of_not_not fun some => ?_
    obtain none | last := (atLineStart_append some).1 atStart
    · exact some none
    · exact visible (List.mem_of_getLast? last)

end

namespace LineOutput

variable {l : LineOutput}

theorem deliverAll_append (es es' : List Envelope) (l : LineOutput) :
    l.deliverAll (es ++ es') = (l.deliverAll es).deliverAll es' :=
  List.foldl_append

/-- Nothing that was written is taken back. -/
theorem written_prefix_deliverAll (es : List Envelope) (l : LineOutput) :
    l.output.written <+: (l.deliverAll es).output.written := by
  induction es generalizing l with
  | nil => exact List.prefix_rfl
  | cons e es ih =>
    have first : l.output.written <+: (l.deliver e).2.output.written := by
      rw [(deliver_cases e l).1]
      exact List.prefix_append _ _
    exact first.trans (ih (l.deliver e).2)

/-- The line end that ends a fragment, if there is one. -/
def lead (torn : Bool) : List Char := if torn then ['\n'] else []

/-- Where the text of the next envelope will stand, if the output held `s` before. -/
theorem Intact.atLineStart_lead (intact : l.Intact) (s : List Char) :
    AtLineStart (s ++ (l.output.written ++ lead l.torn)) ↔
      AtLineStart s ∨ l.output.written ≠ [] := by
  by_cases nothing : l.output.written = []
  · have whole : l.torn = false := by
      rw [← Bool.not_eq_true]
      exact fun torn => intact.1 torn (.inl nothing)
    simp [nothing, whole, lead]
  · have start : AtLineStart (l.output.written ++ lead l.torn) := by
      cases torn : l.torn with
      | true => exact atLineStart_concat.2 rfl
      | false =>
        rw [lead, if_neg Bool.false_ne_true, List.append_nil]
        refine Decidable.of_not_not fun middle => ?_
        cases torn.symm.trans (intact.2 middle)
    have more : l.output.written ++ lead l.torn ≠ [] := by simp [nothing]
    exact iff_of_true ((atLineStart_append more).2 start) (.inr nothing)

end LineOutput

namespace Stint

open LineOutput

variable {e : Envelope} {i : Stint}

theorem prefix_written {before after : List Envelope} (split : i.envelopes = before ++ e :: after)
    (ok : ((i.start.deliverAll before).deliver e).1 = .ok ()) :
    (i.start.deliverAll before).output.written ++ lead (i.start.deliverAll before).torn ++
      (e.text ++ ['\n']) <+: i.written := by
  obtain ⟨written, ok_iff, -, -, -⟩ := ((intact_start i).deliverAll before).outcome e
  have later : ((i.start.deliverAll before).deliver e).2.output.written <+: i.written := by
    rw [Stint.written, split, deliverAll_append]
    exact written_prefix_deliverAll after _
  rw [written, (ok_iff.1 ok).1, record] at later
  simpa only [lead, List.append_assoc] using later

/-- One owner follows the other, and one of them has a delivery accepted.  Nobody takes the record
back, and the text is an envelope.  It is a line of its own just if the output did not end within
a line when its owner started, or its owner had written something before. -/
theorem stands_iff (s : List Char) (earlier later : List Stint) {before after : List Envelope}
    (split : i.envelopes = before ++ e :: after) (fits : e.Fits)
    (ok : ((i.start.deliverAll before).deliver e).1 = .ok ()) :
    let found := outputAfter s earlier
    let own := (i.start.deliverAll before).output.written
    let front := found ++ (own ++ lead (i.start.deliverAll before).torn)
    let final := outputAfter s (earlier ++ i :: later)
    front ++ (e.text ++ ['\n']) <+: final ∧
      ((linesOf final)[front.count '\n']? = some e.text ↔ AtLineStart found ∨ own ≠ []) ∧
      Envelope.read? e.text = some e := by
  intro found own front final
  have stands : front ++ (e.text ++ ['\n']) <+: final := by
    have own := (prefix_written split ok).trans
      (List.prefix_append i.written (later.map written).flatten)
    have all : final = found ++ (i.written ++ (later.map written).flatten) := by
      simp only [final, found, outputAfter, List.map_append, List.flatten_append, List.map_cons,
        List.flatten_cons, List.append_assoc]
    rw [all, List.append_assoc found, List.prefix_append_right_inj]
    exact own
  refine ⟨stands, ?_, ?_⟩
  · obtain ⟨rest, final_eq⟩ := stands
    rw [← ((intact_start i).deliverAll before).atLineStart_lead found,
      ← linesOf_goesOn e.newline_not_mem rest, ← final_eq]
    simp only [List.append_assoc, List.singleton_append, front, own]
  · rw [Envelope.read?_of_prefix fits List.prefix_rfl, if_pos rfl]

/-- The first owner is cut short within its record, and the second delivers two envelopes. -/
theorem stands_second :
    let e : Envelope := ⟨1, 1, ⟨false⟩⟩
    let next : Envelope := ⟨2, 2, ⟨true⟩⟩
    let first : Stint := { writes := [.accepts 10, .fails "full"], envelopes := [e] }
    let second : Stint := { envelopes := [e, next] }
    let final := outputAfter [] [first, second]
    (linesOf final)[0]? ≠ some e.text ∧ (linesOf final)[1]? = some next.text := by
  intro e next first second final
  have split : second.envelopes = [] ++ e :: [next] := rfl
  have split' : second.envelopes = [e] ++ next :: [] := rfl
  have lost := (stands_iff [] [first] [] split (by decide) rfl).2.1
  have stands := (stands_iff [] [first] [] split' (by decide) rfl).2.1
  rw [show List.count '\n' _ = 0 by decide +kernel] at lost
  rw [show List.count '\n' _ = 1 by decide +kernel] at stands
  exact ⟨fun found => absurd (lost.1 found) (by decide +kernel),
    stands.2 (.inr (by decide +kernel))⟩

/-- An accepted delivery is lost to the fragment that an earlier owner left. -/
theorem fragment_takes_a_record :
    let e : Envelope := ⟨1, 1, ⟨false⟩⟩
    let first : Stint := { writes := [.accepts 10, .fails "full"], envelopes := [e] }
    let second : Stint := { envelopes := [e] }
    let final := outputAfter [] [first, second]
    (second.start.deliver e).1 = .ok () ∧ e.text ∉ linesOf final ∧ envelopesIn final = [] :=
  ⟨rfl, by decide +kernel, by decide +kernel⟩

end Stint

end ProgramControl
