import ProgramControl.Completion.LineOutput
import ProgramControl.Proofs.Completion.EnvelopeText

/-!
# What a reader finds in a torn output

An output may take a record up to any character and then fail, and it may do so again and again.
The next record starts on a line of its own, and a fragment of a record is no envelope, so a reader
who skips what is none finds the records whose text was taken to its end, and nothing else.

* `Output.GoesOn.ends`     the writing of a record ends unless the output interrupts for ever;
* `LineOutput.Intact`      the output is known to be torn when it is;
* `LineOutput.Intact.envelopesIn_deliver`   what one delivery adds to what the reader finds;
* `LineOutput.Outcome`     what one delivery comes to.
-/

namespace ProgramControl

/-! ## Lines -/

section

variable {s p : List Char} {c : Char} {e : Envelope}

/-- What is written next begins a line. -/
def AtLineStart (s : List Char) : Prop := s = [] ∨ s.getLast? = some '\n'

instance (s : List Char) : Decidable (AtLineStart s) := inferInstanceAs (Decidable (_ ∨ _))

theorem atLineStart_concat : AtLineStart (s ++ [c]) ↔ c = '\n' := by
  simp [AtLineStart]

theorem linesOf_cons (visible : c ≠ '\n') {l : List Char} {ls : List (List Char)}
    (rest : linesOf s = l :: ls) : linesOf (c :: s) = (c :: l) :: ls := by
  rw [linesOf, rest]
  exact visible

theorem linesOf_eq_cons (s : List Char) : ∃ l ls, linesOf s = l :: ls := by
  fun_cases linesOf s with
  | case1 => exact ⟨_, _, rfl⟩
  | case2 => exact ⟨_, _, rfl⟩
  | case3 => exact ⟨_, _, rfl⟩
  | case4 => exact ⟨_, _, rfl⟩

theorem linesOf_append (s t : List Char) : linesOf (s ++ '\n' :: t) = linesOf s ++ linesOf t := by
  induction s with
  | nil => rfl
  | cons c s ih =>
    by_cases lineEnd : c = '\n'
    · subst lineEnd
      rw [List.cons_append, linesOf, ih, linesOf, List.cons_append]
    · obtain ⟨l, ls, rest⟩ := linesOf_eq_cons s
      rw [rest, List.cons_append] at ih
      rw [List.cons_append, linesOf_cons lineEnd ih, linesOf_cons lineEnd rest, List.cons_append]

theorem linesOf_of_not_mem (h : '\n' ∉ s) : linesOf s = [s] := by
  induction s with
  | nil => rfl
  | cons c s ih =>
    obtain ⟨visible, others⟩ := not_or.1 (mt List.mem_cons.2 h)
    exact linesOf_cons (Ne.symm visible) (ih others)

theorem envelopesIn_nil : envelopesIn [] = [] := by decide

theorem envelopesIn_newline (s t : List Char) :
    envelopesIn (s ++ '\n' :: t) = envelopesIn s ++ envelopesIn t := by
  rw [envelopesIn, linesOf_append, List.filterMap_append]
  rfl

theorem envelopesIn_append (start : AtLineStart s) (t : List Char) :
    envelopesIn (s ++ t) = envelopesIn s ++ envelopesIn t := by
  rcases start with rfl | lineEnd
  · rw [envelopesIn_nil, List.nil_append, List.nil_append]
  · obtain ⟨s, rfl⟩ := List.getLast?_eq_some_iff.1 lineEnd
    rw [List.append_assoc, List.singleton_append, envelopesIn_newline, envelopesIn_newline,
      envelopesIn_nil, List.append_nil]

theorem infix_newline : e.text <:+: '\n' :: p ↔ e.text <:+: p := by
  rw [List.infix_cons_iff, or_iff_right]
  intro front
  rcases List.prefix_cons_iff.1 front with none | ⟨t, some, -⟩
  · exact e.text_ne_nil none
  · exact e.newline_not_mem (some ▸ List.mem_cons_self)

theorem envelopesIn_piece [Decidable (e.text <:+: p)] (fits : e.Fits)
    (piece : p <+: e.text ++ ['\n']) :
    envelopesIn p = if e.text <:+: p then [e] else [] := by
  rcases List.prefix_concat_iff.1 piece with rfl | piece
  · have found : envelopesIn e.text = [e] := by
      rw [envelopesIn, linesOf_of_not_mem e.newline_not_mem, List.filterMap_cons,
        Envelope.read?_of_prefix fits List.prefix_rfl, if_pos rfl]
      rfl
    have whole : e.text <:+: e.text ++ ['\n'] := (List.prefix_append _ _).isInfix
    rw [envelopesIn_newline, envelopesIn_nil, found, if_pos whole, List.append_nil]
  · have line : '\n' ∉ p := fun mem => e.newline_not_mem (piece.mem mem)
    rw [envelopesIn, linesOf_of_not_mem line, List.filterMap_cons,
      Envelope.read?_of_prefix fits piece]
    by_cases all : p = e.text
    · rw [if_pos all, if_pos (all ▸ List.infix_rfl)]
      rfl
    · have part : ¬ e.text <:+: p := fun whole => all (whole.eq_of_length_le piece.length_le).symm
      rw [if_neg all, if_neg part]
      rfl

end

/-! ## Writing a record -/

namespace Output

variable {record : List Char}

theorem writeAll_prefix (answers : List WriteAnswer) (record : List Char) :
    (writeAll answers record).1 <+: record := by
  fun_induction writeAll answers record with
  | case1 => exact List.prefix_rfl
  | case2 => exact List.prefix_rfl
  | case3 _ _ _ ih => exact ih
  | case4 => exact List.nil_prefix
  | case5 => exact List.nil_prefix
  | case6 n answers record _ rest ih =>
    have front := (List.prefix_append_right_inj (record.take (n + 1))).2 ih
    rwa [List.take_append_drop] at front

theorem writeAll_failure (answers : List WriteAnswer) (record : List Char) :
    (writeAll answers record).2.1 = none ↔ (writeAll answers record).1 = record := by
  fun_induction writeAll answers record with
  | case1 => exact iff_of_true rfl rfl
  | case2 => exact iff_of_true rfl rfl
  | case3 _ _ _ ih => exact ih
  | case4 _ _ _ more => exact iff_of_false (Option.some_ne_none _) (Ne.symm more)
  | case5 => exact iff_of_false (Option.some_ne_none _) (Ne.symm (List.cons_ne_nil _ _))
  | case6 n answers record _ rest ih =>
    calc rest.2.1 = none
      _ ↔ rest.1 = record.drop (n + 1) := ih
      _ ↔ record.take (n + 1) ++ rest.1 = record.take (n + 1) ++ record.drop (n + 1) :=
        (List.append_right_inj _).symm
      _ ↔ record.take (n + 1) ++ rest.1 = record := by rw [List.take_append_drop]

/-- An output that does not interrupt for ever. -/
def GoesOn (answer : Nat → WriteAnswer) : Prop := ∀ i, ∃ j, i ≤ j ∧ answer j ≠ .interrupted

theorem GoesOn.later {answer : Nat → WriteAnswer} (h : GoesOn answer) :
    GoesOn fun i => answer (i + 1) := by
  intro i
  obtain ⟨j, later, other⟩ := h (i + 1)
  obtain ⟨j, rfl⟩ := Nat.exists_eq_add_of_le' (Nat.le_trans (Nat.le_add_left 1 i) later)
  exact ⟨j, Nat.le_of_succ_le_succ later, other⟩

/-- Some of the answers decide what is accepted of a record, and those behind them are not asked
for. -/
def Ends (answer : Nat → WriteAnswer) (record : List Char) : Prop :=
  ∃ n accepted failure, ∀ more,
    writeAll ((List.range n).map answer ++ more) record = (accepted, failure, more)

variable {answer : Nat → WriteAnswer} {record : List Char}

theorem Ends.nil (answer : Nat → WriteAnswer) : Ends answer [] :=
  ⟨0, [], none, fun more => by cases more <;> rfl⟩

theorem Ends.fail (text : String)
    (first : ∀ answers, writeAll (answer 0 :: answers) record = ([], some text, answers)) :
    Ends answer record :=
  ⟨1, [], some text, first⟩

/-- The first answer takes a piece of the record, and the others decide about the rest. -/
theorem Ends.step {p rest : List Char}
    (first : ∀ answers, writeAll (answer 0 :: answers) record =
      (p ++ (writeAll answers rest).1, (writeAll answers rest).2))
    (others : Ends (fun i => answer (i + 1)) rest) : Ends answer record := by
  obtain ⟨n, accepted, failure, ends⟩ := others
  refine ⟨n + 1, p ++ accepted, failure, fun more => ?_⟩
  have shift : (List.range (n + 1)).map answer =
      answer 0 :: (List.range n).map fun i => answer (i + 1) := by
    rw [List.range_succ_eq_map, List.map_cons, List.map_map]
    rfl
  rw [shift, List.cons_append, first, ends]

theorem Ends.of_first (first : answer 0 ≠ .interrupted)
    (shorter : ∀ rest, rest.length < record.length → Ends (fun i => answer (i + 1)) rest) :
    Ends answer record := by
  cases record with
  | nil => exact .nil answer
  | cons c record =>
    cases asked : answer 0 with
    | interrupted => exact absurd asked first
    | fails text =>
      refine .fail text fun answers => ?_
      rw [asked]
      rfl
    | accepts n =>
      cases n with
      | zero =>
        refine .fail wroteNothing fun answers => ?_
        rw [asked]
        rfl
      | succ n =>
        refine .step (p := (c :: record).take (n + 1)) (fun answers => ?_)
          (shorter ((c :: record).drop (n + 1)) ?_)
        · rw [asked]
          rfl
        · rw [List.length_drop, List.length_cons]
          omega

theorem Ends.of_interrupted (first : answer 0 = .interrupted)
    (others : Ends (fun i => answer (i + 1)) record) : Ends answer record := by
  cases record with
  | nil => exact .nil answer
  | cons c record =>
    refine .step (p := []) (fun answers => ?_) others
    rw [first]
    rfl

theorem GoesOn.ends (goesOn : GoesOn answer) (record : List Char) : Ends answer record := by
  induction length : record.length using Nat.strongRecOn generalizing record answer with
  | ind k shorter =>
    subst length
    obtain ⟨j, -, other⟩ := goesOn 0
    -- the answers before the `j`th may all be interruptions
    induction j generalizing answer with
    | zero => exact .of_first other fun rest less => shorter _ less goesOn.later rest rfl
    | succ j ih =>
      by_cases first : answer 0 = .interrupted
      · exact .of_interrupted first (ih goesOn.later other)
      · exact .of_first first fun rest less => shorter _ less goesOn.later rest rfl

end Output

namespace LineOutput

/-! ## One delivery -/

section

variable {e : Envelope} {l : LineOutput}

/-- What is accepted of the record of an envelope. -/
def accepted (e : Envelope) (l : LineOutput) : List Char :=
  (Output.writeAll l.output.writes (record l.torn e)).1

/-- The text of an envelope is taken to its end, though the line end behind it may be missing. -/
def Completes (e : Envelope) (l : LineOutput) : Prop := e.text <:+: l.accepted e

instance (e : Envelope) (l : LineOutput) : Decidable (l.Completes e) :=
  inferInstanceAs (Decidable (_ <:+: _))

theorem accepted_prefix (e : Envelope) (l : LineOutput) : l.accepted e <+: record l.torn e :=
  Output.writeAll_prefix _ _

/-- A delivery either stops within the record, or takes all of it and asks for a flush. -/
theorem deliver_cases (e : Envelope) (l : LineOutput) :
    (l.deliver e).2.output.written = l.output.written ++ l.accepted e ∧
    ((l.accepted e ≠ record l.torn e ∧ (∃ fault, (l.deliver e).1 = .error fault) ∧
        (l.deliver e).2.torn = tornAfter l.torn (l.accepted e)) ∨
      (l.accepted e = record l.torn e ∧ ((l.deliver e).1 = .ok () ↔ l.output.flush.1 = none) ∧
        (l.deliver e).2.torn = false)) := by
  have failure := Output.writeAll_failure l.output.writes (record l.torn e)
  unfold accepted deliver Output.write Output.flush
  generalize Output.writeAll l.output.writes (record l.torn e) = answer at failure ⊢
  obtain ⟨accepted, fault, writes⟩ := answer
  cases fault with
  | some text =>
    have part : accepted ≠ record l.torn e := fun all => nomatch failure.2 all
    exact ⟨rfl, .inl ⟨part, ⟨_, rfl⟩, rfl⟩⟩
  | none =>
    have all : accepted = record l.torn e := failure.1 rfl
    cases l.output.flushes with
    | nil => simp [all]
    | cons answer flushes => cases answer <;> simp [all]

theorem completes_of_whole (whole : l.accepted e = record l.torn e) : l.Completes e := by
  rw [Completes, whole]
  exact (List.suffix_append _ _).isInfix.trans (List.prefix_append _ _).isInfix

/-- The output is known to be torn when something stands on its last line. -/
def Intact (l : LineOutput) : Prop := l.torn = true ↔ ¬ AtLineStart l.output.written

theorem Intact.deliver (intact : l.Intact) (e : Envelope) : (l.deliver e).2.Intact := by
  obtain ⟨written, ⟨-, -, torn⟩ | ⟨whole, -, torn⟩⟩ := deliver_cases e l
  · rw [Intact, torn, written, tornAfter]
    cases last : (l.accepted e).getLast? with
    | none =>
      rw [List.getLast?_eq_none_iff.1 last, List.append_nil]
      exact intact
    | some c =>
      obtain ⟨front, whole⟩ := List.getLast?_eq_some_iff.1 last
      rw [whole, ← List.append_assoc, atLineStart_concat]
      exact bne_iff_ne
  · rw [Intact, torn, written, whole, record, ← List.append_assoc, atLineStart_concat]
    exact iff_of_false Bool.false_ne_true (not_not_intro rfl)

theorem Intact.envelopesIn_deliver (intact : l.Intact) (fits : e.Fits) :
    envelopesIn (l.deliver e).2.output.written =
      envelopesIn l.output.written ++ if l.Completes e then [e] else [] := by
  have front := l.accepted_prefix e
  rw [(deliver_cases e l).1]
  show _ = _ ++ if e.text <:+: l.accepted e then [e] else []
  cases torn : l.torn with
  | false =>
    have start : AtLineStart l.output.written := by
      refine Decidable.of_not_not fun middle => ?_
      cases torn.symm.trans (intact.2 middle)
    rw [torn] at front
    rw [envelopesIn_append start, envelopesIn_piece fits front]
  | true =>
    have front : l.accepted e <+: '\n' :: (e.text ++ ['\n']) := by
      rw [torn] at front
      exact front
    rcases List.prefix_cons_iff.1 front with none | ⟨p, some, piece⟩
    · rw [none, List.append_nil, if_neg (mt List.infix_nil.1 e.text_ne_nil), List.append_nil]
    · rw [some, envelopesIn_newline, envelopesIn_piece fits piece]
      simp only [infix_newline]

end

/-! ## Deliveries one after the other -/

/-- The output after some deliveries, whatever comes of each. -/
def deliverAll (es : List Envelope) (l : LineOutput) : LineOutput :=
  es.foldl (fun l e => (l.deliver e).2) l

/-- The envelopes whose text is taken to its end. -/
def completed : List Envelope → LineOutput → List Envelope
  | [], _ => []
  | e :: es, l => (if l.Completes e then [e] else []) ++ completed es (l.deliver e).2

/-- The output as it is, with other answers to come. -/
def answering (answers : List WriteAnswer) (l : LineOutput) : LineOutput :=
  { l with output := { l.output with writes := answers } }

theorem torn_answering (answers : List WriteAnswer) (l : LineOutput) :
    (l.answering answers).torn = l.torn := rfl

/-- Some of the answers decide what comes of a delivery, and those behind them are not asked for. -/
def Ends (answer : Nat → WriteAnswer) (e : Envelope) (l : LineOutput) : Prop :=
  ∃ n result left, ∀ more, (l.answering ((List.range n).map answer ++ more)).deliver e =
    (result, answering more left)

/-- What a delivery comes to. -/
structure Outcome (e : Envelope) (l : LineOutput) : Prop where
  written : (l.deliver e).2.output.written = l.output.written ++ l.accepted e
  ok_iff : (l.deliver e).1 = .ok () ↔
    l.accepted e = record l.torn e ∧ l.output.flush.1 = none
  completes : (l.deliver e).1 = .ok () → l.Completes e
  torn_iff : (l.deliver e).2.torn = true ↔
    (l.deliver e).2.output.written ≠ [] ∧ (l.deliver e).2.output.written.getLast? ≠ some '\n'
  ends : ∀ answer, Output.GoesOn answer → l.Ends answer e

section

variable {l : LineOutput}

theorem ends_of_goesOn (e : Envelope) (l : LineOutput) {answer : Nat → WriteAnswer}
    (goesOn : Output.GoesOn answer) : l.Ends answer e := by
  obtain ⟨n, accepted, failure, ends⟩ := goesOn.ends (record l.torn e)
  have write : ∀ more, (l.answering ((List.range n).map answer ++ more)).output.write
      (record l.torn e) = ((accepted, failure),
        { l.output with writes := more, written := l.output.written ++ accepted }) := by
    intro more
    simp only [Output.write, answering, ends more]
  let output := { l.output with written := l.output.written ++ accepted }
  cases failure with
  | some text =>
    refine ⟨n, .error (.write text), ⟨output, tornAfter l.torn accepted⟩, fun more => ?_⟩
    rw [deliver, torn_answering, write]
    rfl
  | none =>
    cases asked : l.output.flushes with
    | nil =>
      refine ⟨n, .ok (), ⟨output, false⟩, fun more => ?_⟩
      rw [deliver, torn_answering, write]
      simp [Output.flush, asked, answering, output]
    | cons failure flushes =>
      refine ⟨n, failure.elim (.ok ()) fun text => .error (.write text),
        ⟨{ output with flushes }, false⟩, fun more => ?_⟩
      rw [deliver, torn_answering, write]
      cases failure <;> simp [Output.flush, asked, answering, output]

theorem Intact.outcome (intact : l.Intact) (e : Envelope) : l.Outcome e := by
  obtain ⟨written, cases⟩ := deliver_cases e l
  have ok_iff : (l.deliver e).1 = .ok () ↔
      l.accepted e = record l.torn e ∧ l.output.flush.1 = none := by
    rcases cases with ⟨part, ⟨fault, failed⟩, -⟩ | ⟨whole, flushed, -⟩
    · rw [failed]
      exact iff_of_false nofun fun ok => part ok.1
    · rw [flushed, and_iff_right whole]
  exact {
    written
    ok_iff
    completes := fun ok => completes_of_whole (ok_iff.1 ok).1
    torn_iff := (intact.deliver e).trans not_or
    ends := fun _ goesOn => ends_of_goesOn e l goesOn }

theorem Intact.deliverAll (intact : l.Intact) (es : List Envelope) : (l.deliverAll es).Intact := by
  induction es generalizing l with
  | nil => exact intact
  | cons e es ih => exact ih (intact.deliver e)

theorem Intact.envelopesIn_deliverAll (intact : l.Intact) {es : List Envelope}
    (fits : ∀ e ∈ es, e.Fits) :
    envelopesIn (l.deliverAll es).output.written =
      envelopesIn l.output.written ++ l.completed es := by
  induction es generalizing l with
  | nil => exact (List.append_nil _).symm
  | cons e es ih =>
    obtain ⟨first, others⟩ := List.forall_mem_cons.1 fits
    calc envelopesIn (l.deliverAll (e :: es)).output.written
      _ = envelopesIn (l.deliver e).2.output.written ++ (l.deliver e).2.completed es :=
        ih (intact.deliver e) others
      _ = envelopesIn l.output.written ++ l.completed (e :: es) := by
        rw [intact.envelopesIn_deliver first, List.append_assoc, completed]

/-- Whatever the output does to the writes and flushes, a reader who skips the lines that are no
envelope finds, behind what was there before, one envelope for each delivery whose text was taken
to its end. -/
theorem survives_failures {l : LineOutput} {es : List Envelope} (fits : ∀ e ∈ es, e.Fits)
    (start : AtLineStart l.output.written) (whole : l.torn = false) :
    envelopesIn (l.deliverAll es).output.written =
        envelopesIn l.output.written ++ l.completed es ∧
      ∀ before e after, es = before ++ e :: after → (l.deliverAll before).Outcome e := by
  have intact : l.Intact := iff_of_false (whole ▸ Bool.false_ne_true) (not_not_intro start)
  refine ⟨intact.envelopesIn_deliverAll fits, fun before e after _ => ?_⟩
  exact (intact.deliverAll before).outcome e

/-- The first attempt breaks off within the record, the second behind the line end that comes
first, the third before the line end that comes last, and the fourth at the flush. -/
theorem survives_failures_everywhere :
    let e : Envelope := ⟨1, 2, ⟨false⟩⟩
    let next : Envelope := ⟨2, 3, ⟨true⟩⟩
    let l : LineOutput := { output := {
      writes := [.interrupted, .accepts 10, .fails "full", .accepts 1, .accepts 0,
        .accepts e.text.length, .fails "full"]
      flushes := [some "gone"] } }
    l.completed [e, e, e, next, next] = [e, next, next] ∧
      envelopesIn (l.deliverAll [e, e, e, next, next]).output.written = [e, next, next] ∧
      (l.deliverAll [e, e, e]).Outcome next := by
  intro e next l
  have fits : ∀ x ∈ [e, e, e, next, next], x.Fits := by decide
  have completed : l.completed [e, e, e, next, next] = [e, next, next] := by decide +kernel
  obtain ⟨found, outcome⟩ := survives_failures (l := l) fits (.inl rfl) rfl
  rw [completed] at found
  exact ⟨completed, found, outcome [e, e, e] next [next] rfl⟩

end

end LineOutput

end ProgramControl
