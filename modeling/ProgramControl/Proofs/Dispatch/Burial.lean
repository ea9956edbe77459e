import ProgramControl.Proofs.Dispatch.Replies

/-!
# A breakdown seen from a distance

`System` takes a breakdown in one step.  A worker that unwinds comes to the same: tell everybody who
still waits that the worker is gone, and say of each request that enters too late that it is not
taken, and what is left is something that the system with the one step shows and does.

* `Frail.buried`       the system in which the breakdown is over;
* `Frail.seen`         what that system shows;
* `buried_of_move?`    a step of any thread is one step there, or none;
* `Passage.buries`     so every passage is one of that system.
-/

namespace ProgramControl

variable {σ : Type}

/-- What is shown of the step once the worker is gone: a request is not taken. -/
def Occurrence.afterwards : Occurrence σ → Occurrence σ
  | .enters errand => .settles errand.caller errand.call (.error .closed)
  | o => o

/-- A caller that waits is told that the worker is gone. -/
def Caller.informed (c : Caller) : Caller := if c.isAwaiting then c.receive (.error .closed) else c

theorem Caller.informed_of_awaiting {c : Caller} (waiting : c.isAwaiting = true) :
    c.informed = c.receive (.error .closed) := if_pos waiting

theorem Caller.informed_of_other {c : Caller} (other : c.isAwaiting = false) : c.informed = c :=
  if_neg fun waiting => Bool.false_ne_true (other.symm.trans waiting)

namespace System

variable {world : Plant σ} {s t : System σ} {o : Occurrence σ} {i : Nat} {c : Caller}

theorem bury_setCaller (s : System σ) (i : Nat) (c : Caller) :
    (s.setCaller i c).bury = s.bury.setCaller i c.informed := by
  have same : (s.callers.set i c).map (·.informed) =
      (s.callers.map (·.informed)).set i c.informed := List.map_set
  exact congrArg (fun callers => { s.bury with callers }) same

theorem bury_setCaller_of_other (other : c.isAwaiting = false) :
    (s.setCaller i c).bury = s.bury.setCaller i c := by
  rw [bury_setCaller, Caller.informed_of_other other]

theorem bury_deliver (place : s.callers[i]? = some c) (waiting : c.isAwaiting = true) :
    (s.deliver i (.error .closed)).bury = s.bury := by
  have same : (s.callers.modify i (·.receive (.error .closed))).map (·.informed) =
      s.callers.map (·.informed) := by
    refine List.ext_getElem? fun j => ?_
    rw [List.getElem?_map, List.getElem?_map]
    by_cases own : i = j
    · subst own
      rw [List.getElem?_modify_eq, place]
      show some (Caller.informed (c.receive _)) = some c.informed
      rw [Caller.informed_of_awaiting waiting]
      exact congrArg some (Caller.informed_of_other rfl)
    · rw [List.getElem?_modify_ne _ _ own]
  exact congrArg (fun callers => { s.bury with callers }) same

/-- A caller does in the system without a worker what it does while the worker unwinds; but its
request is not taken there. -/
theorem moveCaller_bury (moved : s.moveCaller world i = some (o, t)) :
    s.bury.moveCaller world i = some (o.afterwards, t.bury) := by
  cases place : s.callers[i]? with
  | none =>
    rw [moveCaller, place] at moved
    cases moved
  | some c =>
    have place' : s.bury.callers[i]? = some c.informed :=
      (List.getElem?_map ..).trans (congrArg _ place)
    unfold moveCaller at moved ⊢
    rw [place] at moved
    rw [place']
    cases stage : c.stage with
    | awaiting =>
      simp only [stage] at moved
      cases moved
    | free =>
      rw [Caller.informed_of_other (by rw [Caller.isAwaiting, stage])]
      simp only [stage] at moved ⊢
      cases todo : c.todo with
      | nil =>
        rw [todo] at moved
        cases moved
      | cons call rest =>
        rw [todo] at moved
        cases moved
        rw [bury_setCaller_of_other rfl]
        rfl
    | calling call course =>
      rw [Caller.informed_of_other (by rw [Caller.isAwaiting, stage])]
      simp only [stage] at moved ⊢
      cases course with
      | done submission =>
        cases submission with
        | settled | forWorker =>
          cases moved
          rw [bury_setCaller_of_other rfl]
          rfl
      | act action next =>
        simp only at moved ⊢
        split at moved
        · next ready =>
          split at moved
          · next answer plant done =>
            cases moved
            have same := bury_setCaller_of_other (s := s) (i := i)
              (c := { c with stage := .calling call (next answer) }) rfl
            have ready' : world.ready action s.bury.plant = true := ready
            have done' : world.perform action s.bury.plant = (some answer, plant) := done
            rw [if_pos ready', done']
            exact congrArg (fun t => some (_, { t with plant })) same.symm
          · cases moved
        · cases moved
    | sending call =>
      rw [Caller.informed_of_other (by rw [Caller.isAwaiting, stage])]
      simp only [stage] at moved ⊢
      refine (if_pos rfl).trans ?_
      split at moved
      · cases moved
        rw [bury_setCaller_of_other rfl]
        rfl
      · split at moved
        · cases moved
          have same := bury_setCaller s i { c with stage := .awaiting }
          exact congrArg (fun t => some (_, t)) same.symm
        · cases moved

theorem moveVisitor_bury (moved : s.moveVisitor world i = some (o, t)) :
    s.bury.moveVisitor world i = some (o.afterwards, t.bury) := by
  have same : s.bury.visitors[i]? = s.visitors[i]? := rfl
  unfold moveVisitor at moved ⊢
  rw [same]
  split at moved
  · next place =>
    split at moved
    · next ready =>
      split at moved
      · next done =>
        cases moved
        have ready' : world.ready _ s.bury.plant = true := ready
        have done' : world.perform _ s.bury.plant = _ := done
        simp only [ready', if_true, done']
        rfl
      · cases moved
    · cases moved
  · cases moved

end System

namespace Frail

variable {world : Plant σ} {outsiders : σ → σ → Prop} {f g : Frail σ} {o : Happening σ}
  {h : List (Happening σ)}

/-- The system in which the breakdown is over. -/
def buried (f : Frail σ) : System σ :=
  match f.unwinding with
  | .whole => f.system
  | _ => f.system.bury

theorem buried_of_broken (broken : f.unwinding ≠ .whole) : f.buried = f.system.bury := by
  unfold buried
  split
  · next whole => exact absurd whole broken
  · rfl

theorem buried_of_whole (whole : f.unwinding = .whole) : f.buried = f.system := by
  rw [buried, whole]

theorem buried_withPlant (f : Frail σ) (plant : σ) :
    buried { f with system := { f.system with plant } } = { f.buried with plant } := by
  unfold buried
  cases f.unwinding <;> rfl

theorem buried_of_breaks (moved : move? world .worker f = some (o, g))
    (whole : f.unwinding = .whole) (broken : g.unwinding ≠ .whole) :
    System.move? world .worker f.system = some (.breaks, g.buried) := by
  rw [buried_of_broken broken]
  have moved : f.moveWorker world = some (o, g) := moved
  simp only [moveWorker, whole] at moved
  split at moved
  · next moved' =>
    cases moved
    refine Eq.trans moved' ?_
    cases System.move_of_moveWorker moved' with
    | breaks => rfl
  · cases moved
    exact absurd rfl broken
  · cases moved

/-- What the system in which the breakdown is over shows of a step. -/
def seenIn (f : Frail σ) (o : Happening σ) : Option (Occurrence σ) :=
  match f.unwinding with
  | .whole => o.occurrence?
  | _ => o.occurrence?.map (·.afterwards)

theorem seenIn_of_broken (broken : f.unwinding ≠ .whole) (o : Happening σ) :
    seenIn f o = o.occurrence?.map (·.afterwards) := by
  unfold seenIn
  split
  · next whole => exact absurd whole broken
  · rfl

/-- A step of any thread is one of the system in which the breakdown is over, or nothing there. -/
theorem buried_of_move? {l : Label} (attended : Attended h f)
    (moved : move? world l f = some (o, g)) :
    match seenIn f o with
    | some o' => System.move? world l f.buried = some (o', g.buried)
    | none => g.buried = f.buried := by
  obtain ⟨move, thread⟩ := move_of_move? moved
  by_cases whole : f.unwinding = .whole
  · rw [buried_of_whole whole, seenIn, whole]
    by_cases still : g.unwinding = .whole
    · obtain ⟨o', rfl, moved'⟩ := attended.system_of_move? moved still
      rw [buried_of_whole still]
      exact moved'
    · obtain rfl := breaks_of_move move whole still
      subst thread
      exact buried_of_breaks moved whole still
  · have broken : g.unwinding ≠ .whole := fun still => whole (whole_of_move move still).1
    rw [buried_of_broken whole, buried_of_broken broken, seenIn_of_broken whole]
    cases l with
    | caller i =>
      have moved : f.moveCaller world i = some (o, g) := moved
      unfold moveCaller at moved
      split at moved
      · next forsaken =>
        obtain ⟨c, place, waiting, -⟩ := isForsaken_iff.1 forsaken
        cases moved
        exact System.bury_deliver place (isAwaiting_iff.2 waiting)
      · obtain ⟨⟨o', t⟩, moved', same⟩ := Option.map_eq_some_iff.1 moved
        cases same
        exact System.moveCaller_bury moved'
    | worker =>
      cases move with
      | shows _ own => exact absurd (own thread) whole
      | breaks whole' => exact absurd whole' whole
      | owed | closes | drops => rfl
      | hangsUp => cases thread
    | visitor i =>
      obtain ⟨⟨o', t⟩, moved', same⟩ := Option.map_eq_some_iff.1 moved
      cases same
      exact System.moveVisitor_bury moved'

/-- What the system in which the breakdown is over shows. -/
def seen : List (Happening σ) → List (Occurrence σ)
  | [] => []
  | .shows .breaks :: h => .breaks :: (occurrences h).map (·.afterwards)
  | .shows o :: h => o :: seen h
  | _ :: h => seen h

theorem seen_concat_of_whole (whole : .shows .breaks ∉ h) (o : Happening σ) :
    seen (h ++ [o]) = seen h ++ o.occurrence?.toList := by
  induction h with
  | nil =>
    cases o with
    | shows o => cases o <;> rfl
    | _ => rfl
  | cons o' h ih =>
    obtain ⟨other, whole⟩ := not_or.1 (mt List.mem_cons.2 whole)
    have rest := ih whole
    cases o' with
    | shows o' =>
      cases o' with
      | breaks => exact absurd rfl other
      | _ => exact congrArg _ rest
    | _ => exact rest

theorem seen_concat_of_broken (broken : .shows .breaks ∈ h) (o : Happening σ) :
    seen (h ++ [o]) = seen h ++ (o.occurrence?.map (·.afterwards)).toList := by
  induction h with
  | nil => cases broken
  | cons o' h ih =>
    cases o' with
    | shows o' =>
      cases o' with
      | breaks =>
        have rest : (occurrences (h ++ [o])).map (·.afterwards) =
            (occurrences h).map (·.afterwards) ++ (o.occurrence?.map (·.afterwards)).toList := by
          rw [occurrences_concat, List.map_append, Option.toList_map]
        exact congrArg _ rest
      | _ => exact congrArg _ (ih ((List.mem_cons.1 broken).resolve_left nofun))
    | _ => exact ih ((List.mem_cons.1 broken).resolve_left nofun)

/-- Every passage is one of the system that takes a breakdown in one step. -/
theorem Passage.buries (fresh : f.IsFresh) (passage : Passage world outsiders f h g) :
    System.Passage world outsiders f.system (seen h) g.buried := by
  induction passage with
  | refl => exact buried_of_whole fresh.whole ▸ .refl _
  | @outside m plant h passage change ih =>
    have same : m.buried.plant = m.system.plant := by
      unfold buried
      cases m.unwinding <;> rfl
    rw [buried_withPlant]
    exact ih.outside (same ▸ change)
  | @step m k l o h passage moved ih =>
    have next := buried_of_move? (passage.attended fresh) moved
    have shows : seen (h ++ [o]) = seen h ++ (seenIn m o).toList := by
      by_cases whole : m.unwinding = .whole
      · rw [seenIn, whole]
        exact seen_concat_of_whole ((passage.whole_iff fresh.whole).1 whole) o
      · rw [seenIn_of_broken whole]
        have broken := mt (passage.whole_iff fresh.whole).2 whole
        exact seen_concat_of_broken (Classical.not_not.1 broken) o
    rw [shows]
    cases seenNow : seenIn m o with
    | none =>
      rw [seenNow] at next
      exact (List.append_nil _).symm ▸ next.symm ▸ ih
    | some o' =>
      rw [seenNow] at next
      exact ih.step next

end Frail

end ProgramControl
