import ProgramControl.Proofs.Dispatch.Orphans

/-!
# Who holds a reply

A reply goes with its request: it is in the channel, or owed by the worker, until it is given or let
go.  So whoever waits for one has the only request for it, and nobody hangs up before the worker
breaks down.

* `Passage.released_in_order`   requests are let go in the order in which they entered;
* `Attended`           a request that is held is the one with which its caller waits;
* `Passage.dispatches` until something breaks down the system is one whose worker does not unwind.
-/

namespace ProgramControl

variable {σ : Type}

namespace Frail

variable {world : Plant σ} {outsiders : σ → σ → Prop} {f g : Frail σ} {o : Happening σ}
  {h : List (Happening σ)}

/-- A request is held from when it enters the channel until its reply is let go, in order. -/
theorem held_of_move (move : Move world f o g) :
    f.held ++ o.entered?.toList = o.released?.toList ++ g.held := by
  cases move with
  | shows move whole lasts =>
    cases move with
    | enters => exact List.append_assoc ..
    | takes idle first =>
      simp [held, owed?, whole rfl, idle, first, Happening.entered?, Occurrence.entered?,
        Happening.released?]
    | onWorker busy =>
      simp [held, owed?, whole rfl, busy, Happening.entered?, Occurrence.entered?,
        Happening.released?]
    | replies busy =>
      simp [held, owed?, whole rfl, busy, Happening.entered?, Occurrence.entered?,
        Happening.released?, System.deliver]
    | breaks => exact absurd rfl lasts
    | _ => exact List.append_nil _
  | breaks whole busy =>
    simp [held, owed?, whole, busy, Happening.entered?, Occurrence.entered?, Happening.released?]
  | owed owing busy => simp [held, owed?, owing, busy, Happening.entered?, Happening.released?]
  | closes receiving => simp [held, owed?, receiving, Happening.entered?, Happening.released?]
  | drops closed first =>
    simp [held, owed?, closed, first, Happening.entered?, Happening.released?]
  | hangsUp => exact List.append_nil _

/-- Each request that enters is let go once, in the order in which they entered, or is still
held. -/
theorem Passage.released_in_order (passage : Passage world outsiders f h g) :
    f.held ++ entered h = released h ++ g.held := by
  induction passage with
  | refl => exact List.append_nil _
  | outside _ _ ih => exact ih
  | step _ moved ih =>
    rw [entered, released, filterMap_concat, filterMap_concat, ← entered, ← released,
      ← List.append_assoc, ih, List.append_assoc, held_of_move (move_of_move? moved).1,
      ← List.append_assoc]

/-- A caller waits with this request: that it entered is the last that the caller has shown. -/
def Waits (h : List (Happening σ)) (f : Frail σ) (e : Errand) : Prop :=
  (∃ c, f.system.callers[e.caller]? = some c ∧ c.stage = .awaiting) ∧
    [.shows (.enters e)] <:+ steps (.caller e.caller) h

/-- Each request that is held is the one with which its caller waits, and while nothing has broken
down whoever waits has a request that is held. -/
structure Attended (h : List (Happening σ)) (f : Frail σ) : Prop where
  waits : ∀ e ∈ f.held, Waits h f e
  once : (f.held.map (·.caller)).Nodup
  held : f.unwinding = .whole → ∀ i c, f.system.callers[i]? = some c → c.stage = .awaiting →
    ∃ e ∈ f.held, e.caller = i

theorem Waits.frame {e : Errand} (waits : Waits h f e)
    (callers : g.system.callers[e.caller]? = f.system.callers[e.caller]?)
    (other : o.thread ≠ .caller e.caller) : Waits (h ++ [o]) g e := by
  obtain ⟨⟨c, place, stage⟩, last⟩ := waits
  refine ⟨⟨c, callers.trans place, stage⟩, ?_⟩
  rw [steps_append, steps_other other, List.append_nil]
  exact last

theorem Attended.idle (attended : Attended h f) (move : Move world f o g) {e : Errand}
    (mem : e ∈ f.held) : o.thread ≠ .caller e.caller := by
  obtain ⟨⟨c, place, waiting⟩, -⟩ := attended.waits e mem
  exact fun own => (hangsUp_of_awaiting move own place waiting).2 e mem rfl

theorem waits_of_enters {e : Errand} (move : Move world f (.shows (.enters e)) g) :
    Waits (h ++ [.shows (.enters e)]) g e := by
  have own : (Happening.shows (.enters e) : Happening σ).thread = .caller e.caller := rfl
  refine ⟨?_, by rw [steps_append, steps_own own]; exact List.suffix_append ..⟩
  cases move with
  | shows move =>
    cases move with
    | enters place =>
      obtain ⟨inside, -⟩ := List.getElem?_eq_some_iff.1 place
      exact ⟨_, List.getElem?_set_self inside, rfl⟩

theorem enters_of_awaiting {i : Nat} {c : Caller} (move : Move world f o g)
    (own : o.thread = .caller i) (place : g.system.callers[i]? = some c)
    (waiting : c.stage = .awaiting) : ∃ e, o = .shows (.enters e) ∧ e.caller = i := by
  cases move with
  | shows move =>
    cases move with
    | begins place' | onCaller place' | defers place' | settles place' | closed place' =>
      cases own
      cases System.eq_of_set place
      cases waiting
    | enters => exact ⟨_, rfl, Label.caller.inj own⟩
    | takes | onWorker | replies | breaks | onVisitor => cases own
  | hangsUp place' =>
    cases own
    have received := (List.getElem?_modify_eq ..).symm.trans place
    rw [place'] at received
    cases received
    cases waiting
  | breaks | owed | closes | drops => cases own

/-- While nothing breaks down a reply is let go by giving it. -/
theorem replies_of_released {e : Errand} (move : Move world f o g) (whole : g.unwinding = .whole)
    (released : o.released? = some e) : ∃ result p, o = .shows (.replies e result p) := by
  cases move with
  | shows move =>
    cases move with
    | replies =>
      cases released
      exact ⟨_, _, rfl⟩
    | _ => cases released
  | owed => cases whole
  | drops closed => cases closed.symm.trans whole
  | _ => cases released

theorem not_awaiting_of_replies {e : Errand} {result : Result} {p : Program} {c : Caller}
    (move : Move world f (.shows (.replies e result p)) g)
    (place : g.system.callers[e.caller]? = some c) : c.stage ≠ .awaiting := by
  cases move with
  | shows move =>
    cases move with
    | replies =>
      have received := (List.getElem?_modify_eq ..).symm.trans place
      obtain ⟨c', -, rfl⟩ := Option.map_eq_some_iff.1 received
      exact nofun

theorem Attended.move (attended : Attended h f) (move : Move world f o g) :
    Attended (h ++ [o]) g := by
  have requests := held_of_move move
  have entering {e : Errand} (enters : o.entered? = some e) : o = .shows (.enters e) := by
    cases o with
    | shows o => cases o <;> cases enters; rfl
    | _ => cases enters
  have once : ((f.held ++ o.entered?.toList).map (·.caller)).Nodup := by
    cases enters : o.entered? with
    | none => exact (List.append_nil _).symm ▸ attended.once
    | some e =>
      rw [entering enters] at move
      rw [List.map_append]
      refine List.nodup_append.2 ⟨attended.once, List.pairwise_singleton .., ?_⟩
      rintro i mem _ mem' rfl
      obtain rfl := List.mem_singleton.1 mem'
      obtain ⟨e', held, same⟩ := List.mem_map.1 mem
      exact attended.idle move held (congrArg Label.caller same.symm)
  rw [requests, List.map_append, List.nodup_append] at once
  obtain ⟨-, once, apart⟩ := once
  refine ⟨fun e mem => ?_, once, fun whole i c place waiting => ?_⟩
  · have mem' : e ∈ f.held ++ o.entered?.toList := requests ▸ List.mem_append_right _ mem
    rcases List.mem_append.1 mem' with old | new
    · have idle := attended.idle move old
      rcases callers_of_other move idle with same | ⟨errand, result, p, rfl, same, -⟩
      · exact (attended.waits e old).frame same idle
      · exact absurd same (apart _ List.mem_cons_self _ (List.mem_map_of_mem mem))
    · obtain rfl := entering (Option.mem_toList.1 new)
      exact waits_of_enters move
  · have entered : ∃ e ∈ f.held ++ o.entered?.toList, e.caller = i := by
      by_cases own : o.thread = .caller i
      · obtain ⟨e, rfl, same⟩ := enters_of_awaiting move own place waiting
        exact ⟨e, List.mem_append_right _ List.mem_cons_self, same⟩
      · rcases callers_of_other move own with same | ⟨e, result, p, rfl, rfl, -⟩
        · obtain ⟨e, mem, own⟩ :=
            attended.held (whole_of_move move whole).1 i c (same ▸ place) waiting
          exact ⟨e, List.mem_append_left _ mem, own⟩
        · exact absurd waiting (not_awaiting_of_replies move place)
    obtain ⟨e, mem, rfl⟩ := entered
    rcases List.mem_append.1 (requests ▸ mem) with released | held
    · obtain ⟨result, p, rfl⟩ := replies_of_released move whole (Option.mem_toList.1 released)
      exact absurd waiting (not_awaiting_of_replies move place)
    · exact ⟨e, held, rfl⟩

theorem IsFresh.held (fresh : f.IsFresh) : f.held = [] := by
  rw [Frail.held, owed?, fresh.whole, fresh.system.worker, fresh.system.channel]
  rfl

theorem Passage.attended (fresh : f.IsFresh) (passage : Passage world outsiders f h g) :
    Attended h g := by
  induction passage with
  | refl =>
    refine ⟨?_, ?_, fun _ i c place waiting => ?_⟩
    · rw [fresh.held]
      exact nofun
    · rw [fresh.held]
      exact .nil
    · cases (fresh.system.callers c (List.mem_of_getElem? place)).1.symm.trans waiting
  | outside _ _ ih => exact ⟨ih.waits, ih.once, ih.held⟩
  | step _ moved ih => exact ih.move (move_of_move? moved).1

/-- Nobody hangs up before something breaks down. -/
theorem Attended.system_of_move? {l : Label} (attended : Attended h f)
    (moved : move? world l f = some (o, g)) (whole : g.unwinding = .whole) :
    ∃ o', o = .shows o' ∧ System.move? world l f.system = some (o', g.system) := by
  have start := (whole_of_move (move_of_move? moved).1 whole).1
  have system {moved' : Option (Occurrence σ × System σ)}
      (moved : (moved'.map fun p => (Happening.shows p.1, { f with system := p.2 })) =
        some (o, g)) :
      ∃ o', o = .shows o' ∧ moved' = some (o', g.system) := by
    obtain ⟨⟨o', t⟩, moved', same⟩ := Option.map_eq_some_iff.1 moved
    cases same
    exact ⟨o', rfl, moved'⟩
  cases l with
  | caller i =>
    have moved : f.moveCaller world i = some (o, g) := moved
    unfold moveCaller at moved
    split at moved
    · next forsaken =>
      obtain ⟨c, place, waiting, gone⟩ := isForsaken_iff.1 forsaken
      obtain ⟨e, mem, own⟩ := attended.held start i c place waiting
      exact absurd own (gone e mem)
    · exact system moved
  | worker =>
    have moved : f.moveWorker world = some (o, g) := moved
    simp only [moveWorker, start] at moved
    split at moved
    · cases moved
      cases whole
    · next moved' =>
      cases moved
      exact ⟨_, rfl, moved'⟩
    · cases moved
  | visitor i => exact system moved

/-- Until something breaks down the system is one whose worker does not unwind. -/
theorem Passage.dispatches (fresh : f.IsFresh) (passage : Passage world outsiders f h g)
    (whole : g.unwinding = .whole) :
    System.Passage world outsiders f.system (occurrences h) g.system ∧
      h = (occurrences h).map .shows := by
  induction passage with
  | refl => exact ⟨.refl _, rfl⟩
  | outside _ change ih =>
    obtain ⟨passage, shows⟩ := ih whole
    exact ⟨passage.outside change, shows⟩
  | @step m k l o h passage moved ih =>
    obtain ⟨dispatched, shows⟩ := ih (whole_of_move (move_of_move? moved).1 whole).1
    obtain ⟨o', rfl, moved'⟩ := (passage.attended fresh).system_of_move? moved whole
    rw [occurrences_concat]
    refine ⟨dispatched.step moved', ?_⟩
    rw [List.map_append, ← shows]
    rfl

end Frail

end ProgramControl
