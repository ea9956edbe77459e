import ProgramControl.Proofs.Console.Duties

/-!
# Accounts of a session

What a session has still to read, to take and to reply to, and what it has written, can be told from
what it has shown.

* `Passage.accounts`   lines, the queue and the responses;
* `Passage.acts`       the actions of the two threads;
* `Passage.served`     the requests to the worker.
-/

namespace ProgramControl.Console.Session

variable {s t : Session} {e : Event} {h : List Event}

theorem lines_of_move (move : Move s e t) : s.lines = e.line?.toList ++ t.lines := by
  cases move with
  | faulty idle next | queues idle next => exact next
  | starts idle next =>
    rw [lines_undertake]
    exact next
  | takes =>
    rw [lines_undertake]
    rfl
  | @acts thread | @ends thread | @hears thread => cases thread <;> rfl
  | _ => rfl

theorem queue_of_move (move : Move s e t) :
    s.queue ++ (e.line?.bind queued?).toList = e.taken?.toList ++ t.queue := by
  cases move with
  | faulty idle next decodes =>
    show s.queue ++ (queued? _).toList = _
    rw [(queued?_of_error decodes).2]
    exact List.append_nil _
  | queues idle next decodes later =>
    show s.queue ++ (queued? _).toList = _
    rw [(queued?_of_ok decodes).2, later]
    rfl
  | starts idle next decodes now =>
    show s.queue ++ (queued? _).toList = _
    rw [(queued?_of_ok decodes).2, now, queue_undertake]
    exact List.append_nil _
  | takes idle next =>
    rw [queue_undertake]
    exact (List.append_nil _).trans next
  | @acts thread | @ends thread | @hears thread => cases thread <;> exact List.append_nil _
  | _ => exact List.append_nil _

theorem responses_of_move (move : Move s e t) :
    t.responses = s.responses ++ e.response?.toList := by
  cases move with
  | faulty idle next decodes =>
    rw [Event.response?, decodes]
  | queues idle next decodes =>
    rw [Event.response?, decodes]
    exact (List.append_nil _).symm
  | starts idle next decodes =>
    rw [Event.response?, decodes, responses_undertake]
    exact (List.append_nil _).symm
  | takes =>
    rw [responses_undertake]
    exact (List.append_nil _).symm
  | @acts thread => cases thread <;> exact (List.append_nil _).symm
  | @ends thread | @hears thread => cases thread <;> rfl
  | _ => exact (List.append_nil _).symm

theorem Passage.accounts (passage : Passage s h t) :
    s.lines = linesRead h ++ t.lines ∧
    s.queue ++ (linesRead h).filterMap queued? = taken h ++ t.queue ∧
    t.responses = s.responses ++ responded h := by
  induction passage with
  | refl => exact ⟨rfl, List.append_nil _, (List.append_nil _).symm⟩
  | @step m u e h passage move ih =>
    obtain ⟨lines, queue, responses⟩ := ih
    rw [linesRead, taken, responded, filterMap_concat, filterMap_concat, filterMap_concat]
    refine ⟨?_, ?_, ?_⟩
    · rw [List.append_assoc, ← lines_of_move move]
      exact lines
    · have read : e.line?.toList.filterMap queued? = (e.line?.bind queued?).toList := by
        cases e.line? with
        | none => rfl
        | some line => exact filterMap_concat queued? [] line
      calc s.queue ++ (linesRead h ++ e.line?.toList).filterMap queued?
          = s.queue ++ (linesRead h).filterMap queued? ++ (e.line?.bind queued?).toList := by
            rw [List.filterMap_append, read, List.append_assoc]
        _ = taken h ++ (m.queue ++ (e.line?.bind queued?).toList) := by
            rw [queue, List.append_assoc]
        _ = taken h ++ e.taken?.toList ++ u.queue := by
            rw [queue_of_move move, List.append_assoc]
    · rw [responses_of_move move, responses, List.append_assoc]
      rfl

theorem ended_of_move (move : Move s e t) : t.ended = s.ended := by
  cases move with
  | starts | takes => exact (closing_undertake ..).1
  | @acts thread | @ends thread | @hears thread => cases thread <;> rfl
  | _ => rfl

theorem Passage.ended_eq (passage : Passage s h t) : t.ended = s.ended := by
  induction passage with
  | refl => rfl
  | step _ move ih => exact (ended_of_move move).trans ih

/-- An action of a thread's own is carried out on the plant as it is. -/
theorem Passage.acts {h₁ h₂ : List Event} {thread : Thread} {x : Exchange Workshop}
    (passage : Passage s (h₁ ++ .acts thread x :: h₂) t) :
    x.before.perform x.action = (x.answer, x.after) ∧ ∃ m m', Passage s h₁ m ∧
      m.system.plant = x.before ∧ m'.system.plant = x.after ∧ Passage m' h₂ t := by
  obtain ⟨m, m', before, move, after⟩ := passage.split_cons
  cases move with
  | acts task done =>
    refine ⟨done, _, _, before, rfl, ?_, after⟩
    rw [system_withTask]

/-- What the worker does is one run of the program, over the requests that entered the channel. -/
theorem Passage.served (passage : Passage s h t) (idle : s.system.worker = .idle {})
    (nothing : s.system.waiting = []) :
    System.Serial s.system.fitted (dispatched h) t.system.worker ∧
    entered (dispatched h) = (replied (dispatched h)).map Prod.fst ++ t.system.waiting ∧
    t.system.fitted = s.system.fitted := by
  induction passage with
  | refl => exact ⟨idle ▸ .start _, nothing.symm, rfl⟩
  | @step m u e h passage move ih =>
    obtain ⟨serial, fifo, fitted⟩ := ih
    have next := system_of_move move
    rw [dispatched, filterMap_concat]
    cases occurrence : e.occurrence? with
    | none =>
      rw [occurrence] at next
      obtain ⟨worker, channel, same⟩ := next
      rw [Option.toList_none, List.append_nil, worker, System.waiting, worker, channel]
      exact ⟨serial, fifo, same.trans fitted⟩
    | some o =>
      rw [occurrence] at next
      obtain ⟨l, moved⟩ := next
      have move := System.move_of_move? moved
      have steady := System.neverBreaks_workshop
      refine ⟨?_, System.fifo_of_move steady move fifo, (System.fitted_of_move move).trans fitted⟩
      rw [← fitted] at serial ⊢
      exact serial.step steady move

end ProgramControl.Console.Session
