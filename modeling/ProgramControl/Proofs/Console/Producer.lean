import ProgramControl.Proofs.Console.Accounts
import ProgramControl.Proofs.Console.Settling

/-!
# The producer leaves last

Whatever the producer takes out of the queue it applies, and when the input has ended it leaves
behind the reader, with the queue empty.  The main thread gives up the dispatch system after that.

* `Applies`               all that is shown of a command that was taken;
* `Passage.applies`       the producer shows it, before it takes another command;
* `LeavesInOrder`         what comes before what at the end;
* `Passage.leavesInOrder` that is the order of every passage.
-/

namespace ProgramControl.Console.Session

variable {s t : Session} {e : Event} {h k : List Event} {duties : List Duty}

/-- All that the producer shows of a command.  A directive and the begin of a program are requests
to the dispatch system, and the answer is written.  A move is admitted and counted in, unless motion
is found halted. -/
inductive Applies : Command → List Event → Prop where
  | directive {d : Directive} {os : List (Occurrence Workshop)} {result : Result}
      (calls : CallScript producerPlace (.directive d) os result) :
      Applies (.directive d) (os.map .dispatch ++ [.responds .producer (.ofResult result)])
  | newProgram {os : List (Occurrence Workshop)} {result : Result}
      (calls : CallScript producerPlace .beginProgram os result) :
      Applies .newProgram (os.map .dispatch ++ [.responds .producer (.ofResult result)])
  | admits {ms : Nat} {p₁ p₂ p₃ p₄ : Workshop} :
      Applies (.move ms)
        [.acts .producer ⟨.readHalted, false, p₁, p₂⟩, .acts .producer ⟨.countMove, (), p₃, p₄⟩,
          .responds .producer (.ofMove ms true)]
  | refuses {ms : Nat} {p₁ p₂ p₃ p₄ : Workshop} :
      Applies (.move ms)
        [.acts .producer ⟨.readHalted, true, p₁, p₂⟩,
          .acts .producer ⟨.report Motion.refusedEntry, (), p₃, p₄⟩,
          .responds .producer (.ofMove ms false)]

theorem applies_of_script {command : Command} {es : List Event} (later : command ≠ .status)
    (script : WorkScript .producer command.work es) : Applies command es := by
  cases command with
  | status => exact absurd rfl later
  | directive d =>
    cases script with
    | call script => exact .directive script
  | newProgram =>
    cases script with
    | call script => exact .newProgram script
  | move ms =>
    cases script with
    | course own =>
      cases own with
      | @act _ _ halted _ _ _ _ own =>
        cases halted with
        | true =>
          cases own with
          | act own =>
            obtain ⟨rfl, same⟩ := Course.reaches_done own
            cases same
            exact .refuses
        | false =>
          cases own with
          | act own =>
            obtain ⟨rfl, same⟩ := Course.reaches_done own
            cases same
            exact .admits

/-- What the producer shows after it has taken a command is that it applies it. -/
theorem Passage.applies {command : Command} (later : command ≠ .status)
    (alive : s.system.worker.isDead = false) (start : Progress .producer duties [] s)
    (passage : Passage s (h ++ .takes command :: k) t) :
    ∃ script, Applies command script ∧ Plays script (part .producer k) := by
  have opens (m m' : Session) (move : Move m (.takes command) m') :
      (m.task .producer).isBusy = false ∧
        ∃ rest, m.ahead .producer = Duty.ofCommand command :: rest := by
    cases move with
    | @takes _ queue idle next =>
      refine ⟨congrArg Task.isBusy idle, (queue ++ m.lines.filterMap queued?).map .ofCommand ++
        if m.ended then leave .producer (m.task .producer) else [], ?_⟩
      rw [ahead, coming, next, List.cons_append, List.map_cons, List.cons_append]
  obtain ⟨es, script, plays⟩ := passage.plays_duty alive start rfl rfl opens
  rcases script.cases with ⟨none, -⟩ | ⟨work, rest, some, script, same⟩
  · cases none
  · cases some
    obtain ⟨-, rfl⟩ := List.cons.inj same
    exact ⟨es, applies_of_script later script, plays⟩

/-! ## The end -/

/-- How far the threads are with leaving, they have shown. -/
structure Traces (h : List Event) (s : Session) : Prop where
  out (out : s.reader.isOut) : .inputEnds ∈ h
  hungUp (gone : s.reader = .gone) : .hangsUp ∈ h
  quit (gone : s.producer = .gone) : .quits ∈ h
  closing (later : s.main ≠ .waiting) : .closes s.main ∈ h

/-- Nobody comes nearer to the end without showing it. -/
theorem leaves_of_move (move : Move s e t) :
    (t.reader.isOut → s.reader.isOut ∨ e = .inputEnds) ∧
    (t.reader = .gone → s.reader = .gone ∨ e = .hangsUp) ∧
    (t.producer = .gone → s.producer = .gone ∨ e = .quits) ∧
    (t.main = s.main ∨ e = .closes t.main) := by
  have busy {task : Task} (busy : task.isBusy) : task.isOut = false ∧ task ≠ .gone :=
    ⟨Task.isOut_of_isBusy busy, fun gone => by rw [gone] at busy; cases busy⟩
  cases move with
  | @starts line lines command =>
    obtain ⟨stays, there⟩ := busy (isBusy_undertake .reader command { s with lines })
    have same : (undertake .reader command { s with lines }).task .producer = s.producer :=
      task_undertake_of_ne command { s with lines } (by decide)
    exact ⟨fun out => absurd out (Bool.eq_false_iff.1 stays), fun gone => absurd gone there,
      fun gone => .inl (same.symm.trans gone), .inl (closing_undertake ..).2.2⟩
  | @takes command queue =>
    obtain ⟨-, there⟩ := busy (isBusy_undertake .producer command { s with queue })
    have same : (undertake .producer command { s with queue }).task .reader = s.reader :=
      task_undertake_of_ne command { s with queue } (by decide)
    exact ⟨fun out => .inl (congrArg Task.isOut same ▸ out),
      fun gone => .inl (same.symm.trans gone), fun gone => absurd gone there,
      .inl (closing_undertake ..).2.2⟩
  | @acts thread | @ends thread | @hears thread =>
    cases thread with
    | reader => exact ⟨nofun, nofun, .inl, .inl rfl⟩
    | producer => exact ⟨.inl, .inl, nofun, .inl rfl⟩
  | inputEnds => exact ⟨fun _ => .inr rfl, nofun, .inl, .inl rfl⟩
  | hangsUp leaving => exact ⟨fun _ => .inl (leaving ▸ rfl), fun _ => .inr rfl, .inl, .inl rfl⟩
  | quits => exact ⟨.inl, .inl, fun _ => .inr rfl, .inl rfl⟩
  | joins | releases | tearsDown | closes => exact ⟨.inl, .inl, .inl, .inr rfl⟩
  | _ => exact ⟨.inl, .inl, .inl, .inl rfl⟩

theorem traces_of_move (move : Move s e t) (traces : Traces h s) : Traces (h ++ [e]) t := by
  obtain ⟨out, hungUp, quit, closing⟩ := leaves_of_move move
  have old {e' : Event} (mem : e' ∈ h) : e' ∈ h ++ [e] := List.mem_append_left _ mem
  have new {e' : Event} (same : e = e') : e' ∈ h ++ [e] :=
    List.mem_append_right _ (List.mem_singleton.2 same.symm)
  refine ⟨fun now => ?_, fun now => ?_, fun now => ?_, fun later => ?_⟩
  · exact (out now).elim (fun before => old (traces.out before)) new
  · exact (hungUp now).elim (fun before => old (traces.hungUp before)) new
  · exact (quit now).elim (fun before => old (traces.quit before)) new
  · rcases closing with same | now
    · rw [same] at later ⊢
      exact old (traces.closing later)
    · exact new now

theorem Passage.traces (passage : Passage s h t) (traces : Traces [] s) : Traces h t := by
  induction passage with
  | refl => exact traces
  | step _ move ih => exact traces_of_move move ih

/-- What comes before what when a session with these lines ends. -/
structure LeavesInOrder (lines : List (List Char)) (h : List Event) : Prop where
  /-- the reader finds the end of the input when it has read all lines -/
  ends (h₁ h₂ : List Event) (ends : h = h₁ ++ .inputEnds :: h₂) : linesRead h₁ = lines
  hangsUp (h₁ h₂ : List Event) (hangsUp : h = h₁ ++ .hangsUp :: h₂) : .inputEnds ∈ h₁
  /-- the producer leaves after the reader has hung up, when it has taken all commands and has
  carried out each of them -/
  quits (h₁ h₂ : List Event) (quits : h = h₁ ++ .quits :: h₂) : .hangsUp ∈ h₁ ∧
    taken h₁ = lines.filterMap queued? ∧
    Scripts .producer ((lines.filterMap queued?).map .ofCommand) (part .producer h₁)
  joins (h₁ h₂ : List Event) (joins : h = h₁ ++ .closes .joining :: h₂) : .inputEnds ∈ h₁
  /-- the main thread waits for the producer -/
  releases (h₁ h₂ : List Event) (releases : h = h₁ ++ .closes .releasing :: h₂) :
    .closes .joining ∈ h₁ ∧ .quits ∈ h₁
  /-- and gives up the dispatch system when every request has its answer -/
  tearsDown (h₁ h₂ : List Event) (tearsDown : h = h₁ ++ .closes .delivering :: h₂) :
    .closes .releasing ∈ h₁ ∧
    entered (dispatched h₁) = (replied (dispatched h₁)).map Prod.fst
  closes (h₁ h₂ : List Event) (closes : h = h₁ ++ .closes .closed :: h₂) :
    .closes .delivering ∈ h₁

theorem waiting_of_isReleased (released : s.isReleased) : s.system.waiting = [] := by
  simp only [isReleased, Bool.and_eq_true] at released
  obtain ⟨⟨-, empty⟩, idle⟩ := released
  rw [System.waiting, List.isEmpty_iff.1 empty]
  cases worker : s.system.worker with
  | idle p => rfl
  | busy | dead =>
    rw [worker] at idle
    cases idle

/-- When the producer leaves, it has shown all of its commands. -/
theorem scripts_of_quits {settings : Settings} {outputs : Roster} {lines : List (List Char)}
    {ended : Bool} (passage : Passage (begun settings outputs lines ended) h t)
    (idle : t.producer = .idle) (taken : t.queue = []) (read : t.lines = []) (atEnd : t.ended) :
    Scripts .producer ((lines.filterMap queued?).map .ofCommand) (part .producer h) := by
  have nothing : t.coming .producer = [] := by
    rw [coming, taken, read]
    rfl
  have last : t.ahead .producer = leave .producer .idle := ahead_of_ended nothing atEnd idle
  cases passage.progress rfl (progress_begun settings outputs lines ended .producer) with
  | within _ _ _ midway =>
    have busy := midway.busy
    rw [show t.task .producer = .idle from idle] at busy
    cases busy
  | between split scripts =>
    rw [passage.ended_eq] at atEnd
    rw [last, ahead, if_pos atEnd] at split
    have all := List.append_cancel_right split
    subst all
    exact scripts

theorem Passage.leavesInOrder {settings : Settings} {outputs : Roster} {lines : List (List Char)}
    {ended : Bool} (passage : Passage (begun settings outputs lines ended) h t) :
    LeavesInOrder lines h := by
  have begins : Traces [] (begun settings outputs lines ended) :=
    ⟨nofun, nofun, nofun, fun later => absurd rfl later⟩
  -- where a step is shown, and what has been shown before it
  have reached {e : Event} {h₁ h₂ : List Event} (split : h = h₁ ++ e :: h₂) :
      ∃ m m', Passage (begun settings outputs lines ended) h₁ m ∧ Traces h₁ m ∧ Move m e m' := by
    obtain ⟨m, m', before, move, -⟩ := (split ▸ passage).split_cons
    exact ⟨m, m', before, before.traces begins, move⟩
  have read {k : List Event} {m : Session}
      (before : Passage (begun settings outputs lines ended) k m) (none : m.lines = []) :
      linesRead k = lines := by
    rw [← List.append_nil (linesRead k), ← none]
    exact before.accounts.1.symm
  constructor
  · intro h₁ h₂ ends
    obtain ⟨m, m', before, -, move⟩ := reached ends
    cases move with
    | inputEnds idle none => exact read before none
  · intro h₁ h₂ hangsUp
    obtain ⟨m, m', -, traces, move⟩ := reached hangsUp
    cases move with
    | hangsUp leaving => exact traces.out (leaving ▸ rfl)
  · intro h₁ h₂ quits
    obtain ⟨m, m', before, traces, move⟩ := reached quits
    cases move with
    | quits idle none hungUp nothing ended =>
      have queue := before.accounts.2.1
      rw [none, List.append_nil, read before nothing] at queue
      exact ⟨traces.hungUp hungUp, queue.symm, scripts_of_quits before idle none nothing ended⟩
  · intro h₁ h₂ joins
    obtain ⟨m, m', -, traces, move⟩ := reached joins
    cases move with
    | joins waiting out => exact traces.out out
  · intro h₁ h₂ releases
    obtain ⟨m, m', -, traces, move⟩ := reached releases
    cases move with
    | releases joining quit => exact ⟨joining ▸ traces.closing (joining ▸ nofun), traces.quit quit⟩
  · intro h₁ h₂ tearsDown
    obtain ⟨m, m', before, traces, move⟩ := reached tearsDown
    cases move with
    | tearsDown releasing released =>
      refine ⟨releasing ▸ traces.closing (releasing ▸ nofun), ?_⟩
      obtain ⟨-, fifo, -⟩ := before.served rfl rfl
      rwa [waiting_of_isReleased released, List.append_nil] at fifo
  · intro h₁ h₂ closes
    obtain ⟨m, m', -, traces, move⟩ := reached closes
    cases move with
    | closes delivering => exact delivering ▸ traces.closing (delivering ▸ nofun)

end ProgramControl.Console.Session
