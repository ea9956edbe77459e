import Mathlib.Data.List.Induction
import ProgramControl.Floor

/-!
# The count of outstanding moves is exact

Movers, waiters and halters take their steps in any order.  A mover looks at the halt before it
takes the lock, so it may be counted in after motion was halted; the count is right nevertheless,
because each mover is counted in once and counted out once.  Completions that belong to no move
make the count too small, but never wrap it around.

* `Moves`                what one step does;
* `Sound`                the count, the lock and the halt, at every moment of every run;
* `Sound.step?`          each step keeps it;
* `Late.run`             a mover that comes after a halt is refused;
* `Runs`                 what every step of a run keeps to;
* `outstanding_of_run`   the count is exact, and a wait, an admission and a halt do what they say.
-/

namespace ProgramControl

/-! ## The count in a machine word -/

namespace Motion

variable {m : Motion}

/-- The count of outstanding moves as a machine keeps it. -/
def word (m : Motion) : UInt64 := .ofNat m.outstanding

/-- What may happen to a word that counts: one more where there is room for it, or one less, where
zero stays zero. -/
inductive Counts : UInt64 → UInt64 → Prop where
  | same (w : UInt64) : Counts w w
  | up (w : UInt64) (room : w.toNat + 1 < UInt64.size) : Counts w (w + 1)
  | down (w : UInt64) : Counts w (if w = 0 then 0 else w - 1)

theorem toNat_word (fits : m.outstanding < UInt64.size) : m.word.toNat = m.outstanding :=
  UInt64.toNat_ofNat_of_lt fits

theorem counts_countIn (room : m.outstanding + 1 < UInt64.size) : Counts m.word m.countIn.word := by
  have fits : m.outstanding < UInt64.size := by omega
  have more : m.countIn.word = m.word + 1 := by
    show UInt64.ofNat (m.outstanding + 1) = UInt64.ofNat m.outstanding + 1
    rw [UInt64.ofNat_add]
    rfl
  rw [more]
  refine .up _ ?_
  rwa [toNat_word fits]

theorem counts_completeMove (fits : m.outstanding < UInt64.size) :
    Counts m.word m.completeMove.word := by
  have less : m.completeMove.word = if m.word = 0 then 0 else m.word - 1 := by
    have zero : m.word = 0 ↔ m.outstanding = 0 := by
      rw [← UInt64.toNat_inj, toNat_word fits, UInt64.toNat_zero]
    show UInt64.ofNat (m.outstanding - 1) = _
    split
    · next none => rw [zero.1 none]; rfl
    · next some =>
      have positive : 1 ≤ m.outstanding := Nat.one_le_iff_ne_zero.2 (mt zero.2 some)
      rw [UInt64.ofNat_sub positive]
      rfl
  rw [less]
  exact .down _

end Motion

namespace Floor

variable {f g : Floor} {l : Label} {labels : List Label} {i j strays : Nat}

/-! ## The steps -/

/-- What one step does. -/
inductive Moves (f : Floor) : Label → Floor → Prop where
  | refuse {i : Nat} (place : f.movers[i]? = some .new) (halted : f.motion.halted = true) :
      Moves f (.mover i) (f.setMover i .refused)
  | clear {i : Nat} (place : f.movers[i]? = some .new) (going : f.motion.halted = false) :
      Moves f (.mover i) (f.setMover i .cleared)
  | countIn {i : Nat} (place : f.movers[i]? = some .cleared) (free : f.isLocked = false) :
      Moves f (.mover i) ((f.setMover i .underway).withMotion f.motion.countIn)
  | complete {i : Nat} (place : f.movers[i]? = some .underway) (free : f.isLocked = false) :
      Moves f (.mover i) ((f.setMover i .done).withMotion f.motion.completeMove)
  | enter {i : Nat} (place : f.waiters[i]? = some .new) :
      Moves f (.waiter i) ((f.setWaiter i .entered).withMotion f.motion.enterWait)
  | seesNone {i : Nat} (none : f.motion.outstanding = 0) :
      Moves f (.waiter i) (f.setWaiter i .returned)
  | seesSome {i : Nat} (free : f.isLocked = false) (some : 0 < f.motion.outstanding) :
      Moves f (.waiter i) (f.setWaiter i .looking)
  | released {i : Nat} (halted : f.motion.halted = true) :
      Moves f (.waiter i) (f.setWaiter i .returned)
  | sleep {i : Nat} : Moves f (.waiter i) (f.setWaiter i .asleep)
  | seize {i : Nat} (place : f.halters[i]? = some .new) (going : f.motion.halted = false) :
      Moves f (.halter i) ((f.setHalter i .counting).withMotion f.motion.seize.2)
  | join {i : Nat} (place : f.halters[i]? = some .new) (halted : f.motion.halted = true) :
      Moves f (.halter i) (f.setHalter i .calling)
  | countHalt {i : Nat} (place : f.halters[i]? = some .counting) :
      Moves f (.halter i) ((f.setHalter i .calling).withMotion f.motion.countHalt)
  | call {i : Nat} (place : f.halters[i]? = some .calling) :
      Moves f (.halter i) (f.setHalter i .returned)
  | stray (free : f.isLocked = false) : Moves f .stray (f.withMotion f.motion.completeMove)

theorem unlessLocked_eq_some_iff {f g h : Floor} :
    f.unlessLocked g = some h ↔ f.isLocked = false ∧ g = h := by
  unfold unlessLocked
  split
  · next locked => exact iff_of_false nofun fun free => by cases locked.symm.trans free.1
  · next free => simp only [Bool.eq_false_iff.2 free, Option.some.injEq, true_and]

theorem seize_of_halted {m : Motion} (halted : m.halted = true) : m.seize = (true, m) := by
  rw [Motion.seize, ← halted]

theorem moves_of_moveMover (moved : f.moveMover i = some g) : Moves f (.mover i) g := by
  unfold moveMover at moved
  split at moved
  · next place =>
    cases moved
    cases halted : f.motion.halted with
    | true => simpa [Motion.isHalted, halted] using Moves.refuse place halted
    | false => simpa [Motion.isHalted, halted] using Moves.clear place halted
  · next place =>
    obtain ⟨free, rfl⟩ := unlessLocked_eq_some_iff.1 moved
    exact .countIn place free
  · next place =>
    obtain ⟨free, rfl⟩ := unlessLocked_eq_some_iff.1 moved
    exact .complete place free
  · cases moved

theorem moves_of_look (moved : f.look i = some g) : Moves f (.waiter i) g := by
  obtain ⟨free, rfl⟩ := unlessLocked_eq_some_iff.1 moved
  split
  · next none => exact .seesNone none
  · next some => exact .seesSome free (Nat.pos_of_ne_zero some)

theorem moves_of_moveWaiter (moved : f.moveWaiter i = some g) : Moves f (.waiter i) g := by
  unfold moveWaiter at moved
  split at moved
  · next place =>
    cases moved
    exact .enter place
  · exact moves_of_look moved
  · exact moves_of_look moved
  · cases moved
    split
    · next halted => exact .released halted
    · exact .sleep
  · cases moved

theorem moves_of_moveHalter (moved : f.moveHalter i = some g) : Moves f (.halter i) g := by
  unfold moveHalter at moved
  split at moved
  · next place =>
    cases halted : f.motion.halted with
    | true =>
      rw [seize_of_halted halted] at moved
      cases moved
      exact .join place halted
    | false =>
      have first : f.motion.seize.1 = false := halted
      dsimp only at moved
      rw [first] at moved
      cases moved
      exact .seize place halted
  · next place =>
    cases moved
    exact .countHalt place
  · next place =>
    cases moved
    exact .call place
  · cases moved

theorem moves_of_step? (moved : step? l f = some g) : Moves f l g := by
  cases l with
  | mover i => exact moves_of_moveMover moved
  | waiter i => exact moves_of_moveWaiter moved
  | halter i => exact moves_of_moveHalter moved
  | stray =>
    obtain ⟨free, rfl⟩ := unlessLocked_eq_some_iff.1 moved
    exact .stray free

/-! ### Steps in a row -/

theorem run_mover (place : f.movers[i]? = some .new) (free : f.isLocked = false) :
    (run [.mover i, .mover i] f).motion = f.motion.admitMove.2 := by
  obtain ⟨inside, -⟩ := List.getElem?_eq_some_iff.1 place
  have asked (stage : Mover) : (f.setMover i stage).movers[i]? = some stage :=
    List.getElem?_set_self inside
  have first : step? (.mover i) f =
      some (f.setMover i (if f.motion.isHalted then .refused else .cleared)) := by
    show f.moveMover i = _
    rw [moveMover, place]
  show (step (.mover i) (step (.mover i) f)).motion = _
  rw [step, step, first, Motion.admitMove]
  split
  · have second : step? (.mover i) (f.setMover i .refused) = none := by
      show (f.setMover i .refused).moveMover i = none
      rw [moveMover, asked]
    rw [Option.getD_some, second]
    rfl
  · have second : step? (.mover i) (f.setMover i .cleared) =
        some (((f.setMover i .cleared).setMover i .underway).withMotion f.motion.countIn) := by
      show (f.setMover i .cleared).moveMover i = _
      rw [moveMover, asked]
      exact unlessLocked_eq_some_iff.2 ⟨free, rfl⟩
    rw [Option.getD_some, second]
    rfl

theorem run_halter (place : f.halters[i]? = some .new) :
    (run [.halter i, .halter i, .halter i] f).motion = f.motion.halt := by
  obtain ⟨inside, -⟩ := List.getElem?_eq_some_iff.1 place
  have went (stages : List Halter) (long : stages.length = f.halters.length) (stage : Halter) :
      (stages.set i stage)[i]? = some stage := List.getElem?_set_self (long ▸ inside)
  show (step (.halter i) (step (.halter i) (step (.halter i) f))).motion = _
  cases halted : f.motion.halted with
  | true =>
    rw [Motion.halt, if_pos halted]
    simp [step, step?, moveHalter, place, seize_of_halted halted, setHalter, withMotion, went]
  | false =>
    rw [Motion.halt_eq_seize]
    simp [step, step?, moveHalter, place, Motion.seize, halted, setHalter, withMotion, went]

/-! ## At every moment -/

theorem count_set_add {α : Type} [DecidableEq α] {stages : List α} {a : α} (b c : α)
    (place : stages[i]? = some a) :
    (stages.set i b).count c + (if a = c then 1 else 0) =
      stages.count c + if b = c then 1 else 0 := by
  induction stages generalizing i with
  | nil => cases place
  | cons first rest ih =>
    cases i with
    | zero =>
      obtain rfl : first = a := by simpa using place
      simp only [List.set_cons_zero, List.count_cons, beq_iff_eq]
      omega
    | succ i =>
      have rest := ih (by simpa using place)
      simp only [List.set_cons_succ, List.count_cons]
      omega

/-- The count is the number of moves underway, less some of the stray completions.  One waiter at
most holds the lock, and it has seen moves outstanding.  Motion is halted when some halter has
begun, and then the halt has been counted once or is going to be. -/
structure Sound (strays : Nat) (f : Floor) : Prop where
  most : f.motion.outstanding ≤ f.underway
  least : f.underway ≤ f.motion.outstanding + strays
  alone : f.waiters.count .looking ≤ 1
  seen : .looking ∈ f.waiters → 0 < f.motion.outstanding
  begun : f.motion.halted = true ↔ ∃ h ∈ f.halters, h ≠ .new
  counted : f.motion.halts + f.halters.count .counting = f.motion.halted.toNat

theorem sound_start (movers waiters halters : Nat) : Sound 0 (start movers waiters halters) where
  most := Nat.zero_le _
  least := by simp [underway, start, List.count_replicate]
  alone := by simp [start, List.count_replicate]
  seen mem := by cases List.eq_of_mem_replicate mem
  begun := by
    refine iff_of_false nofun ?_
    rintro ⟨h, mem, begun⟩
    exact begun (List.eq_of_mem_replicate mem)
  counted := by simp [start, List.count_replicate]

theorem not_locked_iff : f.isLocked = false ↔ .looking ∉ f.waiters := by
  rw [isLocked, ← Bool.not_eq_true, List.contains_iff_mem]

/-- A change of the count, while nobody holds the lock. -/
theorem Sound.count {strays' : Nat} (sound : Sound strays f) (free : f.isLocked = false)
    (waiters : g.waiters = f.waiters) (halters : g.halters = f.halters)
    (halted : g.motion.halted = f.motion.halted) (halts : g.motion.halts = f.motion.halts)
    (most : g.motion.outstanding ≤ g.underway)
    (least : g.underway ≤ g.motion.outstanding + strays') : Sound strays' g where
  most := most
  least := least
  alone := waiters ▸ sound.alone
  seen mem := absurd (waiters ▸ mem) (not_locked_iff.1 free)
  begun := by rw [halted, halters]; exact sound.begun
  counted := by rw [halts, halters, halted]; exact sound.counted

theorem underway_countIn (place : f.movers[i]? = some .cleared) :
    (f.movers.set i .underway).count .underway = f.underway + 1 := by
  have counted := count_set_add .underway .underway place
  rwa [if_neg nofun, if_pos rfl] at counted

theorem underway_complete (place : f.movers[i]? = some .underway) :
    (f.movers.set i .done).count .underway + 1 = f.underway := by
  have counted := count_set_add .done .underway place
  rwa [if_pos rfl, if_neg nofun] at counted

theorem Sound.setMover {a b : Mover} (sound : Sound strays f) (place : f.movers[i]? = some a)
    (before : a ≠ .underway) (after : b ≠ .underway) : Sound strays (f.setMover i b) := by
  have same : (f.setMover i b).underway = f.underway := by
    have counted := count_set_add b .underway place
    rwa [if_neg before, if_neg after] at counted
  exact { sound with most := same ▸ sound.most, least := same ▸ sound.least }

theorem Sound.setWaiter {b : Waiter} (sound : Sound strays f)
    (looks : b = .looking → f.isLocked = false ∧ 0 < f.motion.outstanding) :
    Sound strays (f.setWaiter i b) := by
  refine { sound with alone := ?_, seen := ?_ }
  · show (f.waiters.set i b).count .looking ≤ 1
    by_cases inside : i < f.waiters.length
    · have counted := count_set_add b .looking (List.getElem?_eq_getElem inside)
      by_cases look : b = .looking
      · have none := List.count_eq_zero.2 (not_locked_iff.1 (looks look).1)
        rw [if_pos look] at counted
        omega
      · have one := sound.alone
        rw [if_neg look] at counted
        omega
    · rw [List.set_eq_of_length_le (Nat.not_lt.1 inside)]
      exact sound.alone
  · intro mem
    rcases List.mem_or_eq_of_mem_set mem with mem | look
    · exact sound.seen mem
    · exact (looks look.symm).2

theorem Sound.setHalter {a b : Halter} {m : Motion} (sound : Sound strays f)
    (place : f.halters[i]? = some a) (goes : b ≠ .new)
    (count : m.outstanding = f.motion.outstanding) (halted : m.halted = true)
    (counted : m.halts + (f.halters.set i b).count .counting = 1) :
    Sound strays ((f.setHalter i b).withMotion m) where
  most := count ▸ sound.most
  least := count ▸ sound.least
  alone := sound.alone
  seen mem := count ▸ sound.seen mem
  begun := by
    obtain ⟨inside, -⟩ := List.getElem?_eq_some_iff.1 place
    exact iff_of_true halted ⟨b, List.mem_set inside b, goes⟩
  counted := by
    show m.halts + (f.halters.set i b).count .counting = m.halted.toNat
    rw [counted, halted]
    rfl

theorem Sound.halted (sound : Sound strays f) {a : Halter} (place : f.halters[i]? = some a)
    (begun : a ≠ .new) : f.motion.halted = true :=
  sound.begun.2 ⟨a, List.mem_of_getElem? place, begun⟩

theorem Sound.moves (sound : Sound strays f) (moves : Moves f l g) :
    Sound (strays + if l = .stray then 1 else 0) g := by
  have most := sound.most
  have least := sound.least
  have counted := sound.counted
  cases moves with
  | refuse place | clear place => exact sound.setMover place nofun nofun
  | @countIn i place free =>
    have more := underway_countIn place
    refine sound.count free rfl rfl rfl rfl ?_ ?_
    · show f.motion.outstanding + 1 ≤ (f.movers.set i .underway).count .underway
      omega
    · show (f.movers.set i .underway).count .underway ≤ f.motion.outstanding + 1 + strays
      omega
  | @complete i place free =>
    have less := underway_complete place
    refine sound.count free rfl rfl rfl rfl ?_ ?_
    · show f.motion.outstanding - 1 ≤ (f.movers.set i .done).count .underway
      omega
    · show (f.movers.set i .done).count .underway ≤ f.motion.outstanding - 1 + strays
      omega
  | @enter i place =>
    have entered := sound.setWaiter (i := i) (b := .entered) nofun
    exact { entered with }
  | seesNone | released | sleep => exact sound.setWaiter nofun
  | seesSome free some => exact sound.setWaiter fun _ => ⟨free, some⟩
  | seize place going =>
    have count := count_set_add .counting .counting place
    rw [going] at counted
    refine sound.setHalter place nofun rfl rfl ?_
    simp only [reduceCtorEq, if_false, if_true, Bool.toNat_false] at count counted
    show f.motion.halts + _ = 1
    omega
  | join place halted =>
    have count := count_set_add .calling .counting place
    rw [halted] at counted
    refine sound.setHalter (m := f.motion) place nofun rfl halted ?_
    simp only [reduceCtorEq, if_false, Bool.toNat_true] at count counted
    omega
  | countHalt place =>
    have halted := sound.halted place nofun
    have count := count_set_add .calling .counting place
    rw [halted] at counted
    refine sound.setHalter place nofun rfl halted ?_
    simp only [reduceCtorEq, if_false, if_true, Bool.toNat_true] at count counted
    show f.motion.halts + 1 + _ = 1
    omega
  | call place =>
    have halted := sound.halted place nofun
    have count := count_set_add .returned .counting place
    rw [halted] at counted
    refine sound.setHalter (m := f.motion) place nofun rfl halted ?_
    simp only [reduceCtorEq, if_false, Bool.toNat_true] at count counted
    omega
  | stray free =>
    refine sound.count free rfl rfl rfl rfl ?_ ?_
    · show f.motion.outstanding - 1 ≤ f.underway
      omega
    · show f.underway ≤ f.motion.outstanding - 1 + (strays + 1)
      omega

theorem halted_of_moves (moves : Moves f l g) (halted : f.motion.halted = true) :
    g.motion.halted = true := by
  cases moves with
  | seize => rfl
  | _ => exact halted

/-! ## Runs -/

theorem run_append (labels later : List Label) (f : Floor) :
    run (labels ++ later) f = run later (run labels f) := List.foldl_append

theorem run_concat (labels : List Label) (l : Label) (f : Floor) :
    run (labels ++ [l]) f = step l (run labels f) := run_append labels [l] f

theorem step_cases (l : Label) (f : Floor) : Moves f l (step l f) ∨ step l f = f := by
  unfold step
  cases moved : step? l f with
  | some g => exact .inl (moves_of_step? moved)
  | none => exact .inr rfl

theorem sound_run (movers waiters halters : Nat) (labels : List Label) :
    Sound (labels.count .stray) (run labels (start movers waiters halters)) := by
  induction labels using List.reverseRecOn with
  | nil => exact sound_start movers waiters halters
  | append_singleton labels l ih =>
    rw [run_concat, List.count_append, List.count_singleton]
    rcases step_cases l (run labels (start movers waiters halters)) with moves | same
    · simpa only [beq_iff_eq] using ih.moves moves
    · rw [same]
      exact { ih with least := Nat.le_trans ih.least (by omega) }

theorem halted_run (halted : f.motion.halted = true) (labels : List Label) :
    (run labels f).motion.halted = true := by
  induction labels using List.reverseRecOn with
  | nil => exact halted
  | append_singleton labels l ih =>
    rw [run_concat]
    rcases step_cases l (run labels f) with moves | same
    · exact halted_of_moves moves ih
    · rw [same]
      exact ih

/-! ## Movers that come late -/

/-- Motion is halted, and the mover has not asked or was refused. -/
structure Late (i : Nat) (f : Floor) : Prop where
  halted : f.motion.halted = true
  out : f.movers[i]? = some .new ∨ f.movers[i]? = some .refused

/-- The mover is refused as soon as it asks, and nothing but its own stage changes; or that has
happened. -/
def Refuses (i : Nat) (f : Floor) : Prop :=
  (f.movers[i]? = some .new ∧ step? (.mover i) f = some (f.setMover i .refused)) ∨
    (f.movers[i]? = some .refused ∧ step? (.mover i) f = none)

theorem Late.refuses (late : Late i f) : Refuses i f := by
  rcases late.out with place | place
  · refine .inl ⟨place, ?_⟩
    show f.moveMover i = _
    rw [moveMover, place]
    simp only [Motion.isHalted, late.halted, if_true]
  · refine .inr ⟨place, ?_⟩
    show f.moveMover i = _
    rw [moveMover, place]

theorem Late.moves (late : Late i f) (moves : Moves f l g) : Late i g := by
  refine ⟨halted_of_moves moves late.halted, ?_⟩
  have asked {stage : Mover} (place : f.movers[i]? = some stage) :
      (f.movers.set i .refused)[i]? = some .refused := by
    obtain ⟨inside, -⟩ := List.getElem?_eq_some_iff.1 place
    exact List.getElem?_set_self inside
  have stays {j : Nat} {stage : Mover} (ne : j ≠ i) :
      (f.movers.set j stage)[i]? = some .new ∨ (f.movers.set j stage)[i]? = some .refused := by
    rw [List.getElem?_set_ne ne]
    exact late.out
  cases moves with
  | @refuse j place =>
    by_cases own : j = i
    · subst own
      exact .inr (asked place)
    · exact stays own
  | @clear j place going => cases late.halted.symm.trans going
  | @countIn j place | @complete j place =>
    refine stays ?_
    rintro rfl
    rcases late.out with out | out <;> cases out.symm.trans place
  | _ => exact late.out

theorem Late.run (late : Late i f) (labels : List Label) : Late i (Floor.run labels f) := by
  induction labels using List.reverseRecOn with
  | nil => exact late
  | append_singleton labels l ih =>
    rw [run_concat]
    rcases step_cases l (Floor.run labels f) with moves | same
    · exact ih.moves moves
    · rw [same]
      exact ih

/-! ## The main statement -/

/-- What a step does, where so many stray completions were asked for before it: to complete a move
takes one from the count, a wait returns only where no move is outstanding or motion is halted, and
the word that holds the count does not wrap around. -/
structure Runs (strays : Nat) (f : Floor) (l : Label) (g : Floor) : Prop where
  completes (i : Nat) : l = .mover i → f.movers[i]? = some .underway → strays = 0 →
    g.motion.outstanding + 1 = f.motion.outstanding
  returns (i : Nat) : g.waiters[i]? = some .returned → f.waiters[i]? ≠ some .returned →
    (f.motion.outstanding = 0 ∨ f.motion.halted = true) ∧ g.motion = f.motion
  word : f.underway < UInt64.size → g.underway < UInt64.size →
    f.motion.word.toNat = f.motion.outstanding ∧ Motion.Counts f.motion.word g.motion.word

theorem mem_returned_set {stages : List Waiter} {b : Waiter}
    (returned : (stages.set i b)[j]? = some .returned) (before : stages[j]? ≠ some .returned) :
    b = .returned := by
  by_cases same : i = j
  · subst same
    by_cases inside : i < stages.length
    · rw [List.getElem?_set_self inside] at returned
      exact Option.some.inj returned
    · rw [List.set_eq_of_length_le (Nat.not_lt.1 inside)] at returned
      exact absurd returned before
  · rw [List.getElem?_set_ne same] at returned
    exact absurd returned before

/-- A wait returns where no move is outstanding or motion is halted. -/
theorem returns_of_moves (moves : Moves f l g) (returned : g.waiters[j]? = some .returned)
    (before : f.waiters[j]? ≠ some .returned) :
    (f.motion.outstanding = 0 ∨ f.motion.halted = true) ∧ g.motion = f.motion := by
  cases moves with
  | seesNone none => exact ⟨.inl none, rfl⟩
  | released halted => exact ⟨.inr halted, rfl⟩
  | enter | seesSome | sleep => cases mem_returned_set returned before
  | _ => exact absurd returned before

theorem Sound.counts_of_moves (sound : Sound strays f) (moves : Moves f l g)
    (few : f.underway < UInt64.size) (few' : g.underway < UInt64.size) :
    Motion.Counts f.motion.word g.motion.word := by
  have most := sound.most
  cases moves with
  | @countIn i place free =>
    -- the mover that is counted in was not underway, so there is room for one more
    have more := underway_countIn place
    have few' : (f.movers.set i .underway).count .underway < UInt64.size := few'
    exact Motion.counts_countIn (by omega)
  | complete | stray => exact Motion.counts_completeMove (by omega)
  | _ => exact .same _

theorem Sound.runs (sound : Sound strays f) (moves : Moves f l g) : Runs strays f l g where
  completes i own place none := by
    have one : 0 < f.underway := List.count_pos_iff.2 (List.mem_of_getElem? place)
    have least := sound.least
    subst own none
    cases moves with
    | complete =>
      show f.motion.outstanding - 1 + 1 = f.motion.outstanding
      omega
    | refuse other | clear other | countIn other => cases other.symm.trans place
  returns _ := returns_of_moves moves
  word few few' :=
    ⟨Motion.toNat_word (Nat.lt_of_le_of_lt sound.most few), sound.counts_of_moves moves few few'⟩

/-- Motion is halted when a halter has begun, and it is halted once.  The first halter counts the
halt; while it has not done so others may have returned. -/
structure HaltsOnce (f : Floor) : Prop where
  halted : f.motion.halted = true ↔ ∃ h ∈ f.halters, h ≠ .new
  counted : f.motion.halts + f.halters.count .counting = f.motion.halted.toNat
  after : .returned ∈ f.halters → (∀ h ∈ f.halters, h = .new ∨ h = .returned) →
    f.motion.halted = true ∧ f.motion.halts = 1

theorem Sound.haltsOnce (sound : Sound strays f) : HaltsOnce f where
  halted := sound.begun
  counted := sound.counted
  after returned quiet := by
    have halted := sound.begun.2 ⟨_, returned, nofun⟩
    have none : f.halters.count .counting = 0 :=
      List.count_eq_zero.2 fun mem => by rcases quiet _ mem with same | same <;> cases same
    have counted := sound.counted
    rw [none, halted] at counted
    exact ⟨halted, counted⟩

/-- **The count of outstanding moves is exact.**  Movers, waiters and halters take their steps in
any order.  Unless there are stray completions, the count is at every moment the number of moves
that were admitted and whose completion has not run; with them it is less by their number at most.
Each step does what it should, a halt is final and is counted once, and a mover that comes after a
halt has returned is refused. -/
theorem outstanding_of_run (movers waiters halters : Nat) (labels : List Label) :
    let f := run labels (start movers waiters halters)
    (.stray ∉ labels → f.motion.outstanding = f.underway) ∧
    f.motion.outstanding ≤ f.underway ∧
    f.underway ≤ f.motion.outstanding + labels.count .stray ∧
    (∀ l g, step? l f = some g → Runs (labels.count .stray) f l g) ∧
    HaltsOnce f ∧
    (f.motion.halted = true → ∀ later, (run later f).motion.halted = true) ∧
    (∀ i, .returned ∈ f.halters → f.movers[i]? = some .new →
      ∀ later, Refuses i (run later f)) := by
  intro f
  have sound : Sound (labels.count .stray) f := sound_run movers waiters halters labels
  refine ⟨fun none => ?_, sound.most, sound.least, fun l g moved => ?_, sound.haltsOnce,
    halted_run, fun i returned place later => ?_⟩
  · have least := sound.least
    rw [List.count_eq_zero.2 none] at least
    exact Nat.le_antisymm sound.most least
  · exact sound.runs (moves_of_step? moved)
  · have halted := sound.begun.2 ⟨_, returned, nofun⟩
    exact (Late.run ⟨halted, .inl place⟩ later).refuses

/-- The first mover finds motion not halted, both halters begin, and the second of them returns.
Now the first mover is counted in, although motion is halted, and the count is right; the second
one comes too late. -/
theorem outstanding_of_run_countedLate :
    let labels : List Label := [.mover 0, .halter 0, .halter 1, .halter 1, .mover 0]
    let f := run labels (start 2 1 2)
    .stray ∉ labels ∧ f.motion.halted = true ∧ f.motion.outstanding = 1 ∧ f.underway = 1 ∧
    .returned ∈ f.halters ∧ f.movers[1]? = some .new ∧ ∀ later, Refuses 1 (run later f) := by
  intro labels f
  obtain ⟨exact_, -, -, -, -, -, late⟩ := outstanding_of_run 2 1 2 labels
  have none : .stray ∉ labels := by decide
  have one : f.underway = 1 := by decide
  have returned : .returned ∈ f.halters := by decide
  exact ⟨none, rfl, (exact_ none).trans one, one, returned, rfl, late 1 returned rfl⟩

end Floor

end ProgramControl
