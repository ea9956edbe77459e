import Mathlib.Data.List.Induction
import ProgramControl.Proofs.Settings.Registration

/-!
# Who is on the roster, and who is visited

A roster is the outcome of the calls that were made to register names, some of them refused; at the
end of a program a visitor goes through it, who may remember what it likes and may stop at any
name.

* `admitted`              the names of the calls that were accepted;
* `names_registerAll`     they are the names on the roster, in the order of the calls;
* `names_eq_take`         which are the first different names, as many as there is room for;
* `Rules`                 what decides about the next call;
* `Tours`                 the part of the names that a visitor sees, with what it says;
* `tours_walk`            a walk is such a tour, whatever the visitor remembers;
* `roster_of_calls`       all of this for every sequence of calls and every visitor.
-/

namespace ProgramControl

namespace Roster

variable {r r' : Roster} {name : String} {names calls : List String}

/-! ## One call -/

/-- The answer to a call, from the names on the roster: a name among them is refused as repeated,
another one for want of room, and otherwise the name goes to the end. -/
structure Rules (r : Roster) (names : List String) : Prop where
  duplicate (name other : String) :
    r.register name = .error (.duplicate other) ↔ other = name ∧ name ∈ names
  full (name : String) (room : Nat) :
    r.register name = .error (.full room) ↔
      room = capacity ∧ name ∉ names ∧ names.length = capacity
  accepts (name : String) :
    (∃ r', r.register name = .ok r' ∧ r'.names = names ++ [name]) ↔
      name ∉ names ∧ names.length < capacity

theorem register_of_full (fresh : name ∉ r.names) (full : ¬ r.names.length < capacity) :
    r.register name = .error (.full capacity) := by
  rw [register, dif_neg fresh, dif_neg full]

theorem exists_register (fresh : name ∉ r.names) (room : r.names.length < capacity) :
    ∃ r', r.register name = .ok r' ∧ r'.names = r.names ++ [name] := by
  have accepted : ∃ r', r.register name = .ok r' := by
    rw [register, dif_neg fresh, dif_pos room]
    exact ⟨_, rfl⟩
  obtain ⟨r', accepted⟩ := accepted
  exact ⟨r', accepted, names_register accepted⟩

theorem register_cases (r : Roster) (name : String) :
    (name ∈ r.names ∧ r.register name = .error (.duplicate name)) ∨
    (name ∉ r.names ∧ r.names.length = capacity ∧ r.register name = .error (.full capacity)) ∨
    (name ∉ r.names ∧ r.names.length < capacity ∧
      ∃ r', r.register name = .ok r' ∧ r'.names = r.names ++ [name]) := by
  by_cases mem : name ∈ r.names
  · exact .inl ⟨mem, register_of_mem mem⟩
  · by_cases room : r.names.length < capacity
    · exact .inr (.inr ⟨mem, room, exists_register mem room⟩)
    · have few : r.names.length ≤ capacity := r.length_le
      exact .inr (.inl ⟨mem, by omega, register_of_full mem room⟩)

theorem rules (r : Roster) : Rules r r.names where
  duplicate name other := by
    rcases register_cases r name with ⟨mem, answer⟩ | ⟨fresh, -, answer⟩ | ⟨fresh, -, r', answer, -⟩
    · rw [answer]
      simp only [Except.error.injEq, RosterFault.duplicate.injEq, mem, and_true, eq_comm]
    · rw [answer]
      exact iff_of_false nofun fun same => fresh same.2
    · rw [answer]
      exact iff_of_false nofun fun same => fresh same.2
  full name room := by
    rcases register_cases r name with
      ⟨mem, answer⟩ | ⟨fresh, full, answer⟩ | ⟨-, free, r', answer, -⟩
    · rw [answer]
      exact iff_of_false nofun fun full => full.2.1 mem
    · rw [answer]
      simp only [Except.error.injEq, RosterFault.full.injEq, fresh, full, not_false_eq_true,
        and_true, eq_comm]
    · rw [answer]
      exact iff_of_false nofun fun full => absurd full.2.2 (Nat.ne_of_lt free)
  accepts name := by
    rcases register_cases r name with
      ⟨mem, answer⟩ | ⟨-, full, answer⟩ | ⟨fresh, free, r', answer, longer⟩
    · rw [answer]
      exact iff_of_false nofun fun fine => fine.1 mem
    · rw [answer]
      exact iff_of_false nofun fun fine => absurd full (Nat.ne_of_lt fine.2)
    · exact iff_of_true ⟨r', answer, longer⟩ ⟨fresh, free⟩

/-! ## All calls -/

/-- The names of the calls that were accepted, in the order of the calls. -/
def admitted (calls : List String) (answers : List (Except RosterFault Unit)) : List String :=
  ((calls.zip answers).filter fun call => call.2.isOk).map Prod.fst

/-- What one more call makes of a roster and of the answers so far. -/
def callOnce (sofar : Roster × List (Except RosterFault Unit)) (name : String) :
    Roster × List (Except RosterFault Unit) :=
  match sofar.1.register name with
  | .ok r => (r, sofar.2 ++ [.ok ()])
  | .error fault => (sofar.1, sofar.2 ++ [.error fault])

theorem registerAll_append (r : Roster) (calls later : List String) :
    r.registerAll (calls ++ later) =
      (((r.registerAll calls).1.registerAll later).1,
        (r.registerAll calls).2 ++ ((r.registerAll calls).1.registerAll later).2) := by
  induction calls generalizing r with
  | nil => rfl
  | cons name calls ih =>
    rw [List.cons_append, registerAll, registerAll]
    cases r.register name with
    | ok next => simp only [ih next, List.cons_append]
    | error fault => simp only [ih r, List.cons_append]

theorem registerAll_concat (r : Roster) (calls : List String) (name : String) :
    r.registerAll (calls ++ [name]) = callOnce (r.registerAll calls) name := by
  rw [registerAll_append, callOnce, registerAll]
  cases (r.registerAll calls).1.register name with
  | ok next => rfl
  | error fault => rfl

theorem length_registerAll (r : Roster) (calls : List String) :
    (r.registerAll calls).2.length = calls.length := by
  induction calls generalizing r with
  | nil => rfl
  | cons name calls ih =>
    rw [registerAll]
    cases r.register name with
    | ok next => simp only [List.length_cons, ih next]
    | error fault => simp only [List.length_cons, ih r]

/-- The accepted names go to the end of the roster one after the other, and the others leave it as
it was. -/
theorem names_registerAll (r : Roster) (calls : List String) :
    (r.registerAll calls).1.names = r.names ++ admitted calls (r.registerAll calls).2 := by
  induction calls generalizing r with
  | nil => exact (List.append_nil _).symm
  | cons name calls ih =>
    rw [registerAll]
    cases answer : r.register name with
    | ok next =>
      simp only [ih next, names_register answer, List.append_assoc]
      rfl
    | error fault =>
      simp only [ih r]
      rfl

/-- Different names, in the order in which they were first called. -/
theorem eraseDups_concat (calls : List String) (name : String) :
    (calls ++ [name]).eraseDups =
      if name ∈ calls then calls.eraseDups else calls.eraseDups ++ [name] := by
  rw [List.eraseDups_append]
  by_cases mem : name ∈ calls
  · rw [if_pos mem]
    simp [List.removeAll, mem]
  · have fresh : [name].removeAll calls = [name] := by simp [List.removeAll, mem]
    rw [if_neg mem, fresh, List.eraseDups_cons]
    rfl

/-- No matter in which order names are called and how often, the roster holds the first different
ones. -/
theorem names_eq_take (calls : List String) :
    (empty.registerAll calls).1.names = calls.eraseDups.take capacity := by
  induction calls using List.reverseRecOn with
  | nil => rfl
  | append_singleton calls name ih =>
    generalize made : empty.registerAll calls = sofar at ih
    rw [registerAll_concat, made, callOnce, eraseDups_concat]
    rcases register_cases sofar.1 name with
      ⟨mem, answer⟩ | ⟨-, full, answer⟩ | ⟨fresh, room, r', answer, longer⟩
    · rw [ih] at mem
      have called : name ∈ calls := List.mem_eraseDups.1 (List.mem_of_mem_take mem)
      rw [answer, if_pos called]
      exact ih
    · have long : capacity ≤ calls.eraseDups.length := by
        rw [ih, List.length_take] at full
        omega
      rw [answer]
      show sofar.1.names = _
      split
      · exact ih
      · rw [List.take_append_of_le_length long]
        exact ih
    · have short : calls.eraseDups.length < capacity := by
        rw [ih, List.length_take] at room
        omega
      -- so far no name was refused for want of room
      have all : sofar.1.names = calls.eraseDups := ih.trans (List.take_of_length_le (by omega))
      have new : name ∉ calls := fun mem => fresh (all ▸ List.mem_eraseDups.2 mem)
      rw [answer, if_neg new, List.take_of_length_le]
      · exact longer.trans (by rw [all])
      · rw [List.length_append, List.length_singleton]
        omega

/-! ## Visitors -/

section

variable {σ : Type} {visit : String → StateM σ Flow} {s m t : σ} {seen : List String} {flow : Flow}

/-- Shown these names one after the other, the visitor says go each time. -/
inductive SaysGo (visit : String → StateM σ Flow) : σ → List String → σ → Prop where
  | nil (s : σ) : SaysGo visit s [] s
  | cons {name : String} {names : List String} {s m t : σ} (first : visit name s = (.go, m))
      (rest : SaysGo visit m names t) : SaysGo visit s (name :: names) t

/-- The visitor sees the names up to the first at which it says stop, and all of them if there is
none. -/
inductive Tours (visit : String → StateM σ Flow) (names : List String) (s : σ) :
    (seen : List String) → Flow → σ → Prop where
  | whole {t : σ} (goes : SaysGo visit s names t) : Tours visit names s names .go t
  | upTo {before after : List String} {name : String} {m t : σ}
      (split : names = before ++ name :: after) (goes : SaysGo visit s before m)
      (stops : visit name m = (.stop, t)) : Tours visit names s (before ++ [name]) .stop t

theorem Tours.cons (first : visit name s = (.go, m)) (rest : Tours visit names m seen flow t) :
    Tours visit (name :: names) s (name :: seen) flow t := by
  cases rest with
  | whole goes => exact .whole (.cons first goes)
  | upTo split goes stops => exact .upTo (congrArg (name :: ·) split) (.cons first goes) stops

/-- The visitor with a list of the names it was shown. -/
def noting (visit : String → StateM σ Flow) (name : String) : StateM (List String × σ) Flow :=
  fun noted => ((visit name noted.2).1, noted.1 ++ [name], (visit name noted.2).2)

theorem walk_go (shown : visit name s = (.go, m)) (names : List String) :
    walk visit (name :: names) s = walk visit names m := by
  simp only [walk, bind, StateT.bind, shown]

theorem walk_stop (shown : visit name s = (.stop, t)) (names : List String) :
    walk visit (name :: names) s = (.stop, t) := by
  simp only [walk, bind, StateT.bind, shown]
  rfl

theorem tours_walk (visit : String → StateM σ Flow) (names before : List String) (s : σ) :
    ∃ seen, Tours visit names s seen (walk visit names s).1 (walk visit names s).2 ∧
      walk (noting visit) names (before, s) =
        ((walk visit names s).1, before ++ seen, (walk visit names s).2) := by
  induction names generalizing before s with
  | nil => exact ⟨[], .whole (.nil s), by rw [List.append_nil]; rfl⟩
  | cons name names ih =>
    rcases shown : visit name s with ⟨flow, m⟩
    have noted : noting visit name (before, s) = (flow, before ++ [name], m) := by
      rw [noting, shown]
    cases flow with
    | go =>
      obtain ⟨seen, tours, same⟩ := ih (before ++ [name]) m
      rw [walk_go shown, walk_go noted]
      refine ⟨name :: seen, tours.cons shown, same.trans ?_⟩
      rw [List.append_assoc, List.singleton_append]
    | stop =>
      rw [walk_stop shown, walk_stop noted]
      exact ⟨[name], .upTo rfl (.nil s) shown, rfl⟩

end

/-! ## Both together -/

/-- The roster that calls have led to: it holds the names that were accepted, which are the first
different ones, and goes by them in its next answer; a refusal leaves it as it is. -/
structure Follows (calls : List String) (r : Roster) (answers : List (Except RosterFault Unit)) :
    Prop where
  answered : answers.length = calls.length
  names : r.names = admitted calls answers
  nodup : (admitted calls answers).Nodup
  few : (admitted calls answers).length ≤ capacity
  first : admitted calls answers = calls.eraseDups.take capacity
  rules : Rules r (admitted calls answers)
  next (name : String) : empty.registerAll (calls ++ [name]) = callOnce (r, answers) name

/-- **Whatever calls are made, the roster holds the accepted names in order**, different from one
another and no more than there is room for, and it refuses the others for the reason that applies.
A visitor with any memory is shown these names up to the first at which it says stop. -/
theorem roster_of_calls (calls : List String) :
    let r := (empty.registerAll calls).1
    let answers := (empty.registerAll calls).2
    Follows calls r answers ∧
      ∀ {σ : Type} (visit : String → StateM σ Flow) (s : σ),
        let ends := walk visit r.names s
        ∃ seen, Tours visit (admitted calls answers) s seen ends.1 ends.2 ∧
          walk (noting visit) r.names ([], s) = (ends.1, seen, ends.2) := by
  intro r answers
  have names : r.names = admitted calls answers := names_registerAll empty calls
  constructor
  · refine ⟨length_registerAll empty calls, names, ?_, ?_, ?_, ?_, registerAll_concat empty calls⟩
    · exact names ▸ r.nodup
    · exact names ▸ r.length_le
    · exact names ▸ names_eq_take calls
    · exact names ▸ rules r
  · intro σ visit s ends
    obtain ⟨seen, tours, noted⟩ := tours_walk visit r.names [] s
    exact ⟨seen, names ▸ tours, noted⟩

/-- A roster of sixteen names refuses one of them as repeated, and another name for want of
room. -/
example :
    let calls := "abcdefghijklmnop".toList.map String.singleton
    (empty.registerAll (calls ++ ["p", "q"])).2.drop 16 =
      [.error (.duplicate "p"), .error (.full 16)] := by rfl

end Roster

end ProgramControl
