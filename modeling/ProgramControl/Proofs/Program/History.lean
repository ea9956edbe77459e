import ProgramControl.Dispatch.System

/-!
# Histories of a course

A course is carried out by exchanges: an action is begun, time passes, an answer comes back.  What
other threads do meanwhile, and between two exchanges, shows in what is shared: an exchange
records it as it was when the action began and when the answer was there.  So one history stands
for one behaviour of the collaborators and of all other threads, and a statement about all
histories is one about every behaviour.

* `Course.Reaches`        a history leads from a course to what is left of it;
* `Exchange.Keeps`        the rules that what is shared keeps to during a history;
* `Program.Runs`          calls served one after the other, each from where the last one ended.
-/

namespace ProgramControl

variable {σ α β : Type}

namespace Course

/-- The exchanges `h` lead from one course to another. -/
inductive Reaches : Course α → List (Exchange σ) → Course α → Prop where
  | refl (c : Course α) : Reaches c [] c
  | act {action : Action} {next : action.Answer → Course α} {answer : action.Answer}
      {before after : σ} {h : List (Exchange σ)} {c : Course α} (rest : Reaches (next answer) h c) :
      Reaches (.act action next) (⟨action, answer, before, after⟩ :: h) c

theorem reaches_nil {c d : Course α} (h : Reaches c ([] : List (Exchange σ)) d) : d = c := by
  cases h
  rfl

theorem reaches_done {a : α} {h : List (Exchange σ)} {d : Course α} (r : Reaches (.done a) h d) :
    h = [] ∧ d = .done a := by
  cases r
  exact ⟨rfl, rfl⟩

theorem Reaches.trans {c d e : Course α} {h k : List (Exchange σ)} (r : Reaches c h d)
    (s : Reaches d k e) : Reaches c (h ++ k) e := by
  induction r with
  | refl c => exact s
  | act rest ih => exact .act (ih s)

end Course

namespace Exchange

/-- What the shutdown latch was found to be, where the exchange looked at it. -/
def found? : Exchange σ → Option Bool
  | ⟨.readLatch, found, _, _⟩ => some found
  | _ => none

/-- Each exchange keeps to a law, and between two of them others change what is shared only as
they may.  The history begins at the state `s`. -/
def Keeps (law : Exchange σ → Prop) (others : σ → σ → Prop) : σ → List (Exchange σ) → Prop
  | _, [] => True
  | s, x :: h => others s x.before ∧ law x ∧ Keeps law others x.after h

/-- What is shared at the end of a history that began at `s`. -/
def last : σ → List (Exchange σ) → σ
  | s, [] => s
  | _, x :: h => last x.after h

theorem last_append (s : σ) (h k : List (Exchange σ)) :
    last s (h ++ k) = last (last s h) k := by
  induction h generalizing s with
  | nil => rfl
  | cons x h ih => exact ih x.after

theorem keeps_append {law : Exchange σ → Prop} {others : σ → σ → Prop} {s : σ}
    {h k : List (Exchange σ)} :
    Keeps law others s (h ++ k) ↔ Keeps law others s h ∧ Keeps law others (last s h) k := by
  induction h generalizing s with
  | nil => simp only [List.nil_append, Keeps, last, true_and]
  | cons x h ih => simp only [List.cons_append, Keeps, last, ih, and_assoc]

end Exchange

/-- A call that was served: the program before and after it, and what was done. -/
structure Turn (σ : Type) where
  call : Call
  before : Program
  history : List (Exchange σ)
  result : Result
  after : Program

/-- Calls served one after the other, the first on the program `p`, the last one leaving `q`. -/
inductive Program.Runs (fitted : Equipment) : Program → List (Turn σ) → Program → Prop where
  | nil (p : Program) : Runs fitted p [] p
  | cons {call : Call} {p p' q : Program} {h : List (Exchange σ)} {result : Result}
      {turns : List (Turn σ)} (served : (call.service fitted p).Reaches h (.done (result, p')))
      (rest : Runs fitted p' turns q) :
      Runs fitted p (⟨call, p, h, result, p'⟩ :: turns) q

namespace Program

variable {fitted : Equipment} {p q q' : Program} {turns : List (Turn σ)}

/-- All exchanges of a run. -/
def exchanges (turns : List (Turn σ)) : List (Exchange σ) := turns.flatMap (·.history)

theorem exchanges_cons (t : Turn σ) (turns : List (Turn σ)) :
    exchanges (t :: turns) = t.history ++ exchanges turns := List.flatMap_cons

theorem exchanges_concat (turns : List (Turn σ)) (t : Turn σ) :
    exchanges (turns ++ [t]) = exchanges turns ++ t.history := by
  rw [exchanges, exchanges, List.flatMap_append, List.flatMap_singleton]

theorem Runs.concat {call : Call} {h : List (Exchange σ)} {result : Result}
    (run : Runs fitted p turns q)
    (served : (call.service fitted q).Reaches h (.done (result, q'))) :
    Runs fitted p (turns ++ [⟨call, q, h, result, q'⟩]) q' := by
  induction run with
  | nil => exact .cons served (.nil _)
  | cons first _ ih => exact .cons first (ih served)

end Program

end ProgramControl
