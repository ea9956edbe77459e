import ProgramControl.Text.Quoted

/-!
# The roster of auxiliary outputs

Auxiliary outputs (spindle, coolant) are registered once, under names of their own, and told to
stop in the order of registration.  A roster holds no name twice and at most `capacity` names;
both facts are part of the type.

* `names_register`   an accepted name goes to the end;
* `walk`             visits the names in order until the visitor stops it.
-/

namespace ProgramControl

inductive RosterFault where
  | duplicate (name : String)
  | full (capacity : Nat)
  deriving DecidableEq, Repr

namespace RosterFault

def message : RosterFault → String
  | .duplicate name => "auxiliary output '" ++ name ++ "' is already registered"
  | .full capacity => s!"auxiliary registry full ({capacity} outputs)"

end RosterFault

inductive Flow where
  | go
  | stop
  deriving DecidableEq, Repr

structure Roster where
  names : List String
  nodup : names.Nodup
  length_le : names.length ≤ 16
  deriving DecidableEq, Repr

namespace Roster

def capacity : Nat := 16

def empty : Roster := ⟨[], .nil, by decide⟩

instance : Inhabited Roster := ⟨empty⟩

def size (r : Roster) : Nat := r.names.length

def contains (r : Roster) (name : String) : Bool := r.names.contains name

/-- Register an output.  A name that is already there is refused as such even when the roster is
full. -/
def register (r : Roster) (name : String) : Except RosterFault Roster :=
  if mem : name ∈ r.names then .error (.duplicate name)
  else if room : r.names.length < capacity then
    .ok ⟨r.names ++ [name],
      List.nodup_append.2 ⟨r.nodup, List.nodup_cons.2 ⟨List.not_mem_nil, .nil⟩,
        fun a ha b hb => by
          obtain rfl := List.mem_singleton.1 hb
          exact fun e => mem (e ▸ ha)⟩,
      by rw [List.length_append]; exact room⟩
  else .error (.full capacity)

/-- Register names one after the other, leaving out those that are refused. -/
def registerAll (r : Roster) : List String → Roster × List (Except RosterFault Unit)
  | [] => (r, [])
  | n :: ns =>
    match r.register n with
    | .ok r' => let rest := r'.registerAll ns; (rest.1, .ok () :: rest.2)
    | .error e => let rest := r.registerAll ns; (rest.1, .error e :: rest.2)

/-- The roster of these names, if none of them is refused. -/
def ofNames (names : List String) : Except RosterFault Roster := names.foldlM register empty

/-- Visit names in order until the visitor says stop. -/
def walk {m : Type → Type} [Monad m] (visit : String → m Flow) : List String → m Flow
  | [] => pure .go
  | n :: ns => do
    match ← visit n with
    | .go => walk visit ns
    | .stop => pure .stop

def text (r : Roster) : String :=
  "AuxiliaryRegistry \x7b outputs: [" ++ ", ".intercalate (r.names.map Text.quoted) ++ "] \x7d"

theorem names_register {r r' : Roster} {name : String} (h : r.register name = .ok r') :
    r'.names = r.names ++ [name] := by
  unfold register at h
  split at h
  · cases h
  · split at h
    · cases h
      rfl
    · cases h

end Roster

end ProgramControl
