import ProgramControl.Toml.Scalar

/-!
# Tables under construction

While a document is read, its tables are a tree in which each table remembers how it came about,
because that decides what may still be added to it:

* `header`   by a header of its own; no second header and no dotted key may open it again;
* `implied`  because a header named something below it; a header may still make it its own;
* `dotted`   by dotted keys; further dotted keys may add to it, no header.

A `series` is a list of tables with repeated headers `[[…]]`; what is added to it goes to the last
of them.  A value that is written out, inline tables included, is closed.

* `openTable`, `openElement`   the effect of the two kinds of header;
* `assign`                     the effect of a key and a value under a header.
-/

namespace ProgramControl.Toml

inductive TableKind where
  | header
  | implied
  | dotted
  deriving DecidableEq, Repr

inductive Node where
  | value (v : Value)
  | table (kind : TableKind) (entries : List (String × Node))
  | series (tables : List (List (String × Node)))
  deriving Repr, Inhabited

abbrev Entries := List (String × Node)

namespace Entries

def alter (key : String) (f : Option Node → Option Node) : Entries → Option Entries
  | [] => (f none).map fun n => [(key, n)]
  | (k, n) :: es =>
    if k = key then (f (some n)).map fun n => (k, n) :: es
    else (alter key f es).map ((k, n) :: ·)

def alterLast (f : Entries → Option Entries) : List Entries → Option (List Entries)
  | [] => none
  | [es] => (f es).map ([·])
  | es :: ts => (alterLast f ts).map (es :: ·)

/-- Change the table that a header's path leads to.  Tables missing on the way are implied. -/
def descend (f : Entries → Option Entries) : List String → Entries → Option Entries
  | [], es => f es
  | key :: path, es => alter key (fun
    | none => (descend f path []).map (.table .implied)
    | some (.table kind es) => (descend f path es).map (.table kind)
    | some (.series ts) => (alterLast (descend f path) ts).map .series
    | some (.value _) => none) es

/-- The header `[path.key]`. -/
def openTable (path : List String) (key : String) : Entries → Option Entries :=
  descend (alter key fun
    | none => some (.table .header [])
    | some (.table .implied es) => some (.table .header es)
    | some _ => none) path

/-- The header `[[path.key]]`. -/
def openElement (path : List String) (key : String) : Entries → Option Entries :=
  descend (alter key fun
    | none => some (.series [[]])
    | some (.series ts) => some (.series (ts ++ [[]]))
    | some _ => none) path

/-- A key, dotted or not, and its value.  The table in which a dotted key ends must be made by
dotted keys: `fixed` says that the one reached is not. -/
def assignIn (v : Value) : List String → (fixed : Bool) → Entries → Option Entries
  | [], _, _ => none
  | [key], fixed, es =>
    if fixed then none
    else alter key (fun
      | none => some (.value v)
      | some _ => none) es
  | key :: path, _, es => alter key (fun
    | none => (assignIn v path false []).map (.table .dotted)
    | some (.table .dotted es) => (assignIn v path false es).map (.table .dotted)
    | some (.table .implied es) => (assignIn v path true es).map (.table .implied)
    | some (.series ts) => (alterLast (assignIn v path true) ts).map .series
    | some _ => none) es

/-- A key and its value in the table they stand in. -/
def assign (v : Value) (path : List String) (es : Entries) : Option Entries :=
  assignIn v path false es

end Entries

/-! ## The finished value -/

mutual
def Node.toValue : Node → Value
  | .value v => v
  | .table _ es => .table (entriesToValues es)
  | .series ts => .array (seriesToValues ts)

def entriesToValues : List (String × Node) → List (String × Value)
  | [] => []
  | (k, n) :: es => (k, n.toValue) :: entriesToValues es

def seriesToValues : List (List (String × Node)) → List Value
  | [] => []
  | es :: ts => .table (entriesToValues es) :: seriesToValues ts
end

end ProgramControl.Toml
