import ProgramControl.Json.Numeral

/-!
# JSON values

A value is kept as it is written, numbers with their digits (`Numeral`).  A quoted text is `none`
when its escapes are no text (a surrogate without its partner): such a text may stand where nobody
looks at it, and is refused where a text is wanted.

* `Value.text`    the compact written form;
* `Value.fields?` what a record reader sees of a value.
-/

namespace ProgramControl.Json

inductive Value where
  | null
  | bool (b : Bool)
  | number (n : Numeral)
  | string (s : Option String)
  | array (items : List Value)
  | object (members : List (Option String × Value))
  deriving Repr, Inhabited

/-! ## The written form -/

/-- The four lower-case hexadecimal digits of a code below 16⁴. -/
def hex4 (n : Nat) : List Char :=
  let ds := Nat.toDigits 16 n
  List.replicate (4 - ds.length) '0' ++ ds

def escaped (c : Char) : List Char :=
  if c = '"' then ['\\', '"']
  else if c = '\\' then ['\\', '\\']
  else if c = '\x08' then ['\\', 'b']
  else if c = '\t' then ['\\', 't']
  else if c = '\n' then ['\\', 'n']
  else if c = '\x0c' then ['\\', 'f']
  else if c = '\r' then ['\\', 'r']
  else if c < ' ' then '\\' :: 'u' :: hex4 c.toNat
  else [c]

/-- A quoted text; what is no text is written as a surrogate on its own. -/
def quoted : Option String → List Char
  | some s => '"' :: (s.toList.flatMap escaped ++ ['"'])
  | none => "\"\\ud800\"".toList

namespace Value

mutual
def text : Value → List Char
  | .null => "null".toList
  | .bool true => "true".toList
  | .bool false => "false".toList
  | .number n => n.text
  | .string s => quoted s
  | .array items => '[' :: (itemsText items ++ [']'])
  | .object members => '\x7b' :: (membersText members ++ ['\x7d'])

def itemsText : List Value → List Char
  | [] => []
  | [v] => v.text
  | v :: vs => v.text ++ ',' :: itemsText vs

def membersText : List (Option String × Value) → List Char
  | [] => []
  | [(k, v)] => quoted k ++ ':' :: v.text
  | (k, v) :: ms => quoted k ++ ':' :: (v.text ++ ',' :: membersText ms)
end

def ofNat (n : Nat) : Value := .number (.ofNat n)
def ofString (s : String) : Value := .string (some s)
def record (members : List (String × Value)) : Value :=
  .object (members.map fun m => (some m.1, m.2))

/-! ## What readers of a value see -/

def bool? : Value → Option Bool
  | .bool b => some b
  | _ => none

def nat? : Value → Option Nat
  | .number n => n.nat?
  | _ => none

def string? : Value → Option String
  | .string s => s
  | _ => none

/-- The members of an object that have a known name.  Every name must be a text and no known one
may occur twice. -/
def knownMembers (known : List String) :
    List (Option String × Value) → Option (List (String × Value))
  | [] => some []
  | (none, _) :: _ => none
  | (some k, v) :: ms =>
    match knownMembers known ms with
    | none => none
    | some fs =>
      if known.contains k then
        if fs.any (·.1 == k) then none else some ((k, v) :: fs)
      else some fs

/-- The known fields of a record: by name in an object, where other names are passed over, or by
place in an array, where there may be fewer but not more. -/
def fields? (known : List String) : Value → Option (List (String × Value))
  | .object members => knownMembers known members
  | .array items => if items.length ≤ known.length then some (known.zip items) else none
  | _ => none

/-- The name of a choice without content: a text, or an object with that one name and `null`. -/
def choice? : Value → Option String
  | .string s => s
  | .object [(k, .null)] => k
  | _ => none

mutual
/-- Every text within the value is a text and every number has a double. -/
def isPlain : Value → Bool
  | .number n => n.isFinite
  | .string s => s.isSome
  | .array items => allPlain items
  | .object members => allPlainMembers members
  | _ => true

def allPlain : List Value → Bool
  | [] => true
  | v :: vs => v.isPlain && allPlain vs

def allPlainMembers : List (Option String × Value) → Bool
  | [] => true
  | (k, v) :: ms => k.isSome && v.isPlain && allPlainMembers ms
end

mutual
/-- How deep arrays and objects are nested. -/
def depth : Value → Nat
  | .array items => depthItems items + 1
  | .object members => depthMembers members + 1
  | _ => 0

def depthItems : List Value → Nat
  | [] => 0
  | v :: vs => max v.depth (depthItems vs)

def depthMembers : List (Option String × Value) → Nat
  | [] => 0
  | (_, v) :: ms => max v.depth (depthMembers ms)
end

end Value

end ProgramControl.Json
