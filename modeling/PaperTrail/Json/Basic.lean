import PaperTrail.Number

/-!
# JSON values

* `Json` : a JSON value; an object keeps its members in the order of the text, repeated names
  included. The value `unreadable` stands for a literal that the grammar admits and that names no
  value: a text with half of a surrogate pair, a number out of range, an object with such a text
  as a name;
* `Json.depth`, `Json.isReadable`, `Json.fits` : the nesting of a value, and whether all of it can
  be used by a reader that admits a certain nesting;
* `Json.get?` : the member of a name.
-/

namespace PaperTrail

inductive Json where
  | null
  | bool (value : Bool)
  | number (value : Number)
  | string (value : String)
  | array (items : List Json)
  | object (members : List (String × Json))
  | unreadable
deriving Inhabited

namespace Json

def int (i : Int) : Json := .number (.int i)

/-- A text, or null where there is none. -/
def ofText? : Option String → Json
  | none => .null
  | some s => .string s

def ofList {α : Type} (f : α → Json) (xs : List α) : Json := .array (xs.map f)

def ofTexts (xs : List String) : Json := ofList .string xs

mutual

/-- How deeply arrays and objects are nested: `0` for a value that is neither. -/
def depth : Json → Nat
  | array items => depthOfItems items + 1
  | object members => depthOfMembers members + 1
  | _ => 0

def depthOfItems : List Json → Nat
  | [] => 0
  | v :: rest => max v.depth (depthOfItems rest)

def depthOfMembers : List (String × Json) → Nat
  | [] => 0
  | (_, v) :: rest => max v.depth (depthOfMembers rest)

end

mutual

/-- Whether every part of the value names something. -/
def isReadable : Json → Bool
  | unreadable => false
  | array items => areReadable items
  | object members => membersReadable members
  | _ => true

def areReadable : List Json → Bool
  | [] => true
  | v :: rest => v.isReadable && areReadable rest

def membersReadable : List (String × Json) → Bool
  | [] => true
  | (_, v) :: rest => v.isReadable && membersReadable rest

end

/-- The nesting at which a reader gives up. -/
def maxDepth : Nat := 128

/-- Whether a reader that is inside `outer` arrays and objects can take in all of the value. -/
def fits (outer : Nat) (v : Json) : Bool := v.isReadable && decide (outer + v.depth < maxDepth)

/-- The member called `name`, the last one where the name is repeated. -/
def get? (name : String) : Json → Option Json
  | object members => (members.reverse.find? (·.1 == name)).map (·.2)
  | _ => none

def string? : Json → Option String
  | string s => some s
  | _ => none

def bool? : Json → Option Bool
  | bool b => some b
  | _ => none

def int? : Json → Option Int
  | number (.int i) => some i
  | _ => none

def array? : Json → Option (List Json)
  | array items => some items
  | _ => none

def object? : Json → Option (List (String × Json))
  | object members => some members
  | _ => none

end Json

end PaperTrail
