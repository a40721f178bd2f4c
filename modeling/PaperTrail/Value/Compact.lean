import PaperTrail.Value.Basic
import PaperTrail.Json.Printer

/-!
# Values as JSON

`toJson? v` is the JSON form of a value: a key that is a number or a boolean becomes its text, and a
value under a tag an object with the tag as its only name. A key that is no scalar, is null, has a
tag, or is a number without digits has no form; neither has a value with such a key.
-/

namespace PaperTrail.Value

def tagName (tag : String) : String := "!" ++ tag

def keyName? : Value → Option String
  | string s => some s
  | bool b => some (if b then "true" else "false")
  | number (.int i) => some (toString i)
  | number (.float x) => if x.isFinite then some (Json.layout.write x) else none
  | _ => none

mutual

def toJson? : Value → Option Json
  | null => some .null
  | bool b => some (.bool b)
  | number n => some (.number n)
  | string s => some (.string s)
  | sequence items => (itemsToJson? items).map .array
  | mapping es => (entriesToJson? es).map .object
  | tagged tag v => v.toJson?.map fun j => .object [(tagName tag, j)]

def itemsToJson? : List Value → Option (List Json)
  | [] => some []
  | v :: rest =>
    match v.toJson?, itemsToJson? rest with
    | some j, some js => some (j :: js)
    | _, _ => none

def entriesToJson? : List (Value × Value) → Option (List (String × Json))
  | [] => some []
  | (k, v) :: rest =>
    match keyName? k, v.toJson?, entriesToJson? rest with
    | some name, some j, some js => some ((name, j) :: js)
    | _, _, _ => none

end

end PaperTrail.Value
