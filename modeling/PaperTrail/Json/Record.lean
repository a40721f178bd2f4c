import PaperTrail.Json.Basic

/-!
# Records in JSON

A record is written as an object with a member for every field, or as an array of its fields in
their order. Further members have no meaning, further items are refused; a field is not given twice.

* `Slot` : what is written for a field;
* `slots?` : the fields of a record;
* `Slot.required`, `Slot.optional`, `Slot.orDefault` : the three ways to read a field.
-/

namespace PaperTrail.Json

/-- What is written for a field. -/
inductive Slot where
  | given (value : Json)
  /-- The object has no such member. -/
  | leftOut
  /-- The array ends before this field. -/
  | cutOff
deriving Inhabited

/-- The fields of an object; none when one of them is given twice. -/
def namedSlots? (members : List (String × Json)) : List String → Option (List Slot)
  | [] => some []
  | name :: names =>
    match members.filter (·.1 == name) with
    | [] => (namedSlots? members names).map (Slot.leftOut :: ·)
    | [m] => (namedSlots? members names).map (Slot.given m.2 :: ·)
    | _ => none

/-- The fields of an array; none when there are more items than fields. -/
def orderedSlots? : List Json → List String → Option (List Slot)
  | [], names => some (names.map fun _ => .cutOff)
  | _ :: _, [] => none
  | v :: vs, _ :: names => (orderedSlots? vs names).map (Slot.given v :: ·)

def slots? (names : List String) : Json → Option (List Slot)
  | object members => namedSlots? members names
  | array items => orderedSlots? items names
  | _ => none

namespace Slot
variable {α : Type}

def required (read : Json → Option α) : Slot → Option α
  | given v => read v
  | _ => none

/-- A field that may be null or, in an object, left out. -/
def optional (read : Json → Option α) : Slot → Option (Option α)
  | given .null => some none
  | given v => (read v).map some
  | leftOut => some none
  | cutOff => none

def orDefault (default : α) (read : Json → Option α) : Slot → Option α
  | given v => read v
  | _ => some default

/-- A field that may be null, and is so by default. -/
def nullable (read : Json → Option α) : Slot → Option (Option α)
  | given .null => some none
  | given v => (read v).map some
  | _ => some none

end Slot

def list? {α : Type} (read : Json → Option α) (v : Json) : Option (List α) :=
  v.array?.bind fun items => items.mapM read

def intBetween? (least greatest : Int) (v : Json) : Option Int :=
  v.int?.filter fun i => decide (least ≤ i) && decide (i ≤ greatest)

end PaperTrail.Json
