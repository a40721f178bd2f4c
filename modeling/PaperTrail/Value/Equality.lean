import PaperTrail.Value.Basic

/-!
# Equality of values

`same` is the equality by which the keys of a mapping are told apart: numbers are compared as
numbers of their kind, and the order of a mapping's entries has no meaning.
-/

namespace PaperTrail.Value

mutual

/-- Equality of values as keys: the order of a mapping's entries has no meaning. -/
def same : Value → Value → Bool
  | null, null => true
  | bool a, bool b => a == b
  | number a, number b => a.same b
  | string a, string b => a == b
  | sequence as, sequence bs => sameItems as bs
  | mapping as, mapping bs => as.length == bs.length && sameEntries as bs
  | tagged s a, tagged t b => s == t && same a b
  | _, _ => false

def sameItems : List Value → List Value → Bool
  | [], [] => true
  | a :: as, b :: bs => same a b && sameItems as bs
  | _, _ => false

def sameEntries : List (Value × Value) → List (Value × Value) → Bool
  | [], _ => true
  | (k, v) :: rest, bs => bs.any (fun b => same k b.1 && same v b.2) && sameEntries rest bs

end

end PaperTrail.Value
