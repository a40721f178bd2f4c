/-!
# Whole numbers in decimal digits

* `natural ds` : the number that ASCII digits stand for;
* `natural?`, `integer?` : the number of a text, which has to be one digit or more; a sign may stand
  before them.
-/

namespace PaperTrail.Decimal

def natural (ds : List Char) : Nat := ds.foldl (fun n d => n * 10 + (d.toNat - '0'.toNat)) 0

/-- The number of one digit or more. -/
def natural? (cs : List Char) : Option Nat :=
  if cs.isEmpty || !cs.all Char.isDigit then none else some (natural cs)

/-- The number of digits with a plus before them or not. -/
def unsigned? : List Char → Option Nat
  | '+' :: ds => natural? ds
  | ds => natural? ds

def integer? : List Char → Option Int
  | '-' :: ds => (natural? ds).map fun n => -(n : Int)
  | cs => (unsigned? cs).map Int.ofNat

end PaperTrail.Decimal
