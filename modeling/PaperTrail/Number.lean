import PaperTrail.Decimal.Layout

/-!
# Numbers

* `Number` : a whole number or a floating point number; the two never mix, so `1` and `1.0` are
  different;
* `Number.text` : the number as it is written in a description.
-/

namespace PaperTrail
open Decimal

/-- A number of a document. -/
inductive Number where
  | int (value : Int)
  | float (value : Binary64)
deriving DecidableEq, Inhabited

/-- The least and the greatest whole numbers of 64 bits, signed and unsigned. -/
def Number.minInt : Int := -9223372036854775808

def Number.maxInt : Int := 9223372036854775807

def Number.maxUnsigned : Int := 18446744073709551615

/-- Descriptions write `1e16` without a plus and name the values that are no numbers. -/
def Number.layout : Layout := ⟨"e", ".inf", "-.inf", ".nan"⟩

def Number.text : Number → String
  | .int i => toString i
  | .float x => layout.write x

/-- Equality of numeric keys. -/
def Number.same : Number → Number → Bool
  | .int i, .int j => i == j
  | .float x, .float y => x.same y
  | _, _ => false

end PaperTrail
