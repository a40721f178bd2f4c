import PaperTrail.Decimal.Shortest

/-!
# Texts of floating point numbers

A number is written with its shortest digits: positionally, always with a point and a digit after
it, when it is at least `10 ^ -5` and below `10 ^ 16`, and otherwise with one digit before the
point and a power of ten. The formats differ in the mark of the power and in the texts of the
values that are no numbers; a `Layout` holds these choices.
-/

namespace PaperTrail.Decimal

/-- The choices of a number format. -/
structure Layout where
  /-- The mark before an exponent that is not negative. -/
  exponentMark : String
  infinity : String
  minusInfinity : String
  notANumber : String

/-- The text of `digits · 10 ^ k`, where `digits` has no trailing zero. -/
def Layout.magnitude (l : Layout) (digits : Nat) (k : Int) : String :=
  let ds := Nat.toDigits 10 digits
  let x : Int := k + ds.length - 1
  let zeros (n : Int) : List Char := List.replicate n.toNat '0'
  if 0 ≤ k ∧ x < 16 then String.ofList (ds ++ zeros k ++ ['.', '0'])
  else if 0 ≤ x ∧ x < 16 then
    String.ofList (ds.take (x + 1).toNat ++ '.' :: ds.drop (x + 1).toNat)
  else if -5 ≤ x ∧ x < 0 then String.ofList ('0' :: '.' :: zeros (-x - 1) ++ ds)
  else
    let mark := if x < 0 then "e-" else l.exponentMark
    let head := match ds with
      | [] => []
      | [d] => [d]
      | d :: rest => d :: '.' :: rest
    String.ofList head ++ mark ++ toString x.natAbs

def Layout.write (l : Layout) : Binary64 → String
  | .finite negative m e =>
    let sign := if negative then "-" else ""
    if m = 0 then sign ++ "0.0"
    else
      let p := shortest m e
      sign ++ l.magnitude p.1 p.2
  | .infinite negative => if negative then l.minusInfinity else l.infinity
  | .nan => l.notANumber

end PaperTrail.Decimal
