/-!
# Binary floating point numbers of 64 bits

* `Binary64` : a finite value `± significand · 2 ^ exponent`, an infinity, or not a number. A
  finite value has `significand < 2 ^ 53`, and `2 ^ 52 ≤ significand` unless the exponent is the
  least one, `-1074`; so every value but `nan` has one form;
* `ofRatio` : the nearest value of a quotient of natural numbers, ties going to the even
  significand;
* `ofDecimal` : the nearest value of `digits · 10 ^ exponent`;
* `mul`, `div` : rounded products and quotients;
* `same` : the equality of numeric keys, for which the two zeros are one value.
-/

namespace PaperTrail.Decimal

/-- A binary floating point number of 64 bits. -/
inductive Binary64 where
  | finite (negative : Bool) (significand : Nat) (exponent : Int)
  | infinite (negative : Bool)
  | nan
deriving DecidableEq, Inhabited

namespace Binary64

def minExponent : Int := -1074

def maxExponent : Int := 971

def zero (negative : Bool) : Binary64 := .finite negative 0 minExponent

def isFinite : Binary64 → Bool
  | finite .. => true
  | _ => false

/-- The quotient of `num` and `den` rounded to a natural number, a half going to the even one. -/
def roundDiv (num den : Nat) : Nat :=
  let q := num / den
  let r := num % den
  if 2 * r < den then q else if den < 2 * r then q + 1 else if q % 2 = 0 then q else q + 1

/-- The finite value `significand · 2 ^ exponent`, where a significand of `2 ^ 53`, which comes
from rounding up, is halved; an infinity when the exponent is too great. -/
def normalize (negative : Bool) (significand : Nat) (exponent : Int) : Binary64 :=
  let carried := significand = Nat.pow 2 53
  let m := if carried then Nat.pow 2 52 else significand
  let e := if carried then exponent + 1 else exponent
  if maxExponent < e then .infinite negative else .finite negative m e

/-- The value nearest to `num / den`, a positive `den` assumed. -/
def ofRatio (negative : Bool) (num den : Nat) : Binary64 :=
  if num = 0 then zero negative
  else
    let k : Int := (num.log2 : Int) - den.log2
    -- `2 ^ k` is at most the quotient or the power of two right above it
    let reached := decide (den * Nat.pow 2 k.toNat ≤ num * Nat.pow 2 (-k).toNat)
    let e := max ((if reached then k else k - 1) - 52) minExponent
    normalize negative (roundDiv (num * Nat.pow 2 (-e).toNat) (den * Nat.pow 2 e.toNat)) e

def decimalLength (n : Nat) : Nat := (Nat.toDigits 10 n).length

/-- The value nearest to `digits · 10 ^ exponent`. -/
def ofDecimal (negative : Bool) (digits : Nat) (exponent : Int) : Binary64 :=
  if digits = 0 then zero negative
  else if 310 < exponent + decimalLength digits then .infinite negative
  else if exponent + decimalLength digits < -330 then zero negative
  else ofRatio negative (digits * Nat.pow 10 exponent.toNat) (Nat.pow 10 (-exponent).toNat)

def mul : Binary64 → Binary64 → Binary64
  | .finite s m e, .finite t n f =>
    ofRatio (s != t) (m * n * Nat.pow 2 (e + f).toNat) (Nat.pow 2 (-(e + f)).toNat)
  | .infinite s, .infinite t => .infinite (s != t)
  | .infinite s, .finite t n _ => if n = 0 then .nan else .infinite (s != t)
  | .finite s m _, .infinite t => if m = 0 then .nan else .infinite (s != t)
  | _, _ => .nan

/-- The rounded quotient of a finite value and a finite value that is not zero. -/
def div : Binary64 → Binary64 → Binary64
  | .finite s m e, .finite t n f =>
    if n = 0 then (if m = 0 then .nan else .infinite (s != t))
    else ofRatio (s != t) (m * Nat.pow 2 (e - f).toNat) (n * Nat.pow 2 (f - e).toNat)
  | .infinite s, .finite t _ _ => .infinite (s != t)
  | .finite s _ _, .infinite t => zero (s != t)
  | _, _ => .nan

def isZero : Binary64 → Bool
  | .finite _ m _ => m == 0
  | _ => false

/-- Equality of numbers: the two zeros are the same, and so is `nan` to itself. -/
def same (a b : Binary64) : Bool := (a.isZero && b.isZero) || a == b

end Binary64

end PaperTrail.Decimal
