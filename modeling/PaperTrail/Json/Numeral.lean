import PaperTrail.Json.Basic

/-!
# Numerals of JSON

A numeral is read digit by digit into a significand of at most 64 bits and a power of ten. Digits
that no longer fit are dropped: before the point each of them raises the power, after it they have
no effect. A numeral without point, power and dropped digits is a whole number when it has a place
among the 64 bit numbers; `-0` is the negative zero of the floating point numbers.

* `Numeral.Scan` : the significand and power read so far;
* `Numeral.scale` : significand and power as a floating point number, by one multiplication or
  division with a rounded power of ten, which is why the last digit can differ from the nearest
  value;
* `Numeral.read` : the number of a numeral and the text after it. The number is missing when it is
  out of range; there is no result when the text does not start with a numeral.
-/

namespace PaperTrail.Json.Numeral
open Decimal

def digit? (c : Char) : Option Nat :=
  if c.isDigit then some (c.toNat - '0'.toNat) else none

/-- The digits at the start of a text and the text after them. -/
def readDigits : List Char → List Nat × List Char
  | [] => ([], [])
  | c :: cs =>
    match digit? c with
    | none => ([], c :: cs)
    | some d =>
      let p := readDigits cs
      (d :: p.1, p.2)

/-- A significand below `2 ^ 64`, a power of ten, and whether digits have been dropped. -/
structure Scan where
  significand : Nat
  power : Int
  dropped : Bool
deriving DecidableEq, Repr

/-- Whether the digit `d` can be added to the significand. -/
def Scan.admits (s : Scan) (d : Nat) : Bool := decide (s.significand * 10 + d < Nat.pow 2 64)

def Scan.whole (s : Scan) : List Nat → Scan
  | [] => s
  | d :: ds =>
    if s.dropped then ⟨s.significand, s.power + (ds.length + 1), true⟩
    else if s.admits d then Scan.whole ⟨s.significand * 10 + d, s.power, false⟩ ds
    else ⟨s.significand, s.power + (ds.length + 1), true⟩

/-- Takes in the digits after the point, up to the first one that does not fit. -/
def Scan.fraction (s : Scan) : List Nat → Scan
  | [] => s
  | d :: ds =>
    if s.admits d then Scan.fraction ⟨s.significand * 10 + d, s.power - 1, s.dropped⟩ ds
    else ⟨s.significand, s.power, true⟩

/-- Divides by `10 ^ 308` while the power is too small for one division; three times leave nothing
of any significand. -/
def scaleDown : Nat → Binary64 → Int → Binary64
  | 0, _, _ => Binary64.zero false
  | n + 1, x, power =>
    if power < -308 then
      if x.isZero then x else scaleDown n (x.div (Binary64.ofDecimal false 1 308)) (power + 308)
    else x.div (Binary64.ofDecimal false 1 (-power))

/-- The number `significand · 10 ^ power`; none when it is out of range. -/
def scale (significand : Nat) (power : Int) : Option Binary64 :=
  let x := Binary64.ofDecimal false significand 0
  if 308 < power then (if x.isZero then some x else none)
  else if 0 ≤ power then
    let y := x.mul (Binary64.ofDecimal false 1 power)
    if y.isFinite then some y else none
  else some (scaleDown 4 x power)

def signed (negative : Bool) : Binary64 → Binary64
  | .finite _ m e => .finite negative m e
  | .infinite _ => .infinite negative
  | .nan => .nan

def float? (negative : Bool) (significand : Nat) (power : Int) : Option Number :=
  (scale significand power).map fun x => .float (signed negative x)

def maxPower : Nat := 2147483647

/-- The number of a numeral with a written power `exponent`. -/
def withPower? (negative : Bool) (s : Scan) (minus : Bool) (exponent : Nat) : Option Number :=
  if maxPower < exponent then
    if s.significand = 0 ∨ minus then some (.float (Binary64.zero negative)) else none
  else float? negative s.significand (if minus then s.power - exponent else s.power + exponent)

def whole? (negative : Bool) (s : Scan) : Option Number :=
  if s.dropped then float? negative s.significand s.power
  else if ¬ negative then some (.int s.significand)
  else if 0 < s.significand ∧ s.significand ≤ Nat.pow 2 63 then some (.int (-s.significand))
  else float? true s.significand 0

def readPower (negative : Bool) (s : Scan) (cs : List Char) : Option (Option Number × List Char) :=
  let (minus, cs) := match cs with
    | '+' :: r => (false, r)
    | '-' :: r => (true, r)
    | r => (false, r)
  match readDigits cs with
  | ([], _) => none
  | (ds, r) => some (withPower? negative s minus (ds.foldl (fun n d => n * 10 + d) 0), r)

def readTail (negative : Bool) (s : Scan) : List Char → Option (Option Number × List Char)
  | '.' :: cs =>
    match readDigits cs with
    | ([], _) => none
    | (ds, r) =>
      let t := s.fraction ds
      match r with
      | 'e' :: r => readPower negative t r
      | 'E' :: r => readPower negative t r
      | r => some (float? negative t.significand t.power, r)
  | 'e' :: r => readPower negative s r
  | 'E' :: r => readPower negative s r
  | r => some (whole? negative s, r)

/-- Reads a numeral after its sign. A zero stands alone before the point. -/
def readUnsigned (negative : Bool) (cs : List Char) : Option (Option Number × List Char) :=
  match readDigits cs with
  | ([], _) => none
  | (0 :: _ :: _, _) => none
  | (ds, r) => readTail negative (Scan.whole ⟨0, 0, false⟩ ds) r

/-- Reads a numeral: its number, missing when out of range, and the text after it. -/
def read : List Char → Option (Option Number × List Char)
  | '-' :: cs => readUnsigned true cs
  | cs => readUnsigned false cs

end PaperTrail.Json.Numeral
