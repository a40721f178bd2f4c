import PaperTrail.Text.Blank
import PaperTrail.Text.Split
import PaperTrail.Url.Punycode

/-!
# Domain names

Names are written in ASCII. Letters are taken in lower case; the wide forms of ASCII characters count
as these, and the full stops of other scripts as points; some characters have no meaning at all. A
label that still has other characters is written in Punycode behind `xn--`. Lower case is known for
the Latin, Greek, Cyrillic and Armenian letters.

* `Domain.simplify` : what a character of a name counts as;
* `Domain.toAscii?` : a name in ASCII; none when a character cannot be part of a name.
-/

namespace PaperTrail.Domain

/-- Ranges of capital letters, with the distance to their small letters. -/
def capitalRanges : List (Nat × Nat × Nat) :=
  [(0x41, 0x5A, 32), (0xC0, 0xD6, 32), (0xD8, 0xDE, 32), (0x388, 0x38A, 37), (0x38C, 0x38C, 64),
    (0x38E, 0x38F, 63), (0x386, 0x386, 38), (0x391, 0x3A1, 32), (0x3A3, 0x3AB, 32),
    (0x400, 0x40F, 80), (0x410, 0x42F, 32), (0x531, 0x556, 48)]

/-- Ranges in which capital and small letters alternate, starting with a capital letter. -/
def alternatingRanges : List (Nat × Nat) :=
  [(0x100, 0x12F), (0x132, 0x137), (0x139, 0x148), (0x14A, 0x177), (0x179, 0x17E), (0x460, 0x481),
    (0x48A, 0x4BF), (0x4D0, 0x52F), (0x1E00, 0x1E95), (0x1EA0, 0x1EFF)]

def lower (n : Nat) : Nat :=
  match capitalRanges.find? fun r => decide (r.1 ≤ n) && decide (n ≤ r.2.1) with
  | some r => n + r.2.2
  | none =>
    match alternatingRanges.find? fun r => decide (r.1 ≤ n) && decide (n ≤ r.2) with
    | some r => if (n - r.1) % 2 = 0 then n + 1 else n
    | none => if n = 0x178 then 0xFF else n

/-- The code points that have no meaning in a name. -/
def isIgnored (n : Nat) : Bool :=
  [0xAD, 0x200B, 0x2060, 0xFEFF].contains n || (decide (0xFE00 ≤ n) && decide (n ≤ 0xFE0F))

/-- The full stops that count as points. -/
def isFullStop (n : Nat) : Bool := [0x3002, 0xFF0E, 0xFF61].contains n

/-- The ASCII character of a wide form, any other code point as it is. -/
def narrow (n : Nat) : Nat := if 0xFF01 ≤ n ∧ n ≤ 0xFF5E then n - 0xFEE0 else n

/-- What a character of a name counts as. -/
def simplify (c : Char) : List Char :=
  if isIgnored c.toNat then []
  else if isFullStop c.toNat then ['.']
  else if c = 'ẞ' then ['s', 's']
  else [Char.ofNat (lower (narrow c.toNat))]

/-- Whether a character outside ASCII can be part of a name. -/
def isAllowed (c : Char) : Bool :=
  decide (c.toNat < 0x80) ||
    !(decide (c.toNat < 0xA0) || Text.isBlank c || (decide (0xE000 ≤ c.toNat) &&
      decide (c.toNat < 0xF900)) || (decide (0xFFF0 ≤ c.toNat) && decide (c.toNat ≤ 0xFFFF)))

def labelToAscii (label : List Char) : List Char :=
  if label.all fun c => decide (c.toNat < 0x80) then label
  else "xn--".toList ++ Punycode.encode label

def toAscii? (s : String) : Option String :=
  let name := s.toList.flatMap simplify
  if name.all isAllowed then
    some (".".intercalate ((Text.splitChars '.' name).map fun l => String.ofList (labelToAscii l)))
  else none

end PaperTrail.Domain
