import PaperTrail.Decimal.Binary64

/-!
# The fewest digits that read back

A decimal reads back as a value `m · 2 ^ e` when it lies in the interval of numbers that round to
it. The interval ends half way to the two neighbours of the value, ends included when `m` is even;
below a power of two the neighbour is nearer.

* `reachesDown`, `reachesUp` : the two bounds of the interval, in exact arithmetic;
* `shortest m e` : digits and a power of ten. The grids of the multiples of `10 ^ k` are searched
  from the coarsest on; on the first grid with a multiple in the interval the nearer of the value's
  two neighbours is taken, the even one of two that are equally near.
-/

namespace PaperTrail.Decimal

/-- The multiple `x / 4` of `2 ^ e` against `digits · 10 ^ k`, both as natural numbers over one
denominator. -/
def scaled (x : Nat) (e : Int) (digits : Nat) (k : Int) : Nat × Nat :=
  (x * Nat.pow 2 (e - 2).toNat * Nat.pow 10 (-k).toNat,
    digits * Nat.pow 10 k.toNat * Nat.pow 2 (2 - e).toNat)

/-- Whether `digits · 10 ^ k` is not below the numbers that round to `m · 2 ^ e`. -/
def reachesUp (m : Nat) (e : Int) (digits : Nat) (k : Int) : Bool :=
  let gap := if m = Nat.pow 2 52 ∧ Binary64.minExponent < e then 1 else 2
  let p := scaled (4 * m - gap) e digits k
  if m % 2 = 0 then decide (p.1 ≤ p.2) else decide (p.1 < p.2)

/-- Whether `digits · 10 ^ k` is not above the numbers that round to `m · 2 ^ e`. -/
def reachesDown (m : Nat) (e : Int) (digits : Nat) (k : Int) : Bool :=
  let p := scaled (4 * m + 2) e digits k
  if m % 2 = 0 then decide (p.2 ≤ p.1) else decide (p.2 < p.1)

/-- Whether `digits · 10 ^ k` rounds to `m · 2 ^ e`. -/
def readsBack (m : Nat) (e : Int) (digits : Nat) (k : Int) : Bool :=
  reachesUp m e digits k && reachesDown m e digits k

/-- The greatest multiple of `10 ^ k` that is not above `m · 2 ^ e`, as a count of `10 ^ k`. -/
def gridBelow (m : Nat) (e : Int) (k : Int) : Nat :=
  let p := scaled (4 * m) e 1 k
  p.1 / p.2

/-- Of the neighbours `d` and `d + 1` on the grid of `10 ^ k` the one nearer to `m · 2 ^ e`, the
even one when both are equally near. -/
def nearer (m : Nat) (e : Int) (d : Nat) (k : Int) : Nat :=
  let p := scaled (4 * m) e 1 k
  let twice := 2 * (p.1 - d * p.2)
  if twice < p.2 then d else if p.2 < twice then d + 1 else if d % 2 = 0 then d else d + 1

/-- The digits on the grid of `10 ^ k` that read back as `m · 2 ^ e`. -/
def digitsOn? (m : Nat) (e : Int) (k : Int) : Option Nat :=
  let d := gridBelow m e k
  match readsBack m e d k, readsBack m e (d + 1) k with
  | true, true => some (nearer m e d k)
  | true, false => some d
  | false, true => some (d + 1)
  | false, false => none

/-- Searches the grids of `10 ^ k`, `10 ^ (k - 1)`, … -/
def searchGrids (m : Nat) (e : Int) : Nat → Int → Nat × Int
  | 0, k => (gridBelow m e k, k)
  | steps + 1, k =>
    match digitsOn? m e k with
    | some d => (d, k)
    | none => searchGrids m e steps (k - 1)

/-- The shortest digits and the power of ten that read back as `m · 2 ^ e`, a positive `m`
assumed. The search starts at a power of ten above the value. -/
def shortest (m : Nat) (e : Int) : Nat × Int :=
  searchGrids m e 24 (((m.log2 : Int) + e + 1) * 30103 / 100000 + 2)

end PaperTrail.Decimal
