/-!
# Punycode

A label with characters outside ASCII is written as its ASCII characters and, behind a hyphen, the
places of all others. These come in ascending order; each one is given by the number of steps from
the last one, where a step goes to the next place in the label and, behind the last place, to the
next code point. The numbers are written in base 36, the last digit of each below a threshold that
depends on the numbers before it.

* `digits` : a number under a bias, from the threshold of its first digit on;
* `adapt` : the bias after a number;
* `encode` : the written form of a label.
-/

namespace PaperTrail.Punycode

def digit (n : Nat) : Char :=
  if n < 26 then Char.ofNat ('a'.toNat + n) else Char.ofNat ('0'.toNat + n - 26)

/-- The threshold of the digit of weight `36 ^ (k / 36 - 1)`. -/
def threshold (bias k : Nat) : Nat := min 26 (max 1 (k - bias))

theorem one_le_threshold (bias k : Nat) : 1 ≤ threshold bias k := by
  simp only [threshold]; omega

/-- The digits of a number, the last one below its threshold. -/
def digits (bias k n : Nat) : List Char :=
  let t := threshold bias k
  if n < t then [digit n]
  else digit (t + (n - t) % (36 - t)) :: digits bias (k + 36) ((n - t) / (36 - t))
termination_by n
decreasing_by
  have := one_le_threshold bias k
  have := Nat.div_le_self (n - threshold bias k) (36 - threshold bias k)
  omega

/-- Divides by 35 as long as the number is greater than 455, and counts the divisions by 36. -/
def shrink (n count : Nat) : Nat × Nat :=
  if n ≤ 455 then (n, count) else shrink (n / 35) (count + 36)
termination_by n
decreasing_by omega

/-- The bias after a number, when `placed` characters have been placed. The first number is damped
more than all others. -/
def adapt (n placed : Nat) (first : Bool) : Nat :=
  let n := n / (if first then 700 else 2)
  let (n, count) := shrink (n + n / placed) 0
  count + 36 * n / (n + 38)

/-- The state of an encoding: the text so far, the steps from the last place, the bias, and how
many characters have been placed. -/
structure State where
  text : List Char
  steps : Nat
  bias : Nat
  placed : Nat

/-- Steps over one place of the label while the code point `m` is placed. -/
def State.visit (basic m : Nat) (s : State) (c : Char) : State :=
  if c.toNat < m then { s with steps := s.steps + 1 }
  else if c.toNat = m then
    { text := s.text ++ digits s.bias 36 s.steps
      steps := 0
      bias := adapt s.steps (s.placed + 1) (s.placed == basic)
      placed := s.placed + 1 }
  else s

/-- Places code points in ascending order; `start` is the first one that has not been reached. -/
def State.place (label : List Char) (basic : Nat) : Nat → List Nat → State → State
  | _, [], s => s
  | start, m :: ms, s =>
    let s := { s with steps := s.steps + (m - start) * (s.placed + 1) }
    let s := label.foldl (State.visit basic m) s
    State.place label basic (m + 1) ms { s with steps := s.steps + 1 }

/-- The code points outside ASCII in ascending order, each one once. -/
def extended (label : List Char) : List Nat :=
  (((label.map Char.toNat).filter (128 ≤ ·)).mergeSort fun a b => decide (a ≤ b)).eraseReps

def encode (label : List Char) : List Char :=
  let basic := label.filter fun c => decide (c.toNat < 128)
  let opening := if basic.isEmpty then [] else basic ++ ['-']
  (State.place label basic.length 128 (extended label) ⟨opening, 0, 72, basic.length⟩).text

end PaperTrail.Punycode
