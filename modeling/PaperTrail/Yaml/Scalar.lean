import PaperTrail.Value.Basic
import PaperTrail.Yaml.Node
import PaperTrail.Yaml.Token.Quoted

/-!
# Values of scalars

* `resolve?` : the value of a plain text: null, a boolean, a whole number in base 10, 16, 8 or 2, a
  floating point number, or the text itself. A whole number that has no place among the 64 bit
  numbers, but one among those of 128 bits, has no value;
* `ofTagged?` : the value of a scalar under its tag, where the tags of the basic types ask for a
  text of that type.
-/

namespace PaperTrail.Yaml.Scalar
open Decimal

def isNull (s : String) : Bool := ["null", "Null", "NULL", "~"].contains s

def bool? (s : String) : Option Bool :=
  if ["true", "True", "TRUE"].contains s then some true
  else if ["false", "False", "FALSE"].contains s then some false
  else none

/-- The value of a digit of bases up to 16. -/
def digit? (base : Nat) (c : Char) : Option Nat :=
  (Quoted.hexDigit? c).filter (· < base)

def digits? (base : Nat) (cs : List Char) : Option Nat :=
  if cs.isEmpty then none
  else cs.foldl (fun acc c => do return (← acc) * base + (← digit? base c)) (some 0)

/-- The text without an opening sign, and whether that was a minus. -/
def unsigned : List Char → Bool × List Char
  | '-' :: cs => (true, cs)
  | '+' :: cs => (false, cs)
  | cs => (false, cs)

def dropPlus : List Char → List Char
  | '+' :: cs => cs
  | cs => cs

/-- Whether digits start with a zero that no number starts with. -/
def hasLeadingZero (cs : List Char) : Bool :=
  match (unsigned cs).2 with
  | '0' :: c :: rest => (c :: rest).all Char.isDigit
  | _ => false

def based? : List Char → Option Nat
  | '0' :: 'x' :: cs => digits? 16 cs
  | '0' :: 'o' :: cs => digits? 8 cs
  | '0' :: 'b' :: cs => digits? 2 cs
  | _ => none

def natural? (cs : List Char) : Option Nat :=
  match based? (dropPlus cs) with
  | some n => some n
  | none => if hasLeadingZero cs then none else digits? 10 (dropPlus cs)

def negated? : List Char → Option Nat
  | '-' :: cs =>
    match based? cs with
    | some n => some n
    | none => if hasLeadingZero cs then none else digits? 10 cs
  | _ => none

def int? (cs : List Char) : Option Int :=
  match natural? cs with
  | some n => some n
  | none => (negated? cs).map fun n => -(n : Int)

/-- Whether a whole number has a place among the 64 bit numbers, signed or not. -/
def has64 (i : Int) : Bool := decide (Number.minInt ≤ i) && decide (i ≤ Number.maxUnsigned)

def has128 (i : Int) : Bool :=
  decide (-(Nat.pow 2 127 : Int) ≤ i) && decide (i < (Nat.pow 2 128 : Int))

/-! ## Floating point numbers -/

def power? : List Char → Option Int
  | [] => some 0
  | e :: cs =>
    if e = 'e' ∨ e = 'E' then
      let (minus, ds) := unsigned cs
      (digits? 10 ds).map fun n => if minus then -(n : Int) else n
    else none

/-- The number of a numeral without sign: digits, a point that may stand anywhere among them, and a
power of ten that may be missing. -/
def magnitude? (cs : List Char) : Option (Nat × Int) :=
  let whole := cs.takeWhile Char.isDigit
  let rest := cs.drop whole.length
  let (fraction, rest) := match rest with
    | '.' :: r => (r.takeWhile Char.isDigit, r.dropWhile Char.isDigit)
    | r => ([], r)
  match digits? 10 (whole ++ fraction), power? rest with
  | some n, some p => some (n, p - fraction.length)
  | _, _ => none

def isInfinity (s : String) : Bool := [".inf", ".Inf", ".INF"].contains s

def float? (cs : List Char) : Option Binary64 :=
  let s := String.ofList cs
  if isInfinity (String.ofList (dropPlus cs)) then some (.infinite false)
  else if [".nan", ".NaN", ".NAN"].contains s then some .nan
  else
    match cs with
    | '-' :: r =>
      if isInfinity (String.ofList r) then some (.infinite true)
      else finite? true r
    | _ => finite? false (dropPlus cs)
where
  /-- The number of a numeral without sign, if it is finite. -/
  finite? (negative : Bool) (cs : List Char) : Option Binary64 :=
    (magnitude? cs).bind fun p =>
      let x := Binary64.ofDecimal negative p.1 p.2
      if x.isFinite then some x else none

/-! ## Resolution -/

/-- The value of a plain text. -/
def resolve? (s : String) : Option Value :=
  let cs := s.toList
  if s.isEmpty || isNull s then some .null
  else
    match bool? s, int? cs with
    | some b, _ => some (.bool b)
    | none, some i =>
      if has64 i then some (.number (.int i))
      else if has128 i then none
      else some (textOrFloat cs)
    | none, none => some (textOrFloat cs)
where
  /-- The value of a text that is no whole number. -/
  textOrFloat (cs : List Char) : Value :=
    match if hasLeadingZero cs then none else float? cs with
    | some x => .number (.float x)
    | none => .string (String.ofList cs)

def basicTag (name : String) : TagBytes := ("tag:yaml.org,2002:" ++ name).toUTF8.toList

/-- The value of a scalar that is not taken as a value under a tag. -/
def value? (tag? : Option TagBytes) (plain : Bool) (s : String) : Option Value :=
  match tag? with
  | none => if plain then resolve? s else some (.string s)
  | some tag =>
    if tag = basicTag "bool" then (bool? s).map .bool
    else if tag = basicTag "int" then
      match int? s.toList with
      | some i => if has64 i then some (.number (.int i)) else none
      | none => none
    else if tag = basicTag "float" then (float? s.toList).map fun x => .number (.float x)
    else if tag = basicTag "null" then (if isNull s then some .null else none)
    else if tag.head? = some 0x21 ∧ plain then resolve? s
    else some (.string s)

end PaperTrail.Yaml.Scalar
