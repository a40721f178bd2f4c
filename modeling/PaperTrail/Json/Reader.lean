import PaperTrail.Json.Numeral

/-!
# Reading JSON

* `readUnits` : the code units of a text literal, with the halves of surrogate pairs as they are
  written;
* `joinUnits?` : the characters of code units; none when a half has no partner;
* `readValue`, `readItems`, `readMembers` : one value, the rest of an array, the rest of an object,
  each with the text after it. They count down steps; `stepsFor` is enough for a text;
* `ofString?` : the value of a text that holds one value and nothing else.
-/

namespace PaperTrail.Json

def isSpace (c : Char) : Bool := c == ' ' || c == '\n' || c == '\t' || c == '\r'

def skipSpace (cs : List Char) : List Char := cs.dropWhile isSpace

def hexDigit? (c : Char) : Option Nat :=
  if '0' ≤ c ∧ c ≤ '9' then some (c.toNat - '0'.toNat)
  else if 'a' ≤ c ∧ c ≤ 'f' then some (c.toNat - 'a'.toNat + 10)
  else if 'A' ≤ c ∧ c ≤ 'F' then some (c.toNat - 'A'.toNat + 10)
  else none

def hex4? (a b c d : Char) : Option Nat := do
  let a ← hexDigit? a
  let b ← hexDigit? b
  let c ← hexDigit? c
  let d ← hexDigit? d
  return ((a * 16 + b) * 16 + c) * 16 + d

/-- The character that a backslash and `c` stand for. -/
def escaped? : Char → Option Char
  | '"' => some '"'
  | '\\' => some '\\'
  | '/' => some '/'
  | 'b' => some '\x08'
  | 'f' => some '\x0c'
  | 'n' => some '\n'
  | 'r' => some '\r'
  | 't' => some '\t'
  | _ => none

/-- Reads a text literal after its opening quote. -/
def readUnits : List Char → Option (List Nat × List Char)
  | [] => none
  | '"' :: rest => some ([], rest)
  | '\\' :: 'u' :: a :: b :: c :: d :: rest =>
    match hex4? a b c d, readUnits rest with
    | some u, some (us, r) => some (u :: us, r)
    | _, _ => none
  | '\\' :: c :: rest =>
    match escaped? c, readUnits rest with
    | some x, some (us, r) => some (x.toNat :: us, r)
    | _, _ => none
  | c :: rest =>
    if c.toNat < 0x20 then none
    else
      match readUnits rest with
      | some (us, r) => some (c.toNat :: us, r)
      | none => none

def opensPair (u : Nat) : Bool := decide (0xD800 ≤ u) && decide (u < 0xDC00)

def closesPair (u : Nat) : Bool := decide (0xDC00 ≤ u) && decide (u < 0xE000)

def pairChar (u v : Nat) : Char := Char.ofNat (0x10000 + (u - 0xD800) * 0x400 + (v - 0xDC00))

/-- The characters of code units; none when half of a pair stands alone. -/
def joinUnits? : List Nat → Option (List Char)
  | [] => some []
  | [u] => if opensPair u || closesPair u then none else some [Char.ofNat u]
  | u :: v :: rest =>
    if opensPair u then
      if closesPair v then (joinUnits? rest).map (pairChar u v :: ·) else none
    else if closesPair u then none
    else (joinUnits? (v :: rest)).map (Char.ofNat u :: ·)

def textOfUnits? (us : List Nat) : Option String := (joinUnits? us).map String.ofList

/-- The object of members whose names may be unreadable. -/
def ofMembers (members : List (Option String × Json)) : Json :=
  match members.mapM fun m => m.1.map fun name => (name, m.2) with
  | some ms => .object ms
  | none => .unreadable

mutual

def readValue : Nat → List Char → Option (Json × List Char)
  | 0, _ => none
  | n + 1, cs =>
    match skipSpace cs with
    | 'n' :: 'u' :: 'l' :: 'l' :: r => some (.null, r)
    | 't' :: 'r' :: 'u' :: 'e' :: r => some (.bool true, r)
    | 'f' :: 'a' :: 'l' :: 's' :: 'e' :: r => some (.bool false, r)
    | '"' :: r =>
      match readUnits r with
      | some (us, r) => some ((textOfUnits? us).elim .unreadable .string, r)
      | none => none
    | '[' :: r =>
      match skipSpace r with
      | ']' :: r => some (.array [], r)
      | r => (readItems n r).map fun p => (.array p.1, p.2)
    | '{' :: r =>
      match skipSpace r with
      | '}' :: r => some (.object [], r)
      | r => (readMembers n r).map fun p => (ofMembers p.1, p.2)
    | r => (Numeral.read r).map fun p => (p.1.elim .unreadable .number, p.2)

def readItems : Nat → List Char → Option (List Json × List Char)
  | 0, _ => none
  | n + 1, cs =>
    match readValue n cs with
    | none => none
    | some (v, r) =>
      match skipSpace r with
      | ',' :: r => (readItems n r).map fun p => (v :: p.1, p.2)
      | ']' :: r => some ([v], r)
      | _ => none

def readMembers : Nat → List Char → Option (List (Option String × Json) × List Char)
  | 0, _ => none
  | n + 1, cs =>
    match skipSpace cs with
    | '"' :: r =>
      match readUnits r with
      | none => none
      | some (us, r) =>
        match skipSpace r with
        | ':' :: r =>
          match readValue n r with
          | none => none
          | some (v, r) =>
            match skipSpace r with
            | ',' :: r => (readMembers n r).map fun p => ((textOfUnits? us, v) :: p.1, p.2)
            | '}' :: r => some ([(textOfUnits? us, v)], r)
            | _ => none
        | _ => none
    | _ => none

end

/-- Steps enough for a text: at most two for each character. -/
def stepsFor (cs : List Char) : Nat := 2 * cs.length + 2

/-- The value of a text that holds one value and nothing else. -/
def ofString? (s : String) : Option Json :=
  let cs := s.toList
  match readValue (stepsFor cs) cs with
  | some (v, r) => if (skipSpace r).isEmpty then some v else none
  | none => none

end PaperTrail.Json
