import PaperTrail.Yaml.Character

/-!
# Quoted scalars

Between single quotes a quote is written twice and nothing else is special; between double quotes a
backslash opens an escape, also of a line break. Gaps with line breaks are folded in both.
-/

namespace PaperTrail.Yaml.Quoted

def hexDigit? (c : Char) : Option Nat :=
  if '0' ≤ c ∧ c ≤ '9' then some (c.toNat - '0'.toNat)
  else if 'a' ≤ c ∧ c ≤ 'f' then some (c.toNat - 'a'.toNat + 10)
  else if 'A' ≤ c ∧ c ≤ 'F' then some (c.toNat - 'A'.toNat + 10)
  else none

/-- The number of `n` hexadecimal digits behind the number `acc`, and the text after them. -/
def hexNumber? : Nat → Nat → List Char → Option (Nat × List Char)
  | 0, acc, cs => some (acc, cs)
  | _ + 1, _, [] => none
  | n + 1, acc, c :: cs => (hexDigit? c).bind fun d => hexNumber? n (acc * 16 + d) cs

def char? (n : Nat) : Option Char :=
  if (0xD800 ≤ n ∧ n ≤ 0xDFFF) ∨ 0x10FFFF < n then none else some (Char.ofNat n)

/-- The character of an escape with `n` hexadecimal digits. -/
def coded (n : Nat) (cs : List Char) : Option (Char × List Char) := do
  let (code, rest) ← hexNumber? n 0 cs
  return (← char? code, rest)

def escape? : List Char → Option (Char × List Char)
  | [] => none
  | c :: cs =>
    match c with
    | '0' => some ('\x00', cs)
    | 'a' => some ('\x07', cs)
    | 'b' => some ('\x08', cs)
    | 't' => some ('\t', cs)
    | '\t' => some ('\t', cs)
    | 'n' => some ('\n', cs)
    | 'v' => some ('\x0b', cs)
    | 'f' => some ('\x0c', cs)
    | 'r' => some ('\r', cs)
    | 'e' => some ('\x1b', cs)
    | ' ' => some (' ', cs)
    | '"' => some ('"', cs)
    | '/' => some ('/', cs)
    | '\\' => some ('\\', cs)
    | 'N' => some (Char.ofNat 0x85, cs)
    | '_' => some (Char.ofNat 0xA0, cs)
    | 'L' => some (Char.ofNat 0x2028, cs)
    | 'P' => some (Char.ofNat 0x2029, cs)
    | 'x' => coded 2 cs
    | 'u' => coded 4 cs
    | 'U' => coded 8 cs
    | _ => none

/-- The characters up to the next gap or closing quote, in at most the given steps, and what
follows them. An escaped line break is left in place. -/
def run (double : Bool) : Nat → List Char → Option (List Char × List Char)
  | 0, cs => some ([], cs)
  | n + 1, cs =>
    if endsWord cs then some ([], cs)
    else if double then
      match cs with
      | '"' :: _ => some ([], cs)
      | '\\' :: r =>
        if startsGap r ∧ endsLine r then some ([], cs)
        else
          match escape? r with
          | none => none
          | some (x, r) => (run double n r).map fun p => (x :: p.1, p.2)
      | x :: r => (run double n r).map fun p => (x :: p.1, p.2)
      | [] => some ([], [])
    else
      match cs with
      | '\'' :: '\'' :: r => (run double n r).map fun p => ('\'' :: p.1, p.2)
      | '\'' :: _ => some ([], cs)
      | x :: r => (run double n r).map fun p => (x :: p.1, p.2)
      | [] => some ([], [])

/-- Reads up to the closing quote, in at most the given steps, behind `text`. -/
def body (double : Bool) : Nat → List Char → Cursor → Option (List Char × Cursor)
  | 0, _, _ => none
  | n + 1, text, c =>
    if c.position.column = 0 ∧ startsDocumentMark c.rest then none
    else if c.rest.isEmpty then none
    else
      match run double c.bound c.rest with
      | none => none
      | some (w, r) =>
        let text := text ++ w
        let c := c.moveTo r
        -- an escaped line break joins the lines without a space
        let (gap, c) := match r with
          | '\\' :: _ =>
            if double then (Gap.escapedBreak, (c.skip 1).takeBreak.2) else (Gap.empty, c)
          | _ => (Gap.empty, c)
        if c.rest.head? = some (if double then '"' else '\'') then some (text, c.skip 1)
        else
          match Gap.read none c.bound gap c with
          | none => none
          | some (gap, c) => body double n (text ++ gap.folded) c

def read (double : Bool) (c : Cursor) : Option (List Char × Cursor) :=
  body double c.bound [] (c.skip 1)

end PaperTrail.Yaml.Quoted
