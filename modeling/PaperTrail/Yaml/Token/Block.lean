import PaperTrail.Yaml.Character

/-!
# Block scalars

A block scalar is a run of indented lines. Its header says whether lines are kept (`|`) or folded
(`>`), how much it is indented when that cannot be seen from the first line, and what becomes of the
line breaks at its end: by default one is kept.
-/

namespace PaperTrail.Yaml.Block

/-- What becomes of the line breaks at the end. -/
inductive Chomping where
  | strip
  | clip
  | keep
deriving DecidableEq, Repr

structure Header where
  chomping : Chomping
  indent? : Option Nat

def chompingOf : List Char → Option (Chomping × List Char)
  | '+' :: cs => some (.keep, cs)
  | '-' :: cs => some (.strip, cs)
  | _ => none

/-- The indentation indicator at the start of a text; a zero is refused. -/
def indentOf : List Char → Option (Option Nat × List Char)
  | c :: cs =>
    if c.isDigit then (if c = '0' then none else some (some (c.toNat - '0'.toNat), cs))
    else some (none, c :: cs)
  | [] => some (none, [])

/-- The header behind its mark: both indicators in any order. -/
def header (cs : List Char) : Option (Header × List Char) :=
  match chompingOf cs with
  | some (chomping, r) => (indentOf r).map fun p => (⟨chomping, p.1⟩, p.2)
  | none =>
    match indentOf cs with
    | none => none
    | some (none, r) => some (⟨.clip, none⟩, r)
    | some (some n, r) =>
      match chompingOf r with
      | some (chomping, r) => some (⟨chomping, some n⟩, r)
      | none => some (⟨.clip, some n⟩, r)

/-- The spaces at a cursor, up to the column `limit?` if there is one. -/
def skipSpaces (limit? : Option Nat) (c : Cursor) : Cursor :=
  let spaces := (c.rest.takeWhile (· = ' ')).length
  match limit? with
  | none => c.skip spaces
  | some limit => c.skip (min spaces (limit - c.position.column))

/-- The breaks of empty lines, the greatest indentation among them and the next line, and the cursor
at its text. -/
structure Breaks where
  breaks : List Char
  deepest : Nat
  next : Cursor

/-- Reads empty lines, in at most the given steps. A tab in the indentation is refused. -/
def emptyLines (limit? : Option Nat) : Nat → List Char → Nat → Cursor → Option Breaks
  | 0, breaks, deepest, c => some ⟨breaks, deepest, c⟩
  | n + 1, breaks, deepest, c =>
    let c := skipSpaces limit? c
    let deepest := max deepest c.position.column
    let inIndent := match limit? with
      | none => true
      | some limit => decide (c.position.column < limit)
    if inIndent && c.rest.head? == some '\t' then none
    else
      match c.takeBreak with
      | ([], _) => some ⟨breaks, deepest, c⟩
      | (b, c) => emptyLines limit? n (breaks ++ b) deepest c

structure Lines where
  text : List Char
  lastBreak : List Char
  breaks : List Char
  /-- Whether the last line starts with a blank. -/
  indented : Bool

/-- What joins the line that comes next to the lines so far: a folded break is a space, unless empty
lines follow or one of the two lines starts with a blank. -/
def Lines.joined (folded : Bool) (l : Lines) (nextIndented : Bool) : List Char :=
  if folded ∧ l.lastBreak.head? = some '\n' ∧ ¬ l.indented ∧ ¬ nextIndented then
    if l.breaks.isEmpty then l.text ++ [' '] else l.text ++ l.breaks
  else l.text ++ l.lastBreak ++ l.breaks

/-- Reads the lines that are indented by `indent`, in at most the given steps. -/
def lines (folded : Bool) (indent : Nat) : Nat → Lines → Cursor → Option (Lines × Cursor)
  | 0, l, c => some (l, c)
  | n + 1, l, c =>
    if c.position.column = indent ∧ ¬ c.rest.isEmpty then
      let indented := (c.rest.head?.map isBlank).getD false
      let line := c.rest.takeWhile fun x => ¬ isBreak x
      let text := l.joined folded indented ++ line
      let (lastBreak, c) := (c.skip line.length).takeBreak
      match emptyLines (some indent) c.bound [] 0 c with
      | none => none
      | some b => lines folded indent n ⟨text, lastBreak, b.breaks, indented⟩ b.next
    else some (l, c)

/-- The text of the lines with what is kept of the breaks at its end. -/
def Lines.chomped (l : Lines) : Chomping → List Char
  | .strip => l.text
  | .clip => l.text ++ l.lastBreak
  | .keep => l.text ++ l.lastBreak ++ l.breaks

def skipHeaderLine (c : Cursor) : Option Cursor :=
  let c := c.skipWhile isBlank
  let c := if c.rest.head? = some '#' then c.skipWhile fun x => ¬ isBreak x else c
  if endsLine c.rest then some c.takeBreak.2 else none

/-- Reads a block scalar from its mark on, inside a block with the indentation `parent`. -/
def read (folded : Bool) (parent : Int) (c : Cursor) : Option (List Char × Cursor) := do
  let c := c.skip 1
  let (h, r) ← header c.rest
  let c ← skipHeaderLine (c.moveTo r)
  let given? := h.indent?.map fun n => if 0 ≤ parent then parent.toNat + n else n
  let b ← emptyLines given? c.bound [] 0 c
  let indent := given?.getD (max b.deepest (max (parent + 1).toNat 1))
  let (l, c) ← lines folded indent c.bound ⟨[], [], b.breaks, false⟩ b.next
  return (l.chomped h.chomping, c)

end PaperTrail.Yaml.Block
