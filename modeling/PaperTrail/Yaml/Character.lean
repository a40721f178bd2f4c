/-!
# Characters of YAML

* `isAllowed` : the characters that may occur in a stream at all;
* `isBreak`, `isBlank` : line breaks, and the space and the tab;
* `endsWord`, `startsGap` : what a text goes on with, its end counting as a blank;
* `Position` : how far a reader has come, in characters, lines and columns;
* `Gap` : the blanks and line breaks between two words of a text, and what they are folded to.
-/

namespace PaperTrail.Yaml

/-- Whether a stream may hold `c`. -/
def isAllowed (c : Char) : Bool :=
  let n := c.toNat
  n == 0x09 || n == 0x0A || n == 0x0D || (decide (0x20 ≤ n) && decide (n ≤ 0x7E)) || n == 0x85 ||
    (decide (0xA0 ≤ n) && decide (n ≤ 0xD7FF)) || (decide (0xE000 ≤ n) && decide (n ≤ 0xFFFD)) ||
    decide (0x10000 ≤ n)

/-- The mark that may open a line and has no meaning. -/
def byteOrderMark : Char := Char.ofNat 0xFEFF

def isBreak (c : Char) : Bool :=
  c == '\r' || c == '\n' || c.toNat == 0x85 || c.toNat == 0x2028 || c.toNat == 0x2029

def isBlank (c : Char) : Bool := c == ' ' || c == '\t'

/-- Whether `c` may occur in the name of an anchor, a directive or a tag handle. -/
def isNameChar (c : Char) : Bool := c.isAlphanum || c == '_' || c == '-'

/-- Whether a text goes on with a blank or a line break, or is at its end. -/
def endsWord : List Char → Bool
  | [] => true
  | c :: _ => isBlank c || isBreak c

def endsLine : List Char → Bool
  | [] => true
  | c :: _ => isBreak c

def startsGap : List Char → Bool
  | [] => false
  | c :: _ => isBlank c || isBreak c

def startsDocumentMark : List Char → Bool
  | '-' :: '-' :: '-' :: cs => endsWord cs
  | '.' :: '.' :: '.' :: cs => endsWord cs
  | _ => false

/-! ## Positions -/

/-- How far a reader has come: characters in all, lines, and characters of the line. -/
structure Position where
  index : Nat
  line : Nat
  column : Nat
deriving DecidableEq, Repr, Inhabited

namespace Position

def start : Position := ⟨0, 0, 0⟩

/-- The position `n` characters later on the same line. -/
def advance (p : Position) (n : Nat) : Position := ⟨p.index + n, p.line, p.column + n⟩

def newLine (p : Position) (width : Nat) : Position := ⟨p.index + width, p.line + 1, 0⟩

end Position

/-- What is left of a text, and its position. -/
structure Cursor where
  rest : List Char
  position : Position
  /-- More than the characters of the whole text: no loop over what is left takes as many steps. -/
  bound : Nat
deriving Inhabited

namespace Cursor

def skipWhile (c : Cursor) (p : Char → Bool) : Cursor :=
  { c with
    rest := c.rest.dropWhile p
    position := c.position.advance (c.rest.takeWhile p).length }

def skip (c : Cursor) (n : Nat) : Cursor :=
  { c with rest := c.rest.drop n, position := c.position.advance (c.rest.take n).length }

def moveTo (c : Cursor) (rest : List Char) : Cursor :=
  { c with rest, position := c.position.advance (c.rest.length - rest.length) }

/-- The line break at the cursor as it is kept in a text, and the cursor behind it. All breaks but
the separators of lines and paragraphs are kept as a line feed. -/
def takeBreak (c : Cursor) : List Char × Cursor :=
  match c.rest with
  | '\r' :: '\n' :: r => (['\n'], { c with rest := r, position := c.position.newLine 2 })
  | x :: r =>
    if isBreak x then
      ([if x.toNat = 0x2028 ∨ x.toNat = 0x2029 then x else '\n'],
        { c with rest := r, position := c.position.newLine 1 })
    else ([], c)
  | [] => ([], c)

end Cursor

/-! ## Gaps -/

/-- The blanks and line breaks between two words. -/
structure Gap where
  /-- The blanks before the first break. -/
  blanks : List Char
  hasBreak : Bool
  firstBreak : List Char
  laterBreaks : List Char
deriving Inhabited

namespace Gap

def empty : Gap := ⟨[], false, [], []⟩

def escapedBreak : Gap := ⟨[], true, [], []⟩

/-- The gap with a further blank; blanks after a break are dropped. -/
def addBlank (g : Gap) (c : Char) : Gap :=
  if g.hasBreak then g else { g with blanks := g.blanks ++ [c] }

def addBreak (g : Gap) (b : List Char) : Gap :=
  if g.hasBreak then { g with laterBreaks := g.laterBreaks ++ b }
  else { g with hasBreak := true, firstBreak := b }

/-- What a gap is folded to: a single break becomes a space, further ones stay. -/
def folded (g : Gap) : List Char :=
  if g.hasBreak then
    if g.firstBreak.head? = some '\n' then
      if g.laterBreaks.isEmpty then [' '] else g.laterBreaks
    else g.firstBreak ++ g.laterBreaks
  else g.blanks

/-- Reads the blanks and breaks at a cursor, in at most the given steps. With an indentation, a tab
that stands before it at the start of a line is refused. -/
def read (indent? : Option Int) : Nat → Gap → Cursor → Option (Gap × Cursor)
  | 0, g, c => some (g, c)
  | n + 1, g, c =>
    match c.rest with
    | [] => some (g, c)
    | x :: _ =>
      if isBlank x then
        let refused := match indent? with
          | some indent => g.hasBreak && decide ((c.position.column : Int) < indent) && x == '\t'
          | none => false
        if refused then none else read indent? n (g.addBlank x) (c.skip 1)
      else if isBreak x then
        let (b, c) := c.takeBreak
        read indent? n (g.addBreak b) c
      else some (g, c)

end Gap

end PaperTrail.Yaml
