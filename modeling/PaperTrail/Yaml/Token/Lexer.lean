import PaperTrail.Yaml.Token.Plain
import PaperTrail.Yaml.Token.Block
import PaperTrail.Yaml.Token.Tag

/-!
# The tokens of a text

A text is read from left to right. Indentation opens and closes block collections. A mapping key
need not be marked as one: it is recognised by the colon after it, so the place of every possible
key is remembered, one for the block context and one for each open flow collection, and the missing
tokens are put there when the colon comes. A possible key ends with its line, or when it is more
than 1024 characters long.

* `Lexer` : the state between two tokens;
* `Lexer.step` : reads one token with all that it opens and closes;
* `Token.ofString?` : the tokens of a text; none when it has none.
-/

namespace PaperTrail.Yaml

/-- A place where a key without mark may have started. -/
structure KeyCandidate where
  /-- Whether the text at this place has to be a key. -/
  required : Bool
  /-- The count of tokens before it. -/
  number : Nat
  position : Position
deriving Inhabited

/-- The state between two tokens. -/
structure Lexer where
  cursor : Cursor
  /-- The column of the innermost block collection, `-1` outside of all. -/
  indent : Int
  /-- The columns of the other open block collections, the innermost first. -/
  outerIndents : List Int
  keyAllowed : Bool
  /-- The possible key of every open flow collection, the innermost first, and of the block. -/
  keys : List (Option KeyCandidate)
  tokens : Array Token

namespace Lexer

def start (cs : List Char) : Lexer :=
  ⟨⟨cs, Position.start, cs.length + 1⟩, -1, [], true, [none], #[]⟩

def inFlow (l : Lexer) : Bool := decide (1 < l.keys.length)

def column (l : Lexer) : Nat := l.cursor.position.column

def emit (l : Lexer) (t : Token) : Lexer := { l with tokens := l.tokens.push t }

def emitMark (l : Lexer) (t : Token) (n : Nat) : Lexer :=
  { l.emit t with cursor := l.cursor.skip n }

/-- The state with a token put behind the first `number` ones. -/
def insertAt (l : Lexer) (number : Nat) (t : Token) : Lexer :=
  { l with tokens := l.tokens.insertIdxIfInBounds number t }

/-! ## Possible keys -/

def isStale (p : Position) (k : KeyCandidate) : Bool :=
  decide (k.position.line < p.line) || decide (k.position.index + 1024 < p.index)

/-- Drops the possible keys that have ended; none when one of them had to be a key. -/
def dropStaleKeys (l : Lexer) : Option Lexer :=
  let stale (k : Option KeyCandidate) : Bool := k.any (isStale l.cursor.position)
  if l.keys.any fun k => stale k && k.any (·.required) then none
  else some { l with keys := l.keys.map fun k => if stale k then none else k }

/-- Drops the innermost possible key; none when it had to be a key. -/
def dropKey (l : Lexer) : Option Lexer :=
  match l.keys with
  | some k :: rest => if k.required then none else some { l with keys := none :: rest }
  | _ => some l

def saveKey (l : Lexer) : Option Lexer :=
  if l.keyAllowed then
    let required := !l.inFlow && decide (l.indent = (l.column : Int))
    let k : KeyCandidate := ⟨required, l.tokens.size, l.cursor.position⟩
    l.dropKey.map fun l => { l with keys := some k :: l.keys.drop 1 }
  else some l

/-! ## Indentation -/

/-- Opens a block collection at a column that is deeper than the innermost one, by the token `t`,
at the end or at a place among the tokens. -/
def open_ (l : Lexer) (column : Nat) (number? : Option Nat) (t : Token) : Lexer :=
  if l.inFlow ∨ (column : Int) ≤ l.indent then l
  else
    let l := { l with outerIndents := l.indent :: l.outerIndents, indent := column }
    match number? with
    | none => l.emit t
    | some n => l.insertAt n t

def closeTo (column : Int) : List Int → Lexer → Lexer
  | [], l => l
  | outer :: rest, l =>
    if column < l.indent then
      closeTo column rest { l.emit .blockEnd with indent := outer, outerIndents := rest }
    else l

/-- Closes the block collections that are deeper than `column`; flow collections have no
indentation. -/
def unwind (l : Lexer) (column : Int) : Lexer :=
  if l.inFlow then l else closeTo column l.outerIndents l

/-! ## Blanks and comments -/

/-- Skips blanks, comments and line breaks, in at most the given steps. A tab does not count as a
blank where a key may start in a block. -/
def skipGap : Nat → Lexer → Lexer
  | 0, l => l
  | n + 1, l =>
    let c := l.cursor
    let c := if c.position.column = 0 ∧ c.rest.head? = some byteOrderMark then c.skip 1 else c
    let tabs := l.inFlow || !l.keyAllowed
    let c := c.skipWhile fun x => x == ' ' || (tabs && x == '\t')
    let c := if c.rest.head? = some '#' then c.skipWhile fun x => ¬ isBreak x else c
    match c.takeBreak with
    | ([], _) => { l with cursor := c }
    | (_, c) => skipGap n { l with cursor := c, keyAllowed := l.keyAllowed || !l.inFlow }

/-! ## Tokens -/

def emitScalar (l : Lexer) (plain : Bool) (text : List Char) (c : Cursor) : Lexer :=
  { l.emit (.scalar plain (String.ofList text)) with cursor := c }

def directive (l : Lexer) : Option Lexer := do
  let l ← (l.unwind (-1)).dropKey
  let (t, c) ← Tag.directive l.cursor
  return { l.emit t with cursor := c, keyAllowed := false }

def documentMark (l : Lexer) (t : Token) : Option Lexer := do
  let l ← (l.unwind (-1)).dropKey
  return { l.emitMark t 3 with keyAllowed := false }

def openFlow (l : Lexer) (t : Token) : Option Lexer := do
  let l ← l.saveKey
  return { l.emitMark t 1 with keys := none :: l.keys, keyAllowed := true }

def closeFlow (l : Lexer) (t : Token) : Option Lexer := do
  let l ← l.dropKey
  let keys := if l.inFlow then l.keys.drop 1 else l.keys
  return { l.emitMark t 1 with keys, keyAllowed := false }

def flowEntry (l : Lexer) : Option Lexer := do
  let l ← l.dropKey
  return { l.emitMark .flowEntry 1 with keyAllowed := true }

def blockEntry (l : Lexer) : Option Lexer := do
  if ¬ l.inFlow ∧ ¬ l.keyAllowed then none
  else
    let l ← (l.open_ l.column none .blockSequenceStart).dropKey
    return { l.emitMark .blockEntry 1 with keyAllowed := true }

def keyMark (l : Lexer) : Option Lexer := do
  if ¬ l.inFlow ∧ ¬ l.keyAllowed then none
  else
    let l ← (l.open_ l.column none .blockMappingStart).dropKey
    return { l.emitMark .key 1 with keyAllowed := !l.inFlow }

/-- Reads the colon of a value. When a key may have started before it, that was one. -/
def valueMark (l : Lexer) : Option Lexer :=
  match l.keys with
  | some k :: rest =>
    let l := { (l.insertAt k.number .key) with keys := none :: rest }
    let l := l.open_ k.position.column (some k.number) .blockMappingStart
    some { l.emitMark .value 1 with keyAllowed := false }
  | _ =>
    if ¬ l.inFlow ∧ ¬ l.keyAllowed then none
    else
      let l := l.open_ l.column none .blockMappingStart
      some { l.emitMark .value 1 with keyAllowed := !l.inFlow }

def anchorMark (l : Lexer) (t : String → Token) : Option Lexer := do
  let l ← l.saveKey
  let (n, c) ← Tag.name l.cursor
  return { l.emit (t n) with cursor := c, keyAllowed := false }

def tagMark (l : Lexer) : Option Lexer := do
  let l ← l.saveKey
  let (t, c) ← Tag.tag l.inFlow l.cursor
  return { l.emit t with cursor := c, keyAllowed := false }

def blockScalar (l : Lexer) (folded : Bool) : Option Lexer := do
  let l ← l.dropKey
  let (text, c) ← Block.read folded l.indent l.cursor
  return { l.emitScalar false text c with keyAllowed := true }

def quotedScalar (l : Lexer) (double : Bool) : Option Lexer := do
  let l ← l.saveKey
  let (text, c) ← Quoted.read double l.cursor
  return { l.emitScalar false text c with keyAllowed := false }

def plainScalar (l : Lexer) : Option Lexer := do
  let l ← l.saveKey
  let s ← Plain.read l.inFlow (l.indent + 1) l.cursor
  return { l.emitScalar true s.text s.next with keyAllowed := s.brokenLine }

/-- The marks that no plain scalar starts with. -/
def reserved : List Char := "\t,[]\x7b\x7d#&*!|>'\"%@".toList ++ [Char.ofNat 0x60]

def startsPlain (l : Lexer) (c : Char) (cs : List Char) : Bool :=
  if c = '-' then !(cs.head?.map isBlank).getD false
  else if c = '?' ∨ c = ':' then !l.inFlow && !endsWord cs
  else !reserved.contains c

def token (l : Lexer) (c : Char) (cs : List Char) : Option Lexer :=
  if l.column = 0 ∧ c = '%' then l.directive
  else if l.column = 0 ∧ startsDocumentMark (c :: cs) then
    l.documentMark (if c = '-' then .documentStart else .documentEnd)
  else if c = '[' then l.openFlow .flowSequenceStart
  else if c = '\x7b' then l.openFlow .flowMappingStart
  else if c = ']' then l.closeFlow .flowSequenceEnd
  else if c = '\x7d' then l.closeFlow .flowMappingEnd
  else if c = ',' then l.flowEntry
  else if c = '-' ∧ endsWord cs then l.blockEntry
  else if c = '?' ∧ (l.inFlow ∨ endsWord cs) then l.keyMark
  else if c = ':' ∧ (l.inFlow ∨ endsWord cs) then l.valueMark
  else if c = '*' then l.anchorMark .reference
  else if c = '&' then l.anchorMark .anchor
  else if c = '!' then l.tagMark
  else if c = '|' ∧ ¬ l.inFlow then l.blockScalar false
  else if c = '>' ∧ ¬ l.inFlow then l.blockScalar true
  else if c = '\'' then l.quotedScalar false
  else if c = '"' then l.quotedScalar true
  else if l.startsPlain c cs then l.plainScalar
  else none

def finish (l : Lexer) : Option Lexer :=
  (l.unwind (-1)).dropKey

/-- Reads one token, or closes everything at the end; the flag says that the text goes on. -/
def step (l : Lexer) : Option (Bool × Lexer) := do
  let l ← (skipGap l.cursor.bound l).dropStaleKeys
  let l := l.unwind l.column
  match l.cursor.rest with
  | [] => return (false, ← l.finish)
  | c :: cs => return (true, ← l.token c cs)

/-- Reads tokens to the end of the text, in at most the given steps. -/
def run : Nat → Lexer → Option (Array Token)
  | 0, _ => none
  | n + 1, l =>
    match l.step with
    | none => none
    | some (true, l) => run n l
    | some (false, l) => some l.tokens

end Lexer

/-- The tokens of a text; none when a character is not allowed or starts no token. -/
def Token.ofString? (s : String) : Option (List Token) :=
  let cs := s.toList
  let cs := if cs.head? = some byteOrderMark then cs.drop 1 else cs
  if cs.all isAllowed then (Lexer.run (cs.length + 2) (Lexer.start cs)).map Array.toList else none

end PaperTrail.Yaml
