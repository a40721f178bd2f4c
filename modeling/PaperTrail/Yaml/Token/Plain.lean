import PaperTrail.Yaml.Character

/-!
# Plain scalars

A plain scalar is a text without quotes: words with gaps between them. In a block it goes on as long
as its lines are indented, in a flow collection up to the next mark of the collection; a comment or
a document mark ends it.
-/

namespace PaperTrail.Yaml.Plain

def startsFlowMark : List Char → Bool
  | c :: _ => c == ',' || c == '[' || c == ']' || c == '\x7b' || c == '\x7d'
  | [] => false

def startsQuestion : List Char → Bool
  | '?' :: _ => true
  | _ => false

/-- The word at the start of a text and what follows it. A colon ends a word when a blank follows
it; inside a flow collection a mark ends it as well, and one right after a colon is refused. -/
def word (flow : Bool) : List Char → Option (List Char × List Char)
  | [] => some ([], [])
  | c :: cs =>
    if endsWord (c :: cs) then some ([], c :: cs)
    else if flow && c == ':' && (startsFlowMark cs || startsQuestion cs) then none
    else if (c == ':' && endsWord cs) || (flow && startsFlowMark (c :: cs)) then some ([], c :: cs)
    else (word flow cs).map fun p => (c :: p.1, p.2)

/-- A plain scalar, whether a line break follows it, and the cursor behind it. -/
structure Scan where
  text : List Char
  brokenLine : Bool
  next : Cursor

/-- Reads the words from a cursor on, in at most the given steps, behind `text` and `gap`. -/
def words (flow : Bool) (indent : Int) : Nat → List Char → Gap → Cursor → Option Scan
  | 0, text, gap, c => some ⟨text, gap.hasBreak, c⟩
  | n + 1, text, gap, c =>
    if c.position.column = 0 ∧ startsDocumentMark c.rest then some ⟨text, gap.hasBreak, c⟩
    else if c.rest.head? = some '#' then some ⟨text, gap.hasBreak, c⟩
    else
      match word flow c.rest with
      | none => none
      | some ([], _) => some ⟨text, gap.hasBreak, c⟩
      | some (w, r) =>
        let text := text ++ gap.folded ++ w
        let c := c.skip w.length
        if ¬ startsGap r then some ⟨text, false, c⟩
        else
          match Gap.read (some indent) c.bound Gap.empty c with
          | none => none
          | some (gap, c) =>
            if ¬ flow ∧ (c.position.column : Int) < indent then some ⟨text, gap.hasBreak, c⟩
            else words flow indent n text gap c

/-- Reads a plain scalar whose lines are indented by `indent` at least. -/
def read (flow : Bool) (indent : Int) (c : Cursor) : Option Scan :=
  words flow indent c.bound [] Gap.empty c

end PaperTrail.Yaml.Plain
