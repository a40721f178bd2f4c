import PaperTrail.Value.Equality
import PaperTrail.Yaml.Scalar
import PaperTrail.Yaml.Token.Lexer

/-!
# Documents of YAML

* `Document` : the root of a document with the nodes that aliases stand for;
* `Document.ofString?` : the only document of a text;
* `Document.value?` : the value of a document. Its collections are nested at most 128 deep, aliases
  replaced; no mapping has a key twice; and aliases are followed at most a hundred times for each
  node of the document.
-/

namespace PaperTrail.Yaml

namespace Node

mutual

/-- The count of marks by which a node is written: one for each scalar and alias, two for each
collection. -/
def size : Node → Nat
  | reference _ => 1
  | scalar .. => 1
  | sequence _ items => sizeOfItems items + 2
  | mapping _ es => sizeOfEntries es + 2

def sizeOfItems : List Node → Nat
  | [] => 0
  | v :: rest => v.size + sizeOfItems rest

def sizeOfEntries : List (Node × Node) → Nat
  | [] => 0
  | (k, v) :: rest => k.size + v.size + sizeOfEntries rest

end

def anchor? : Node → Option Nat
  | reference _ => none
  | scalar p .. => p.anchor?
  | sequence p _ => p.anchor?
  | mapping p _ => p.anchor?

mutual

/-- The nodes with an anchor, in the order in which they start. -/
def anchored : Node → List (Nat × Node)
  | reference _ => []
  | scalar p plain s => (p.anchor?.map fun a => (a, scalar p plain s)).toList
  | sequence p items =>
    (p.anchor?.map fun a => (a, sequence p items)).toList ++ anchoredItems items
  | mapping p es => (p.anchor?.map fun a => (a, mapping p es)).toList ++ anchoredEntries es

def anchoredItems : List Node → List (Nat × Node)
  | [] => []
  | v :: rest => v.anchored ++ anchoredItems rest

def anchoredEntries : List (Node × Node) → List (Nat × Node)
  | [] => []
  | (k, v) :: rest => k.anchored ++ v.anchored ++ anchoredEntries rest

end

end Node

/-- The root of a document, missing when the stream is empty, and the nodes with anchors, the last
one first. -/
structure Document where
  root? : Option Node
  anchored : List (Nat × Node)

namespace Document

def ofRoot (root? : Option Node) : Document :=
  ⟨root?, (root?.map fun v => v.anchored.reverse).getD []⟩

def ofString? (s : String) : Option Document :=
  (Token.ofString? s).bind fun ts => (Node.ofTokens? ts).map ofRoot

/-- The node that an alias stands for: the last one with its number. -/
def target? (d : Document) (anchor : Nat) : Option Node :=
  (d.anchored.find? (·.1 == anchor)).map (·.2)

/-- How often aliases may be followed. -/
def maxJumps (d : Document) : Nat := 100 * (d.root?.map Node.size).getD 1

def maxDepth : Nat := 128

end Document

/-! ## Values -/

/-- The name of a tag that makes a value of its own: a tag of bytes that start with an exclamation
mark, which is not part of the name unless it stands alone. -/
def valueTag? : Option TagBytes → Option String
  | some (0x21 :: bytes) =>
    String.fromUTF8? ⟨(if bytes.isEmpty then [0x21] else bytes).toArray⟩
  | _ => none

def withTag (tag? : Option TagBytes) (v : Value) : Value :=
  match valueTag? tag? with
  | some t => .tagged t v
  | none => v

def scalarValue? (p : Properties) (plain : Bool) (s : String) : Option Value :=
  match valueTag? p.tag? with
  | some t => (if plain then Scalar.resolve? s else some (.string s)).map (.tagged t)
  | none => Scalar.value? p.tag? plain s

def distinctKeys : List (Value × Value) → Bool
  | [] => true
  | (k, _) :: rest => !rest.any (fun e => k.same e.1) && distinctKeys rest

/-- Applies a step to every element in turn, handing on a state. -/
def forEach {α β σ : Type} (f : α → σ → Option (β × σ)) : List α → σ → Option (List β × σ)
  | [], s => some ([], s)
  | x :: xs, s =>
    match f x s with
    | none => none
    | some (y, s) => (forEach f xs s).map fun r => (y :: r.1, r.2)

namespace Document

/-- The node itself, or the one that an alias stands for; the count of aliases followed so far goes
along. -/
def follow (d : Document) (v : Node) (jumps : Nat) : Option (Node × Nat) :=
  match v with
  | .reference a =>
    if d.maxJumps < jumps + 1 then none else (d.target? a).map fun v => (v, jumps + 1)
  | v => some (v, jumps)

/-- The value of a node whose collections are nested at most `depth` deep. -/
def valueOf (d : Document) (depth : Nat) (v : Node) (jumps : Nat) : Option (Value × Nat) :=
  match depth, d.follow v jumps with
  | _, some (.scalar p plain s, jumps) => (scalarValue? p plain s).map fun v => (v, jumps)
  | depth + 1, some (.sequence p items, jumps) =>
    (forEach (valueOf d depth) items jumps).map fun r => (withTag p.tag? (.sequence r.1), r.2)
  | depth + 1, some (.mapping p es, jumps) =>
    let entry (e : Node × Node) (jumps : Nat) : Option ((Value × Value) × Nat) :=
      match valueOf d depth e.1 jumps with
      | none => none
      | some (k, jumps) => (valueOf d depth e.2 jumps).map fun r => ((k, r.1), r.2)
    match forEach entry es jumps with
    | none => none
    | some (es, jumps) =>
      if distinctKeys es then some (withTag p.tag? (.mapping es), jumps) else none
  | _, _ => none

/-- The value of a document; an empty stream is null. -/
def value? (d : Document) : Option Value :=
  match d.root? with
  | none => some .null
  | some v => (d.valueOf maxDepth v 0).map (·.1)

end Document

def valueOfString? (s : String) : Option Value := (Document.ofString? s).bind Document.value?

end PaperTrail.Yaml
