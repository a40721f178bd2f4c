import PaperTrail.Yaml.Token

/-!
# Nodes of YAML

* `Node` : a scalar, a sequence, a mapping, or an alias of a node. Anchors are numbers here: a node
  gets the count of names known when it starts, so the number of a name that is used again is later
  shared by the next new name, and an alias then stands for the last node of its number;
* `Node.ofTokens?` : the nodes of a stream's first document. There are none when the tokens do not
  follow the grammar, when a directive is wrong, when an alias or a tag handle is unknown, or when
  the stream goes on with a further document.
-/

namespace PaperTrail.Yaml

/-- The anchor and the tag of a node. -/
structure Properties where
  anchor? : Option Nat
  tag? : Option TagBytes
deriving Inhabited, DecidableEq

def Properties.none : Properties := ⟨.none, .none⟩

/-- A part of a document. -/
inductive Node where
  | reference (anchor : Nat)
  | scalar (properties : Properties) (plain : Bool) (text : String)
  | sequence (properties : Properties) (items : List Node)
  | mapping (properties : Properties) (entries : List (Node × Node))
deriving Inhabited

namespace Node

/-- The scalar that stands for a missing node. -/
def missing : Node := .scalar .none true ""

/-! ## Reading tokens -/

/-- The tokens that are left, the names of anchors with their numbers, and the meaning of tag
handles. -/
structure Stream where
  tokens : List Token
  anchors : List (String × Nat)
  handles : List (String × TagBytes)

namespace Stream

def skip (s : Stream) : Stream := { s with tokens := s.tokens.tail }

def next? (s : Stream) : Option Token := s.tokens.head?

def nextIn (s : Stream) (ts : List Token) : Bool :=
  match s.next? with
  | some t => ts.contains t
  | none => false

/-- The number of a new anchor, and the stream that knows its name. -/
def addAnchor (s : Stream) (name : String) : Nat × Stream :=
  let number := s.anchors.length
  (number, { s with anchors := (name, number) :: s.anchors.filter (·.1 ≠ name) })

def anchorOf? (s : Stream) (name : String) : Option Nat :=
  (s.anchors.find? (·.1 == name)).map (·.2)

def tagOf? (s : Stream) (handle : String) (suffix : TagBytes) : Option TagBytes :=
  if handle.isEmpty then some suffix
  else (s.handles.find? (·.1 == handle)).map fun h => h.2 ++ suffix

def readAnchor (s : Stream) : Option Nat × Stream :=
  match s.next? with
  | some (.anchor name) =>
    let (number, s) := s.skip.addAnchor name
    (some number, s)
  | _ => (none, s)

/-- Reads a tag, if one is next; none when its handle is unknown. -/
def readTag (s : Stream) : Option (Option TagBytes × Stream) :=
  match s.next? with
  | some (.tag handle suffix) => (s.tagOf? handle suffix).map fun t => (some t, s.skip)
  | _ => some (none, s)

/-- Reads an anchor and a tag, in any order. -/
def readProperties (s : Stream) : Option (Properties × Stream) :=
  match s.next? with
  | some (.tag ..) =>
    match s.readTag with
    | none => none
    | some (tag?, s) =>
      let (anchor?, s) := s.readAnchor
      some (⟨anchor?, tag?⟩, s)
  | _ =>
    let (anchor?, s) := s.readAnchor
    match s.readTag with
    | none => none
    | some (tag?, s) => some (⟨anchor?, tag?⟩, s)

end Stream

/-- Where a node stands: this decides which collections may start there. -/
inductive Place where
  /-- Inside a flow collection. -/
  | flow
  /-- Inside a block. -/
  | block
  /-- After a mark of a block mapping, where a sequence need not be indented. -/
  | blockValue
deriving DecidableEq

/-- The tokens before which a part of a block mapping is missing. -/
def mappingMarks : List Token := [.key, .value, .blockEnd]

mutual

def read : Nat → Place → Stream → Option (Node × Stream)
  | 0, _, _ => none
  | n + 1, place, s =>
    match s.next? with
    | some (.reference name) => (s.anchorOf? name).map fun a => (.reference a, s.skip)
    | _ =>
      match s.readProperties with
      | none => none
      | some (p, s) =>
        match s.next? with
        | some (.scalar plain text) => some (.scalar p plain text, s.skip)
        | some .flowSequenceStart =>
          (flowItems n true s.skip).map fun r => (.sequence p r.1, r.2)
        | some .flowMappingStart =>
          (flowEntries n true s.skip).map fun r => (.mapping p r.1, r.2)
        | some .blockEntry =>
          if place = .blockValue then (looseItems n s).map fun r => (.sequence p r.1, r.2)
          else if p = .none then none
          else some (.scalar p true "", s)
        | some .blockSequenceStart =>
          if place = .flow then (if p = .none then none else some (.scalar p true "", s))
          else (blockItems n s.skip).map fun r => (.sequence p r.1, r.2)
        | some .blockMappingStart =>
          if place = .flow then (if p = .none then none else some (.scalar p true "", s))
          else (blockEntries n s.skip).map fun r => (.mapping p r.1, r.2)
        | _ => if p = .none then none else some (.scalar p true "", s)

def readUnless : Nat → List Token → Place → Stream → Option (Node × Stream)
  | 0, _, _, _ => none
  | n + 1, marks, place, s =>
    if s.nextIn marks then some (missing, s) else read n place s

def blockItems : Nat → Stream → Option (List Node × Stream)
  | 0, _ => none
  | n + 1, s =>
    match s.next? with
    | some .blockEntry =>
      match readUnless n [.blockEntry, .blockEnd] .block s.skip with
      | none => none
      | some (v, s) => (blockItems n s).map fun r => (v :: r.1, r.2)
    | some .blockEnd => some ([], s.skip)
    | _ => none

/-- Reads the items of a block sequence that is not indented. -/
def looseItems : Nat → Stream → Option (List Node × Stream)
  | 0, _ => none
  | n + 1, s =>
    match s.next? with
    | some .blockEntry =>
      match readUnless n (.blockEntry :: mappingMarks) .block s.skip with
      | none => none
      | some (v, s) => (looseItems n s).map fun r => (v :: r.1, r.2)
    | _ => some ([], s)

def blockEntries : Nat → Stream → Option (List (Node × Node) × Stream)
  | 0, _ => none
  | n + 1, s =>
    match s.next? with
    | some .key =>
      match readUnless n mappingMarks .blockValue s.skip with
      | none => none
      | some (k, s) =>
        let value :=
          if s.next? = some .value then readUnless n mappingMarks .blockValue s.skip
          else some (missing, s)
        match value with
        | none => none
        | some (v, s) => (blockEntries n s).map fun r => ((k, v) :: r.1, r.2)
    | some .blockEnd => some ([], s.skip)
    | _ => none

/-- Reads the items of a flow sequence. An item with a key is a mapping of one entry. -/
def flowItems : Nat → Bool → Stream → Option (List Node × Stream)
  | 0, _, _ => none
  | n + 1, first, s =>
    if s.next? = some .flowSequenceEnd then some ([], s.skip)
    else if ¬ first ∧ s.next? ≠ some .flowEntry then none
    else
      let s := if first then s else s.skip
      match s.next? with
      | some .flowSequenceEnd => some ([], s.skip)
      | some .key =>
        match flowPair n s.skip with
        | none => none
        | some (v, s) => (flowItems n false s).map fun r => (v :: r.1, r.2)
      | _ =>
        match read n .flow s with
        | none => none
        | some (v, s) => (flowItems n false s).map fun r => (v :: r.1, r.2)

/-- Reads the mapping of one entry after its key mark. When the key is missing, the token in its
place is dropped. -/
def flowPair : Nat → Stream → Option (Node × Stream)
  | 0, _ => none
  | n + 1, s =>
    let key :=
      if s.nextIn [.value, .flowEntry, .flowSequenceEnd] then some (missing, s.skip)
      else read n .flow s
    match key with
    | none => none
    | some (k, s) =>
      let value :=
        if s.next? = some .value then readUnless n [.flowEntry, .flowSequenceEnd] .flow s.skip
        else some (missing, s)
      value.map fun r => (.mapping .none [(k, r.1)], r.2)

/-- Reads the entries of a flow mapping. An entry without a key mark has no value. -/
def flowEntries : Nat → Bool → Stream → Option (List (Node × Node) × Stream)
  | 0, _, _ => none
  | n + 1, first, s =>
    if s.next? = some .flowMappingEnd then some ([], s.skip)
    else if ¬ first ∧ s.next? ≠ some .flowEntry then none
    else
      let s := if first then s else s.skip
      match s.next? with
      | some .flowMappingEnd => some ([], s.skip)
      | some .key =>
        match readUnless n [.value, .flowEntry, .flowMappingEnd] .flow s.skip with
        | none => none
        | some (k, s) =>
          let value :=
            if s.next? = some .value then readUnless n [.flowEntry, .flowMappingEnd] .flow s.skip
            else some (missing, s)
          match value with
          | none => none
          | some (v, s) => (flowEntries n false s).map fun r => ((k, v) :: r.1, r.2)
      | _ =>
        match read n .flow s with
        | none => none
        | some (k, s) => (flowEntries n false s).map fun r => ((k, missing) :: r.1, r.2)

end

/-! ## Documents -/

def usualHandles : List (String × TagBytes) :=
  [("!", [0x21]), ("!!", "tag:yaml.org,2002:".toUTF8.toList)]

/-- Reads the directives before a document: at most one version, which is 1.1 or 1.2, and no handle
twice. -/
def readDirectives : List Token → Bool → List (String × TagBytes) →
    Option (List (String × TagBytes) × List Token)
  | .versionDirective major minor :: ts, versioned, handles =>
    if versioned ∨ major ≠ 1 ∨ (minor ≠ 1 ∧ minor ≠ 2) then none
    else readDirectives ts true handles
  | .tagDirective handle start :: ts, versioned, handles =>
    if handles.any (·.1 == handle) then none
    else readDirectives ts versioned ((handle, start) :: handles)
  | ts, _, handles => some (handles ++ usualHandles, ts)

/-- Steps enough for tokens: at most three for each one. -/
def stepsFor (ts : List Token) : Nat := 4 * ts.length + 8

/-- What is left behind a document: end marks only. -/
def isFinished (s : Stream) : Bool := s.tokens.all (· == .documentEnd)

def readRoot (handles : List (String × TagBytes)) (ts : List Token) : Option Node :=
  match read (stepsFor ts) .block ⟨ts, [], handles⟩ with
  | some (v, s) => if isFinished s then some v else none
  | none => none

/-- The root of the first document of a stream, which is missing in an empty stream. There is no
result when the stream is not well formed or has more than one document. -/
def ofTokens? : List Token → Option (Option Node)
  | [] => some none
  | ts =>
    match readDirectives ts false [] with
    | none => none
    | some (handles, .documentStart :: rest) =>
      match rest.head? with
      | none => some (some missing)
      | some .documentEnd => if rest.all (· == .documentEnd) then some (some missing) else none
      | some _ => (readRoot handles rest).map some
    | some (handles, rest) =>
      if rest.length = ts.length then (readRoot handles rest).map some else none

end Node

end PaperTrail.Yaml
