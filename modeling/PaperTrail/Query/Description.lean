import PaperTrail.Query.Basic
import PaperTrail.Value.Outline

/-!
# Queries from descriptions

A query is described by a mapping with the keys `queries` and, unless it is `and`, `operator`; a
clause by one with `fields`, `terms` and, unless they are `or` and `false`, `operator` and
`negated`. A part with the key `queries` is a query, any other part a clause. The whole description
may stand under the key `query`.

* `DescriptionError` : what is wrong with a description, with the node that shows it;
* `Query.ofValue` : the query of a description, or the first thing wrong with it. A query is checked
  before its parts and the parts in order; within a node the checks go by key: `operator` and
  `queries` of a query, `negated`, `operator`, `fields` and `terms` of a clause.
-/

namespace PaperTrail

/-- The keys of a description. -/
inductive DescriptionKey where
  | queries
  | operator
  | fields
  | terms
  | negated
deriving DecidableEq, Repr

def DescriptionKey.name : DescriptionKey → String
  | queries => "queries"
  | operator => "operator"
  | fields => "fields"
  | terms => "terms"
  | negated => "negated"

/-- What is wrong with a description, and at which node. -/
inductive DescriptionError where
  | unknownOperator (token : String) (node : Value)
  | unknownField (token : String) (node : Value)
  | missingKey (key : DescriptionKey) (node : Value)
  | invalidValue (key : DescriptionKey) (node : Value)
  | empty (key : DescriptionKey) (node : Value)
deriving Inhabited

def DescriptionError.message : DescriptionError → String
  | unknownOperator token node => s!"unknown operator '{token}' in {node.fragment}"
  | unknownField token node => s!"unknown field '{token}' in {node.fragment}"
  | missingKey key node => s!"missing '{key.name}' key in {node.fragment}"
  | invalidValue key node => s!"invalid value for '{key.name}' in {node.fragment}"
  | empty key node => s!"'{key.name}' must not be empty in {node.fragment}"

namespace Description

def orElse {α : Type} (e : DescriptionError) : Option α → Except DescriptionError α
  | some a => .ok a
  | none => .error e

/-- The operator of a node, `default` when it names none. -/
def operatorOf (node : Value) (default : Operator) : Except DescriptionError Operator :=
  match node.get? DescriptionKey.operator.name with
  | none => .ok default
  | some raw =>
    match raw.string? with
    | none => .error (.invalidValue .operator node)
    | some token => orElse (.unknownOperator token node) (Operator.ofToken? token)

def negatedOf (node : Value) : Except DescriptionError Bool :=
  match node.get? DescriptionKey.negated.name with
  | none => .ok false
  | some raw => orElse (.invalidValue .negated node) raw.bool?

def itemsOf (node : Value) (key : DescriptionKey) : Except DescriptionError (List Value) :=
  match node.get? key.name with
  | none => .error (.missingKey key node)
  | some raw =>
    match raw.sequence? with
    | none => .error (.invalidValue key node)
    | some [] => .error (.empty key node)
    | some (v :: vs) => .ok (v :: vs)

def fieldOf (node item : Value) : Except DescriptionError Field :=
  match item.string? with
  | none => .error (.invalidValue .fields node)
  | some token => orElse (.unknownField token node) (Field.ofToken? token)

def termOf (node item : Value) : Except DescriptionError String :=
  orElse (.invalidValue .terms node) item.scalarText?

/-- The results of a check on every item, or its first error. -/
def forEach {α β ε : Type} (f : α → Except ε β) : List α → Except ε (List β)
  | [] => .ok []
  | x :: xs =>
    match f x with
    | .error e => .error e
    | .ok y =>
      match forEach f xs with
      | .error e => .error e
      | .ok ys => .ok (y :: ys)

def clauseOf (node : Value) : Except DescriptionError Clause :=
  if node.isMapping then do
    let negated ← negatedOf node
    let operator ← operatorOf node .or
    let fields ← forEach (fieldOf node) (← itemsOf node .fields)
    let terms ← forEach (termOf node) (← itemsOf node .terms)
    orElse (.empty .fields node) (Clause.ofLists? operator negated fields terms)
  else .error (.invalidValue .fields node)

/-- The operator and the parts of the query that a node describes, the parts still as values. -/
def levelOf (node : Value) : Except DescriptionError (Operator × List Value) :=
  if node.isMapping then do
    let operator ← operatorOf node .and
    return (operator, ← itemsOf node .queries)
  else .error (.invalidValue .queries node)

theorem sizeOf_lt_of_itemsOf {node : Value} {key : DescriptionKey} {items : List Value}
    (h : itemsOf node key = .ok items) : sizeOf items < sizeOf node := by
  unfold itemsOf at h
  split at h
  · cases h
  · next raw hr =>
    have h₁ := Value.sizeOf_lt_of_get? hr
    split at h
    · cases h
    · cases h
    · next hs =>
      have h₂ := Value.sizeOf_lt_of_sequence? hs
      obtain rfl := Except.ok.inj h
      omega

theorem sizeOf_lt_of_levelOf {node : Value} {operator : Operator} {items : List Value}
    (h : levelOf node = .ok (operator, items)) : sizeOf items < sizeOf node := by
  unfold levelOf at h
  split at h
  · cases ho : operatorOf node .and with
    | error e => rw [ho] at h; cases h
    | ok o =>
      cases hi : itemsOf node .queries with
      | error e => rw [ho, hi] at h; cases h
      | ok is =>
        rw [ho, hi] at h
        have := sizeOf_lt_of_itemsOf hi
        cases h
        exact this
  · cases h

mutual

def queryOf (node : Value) : Except DescriptionError Query :=
  match _h : levelOf node with
  | .error e => .error e
  | .ok (operator, items) =>
    match nodesOf items with
    | .error e => .error e
    | .ok children => .ok ⟨operator, children⟩
termination_by sizeOf node
decreasing_by exact sizeOf_lt_of_levelOf _h

def nodesOf (nodes : List Value) : Except DescriptionError (List Node) :=
  match nodes with
  | [] => .ok []
  | v :: vs =>
    let first : Except DescriptionError Node :=
      if (v.get? DescriptionKey.queries.name).isSome then
        match queryOf v with
        | .error e => .error e
        | .ok q => .ok q.toNode
      else
        match clauseOf v with
        | .error e => .error e
        | .ok c => .ok (.clause c)
    match first with
    | .error e => .error e
    | .ok n =>
      match nodesOf vs with
      | .error e => .error e
      | .ok ns => .ok (n :: ns)
termination_by sizeOf nodes
decreasing_by
  all_goals simp only [List.cons.sizeOf_spec]; omega

end

/-- The node at which a description starts: the value under `query`, unless the description has
`queries` of its own. -/
def rootOf (v : Value) : Value :=
  match v.get? "query", v.get? DescriptionKey.queries.name with
  | some inner, none => inner
  | _, _ => v

end Description

/-- The query that a value describes, or the first thing wrong with it. -/
def Query.ofValue (v : Value) : Except DescriptionError Query :=
  Description.queryOf (Description.rootOf v)

end PaperTrail
