import PaperTrail.Distinct
import PaperTrail.Text.Blank
import PaperTrail.Text.Case

/-!
# Search queries

* `Operator`, `Field` : how parts are combined, and where a term is looked for, each with the name
  by which a description calls it;
* `Clause` : terms that are looked for in every one of some fields, combined by one operator;
  `Clause.ofLists?` builds one from any lists;
* `Query` : an operator over nodes, a node being a clause or a query inside the query.

A clause always has a field and a term, and no field twice. A query may be empty.
-/

namespace PaperTrail

/-- How the parts of a query are combined. -/
inductive Operator where
  | and
  | or
deriving DecidableEq, Repr, Inhabited

def Operator.name : Operator → String
  | .and => "and"
  | .or => "or"

/-- The operator called `token`, blanks around it and the case of its letters aside. -/
def Operator.ofToken? (token : String) : Option Operator :=
  [Operator.and, .or].find? fun o => o.name == Text.fold (Text.trim token)

/-- Where a term is looked for. -/
inductive Field where
  | title
  | abstract
  | keywords
  | all
deriving DecidableEq, Repr, Inhabited

def Field.name : Field → String
  | .title => "title"
  | .abstract => "abstract"
  | .keywords => "keywords"
  | .all => "all"

def Field.ofToken? (token : String) : Option Field :=
  [Field.title, .abstract, .keywords, .all].find? fun f => f.name == Text.fold (Text.trim token)

/-! ## Clauses -/

/-- Terms that are looked for in every one of some fields. -/
structure Clause where
  operator : Operator
  negated : Bool
  fields : List Field
  terms : List String
  nodup_fields : fields.Nodup
  fields_ne_nil : fields ≠ []
  terms_ne_nil : terms ≠ []
deriving DecidableEq

namespace Clause

/-- The clause of any lists of fields and terms: fields are kept in the order of their first
occurrences. There is none without a field or without a term. -/
def ofLists? (operator : Operator) (negated : Bool) (fields : List Field) (terms : List String) :
    Option Clause :=
  if hf : fields = [] then none
  else if ht : terms = [] then none
  else some
    { operator, negated, terms
      fields := distinct fields
      nodup_fields := nodup_distinct fields
      fields_ne_nil := fun h => hf (distinct_eq_nil_iff.1 h)
      terms_ne_nil := ht }

/-- Whether the clause looks in exactly the `wanted` fields: as many of them, each one among the
fields of the clause. -/
def hasExactly (c : Clause) (wanted : List Field) : Bool :=
  c.fields.length == wanted.length && wanted.all c.fields.contains

end Clause

/-! ## Queries -/

/-- A part of a query: a clause, or further parts under an operator. -/
inductive Node where
  | clause (c : Clause)
  | group (operator : Operator) (children : List Node)

/-- A query: parts under an operator. -/
structure Query where
  operator : Operator
  children : List Node

def Query.toNode (q : Query) : Node := .group q.operator q.children

end PaperTrail
