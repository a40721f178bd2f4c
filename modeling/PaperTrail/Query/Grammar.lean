import PaperTrail.Query.Basic

/-!
# Search grammars

* `Grammar` : the tokens by which a search engine calls operators and fields, the shape in which it
  expects the terms of a field, and the token, if it has one, of the three descriptive fields
  together;
* `Grammar.part` : the text of one field of a clause;
* `Grammar.clauseText` : the text of a clause: its parts, each negated when the clause is, joined
  by the operator and put in parentheses when there is more than one;
* `Grammar.compile` : the text of a query, in which every inner query is in parentheses.

Terms are quoted as they are: a quote inside a term is not escaped.
-/

namespace PaperTrail

/-- The shape of the terms of a field. -/
inductive TermShape where
  /-- `TOKEN("a" OR "b")` -/
  | call
  /-- `TOKEN:("a" OR "b")` -/
  | label
  /-- `(TOKEN:"a" OR TOKEN:"b")` -/
  | eachTerm
deriving DecidableEq, Repr

/-- The search syntax of an engine. -/
structure Grammar where
  name : String
  operatorToken : Operator → String
  fieldToken : Field → String
  shape : TermShape
  /-- The token for title, abstract and keywords together, used for alternatives only. -/
  descriptiveToken? : Option String

namespace Grammar

/-- The operator tokens that most engines use. -/
def usualOperatorToken : Operator → String
  | .and => "AND"
  | .or => "OR"

def descriptiveFields : List Field := [.title, .abstract, .keywords]

variable (g : Grammar)

/-- The operator between two parts. -/
def separator (o : Operator) : String := " " ++ g.operatorToken o ++ " "

def quoteTerm (term : String) : String := "\"" ++ term ++ "\""

def parenthesized (s : String) : String := "(" ++ s ++ ")"

def quotedTerms (c : Clause) : String :=
  (g.separator c.operator).intercalate (c.terms.map quoteTerm)

/-- The terms of a clause behind a token. -/
def called (token : String) (c : Clause) : String :=
  match g.shape with
  | .call => token ++ parenthesized (g.quotedTerms c)
  | .label => token ++ ":" ++ parenthesized (g.quotedTerms c)
  | .eachTerm =>
    parenthesized ((g.separator c.operator).intercalate
      (c.terms.map fun t => token ++ ":" ++ quoteTerm t))

/-- The text of one field of a clause. -/
def part (f : Field) (c : Clause) : String := g.called (g.fieldToken f) c

/-- The tokens of the parts of a clause: one for every field, or the descriptive token alone. -/
def partTokens (c : Clause) : List String :=
  match g.descriptiveToken? with
  | some token =>
    if c.operator = .or ∧ c.hasExactly descriptiveFields then [token]
    else c.fields.map g.fieldToken
  | none => c.fields.map g.fieldToken

/-- The parts of a clause, each one negated when the clause is. -/
def parts (c : Clause) : List String :=
  (g.partTokens c).map fun token =>
    if c.negated then "NOT " ++ g.called token c else g.called token c

def clauseText (c : Clause) : String :=
  match g.parts c with
  | [p] => p
  | ps => parenthesized ((g.separator c.operator).intercalate ps)

mutual

def nodeText : Node → String
  | .clause c => g.clauseText c
  | .group o children => parenthesized ((g.separator o).intercalate (nodeTexts children))

def nodeTexts : List Node → List String
  | [] => []
  | n :: ns => nodeText n :: nodeTexts ns

end

/-- The text of a query. -/
def compile (q : Query) : String := (g.separator q.operator).intercalate (g.nodeTexts q.children)

theorem nodeTexts_eq_map (ns : List Node) : g.nodeTexts ns = ns.map g.nodeText := by
  induction ns with
  | nil => simp [nodeTexts]
  | cons n ns ih => simp [nodeTexts, ih]

theorem nodeText_toNode (q : Query) : g.nodeText q.toNode = parenthesized (g.compile q) := by
  rw [Query.toNode, nodeText, compile]

end Grammar

end PaperTrail
