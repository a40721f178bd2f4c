import PaperTrail.Query.Basic

/-!
# Query trees from the leaves up

* `Node.fold` : a value computed from those of the clauses upwards, and `Node.induct` the induction
  that goes with it: a part is a clause, or has parts of which the statement holds already;
* `Node.NonEmpty`, `Query.NonEmpty` : every query of the tree has a part;
* `Node.clauses`, `Query.clauses` : the clauses of the tree in their order;
* `Query.QuoteFree` : no term has a quote, so that the quotes around terms can be told apart.
-/

namespace PaperTrail

namespace Node
variable {β : Type} (clause : Clause → β) (group : Operator → List β → β)

mutual

/-- The value of a part, computed from those of the clauses upwards. -/
def fold : Node → β
  | .clause c => clause c
  | .group o children => group o (foldEach children)

def foldEach : List Node → List β
  | [] => []
  | n :: ns => fold n :: foldEach ns

end

theorem foldEach_eq_map (ns : List Node) :
    foldEach clause group ns = ns.map (fold clause group) := by
  induction ns with
  | nil => rfl
  | cons n ns ih => rw [foldEach, ih, List.map_cons]

@[simp] theorem fold_clause (c : Clause) : fold clause group (.clause c) = clause c := rfl

@[simp] theorem fold_group (o : Operator) (children : List Node) :
    fold clause group (.group o children) = group o (children.map (fold clause group)) := by
  rw [fold, foldEach_eq_map]

mutual

@[elab_as_elim]
theorem induct {motive : Node → Prop} (clause : ∀ c, motive (.clause c))
    (group : ∀ o children, (∀ n ∈ children, motive n) → motive (.group o children)) :
    ∀ n, motive n
  | .clause c => clause c
  | .group o children => group o children (inductEach clause group children)

theorem inductEach {motive : Node → Prop} (clause : ∀ c, motive (.clause c))
    (group : ∀ o children, (∀ n ∈ children, motive n) → motive (.group o children)) :
    ∀ ns : List Node, ∀ n ∈ ns, motive n
  | [] => by simp
  | m :: ms => List.forall_mem_cons.2 ⟨induct clause group m, inductEach clause group ms⟩

end

/-- Every query in the part has a part of its own. -/
inductive NonEmpty : Node → Prop where
  | clause (c : Clause) : NonEmpty (.clause c)
  | group (o : Operator) {children : List Node} (hne : children ≠ [])
      (h : ∀ n ∈ children, NonEmpty n) : NonEmpty (.group o children)

def clauses : Node → List Clause := fold (fun c => [c]) fun _ css => css.flatten

theorem mem_clauses_group {o : Operator} {children : List Node} {c : Clause} :
    c ∈ (Node.group o children).clauses ↔ ∃ n ∈ children, c ∈ n.clauses := by
  rw [clauses, fold_group, ← List.flatMap_def, List.mem_flatMap]

end Node

namespace Query

/-- Every query of the tree has a part. -/
def NonEmpty (q : Query) : Prop := q.toNode.NonEmpty

def clauses (q : Query) : List Clause := q.toNode.clauses

/-- No term of the tree has a quote. -/
def QuoteFree (q : Query) : Prop := ∀ c ∈ q.clauses, ∀ t ∈ c.terms, '"' ∉ t.toList

theorem nonEmpty_iff {q : Query} :
    q.NonEmpty ↔ q.children ≠ [] ∧ ∀ n ∈ q.children, n.NonEmpty := by
  constructor
  · intro h
    cases h with
    | group _ hne h => exact ⟨hne, h⟩
  · rintro ⟨hne, h⟩
    exact .group _ hne h

def ofClause (o : Operator) (c : Clause) : Query := ⟨o, [.clause c]⟩

theorem nonEmpty_ofClause (o : Operator) (c : Clause) : (ofClause o c).NonEmpty := by
  refine .group o (List.cons_ne_nil _ _) fun n hn => ?_
  obtain rfl := List.mem_singleton.1 hn
  exact .clause c

theorem quoteFree_ofClause (o : Operator) {c : Clause} (h : ∀ t ∈ c.terms, '"' ∉ t.toList) :
    (ofClause o c).QuoteFree := by
  intro c' hc'
  obtain rfl := List.mem_singleton.1 hc'
  exact h

theorem mem_clauses {q : Query} {c : Clause} :
    c ∈ q.clauses ↔ ∃ n ∈ q.children, c ∈ n.clauses :=
  Node.mem_clauses_group

end Query

end PaperTrail
