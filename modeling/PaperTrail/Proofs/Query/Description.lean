import Mathlib.Data.List.Forall2
import PaperTrail.Proofs.Distinct
import PaperTrail.Query.Description

/-!
# The language of query descriptions

What it means that a value describes a query is said here by rules, without the order in which a
reader looks at keys and without errors:

* `GivesOperator`, `GivesNegated`, `GivesItems` : what the entries of a mapping give under a key, or
  without it; `NamesField`, `IsTerm` : what an item stands for;
* `DescribesClause`, `DescribesQuery`, `DescribesNode` : the rules for a clause, a query and a part
  of one; `Describes` is the rule for a whole description.

Tags do not count where a mapping, a sequence, a text or a boolean is expected. Reading finds exactly
the described query (`ofValue_eq_ok_iff_describes`): each check on a node is first turned into its
rule, then the two readers into the rules for trees, by induction on the size of the value.
-/

namespace PaperTrail.Description
open Value (find?)

/-! ## Rules -/

/-- The operator that a mapping gives: `default` without the key, else the one of the name that is
written there, blanks around it and the case of its letters aside. -/
inductive GivesOperator (es : List (Value × Value)) (default : Operator) : Operator → Prop where
  | absent (h : find? "operator" es = none) : GivesOperator es default default
  | named {raw token} {o : Operator} (h : find? "operator" es = some raw)
      (hraw : raw.untagged = .string token) (hname : Text.fold (Text.trim token) = o.name) :
      GivesOperator es default o

/-- Whether a mapping gives a negation: it does not without the key. -/
inductive GivesNegated (es : List (Value × Value)) : Bool → Prop where
  | absent (h : find? "negated" es = none) : GivesNegated es false
  | given {raw b} (h : find? "negated" es = some raw) (hraw : raw.untagged = .bool b) :
      GivesNegated es b

/-- The items that a mapping gives under a key, at least one. -/
structure GivesItems (es : List (Value × Value)) (key : String) (items : List Value) : Prop where
  sequence : ∃ raw, find? key es = some raw ∧ raw.untagged = .sequence items
  ne_nil : items ≠ []

/-- The item is the name of the field, blanks around it and the case of its letters aside. -/
def NamesField (item : Value) (f : Field) : Prop :=
  ∃ token, item.untagged = .string token ∧ Text.fold (Text.trim token) = f.name

/-- The item is the scalar that is written so. A scalar under a tag is no term. -/
inductive IsTerm : Value → String → Prop where
  | string (s : String) : IsTerm (.string s) s
  | number (n : Number) : IsTerm (.number n) n.text
  | yes : IsTerm (.bool true) "true"
  | no : IsTerm (.bool false) "false"

/-- The value describes the clause. Fields count where they are first seen. -/
structure DescribesClause (v : Value) (c : Clause) : Prop where
  rules : ∃ es fieldItems named termItems, v.untagged = .mapping es ∧
    GivesNegated es c.negated ∧ GivesOperator es .or c.operator ∧
    GivesItems es "fields" fieldItems ∧ List.Forall₂ NamesField fieldItems named ∧
    FirstSeen named c.fields ∧
    GivesItems es "terms" termItems ∧ List.Forall₂ IsTerm termItems c.terms

def HasKey (v : Value) (key : String) : Prop :=
  ∃ es w, v.untagged = .mapping es ∧ find? key es = some w

mutual

inductive DescribesQuery : Value → Query → Prop where
  | intro {v es o items children} (h : v.untagged = .mapping es) (ho : GivesOperator es .and o)
      (hi : GivesItems es "queries" items) (hc : DescribesNodes items children) :
      DescribesQuery v ⟨o, children⟩

/-- The value describes the part: a query when it has the key `queries`, else a clause. -/
inductive DescribesNode : Value → Node → Prop where
  | query {v o children} (hkey : HasKey v "queries") (h : DescribesQuery v ⟨o, children⟩) :
      DescribesNode v (.group o children)
  | clause {v c} (hkey : ¬ HasKey v "queries") (h : DescribesClause v c) :
      DescribesNode v (.clause c)

inductive DescribesNodes : List Value → List Node → Prop where
  | nil : DescribesNodes [] []
  | cons {v n vs ns} (h : DescribesNode v n) (hs : DescribesNodes vs ns) :
      DescribesNodes (v :: vs) (n :: ns)

end

/-- The value is a description of the query: itself, or the value that it has under `query` when it
has no `queries` of its own. -/
inductive Describes : Value → Query → Prop where
  | bare {v q} (hkey : HasKey v "query" → HasKey v "queries") (h : DescribesQuery v q) :
      Describes v q
  | wrapped {v es inner q} (hes : v.untagged = .mapping es)
      (hinner : find? "query" es = some inner) (hkey : ¬ HasKey v "queries")
      (h : DescribesQuery inner q) : Describes v q

/-! ## Results in steps -/

theorem bind_eq_ok_iff {α β ε : Type} {x : Except ε α} {f : α → Except ε β} {b : β} :
    (x >>= f) = .ok b ↔ ∃ a, x = .ok a ∧ f a = .ok b := by
  cases x with
  | error e => exact iff_of_false (fun h => by cases h) (by simp)
  | ok a => exact ⟨fun h => ⟨a, rfl, h⟩, fun ⟨_, ha, h⟩ => by cases ha; exact h⟩

theorem orElse_eq_ok_iff {α : Type} {e : DescriptionError} {x : Option α} {a : α} :
    orElse e x = .ok a ↔ x = some a := by
  cases x <;> simp [orElse]

theorem forEach_eq_ok_iff {α β ε : Type} {f : α → Except ε β} {xs : List α} {ys : List β} :
    forEach f xs = .ok ys ↔ List.Forall₂ (fun x y => f x = .ok y) xs ys := by
  induction xs generalizing ys with
  | nil => cases ys <;> simp [forEach]
  | cons x xs ih =>
    rw [forEach]
    cases hx : f x with
    | error e => cases ys <;> simp [hx]
    | ok y =>
      cases hxs : forEach f xs with
      | error e => cases ys <;> simp [← ih, hxs]
      | ok rest => cases ys <;> simp [hx, ← ih, hxs]

/-! ## Names -/

/-- Searching by name finds the one thing of that name. -/
theorem find?_name_eq_some_iff {α : Type} {name : α → String} (hname : Function.Injective name)
    {all : List α} (hall : ∀ a, a ∈ all) {s : String} {a : α} :
    (all.find? fun x => name x == s) = some a ↔ s = name a := by
  constructor
  · intro h
    have hp := List.find?_some h
    exact (beq_iff_eq.1 hp).symm
  · rintro rfl
    cases hfind : all.find? fun x => name x == name a with
    | none => simpa using List.find?_eq_none.1 hfind a (hall a)
    | some b =>
      have hb := List.find?_some hfind
      rw [hname (beq_iff_eq.1 hb)]

theorem operator_ofToken?_eq_some_iff {token : String} {o : Operator} :
    Operator.ofToken? token = some o ↔ Text.fold (Text.trim token) = o.name := by
  refine find?_name_eq_some_iff (fun a b h => ?_) (fun a => ?_)
  · cases a <;> cases b <;> simp_all [Operator.name]
  · cases a <;> decide

theorem field_ofToken?_eq_some_iff {token : String} {f : Field} :
    Field.ofToken? token = some f ↔ Text.fold (Text.trim token) = f.name := by
  refine find?_name_eq_some_iff (fun a b h => ?_) (fun a => ?_)
  · cases a <;> cases b <;> simp_all [Field.name]
  · cases a <;> decide

/-! ## The checks on a node -/

section Checks
variable {node : Value} {es : List (Value × Value)} (hnode : node.untagged = .mapping es)
include hnode

theorem operatorOf_eq_ok_iff {default o : Operator} :
    operatorOf node default = .ok o ↔ GivesOperator es default o := by
  rw [operatorOf, Value.get?_eq_find? hnode]
  constructor
  · intro h
    split at h
    · next hnone =>
      cases h
      exact .absent hnone
    · next raw hraw =>
      split at h
      · cases h
      · next token hs =>
        rw [orElse_eq_ok_iff] at h
        exact .named hraw (Value.string?_eq_some_iff.1 hs) (operator_ofToken?_eq_some_iff.1 h)
  · intro h
    cases h with
    | absent hnone => simp only [DescriptionKey.name, hnone]
    | named hraw hstring hname =>
      simp only [DescriptionKey.name, hraw, Value.string?_eq_some_iff.2 hstring]
      exact orElse_eq_ok_iff.2 (operator_ofToken?_eq_some_iff.2 hname)

theorem negatedOf_eq_ok_iff {b : Bool} : negatedOf node = .ok b ↔ GivesNegated es b := by
  rw [negatedOf, Value.get?_eq_find? hnode]
  constructor
  · intro h
    split at h
    · next hnone =>
      cases h
      exact .absent hnone
    · next raw hraw =>
      rw [orElse_eq_ok_iff, Value.bool?_eq_some_iff] at h
      exact .given hraw h
  · intro h
    cases h with
    | absent hnone => simp only [DescriptionKey.name, hnone]
    | given hraw hbool =>
      simp only [DescriptionKey.name, hraw]
      exact orElse_eq_ok_iff.2 (Value.bool?_eq_some_iff.2 hbool)

theorem itemsOf_eq_ok_iff {key : DescriptionKey} {items : List Value} :
    itemsOf node key = .ok items ↔ GivesItems es key.name items := by
  rw [itemsOf, Value.get?_eq_find? hnode]
  constructor
  · intro h
    split at h
    · cases h
    · next raw hraw =>
      split at h
      · cases h
      · cases h
      · next hs =>
        cases h
        exact ⟨⟨raw, hraw, Value.sequence?_eq_some_iff.1 hs⟩, List.cons_ne_nil _ _⟩
  · rintro ⟨⟨raw, hraw, hseq⟩, hne⟩
    obtain ⟨v, vs, rfl⟩ := List.exists_cons_of_ne_nil hne
    rw [hraw]
    simp only [Value.sequence?_eq_some_iff.2 hseq]

end Checks

theorem fieldOf_eq_ok_iff {node item : Value} {f : Field} :
    fieldOf node item = .ok f ↔ NamesField item f := by
  rw [fieldOf, NamesField]
  constructor
  · intro h
    split at h
    · cases h
    · next token hs =>
      rw [orElse_eq_ok_iff, field_ofToken?_eq_some_iff] at h
      exact ⟨token, Value.string?_eq_some_iff.1 hs, h⟩
  · rintro ⟨token, hstring, hname⟩
    simp only [Value.string?_eq_some_iff.2 hstring]
    exact orElse_eq_ok_iff.2 (field_ofToken?_eq_some_iff.2 hname)

theorem termOf_eq_ok_iff {node item : Value} {s : String} :
    termOf node item = .ok s ↔ IsTerm item s := by
  rw [termOf, orElse_eq_ok_iff]
  constructor
  · intro h
    cases item with
    | string t => cases h; exact .string _
    | number n => cases h; exact .number n
    | bool b => cases b <;> cases h <;> constructor
    | null => cases h
    | sequence items => cases h
    | mapping es => cases h
    | tagged tag v => cases h
  · intro h
    cases h <;> rfl

theorem ofLists?_eq_some_iff {o : Operator} {negated : Bool} {fields : List Field}
    {terms : List String} {c : Clause} (hf : fields ≠ []) (ht : terms ≠ []) :
    Clause.ofLists? o negated fields terms = some c ↔
      c.negated = negated ∧ c.operator = o ∧ FirstSeen fields c.fields ∧ c.terms = terms := by
  rw [Clause.ofLists?, dif_neg hf, dif_neg ht, Option.some_inj, firstSeen_iff]
  obtain ⟨o', negated', fields', terms', -, -, -⟩ := c
  simp only [Clause.mk.injEq]
  constructor
  · rintro ⟨rfl, rfl, rfl, rfl⟩
    exact ⟨rfl, rfl, rfl, rfl⟩
  · rintro ⟨rfl, rfl, rfl, rfl⟩
    exact ⟨rfl, rfl, rfl, rfl⟩

theorem ne_nil_of_forall₂ {α β : Type} {R : α → β → Prop} {xs : List α} {ys : List β}
    (h : List.Forall₂ R xs ys) (hne : xs ≠ []) : ys ≠ [] := by
  rintro rfl
  cases h
  exact hne rfl

theorem clauseOf_eq_ok_iff {node : Value} {c : Clause} :
    clauseOf node = .ok c ↔ DescribesClause node c := by
  rw [clauseOf]
  by_cases hmap : node.isMapping = true
  · obtain ⟨es, hes⟩ := Value.isMapping_iff.1 hmap
    rw [if_pos hmap]
    simp only [bind_eq_ok_iff, negatedOf_eq_ok_iff hes, operatorOf_eq_ok_iff hes,
      itemsOf_eq_ok_iff hes, forEach_eq_ok_iff, fieldOf_eq_ok_iff, termOf_eq_ok_iff,
      orElse_eq_ok_iff]
    constructor
    · rintro ⟨negated, hneg, o, ho, fieldItems, hfi, named, hnamed, termItems, hti, terms, hterms,
        hc⟩
      obtain ⟨rfl, rfl, hfields, rfl⟩ := (ofLists?_eq_some_iff (ne_nil_of_forall₂ hnamed hfi.ne_nil)
        (ne_nil_of_forall₂ hterms hti.ne_nil)).1 hc
      exact ⟨es, fieldItems, named, termItems, hes, hneg, ho, hfi, hnamed, hfields, hti, hterms⟩
    · rintro ⟨es', fieldItems, named, termItems, hes', hneg, ho, hfi, hnamed, hfields, hti, hterms⟩
      rw [hes] at hes'
      cases hes'
      refine ⟨c.negated, hneg, c.operator, ho, fieldItems, hfi, named, hnamed, termItems, hti,
        c.terms, hterms, ?_⟩
      exact (ofLists?_eq_some_iff (ne_nil_of_forall₂ hnamed hfi.ne_nil) c.terms_ne_nil).2
        ⟨rfl, rfl, hfields, rfl⟩
  · rw [if_neg hmap]
    refine iff_of_false (fun h => by cases h) ?_
    rintro ⟨es, -, -, -, hes, -⟩
    exact hmap (Value.isMapping_iff.2 ⟨es, hes⟩)

theorem levelOf_eq_ok_iff {node : Value} {o : Operator} {items : List Value} :
    levelOf node = .ok (o, items) ↔ ∃ es, node.untagged = .mapping es ∧
      GivesOperator es .and o ∧ GivesItems es "queries" items := by
  rw [levelOf]
  by_cases hmap : node.isMapping = true
  · obtain ⟨es, hes⟩ := Value.isMapping_iff.1 hmap
    rw [if_pos hmap]
    simp only [bind_eq_ok_iff, operatorOf_eq_ok_iff hes, itemsOf_eq_ok_iff hes]
    constructor
    · rintro ⟨o', ho, items', hi, h⟩
      cases h
      exact ⟨es, hes, ho, hi⟩
    · rintro ⟨es', hes', ho, hi⟩
      rw [hes] at hes'
      cases hes'
      exact ⟨o, ho, items, hi, rfl⟩
  · rw [if_neg hmap]
    refine iff_of_false (fun h => by cases h) ?_
    rintro ⟨es, hes, -⟩
    exact hmap (Value.isMapping_iff.2 ⟨es, hes⟩)

theorem hasKey_iff {v : Value} {key : String} : HasKey v key ↔ (v.get? key).isSome = true := by
  rw [HasKey, Option.isSome_iff_exists]
  constructor
  · rintro ⟨es, w, hes, hw⟩
    exact ⟨w, (Value.get?_eq_find? hes key).trans hw⟩
  · rintro ⟨w, hw⟩
    obtain ⟨es, hes, hfind⟩ := Option.bind_eq_some_iff.1 hw
    exact ⟨es, w, Value.mapping?_eq_some_iff.1 hes, hfind⟩

/-! ## Trees -/

theorem describesQuery_iff {v : Value} {q : Query} :
    DescribesQuery v q ↔ ∃ items, levelOf v = .ok (q.operator, items) ∧
      DescribesNodes items q.children := by
  constructor
  · rintro ⟨hes, ho, hi, hc⟩
    exact ⟨_, levelOf_eq_ok_iff.2 ⟨_, hes, ho, hi⟩, hc⟩
  · rintro ⟨items, hlevel, hc⟩
    obtain ⟨es, hes, ho, hi⟩ := levelOf_eq_ok_iff.1 hlevel
    exact .intro hes ho hi hc

theorem describesNodes_cons_iff {v : Value} {vs : List Value} {children : List Node} :
    DescribesNodes (v :: vs) children ↔ ∃ n ns, children = n :: ns ∧ DescribesNode v n ∧
      DescribesNodes vs ns := by
  constructor
  · rintro ⟨⟩
    exact ⟨_, _, rfl, ‹_›, ‹_›⟩
  · rintro ⟨n, ns, rfl, h, hs⟩
    exact .cons h hs

/-- A part is read by the one key that tells a query from a clause. -/
theorem node_eq_ok_iff {v : Value} {n : Node}
    (hquery : ∀ q, queryOf v = .ok q ↔ DescribesQuery v q) :
    (if (v.get? DescriptionKey.queries.name).isSome then
        match queryOf v with
        | .error e => .error e
        | .ok q => .ok q.toNode
      else
        match clauseOf v with
        | .error e => .error e
        | .ok c => .ok (.clause c)) = (.ok n : Except DescriptionError Node) ↔
      DescribesNode v n := by
  constructor
  · intro h
    split at h
    · next hkey =>
      split at h
      · cases h
      · next q hq =>
        cases h
        exact .query (hasKey_iff.2 hkey) ((hquery q).1 hq)
    · next hkey =>
      split at h
      · cases h
      · next c hc =>
        cases h
        exact .clause (mt hasKey_iff.1 hkey) (clauseOf_eq_ok_iff.1 hc)
  · intro h
    cases h with
    | query hkey h =>
      have hsome : (v.get? DescriptionKey.queries.name).isSome = true := hasKey_iff.1 hkey
      rw [if_pos hsome, (hquery _).2 h]
      rfl
    | clause hkey h =>
      have hnone : ¬ (v.get? DescriptionKey.queries.name).isSome = true := mt hasKey_iff.2 hkey
      rw [if_neg hnone, clauseOf_eq_ok_iff.2 h]

mutual

theorem queryOf_eq_ok_iff (node : Value) (q : Query) :
    queryOf node = .ok q ↔ DescribesQuery node q := by
  rw [queryOf, describesQuery_iff]
  constructor
  · intro h
    split at h
    · cases h
    · next o items hlevel =>
      have hsmaller := sizeOf_lt_of_levelOf hlevel
      split at h
      · cases h
      · next children hchildren =>
        cases h
        exact ⟨items, hlevel, (nodesOf_eq_ok_iff items children).1 hchildren⟩
  · rintro ⟨items, hlevel, hc⟩
    have hsmaller := sizeOf_lt_of_levelOf hlevel
    have hchildren := (nodesOf_eq_ok_iff items q.children).2 hc
    split
    · next e he =>
      rw [hlevel] at he
      cases he
    · next o' items' he =>
      rw [hlevel] at he
      cases he
      rw [hchildren]
termination_by sizeOf node
decreasing_by
  · exact hsmaller
  · exact hsmaller

theorem nodesOf_eq_ok_iff (nodes : List Value) (children : List Node) :
    nodesOf nodes = .ok children ↔ DescribesNodes nodes children := by
  cases nodes with
  | nil =>
    rw [nodesOf]
    constructor
    · intro h
      cases h
      exact .nil
    · intro h
      cases h
      rfl
  | cons v vs =>
    have hfirst := fun n => node_eq_ok_iff (n := n) (queryOf_eq_ok_iff v)
    have hrest := nodesOf_eq_ok_iff vs
    rw [nodesOf, describesNodes_cons_iff]
    constructor
    · intro h
      split at h
      · cases h
      · next n hn =>
        split at h
        · cases h
        · next ns hns =>
          cases h
          exact ⟨n, ns, rfl, (hfirst n).1 hn, (hrest ns).1 hns⟩
    · rintro ⟨n, ns, rfl, hn, hns⟩
      have hn' := (hfirst n).2 hn
      split
      · next e he => cases he.symm.trans hn'
      · next n' he =>
        cases he.symm.trans hn'
        rw [(hrest ns).2 hns]
termination_by sizeOf nodes
decreasing_by
  · simp only [List.cons.sizeOf_spec]; omega
  · simp only [List.cons.sizeOf_spec]; omega

end

/-! ## Whole descriptions -/

theorem rootOf_of_wrapped {v inner : Value} (hinner : v.get? "query" = some inner)
    (hkey : ¬ HasKey v "queries") : rootOf v = inner := by
  have hnone : v.get? DescriptionKey.queries.name = none := by
    rw [← Option.not_isSome_iff_eq_none]
    exact mt hasKey_iff.2 hkey
  simp only [rootOf, hinner, hnone]

theorem rootOf_of_bare {v : Value} (hkey : HasKey v "query" → HasKey v "queries") :
    rootOf v = v := by
  unfold rootOf
  split
  · next inner hinner hnone =>
    have hqueries := hkey (hasKey_iff.2 (by rw [hinner, Option.isSome_some]))
    rw [hasKey_iff] at hqueries
    rw [show v.get? "queries" = none from hnone] at hqueries
    cases hqueries
  · rfl

/-- A value is read as a query if and only if it describes this query. -/
theorem ofValue_eq_ok_iff_describes (v : Value) (q : Query) :
    Query.ofValue v = .ok q ↔ Describes v q := by
  rw [Query.ofValue, queryOf_eq_ok_iff]
  constructor
  · intro h
    by_cases hkey : HasKey v "query" → HasKey v "queries"
    · rw [rootOf_of_bare hkey] at h
      exact .bare hkey h
    · obtain ⟨⟨es, inner, hes, hinner⟩, hqueries⟩ := Classical.not_imp.1 hkey
      rw [rootOf_of_wrapped ((Value.get?_eq_find? hes _).trans hinner) hqueries] at h
      exact .wrapped hes hinner hqueries h
  · intro h
    cases h with
    | bare hkey h => rwa [rootOf_of_bare hkey]
    | wrapped hes hinner hkey h =>
      rwa [rootOf_of_wrapped ((Value.get?_eq_find? hes _).trans hinner) hkey]

end PaperTrail.Description
