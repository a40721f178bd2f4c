import PaperTrail.Proofs.Query.Description
import PaperTrail.Proofs.Query.Tree
import PaperTrail.Proofs.Text.Spelling
import PaperTrail.Query.Vendor

/-!
# Queries written down

A tree can be written as a description in many ways: keys stand in any order and among other ones,
names are spelt in any letter case with blanks around them, and fields may be repeated. Every one of
them is read back as the tree (`ofValue_of_written`).

* `WritesClause`, `WritesNode`, `Writes` : the value is a description of the clause, the part or the
  whole tree, with all its keys written out;
* `Node.describe` : the plainest description of a part.

What is written in this way is described by the rules of descriptions, so reading it needs no
argument of its own.
-/

namespace PaperTrail

namespace Description
open Value (find?)

/-! ## Descriptions with all keys -/

/-- The value is a text that spells the name. -/
def IsSpelling (v : Value) (name : String) : Prop := ∃ text, v = .string text ∧ Text.Spells text name

/-- The entries of a mapping write the clause. Fields may be repeated behind their first places. -/
structure WritesClause (c : Clause) (es : List (Value × Value)) : Prop where
  operator : ∃ v, find? "operator" es = some v ∧ IsSpelling v c.operator.name
  negated : find? "negated" es = some (.bool c.negated)
  fields : ∃ items named, find? "fields" es = some (.sequence items) ∧
    List.Forall₂ (fun v f => IsSpelling v f.name) items named ∧ FirstSeen named c.fields
  terms : find? "terms" es = some (.sequence (c.terms.map .string))
  no_queries : find? "queries" es = none

mutual

/-- The value writes the part. -/
inductive WritesNode : Node → Value → Prop where
  | clause {c es} (h : WritesClause c es) : WritesNode (.clause c) (.mapping es)
  | group {o children es v items} (ho : find? "operator" es = some v) (hv : IsSpelling v o.name)
      (hi : find? "queries" es = some (.sequence items)) (h : WritesNodes children items) :
      WritesNode (.group o children) (.mapping es)

inductive WritesNodes : List Node → List Value → Prop where
  | nil : WritesNodes [] []
  | cons {n v ns vs} (h : WritesNode n v) (hs : WritesNodes ns vs) : WritesNodes (n :: ns) (v :: vs)

end

/-- The value writes the query: itself, or under the key `query`. -/
inductive Writes (q : Query) : Value → Prop where
  | bare {v} (h : WritesNode q.toNode v) : Writes q v
  | wrapped {es v} (hv : find? "query" es = some v) (hes : find? "queries" es = none)
      (h : WritesNode q.toNode v) : Writes q (.mapping es)

/-! ## What is written is described -/

theorem isPlain_operator_name (o : Operator) : Text.isPlain o.name = true := by
  cases o <;> decide +kernel

theorem isPlain_field_name (f : Field) : Text.isPlain f.name = true := by
  cases f <;> decide +kernel

theorem givesOperator_of_spelling {es : List (Value × Value)} {v : Value} {o default : Operator}
    (h : find? "operator" es = some v) (hv : IsSpelling v o.name) : GivesOperator es default o := by
  obtain ⟨text, rfl, hspells⟩ := hv
  exact .named h rfl (Text.fold_trim_of_spells (isPlain_operator_name o) hspells)

theorem forall₂_isTerm (terms : List String) :
    List.Forall₂ IsTerm (terms.map .string) terms := by
  induction terms with
  | nil => exact .nil
  | cons t ts ih => exact .cons (.string t) ih

theorem WritesClause.describesClause {c : Clause} {es : List (Value × Value)}
    (h : WritesClause c es) : DescribesClause (.mapping es) c := by
  obtain ⟨⟨v, hoperator, hv⟩, hnegated, ⟨items, named, hfields, hnamed, hseen⟩, hterms, -⟩ := h
  have hspelt : List.Forall₂ NamesField items named := by
    refine hnamed.imp fun v f hv => ?_
    obtain ⟨text, rfl, hspells⟩ := hv
    exact ⟨text, rfl, Text.fold_trim_of_spells (isPlain_field_name f) hspells⟩
  have hitems : items ≠ [] := by
    rintro rfl
    cases hspelt
    obtain ⟨f, hf⟩ := List.exists_mem_of_ne_nil _ c.fields_ne_nil
    exact List.not_mem_nil ((hseen.mem_iff f).1 hf)
  have hwritten : c.terms.map Value.string ≠ [] := by simpa using c.terms_ne_nil
  exact ⟨es, items, named, _, rfl, .given hnegated rfl, givesOperator_of_spelling hoperator hv,
    ⟨⟨_, hfields, rfl⟩, hitems⟩, hspelt, hseen, ⟨⟨_, hterms, rfl⟩, hwritten⟩, forall₂_isTerm _⟩

mutual

theorem WritesNode.describesNode {n : Node} {v : Value} (hn : n.NonEmpty) :
    WritesNode n v → DescribesNode v n
  | .clause h => by
    refine .clause ?_ h.describesClause
    rintro ⟨es, w, hes, hw⟩
    cases hes
    rw [h.no_queries] at hw
    cases hw
  | .group ho hv hi h => by
    cases hn with
    | group _ hne hparts =>
      refine .query ⟨_, _, rfl, hi⟩
        (.intro rfl (givesOperator_of_spelling ho hv) ⟨⟨_, hi, rfl⟩, ?_⟩ (h.describesNodes hparts))
      rintro rfl
      cases h
      exact hne rfl

theorem WritesNodes.describesNodes {ns : List Node} {vs : List Value}
    (hns : ∀ n ∈ ns, n.NonEmpty) : WritesNodes ns vs → DescribesNodes vs ns
  | .nil => .nil
  | .cons h hs => by
    obtain ⟨hn, hns⟩ := List.forall_mem_cons.1 hns
    exact .cons (h.describesNode hn) (hs.describesNodes hns)

end

theorem queryOf_of_written {q : Query} (hq : q.NonEmpty) {v : Value} (h : WritesNode q.toNode v) :
    queryOf v = .ok q ∧ HasKey v "queries" := by
  cases h.describesNode hq with
  | query hkey h => exact ⟨(queryOf_eq_ok_iff v q).2 h, hkey⟩

/-! ## A plain description -/

end Description

namespace Node

def texts (ss : List String) : Value := .sequence (ss.map .string)

/-- The plain description of a part: all keys in their order, and all names as they are. -/
def describe : Node → Value :=
  fold
    (fun c => .mapping [(.string "operator", .string c.operator.name),
      (.string "negated", .bool c.negated), (.string "fields", texts (c.fields.map Field.name)),
      (.string "terms", texts c.terms)])
    fun o parts => .mapping [(.string "operator", .string o.name), (.string "queries", .sequence parts)]

end Node

namespace Description
open Value (find?)

theorem isSpelling_name (name : String) : IsSpelling (.string name) name :=
  ⟨name, rfl, Text.spells_self name⟩

theorem writesNodes_map {ns : List Node} (h : ∀ n ∈ ns, WritesNode n n.describe) :
    WritesNodes ns (ns.map Node.describe) := by
  induction ns with
  | nil => exact .nil
  | cons n ns ih =>
    obtain ⟨hn, hns⟩ := List.forall_mem_cons.1 h
    exact .cons hn (ih hns)

theorem writesNode_describe (n : Node) : WritesNode n n.describe := by
  induction n using Node.induct with
  | clause c =>
    refine .clause ⟨⟨_, rfl, isSpelling_name _⟩, rfl, ⟨_, c.fields, rfl, ?_, ?_⟩, rfl, rfl⟩
    · rw [List.forall₂_map_left_iff, List.forall₂_map_left_iff]
      exact List.forall₂_same.2 fun f _ => isSpelling_name f.name
    · exact firstSeen_iff.2 (distinct_eq_self c.nodup_fields).symm
  | group o children ih =>
    rw [Node.describe, Node.fold_group]
    exact .group rfl (isSpelling_name _) rfl (writesNodes_map ih)

/-- Every tree can be written down, and is read back from whatever writes it, so that it compiles to
the same texts. -/
theorem ofValue_of_written {q : Query} (hq : q.NonEmpty) :
    Writes q q.toNode.describe ∧
    ∀ v, Writes q v → Query.ofValue v = .ok q ∧
      ∀ vendor : Vendor, (Query.ofValue v).map vendor.grammar.compile =
        .ok (vendor.grammar.compile q) := by
  refine ⟨.bare (writesNode_describe _), fun v hv => ?_⟩
  have hread : Query.ofValue v = .ok q := by
    cases hv with
    | bare h =>
      obtain ⟨hquery, hkey⟩ := queryOf_of_written hq h
      rw [Query.ofValue, rootOf_of_bare fun _ => hkey, hquery]
    | @wrapped es v hv hes h =>
      have hnone : ¬ HasKey (.mapping es) "queries" := by
        rintro ⟨es', w, hes', hw⟩
        cases hes'
        rw [hes] at hw
        cases hw
      rw [Query.ofValue, rootOf_of_wrapped ((Value.get?_eq_find? rfl _).trans hv) hnone,
        (queryOf_of_written hq h).1]
  exact ⟨hread, fun vendor => by rw [hread]; rfl⟩

def nestedQuery : Query :=
  let c : Clause := ⟨.and, true, [.title, .abstract], ["a", "5"], by decide, by decide, by decide⟩
  ⟨.or, [.clause c, .group .and [.clause { c with negated := false }]]⟩

def unusualClause (negated : Bool) : Value :=
  .mapping [(.string "terms", .sequence [.string "a", .string "5"]), (.string "note", .null),
    (.string "fields", .sequence [.string " TITLE", .string "abstract\n", .string "Title"]),
    (.string "operator", .string "\tAnd "), (.string "negated", .bool negated)]

def unusualDescription : Value :=
  .mapping [(.string "author", .string "me"), (.string "query", .mapping [
    (.string "queries", .sequence [unusualClause true, .mapping [(.string "fields", .null),
      (.string "operator", .string "AND"), (.string "queries", .sequence [unusualClause false])]]),
    (.string "operator", .string " oR ")])]

theorem isSpelling_of_parts {text name : String} (l s r : String)
    (h : text = l ++ s ++ r ∧ Text.isBlankText l = true ∧ Text.isBlankText r = true ∧
      Text.sameFolded s name = true) : IsSpelling (.string text) name :=
  ⟨text, rfl, l, s, r, h⟩

theorem ofValue_unusualDescription :
    nestedQuery.NonEmpty ∧ Writes nestedQuery unusualDescription ∧
      Query.ofValue unusualDescription = .ok nestedQuery ∧
      (Query.ofValue unusualDescription).map Vendor.acm.grammar.compile =
        .ok (Vendor.acm.grammar.compile nestedQuery) := by
  have hnonempty : nestedQuery.NonEmpty :=
    .group _ (List.cons_ne_nil _ _) (List.forall_mem_cons.2 ⟨.clause _, List.forall_mem_singleton.2
      (.group _ (List.cons_ne_nil _ _) (List.forall_mem_singleton.2 (.clause _)))⟩)
  have hfields : List.Forall₂ (fun v f => IsSpelling v (Field.name f))
      [.string " TITLE", .string "abstract\n", .string "Title"] [.title, .abstract, .title] :=
    .cons (isSpelling_of_parts " " "TITLE" "" (by decide +kernel))
      (.cons (isSpelling_of_parts "" "abstract" "\n" (by decide +kernel))
        (.cons (isSpelling_of_parts "" "Title" "" (by decide +kernel)) .nil))
  have hseen : FirstSeen [Field.title, .abstract, .title] [.title, .abstract] :=
    firstSeen_iff.2 (by decide)
  have hand : IsSpelling (.string "\tAnd ") Operator.and.name :=
    isSpelling_of_parts "\t" "And" " " (by decide +kernel)
  have hinner : IsSpelling (.string "AND") Operator.and.name :=
    isSpelling_of_parts "" "AND" "" (by decide +kernel)
  have hor : IsSpelling (.string " oR ") Operator.or.name :=
    isSpelling_of_parts " " "oR" " " (by decide +kernel)
  have hwrites : Writes nestedQuery unusualDescription :=
    .wrapped rfl rfl (.group rfl hor rfl (.cons
      (.clause ⟨⟨_, rfl, hand⟩, rfl, ⟨_, _, rfl, hfields, hseen⟩, rfl, rfl⟩)
      (.cons (.group rfl hinner rfl (.cons
        (.clause ⟨⟨_, rfl, hand⟩, rfl, ⟨_, _, rfl, hfields, hseen⟩, rfl, rfl⟩) .nil)) .nil)))
  obtain ⟨hread, hcompile⟩ := (ofValue_of_written hnonempty).2 _ hwrites
  exact ⟨hnonempty, hwrites, hread, hcompile .acm⟩

end Description

end PaperTrail
