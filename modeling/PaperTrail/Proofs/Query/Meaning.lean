import PaperTrail.Proofs.Query.Reading
import Mathlib.Data.List.Perm.Subperm

/-!
# What a search text means

A search engine reads the text of a query as a combination of single findings: whether a term is
found in a field.

* `Grammar.truth` : the value of a text, as the engine reads it;
* `Query.truth` : the value of a query, from those of its clauses; `Clause.truth` : the value of a
  clause whose fields are asked one after the other;
* `truth_compile` : the text of a query has the value of the query, each clause taken as the engine
  writes it (`Grammar.clauseTruth`);
* `truth_vendors` : the texts for all engines mean the same, but for negated alternatives on title,
  abstract and keywords: Scopus writes one part for the three fields and negates that.
-/

namespace PaperTrail

/-- Which terms are found in which fields. -/
abbrev Finding := Field → String → Bool

def Operator.combine : Operator → List Bool → Bool
  | .and, vs => vs.all id
  | .or, vs => vs.any id

theorem Operator.combine_singleton (o : Operator) (v : Bool) : o.combine [v] = v := by
  cases o <;> simp [combine]

/-! ## The value of a text -/

/-- The fields that a token stands for. -/
def Grammar.fieldsOf (g : Grammar) (token : String) : List Field :=
  if g.descriptiveToken? = some token then descriptiveFields
  else [Field.title, .abstract, .keywords, .all].filter fun f => g.fieldToken f = token

namespace Skeleton
variable {α : Type} (g : Grammar) (a : Finding)

/-- The value of a level; a thing alone needs no operator. -/
def Level.truth (value : α → Bool) (l : Level α) : Bool :=
  (l.operator?.getD .and).combine (l.items.map value)

/-- The value of a part: a term is found when it is in one of the fields of the token. -/
def Part.truth (p : Part) : Bool :=
  p.negated ^^ p.terms.truth fun t => (g.fieldsOf p.token).any (a · t)

def Item.truth : Item → Bool := Item.fold (Part.truth g a) fun o? vs => Level.truth id ⟨o?, vs⟩

theorem Item.truth_group (l : Level Item) : Item.truth g a l.group = l.truth (Item.truth g a) := by
  rw [Item.truth, Level.group, Item.fold_group, Level.truth, Level.truth, List.map_id]

theorem Level.truth_of (o : Operator) {items : List α} (h : items ≠ []) (value : α → Bool) :
    (Level.of o items).truth value = o.combine (items.map value) := by
  match items, h with
  | [x], _ => exact (Operator.combine_singleton .and _).trans (o.combine_singleton _).symm
  | x :: y :: rest, _ => rfl

end Skeleton

open Skeleton

/-- The value of a text for the engine of `g`, if the engine can read it. -/
def Grammar.truth (g : Grammar) (a : Finding) (s : String) : Option Bool :=
  (read g s).map fun l => l.truth (Item.truth g a)

/-! ## The value of a query -/

namespace Clause
variable (a : Finding) (c : Clause)

/-- The value of a clause whose fields are asked one after the other: what is found of the terms in
a field is turned round when the clause is negated, and the operator joins the fields. -/
def truth : Bool :=
  c.operator.combine (c.fields.map fun f => c.negated ^^ c.operator.combine (c.terms.map (a f)))

/-- The clause asks for one of the descriptive fields. -/
abbrev OnDescriptive : Prop := c.operator = .or ∧ c.hasExactly Grammar.descriptiveFields

def truthTogether : Bool :=
  c.negated ^^ c.terms.any fun t => Grammar.descriptiveFields.any (a · t)

/-- No term is in any of the descriptive fields. -/
def foundNowhere : Bool := Grammar.descriptiveFields.all fun f => c.terms.all fun t => !a f t

/-- One of the descriptive fields has none of the terms. -/
def missedSomewhere : Bool := Grammar.descriptiveFields.any fun f => c.terms.all fun t => !a f t

end Clause

def Node.truth (clause : Clause → Bool) : Node → Bool := Node.fold clause Operator.combine

/-- The value of a query, from those of its clauses. -/
def Query.truth (clause : Clause → Bool) (q : Query) : Bool := q.toNode.truth clause

def Grammar.clauseTruth (g : Grammar) (a : Finding) (c : Clause) : Bool :=
  if g.descriptiveToken?.isSome ∧ c.OnDescriptive then c.truthTogether a else c.truth a

theorem Node.truth_congr {clause clause' : Clause → Bool} {n : Node}
    (h : ∀ c ∈ n.clauses, clause c = clause' c) : n.truth clause = n.truth clause' := by
  induction n using Node.induct with
  | clause c => exact h c (List.mem_singleton_self c)
  | group o children ih =>
    have hchildren : children.map (Node.truth clause) = children.map (Node.truth clause') :=
      List.map_congr_left fun n hn =>
        ih n hn fun c hc => h c (Node.mem_clauses_group.2 ⟨n, hn, hc⟩)
    rw [truth, truth, fold_group, fold_group]
    exact congrArg o.combine hchildren

/-! ## The text of a query has its value -/

namespace Grammar
variable {g : Grammar} {a : Finding}

theorem truth_clauseItem_eq_combine (c : Clause) :
    Item.truth g a (g.clauseItem c) =
      c.operator.combine ((g.clauseParts c).map (Part.truth g a)) := by
  rw [clauseItem]
  split
  · next p hp => rw [hp, List.map_singleton, Operator.combine_singleton]; rfl
  · rw [Item.truth_group, Level.truth_of, List.map_map]
    · rfl
    · exact mt List.map_eq_nil_iff.1 (clauseParts_ne_nil g c)

theorem truth_part (c : Clause) (token : String) :
    Part.truth g a ⟨c.negated, token, .of c.operator c.terms⟩ =
      (c.negated ^^ c.operator.combine (c.terms.map fun t => (g.fieldsOf token).any (a · t))) := by
  rw [Part.truth, Level.truth_of _ c.terms_ne_nil]

theorem truth_clauseItem (hg : ∀ f, g.fieldsOf (g.fieldToken f) = [f]) (c : Clause) :
    Item.truth g a (g.clauseItem c) = g.clauseTruth a c := by
  have hfields : c.operator.combine ((c.fields.map g.fieldToken).map fun token =>
      Part.truth g a ⟨c.negated, token, .of c.operator c.terms⟩) = c.truth a := by
    rw [List.map_map, Clause.truth]
    congr 2
    funext f
    rw [Function.comp_apply, truth_part, hg]
    simp only [List.any_cons, List.any_nil, Bool.or_false]
  rw [truth_clauseItem_eq_combine, clauseParts, List.map_map, partTokens, clauseTruth]
  split
  · next token htoken =>
    rw [htoken, Option.isSome_some]
    by_cases hc : c.OnDescriptive
    · rw [if_pos hc, if_pos ⟨rfl, hc⟩, List.map_singleton, Operator.combine_singleton,
        Function.comp_apply, truth_part, fieldsOf, if_pos htoken, hc.1, Clause.truthTogether]
      simp [Operator.combine]
    · rw [if_neg hc, if_neg fun h => hc h.2]
      exact hfields
  · next hnone =>
    rw [hnone, if_neg (by simp)]
    exact hfields

theorem truth_nodeItem (hg : ∀ f, g.fieldsOf (g.fieldToken f) = [f]) {n : Node}
    (hn : n.NonEmpty) : Item.truth g a (g.nodeItem n) = n.truth (g.clauseTruth a) := by
  induction hn with
  | clause c => exact truth_clauseItem hg c
  | @group o children hne _ ih =>
    rw [nodeItem, Node.fold_group, Item.truth_group,
      Level.truth_of o (mt List.map_eq_nil_iff.1 hne), List.map_map, Node.truth, Node.fold_group]
    exact congrArg o.combine (List.map_congr_left ih)

/-- The text of a query has the value of the query. -/
theorem truth_compile (hg : g.Legible) (hfield : ∀ f, g.fieldsOf (g.fieldToken f) = [f])
    {q : Query} (hne : q.NonEmpty) (hq : q.QuoteFree) :
    g.truth a (g.compile q) = some (q.truth (g.clauseTruth a)) := by
  obtain ⟨hchildren, hnodes⟩ := Query.nonEmpty_iff.1 hne
  have hitems : q.children.map (Item.truth g a ∘ g.nodeItem) =
      q.children.map (Node.truth (g.clauseTruth a)) :=
    List.map_congr_left fun n hn => truth_nodeItem hfield (hnodes n hn)
  rw [truth, hg.read_compile hne hq, Option.map_some, skeleton,
    Level.truth_of q.operator (mt List.map_eq_nil_iff.1 hchildren), List.map_map, hitems,
    Query.truth, Node.truth, Query.toNode, Node.fold_group]

end Grammar

/-! ## The descriptive fields together -/

namespace Clause
variable {a : Finding} {c : Clause}

theorem hasExactly_iff_perm {wanted : List Field} (h : wanted.Nodup) :
    c.hasExactly wanted = true ↔ wanted.Perm c.fields := by
  rw [hasExactly, Bool.and_eq_true, beq_iff_eq, List.all_eq_true]
  constructor
  · rintro ⟨hlength, hmem⟩
    have hsub : wanted ⊆ c.fields := fun f hf => by simpa using hmem f hf
    exact (h.subperm hsub).perm_of_length_le (Nat.le_of_eq hlength)
  · intro hperm
    exact ⟨hperm.length_eq.symm, fun f hf => by simpa using hperm.mem_iff.1 hf⟩

theorem nodup_descriptiveFields : Grammar.descriptiveFields.Nodup := by decide

theorem OnDescriptive.perm (h : c.OnDescriptive) : Grammar.descriptiveFields.Perm c.fields :=
  (hasExactly_iff_perm nodup_descriptiveFields).1 h.2

theorem OnDescriptive.truth_eq (h : c.OnDescriptive) :
    c.truth a = Grammar.descriptiveFields.any fun f => c.negated ^^ c.terms.any (a f) := by
  rw [truth, h.1, Bool.eq_iff_iff]
  simp [Operator.combine, h.perm.mem_iff]

theorem OnDescriptive.truthTogether_eq_truth (h : c.OnDescriptive) (hn : c.negated = false) :
    c.truthTogether a = c.truth a := by
  rw [h.truth_eq, truthTogether, hn, Bool.eq_iff_iff]
  simp only [Bool.false_xor, List.any_eq_true]
  constructor
  · rintro ⟨t, ht, f, hf, hfound⟩
    exact ⟨f, hf, t, ht, hfound⟩
  · rintro ⟨f, hf, t, ht, hfound⟩
    exact ⟨t, ht, f, hf, hfound⟩

theorem truthTogether_eq_foundNowhere (hn : c.negated = true) :
    c.truthTogether a = c.foundNowhere a := by
  rw [truthTogether, foundNowhere, hn, Bool.eq_iff_iff]
  simp only [Bool.true_xor, Bool.not_eq_true', List.any_eq_false, List.all_eq_true]
  simp only [List.any_eq_true, not_exists, not_and, Bool.not_eq_true]
  exact ⟨fun h f hf t ht => h t ht f hf, fun h t ht f hf => h f hf t ht⟩

theorem OnDescriptive.truth_eq_missedSomewhere (h : c.OnDescriptive) (hn : c.negated = true) :
    c.truth a = c.missedSomewhere a := by
  rw [h.truth_eq, missedSomewhere, hn]
  simp only [Bool.true_xor, List.not_any_eq_all_not]

end Clause

/-! ## The engines -/

namespace Vendor

theorem fieldsOf_fieldToken (v : Vendor) (f : Field) :
    v.grammar.fieldsOf (v.grammar.fieldToken f) = [f] := by
  cases v <;> cases f <;> decide

theorem truth_compile (v : Vendor) {q : Query} (hne : q.NonEmpty) (hq : q.QuoteFree)
    (a : Finding) :
    v.grammar.truth a (v.grammar.compile q) = some (q.truth (v.grammar.clauseTruth a)) :=
  Grammar.truth_compile v.legible v.fieldsOf_fieldToken hne hq

theorem clauseTruth_scopus (a : Finding) : scopus.grammar.clauseTruth a = fun c =>
    if c.negated ∧ c.OnDescriptive then c.foundNowhere a else c.truth a := by
  funext c
  rw [Grammar.clauseTruth]
  by_cases hc : c.OnDescriptive
  · rw [if_pos ⟨rfl, hc⟩]
    cases hn : c.negated with
    | true => rw [if_pos ⟨rfl, hc⟩, Clause.truthTogether_eq_foundNowhere hn]
    | false => rw [if_neg (fun h => nomatch h.1), hc.truthTogether_eq_truth hn]
  · rw [if_neg fun h => hc h.2, if_neg fun h => hc h.2]

/-- What the texts of a query mean. IEEE Xplore and ACM read the same: the value of the query, all
fields asked one after the other. Scopus reads a negated clause for one of the descriptive fields as
"no term in any of the three", where the others read "one of the three without any term"; but for
this all engines read the same. -/
theorem truth_vendors {q : Query} (hne : q.NonEmpty) (hq : q.QuoteFree) (a : Finding) :
    (∀ v ∈ [ieee, acm], v.grammar.truth a (v.grammar.compile q) = some (q.truth (Clause.truth a))) ∧
    scopus.grammar.truth a (scopus.grammar.compile q) = some (q.truth fun c =>
      if c.negated ∧ c.OnDescriptive then c.foundNowhere a else c.truth a) ∧
    (∀ c ∈ q.clauses, c.negated ∧ c.OnDescriptive → c.truth a = c.missedSomewhere a) ∧
    ((∀ c ∈ q.clauses, c.negated ∧ c.OnDescriptive → c.foundNowhere a = c.missedSomewhere a) →
      ∀ v w : Vendor,
        v.grammar.truth a (v.grammar.compile q) = w.grammar.truth a (w.grammar.compile q)) := by
  have hscopus := truth_compile scopus hne hq a
  rw [clauseTruth_scopus] at hscopus
  have hothers : ∀ v ∈ [ieee, acm],
      v.grammar.truth a (v.grammar.compile q) = some (q.truth (Clause.truth a)) := by
    intro v hv
    have hplain : v.grammar.clauseTruth a = Clause.truth a := by
      funext c
      rcases List.mem_pair.1 hv with rfl | rfl <;> exact if_neg fun h => nomatch h.1
    rw [truth_compile v hne hq a, hplain]
  have hmissed : ∀ c ∈ q.clauses, c.negated ∧ c.OnDescriptive → c.truth a = c.missedSomewhere a :=
    fun c _ h => h.2.truth_eq_missedSomewhere h.1
  refine ⟨hothers, hscopus, hmissed, fun hsame => ?_⟩
  have htree : (q.truth fun c => if c.negated ∧ c.OnDescriptive then c.foundNowhere a
      else c.truth a) = q.truth (Clause.truth a) := by
    refine Node.truth_congr fun c hc => ?_
    by_cases h : c.negated ∧ c.OnDescriptive
    · rw [if_pos h, hsame c hc h, hmissed c hc h]
    · rw [if_neg h]
  have hall : ∀ v : Vendor,
      v.grammar.truth a (v.grammar.compile q) = some (q.truth (Clause.truth a)) := by
    intro v
    cases v with
    | scopus => rw [hscopus, htree]
    | ieee => exact hothers ieee (by decide)
    | acm => exact hothers acm (by decide)
  intro v w
  rw [hall v, hall w]

def notDescriptive : Query :=
  .ofClause .and
    { operator := .or, negated := true, fields := [.title, .abstract, .keywords], terms := ["a"]
      nodup_fields := by decide, fields_ne_nil := by decide, terms_ne_nil := by decide }

/-- The term is in the title alone: the abstract is without it, but it is not found nowhere. Where
it is in every field, no engine finds it missing. -/
theorem truth_notDescriptive :
    notDescriptive.NonEmpty ∧ notDescriptive.QuoteFree ∧
    ieee.grammar.truth (fun f _ => f = .title) (ieee.grammar.compile notDescriptive) = some true ∧
    scopus.grammar.truth (fun f _ => f = .title) (scopus.grammar.compile notDescriptive) =
      some false ∧
    ∀ v w : Vendor, v.grammar.truth (fun _ _ => true) (v.grammar.compile notDescriptive) =
      w.grammar.truth (fun _ _ => true) (w.grammar.compile notDescriptive) := by
  have hne : notDescriptive.NonEmpty := Query.nonEmpty_ofClause ..
  have hq : notDescriptive.QuoteFree := Query.quoteFree_ofClause _ (by decide)
  obtain ⟨hothers, hscopus, -, -⟩ := truth_vendors hne hq fun f _ => f = .title
  obtain ⟨-, -, -, hsame⟩ := truth_vendors hne hq fun _ _ => true
  refine ⟨hne, hq, hothers ieee (by decide), hscopus, hsame fun c hc _ => ?_⟩
  obtain rfl := List.mem_singleton.1 hc
  rfl

/-- The engines do not read every query alike. -/
theorem exists_truth_ne : ¬ ∀ q : Query, q.NonEmpty → q.QuoteFree → ∀ (a : Finding) (v w : Vendor),
    v.grammar.truth a (v.grammar.compile q) = w.grammar.truth a (w.grammar.compile q) := by
  intro h
  have hsame := h notDescriptive (Query.nonEmpty_ofClause ..)
    (Query.quoteFree_ofClause _ (by decide)) (fun f _ => f = .title) ieee scopus
  have hieee : ieee.grammar.truth (fun f _ => f = .title) (ieee.grammar.compile notDescriptive) =
      some true := by decide +kernel
  have hscopus : scopus.grammar.truth (fun f _ => f = .title)
      (scopus.grammar.compile notDescriptive) = some false := by decide +kernel
  rw [hieee, hscopus] at hsame
  exact absurd hsame (by decide)

end Vendor

end PaperTrail
