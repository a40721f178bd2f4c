import PaperTrail.Proofs.Query.Meaning

/-!
# What a negated clause means

Negation is written in front of every part of a clause, and the parts stay joined by the operator of
the clause. Part by part this is the complement. On a clause of several parts it is one only where the
parts have the same value; where they differ, an operator between parts that are turned round gives
what it gives between the parts as they are.
-/

namespace PaperTrail

namespace Operator

theorem combine_of_constant (o : Operator) {vs : List Bool} {b : Bool} (hne : vs ≠ [])
    (h : ∀ v ∈ vs, v = b) : o.combine vs = b := by
  obtain ⟨v, rest, rfl⟩ := List.exists_cons_of_ne_nil hne
  obtain ⟨rfl, hrest⟩ := List.forall_mem_cons.1 h
  cases o with
  | and =>
    cases v with
    | true => exact List.all_eq_true.2 (List.forall_mem_cons.2 ⟨rfl, hrest⟩)
    | false => rfl
  | or =>
    cases v with
    | true => rfl
    | false => simpa [combine] using hrest

theorem combine_of_mixed (o : Operator) {vs : List Bool} (htrue : true ∈ vs) (hfalse : false ∈ vs) :
    o.combine vs = decide (o = .or) := by
  cases o with
  | and => exact List.all_eq_false.2 ⟨false, hfalse, Bool.false_ne_true⟩
  | or => exact List.any_eq_true.2 ⟨true, htrue, rfl⟩

end Operator

/-! ## Clauses with and without negation -/

namespace Clause
variable (c : Clause) (a : Finding)

def withNegation (negated : Bool) : Clause := { c with negated }

def foundIn (f : Field) : Bool := c.operator.combine (c.terms.map (a f))

/-- In all fields the same is found of the terms. -/
def Uniform : Prop := ∀ f ∈ c.fields, ∀ f' ∈ c.fields, c.foundIn a f = c.foundIn a f'

theorem truth_withNegation (b : Bool) :
    (c.withNegation b).truth a = c.operator.combine (c.fields.map fun f => b ^^ c.foundIn a f) :=
  rfl

theorem truthTogether_withNegation :
    (c.withNegation true).truthTogether a = !(c.withNegation false).truthTogether a := by
  unfold truthTogether withNegation
  rw [Bool.true_xor, Bool.false_xor]

variable {c a}

theorem uniform_of_single {f : Field} (h : c.fields = [f]) : c.Uniform a := by
  unfold Uniform
  rw [h]
  intro f₁ h₁ f₂ h₂
  rw [List.mem_singleton.1 h₁, List.mem_singleton.1 h₂]

theorem Uniform.truth_withNegation_true (h : c.Uniform a) :
    (c.withNegation true).truth a = !(c.withNegation false).truth a := by
  obtain ⟨f, rest, hfields⟩ := List.exists_cons_of_ne_nil c.fields_ne_nil
  have hf : f ∈ c.fields := by rw [hfields]; exact List.mem_cons_self
  have hconst : ∀ b, (c.withNegation b).truth a = (b ^^ c.foundIn a f) := by
    intro b
    rw [truth_withNegation]
    refine c.operator.combine_of_constant (mt List.map_eq_nil_iff.1 c.fields_ne_nil) fun v hv => ?_
    obtain ⟨f', hf', rfl⟩ := List.mem_map.1 hv
    rw [h f' hf' f hf]
  rw [hconst, hconst, Bool.true_xor, Bool.false_xor]

theorem truth_withNegation_of_not_uniform (h : ¬ c.Uniform a) (b : Bool) :
    (c.withNegation b).truth a = decide (c.operator = .or) := by
  unfold Uniform at h
  push Not at h
  obtain ⟨f, hf, f', hf', hne⟩ := h
  have hmem : ∀ g ∈ c.fields, (b ^^ c.foundIn a g) ∈ c.fields.map fun f => b ^^ c.foundIn a f :=
    fun g hg => List.mem_map.2 ⟨g, hg, rfl⟩
  have h₁ := hmem f hf
  have h₂ := hmem f' hf'
  -- of two fields that differ one gives `true` and one `false`, turned round or not
  rw [Bool.eq_not_of_ne hne] at h₁
  rw [truth_withNegation]
  generalize hv : (b ^^ c.foundIn a f') = v at h₂
  rw [Bool.xor_not, hv] at h₁
  cases v with
  | true => exact c.operator.combine_of_mixed h₂ h₁
  | false => exact c.operator.combine_of_mixed h₁ h₂

end Clause

/-! ## The text of a clause -/

theorem Grammar.compile_ofClause (g : Grammar) (o : Operator) (c : Clause) :
    g.compile (.ofClause o c) = g.clauseText c := by
  unfold Query.ofClause Grammar.compile
  rw [nodeTexts_eq_map, List.map_singleton, String.intercalate_singleton, nodeText]

theorem Query.truth_ofClause (value : Clause → Bool) (o : Operator) (c : Clause) :
    (Query.ofClause o c).truth value = value c := by
  unfold Query.truth Query.toNode Query.ofClause Node.truth
  rw [Node.fold_group, List.map_singleton, Operator.combine_singleton, Node.fold_clause]

namespace Vendor

/-- The text of a clause has the value of the clause. -/
theorem truth_clauseText (v : Vendor) {c : Clause} (hq : ∀ t ∈ c.terms, '"' ∉ t.toList)
    (a : Finding) :
    v.grammar.truth a (v.grammar.clauseText c) = some (v.grammar.clauseTruth a c) := by
  have hquery := v.truth_compile (Query.nonEmpty_ofClause .and c) (Query.quoteFree_ofClause .and hq) a
  rwa [Grammar.compile_ofClause, Query.truth_ofClause] at hquery

theorem clauseTruth_withNegation (v : Vendor) (a : Finding) (c : Clause) (b : Bool) :
    v.grammar.clauseTruth a (c.withNegation b) =
      if v = .scopus ∧ c.OnDescriptive then (c.withNegation b).truthTogether a
      else (c.withNegation b).truth a := by
  have htoken : v.grammar.descriptiveToken?.isSome = true ↔ v = .scopus := by cases v <;> decide
  unfold Grammar.clauseTruth
  simp only [htoken]
  rfl

/-- The text of a negated clause is true exactly where the text of the clause without negation is
false, when the engine is asked for one part, be it a single field or the three descriptive fields
together, and where the same is found in all fields. Everywhere else negation makes no difference:
both texts are true when the clause asks for one of the fields, and both are false when it asks for
all of them. -/
theorem truth_negated (v : Vendor) (c : Clause) (hq : ∀ t ∈ c.terms, '"' ∉ t.toList) (a : Finding) :
    ∃ plain negated,
      v.grammar.truth a (v.grammar.clauseText (c.withNegation false)) = some plain ∧
      v.grammar.truth a (v.grammar.clauseText (c.withNegation true)) = some negated ∧
      (negated = !plain ↔ (v = .scopus ∧ c.OnDescriptive) ∨ c.Uniform a) ∧
      ((∃ f, c.fields = [f]) → negated = !plain) ∧
      (¬ ((v = .scopus ∧ c.OnDescriptive) ∨ c.Uniform a) →
        plain = decide (c.operator = .or) ∧ negated = plain) := by
  have hvalue : ∀ b, v.grammar.truth a (v.grammar.clauseText (c.withNegation b)) =
      some (if v = .scopus ∧ c.OnDescriptive then (c.withNegation b).truthTogether a
        else (c.withNegation b).truth a) := by
    intro b
    rw [← clauseTruth_withNegation]
    exact v.truth_clauseText (c := c.withNegation b) hq a
  rw [hvalue, hvalue]
  by_cases htogether : v = .scopus ∧ c.OnDescriptive
  · rw [if_pos htogether, if_pos htogether]
    have hturned := c.truthTogether_withNegation a
    exact ⟨_, _, rfl, rfl, iff_of_true hturned (Or.inl htogether), fun _ => hturned,
      fun h => absurd (Or.inl htogether) h⟩
  · rw [if_neg htogether, if_neg htogether, or_iff_right htogether]
    by_cases huniform : c.Uniform a
    · have hturned := huniform.truth_withNegation_true
      exact ⟨_, _, rfl, rfl, iff_of_true hturned huniform, fun _ => hturned,
        fun h => absurd huniform h⟩
    · rw [Clause.truth_withNegation_of_not_uniform huniform,
        Clause.truth_withNegation_of_not_uniform huniform]
      refine ⟨_, _, rfl, rfl, iff_of_false (Bool.eq_not_self _).1 huniform, fun ⟨f, hf⟩ => ?_,
        fun _ => ⟨rfl, rfl⟩⟩
      exact absurd (Clause.uniform_of_single hf) huniform

def inTitleOrKeywords : Clause where
  operator := .or
  negated := false
  fields := [.title, .keywords]
  terms := ["plc"]
  nodup_fields := by decide
  fields_ne_nil := by decide
  terms_ne_nil := by decide

/-- It is in the title alone: the keywords are without it, so both texts are true. -/
theorem truth_negated_title_alone :
    let c := inTitleOrKeywords
    let a : Finding := fun f _ => f = .title
    (∀ t ∈ c.terms, '"' ∉ t.toList) ∧ ¬ c.Uniform a ∧
      scopus.grammar.clauseText (c.withNegation true) = "(NOT TITLE(\"plc\") OR NOT AUTHKEY(\"plc\"))" ∧
      ∀ v : Vendor, v.grammar.truth a (v.grammar.clauseText (c.withNegation false)) = some true ∧
        v.grammar.truth a (v.grammar.clauseText (c.withNegation true)) = some true := by
  intro c a
  have hq : ∀ t ∈ c.terms, '"' ∉ t.toList := by decide
  have hmixed : ¬ c.Uniform a := fun h =>
    absurd (h .title (by decide) .keywords (by decide)) (by decide)
  refine ⟨hq, hmixed, by decide +kernel, fun v => ?_⟩
  obtain ⟨plain, negated, hplain, hnegated, -, -, hsame⟩ := truth_negated v c hq a
  obtain ⟨rfl, rfl⟩ := hsame fun h => h.elim (fun h => absurd h.2 (by decide)) hmixed
  exact ⟨hplain, hnegated⟩

/-- Negation is not always the complement. -/
theorem not_truth_negated_eq_not : ¬ ∀ (c : Clause), (∀ t ∈ c.terms, '"' ∉ t.toList) →
    ∀ (v : Vendor) (a : Finding),
      v.grammar.truth a (v.grammar.clauseText (c.withNegation true)) = some true ↔
        v.grammar.truth a (v.grammar.clauseText (c.withNegation false)) = some false := by
  intro h
  have hplain : ieee.grammar.truth (fun f _ => f = .title)
      (ieee.grammar.clauseText (inTitleOrKeywords.withNegation false)) = some true := by
    decide +kernel
  have hnegated : ieee.grammar.truth (fun f _ => f = .title)
      (ieee.grammar.clauseText (inTitleOrKeywords.withNegation true)) = some true := by
    decide +kernel
  have hfalse := (h inTitleOrKeywords (by decide) ieee _).1 hnegated
  rw [hplain] at hfalse
  exact absurd hfalse (by decide)

end Vendor

end PaperTrail
