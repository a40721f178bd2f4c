import PaperTrail.Proofs.Query.Description
import PaperTrail.Proofs.Query.Meaning

/-!
# Title, abstract and keywords together

Scopus has a token for the three descriptive fields together. It is written for alternatives on exactly
these fields, however they are listed (`onDescriptive_iff`); every other clause is written as by an
engine without such a token, field by field (`clauseText_of_not_onDescriptive`), and no text of this
kind looks like the one for the three fields (`clauseText_fieldByField_ne`). `clauseText_scopus` says
this of the clause of any lists of fields and terms.
-/

namespace PaperTrail

/-- The search syntax without the token for the descriptive fields together. -/
def Grammar.fieldByField (g : Grammar) : Grammar := { g with descriptiveToken? := none }

def Clause.sign (c : Clause) : String := if c.negated then "NOT " else ""

namespace Grammar
variable (g : Grammar) {c : Clause}

theorem parts_eq (c : Clause) :
    g.parts c = (g.partTokens c).map fun token => c.sign ++ g.called token c := by
  refine List.map_congr_left fun token _ => ?_
  rw [Clause.sign]
  split
  · rfl
  · rw [String.empty_append]

theorem parts_fieldByField (c : Clause) :
    g.fieldByField.parts c = c.fields.map fun f => c.sign ++ g.part f c := by
  rw [parts_eq]
  exact List.map_map

theorem partTokens_of_onDescriptive {token : String} (htoken : g.descriptiveToken? = some token)
    (h : c.OnDescriptive) : g.partTokens c = [token] := by
  rw [partTokens, htoken]
  exact if_pos h

theorem partTokens_of_not_onDescriptive (h : ¬ c.OnDescriptive) :
    g.partTokens c = g.fieldByField.partTokens c := by
  rw [partTokens]
  split
  · exact if_neg h
  · rfl

theorem clauseText_of_single {text : String} (h : g.parts c = [text]) : g.clauseText c = text := by
  rw [clauseText, h]

theorem clauseText_of_onDescriptive {token : String} (htoken : g.descriptiveToken? = some token)
    (h : c.OnDescriptive) : g.clauseText c = c.sign ++ g.called token c := by
  refine g.clauseText_of_single ?_
  rw [parts_eq, g.partTokens_of_onDescriptive htoken h, List.map_singleton]

theorem clauseText_of_not_onDescriptive (h : ¬ c.OnDescriptive) :
    g.clauseText c = g.fieldByField.clauseText c := by
  have hparts : g.parts c = g.fieldByField.parts c := by
    rw [parts_eq, g.partTokens_of_not_onDescriptive h, parts_eq]
    rfl
  rw [clauseText, clauseText, hparts]
  rfl

/-- Several parts are put in parentheses. -/
theorem head?_clauseText {p q : String} {rest : List String} (h : g.parts c = p :: q :: rest) :
    (g.clauseText c).toList.head? = some '(' := by
  rw [clauseText, h]
  exact congrArg List.head? (toList_parenthesized _)

end Grammar

/-- A clause of any fields is one for the descriptive fields when these are the ones listed. -/
theorem Clause.onDescriptive_iff {c : Clause} {fields : List Field} (h : FirstSeen fields c.fields) :
    c.OnDescriptive ↔
      c.operator = .or ∧ ∀ f, f ∈ fields ↔ f ∈ Grammar.descriptiveFields := by
  refine and_congr_right fun _ => ?_
  rw [hasExactly_iff_perm nodup_descriptiveFields,
    List.perm_ext_iff_of_nodup nodup_descriptiveFields c.nodup_fields]
  refine forall_congr' fun f => ?_
  rw [h.mem_iff f]
  exact iff_comm

namespace Vendor

def descriptiveToken : String := "TITLE-ABS-KEY"

/-- Field by field, Scopus is never asked for the descriptive fields together: one part has the token
of its field, and several parts begin with a parenthesis. -/
theorem clauseText_fieldByField_ne (c : Clause) :
    scopusGrammar.fieldByField.clauseText c ≠ c.sign ++ scopusGrammar.called descriptiveToken c := by
  have hparts := scopusGrammar.parts_fieldByField c
  obtain ⟨f, rest, hfields⟩ := List.exists_cons_of_ne_nil c.fields_ne_nil
  rw [hfields] at hparts
  intro h
  cases rest with
  | nil =>
    rw [Grammar.clauseText_of_single _ hparts, String.append_right_inj] at h
    have htoken : scopusGrammar.fieldToken f = descriptiveToken := by
      simpa [Grammar.part, Grammar.called, scopusGrammar] using h
    cases f <;> exact absurd htoken (by decide)
  | cons f' rest =>
    have hhead := Grammar.head?_clauseText _ hparts
    rw [h, Clause.sign] at hhead
    split at hhead
    · simp at hhead
    · simp [Grammar.called, scopusGrammar, descriptiveToken] at hhead

/-- When Scopus is asked for the descriptive fields together. There is a clause of any lists of fields
and terms that are not empty, and its text is the one part for the three fields, negated when the
clause is, exactly when it is a clause of alternatives and its fields are, in any order and however
often, these three. Every other clause is written with a part for each of its fields in the order in
which they are first seen, as by an engine without a token for the three fields. -/
theorem clauseText_scopus (o : Operator) (negated : Bool) {fields : List Field}
    {terms : List String} (hf : fields ≠ []) (ht : terms ≠ []) :
    let quoted := (scopusGrammar.separator o).intercalate (terms.map Grammar.quoteTerm)
    let sign := if negated then "NOT " else ""
    ∃ c, Clause.ofLists? o negated fields terms = some c ∧
      (scopusGrammar.clauseText c = sign ++ ("TITLE-ABS-KEY" ++ Grammar.parenthesized quoted) ↔
        o = .or ∧ ∀ f, f ∈ fields ↔ f ∈ [Field.title, .abstract, .keywords]) ∧
      (¬ (o = .or ∧ ∀ f, f ∈ fields ↔ f ∈ [Field.title, .abstract, .keywords]) →
        scopusGrammar.clauseText c = scopusGrammar.fieldByField.clauseText c ∧
        ∃ kept, FirstSeen fields kept ∧ scopusGrammar.fieldByField.parts c = kept.map fun f =>
          sign ++ (scopusGrammar.fieldToken f ++ Grammar.parenthesized quoted)) := by
  intro quoted sign
  obtain ⟨c, hc⟩ : ∃ c, Clause.ofLists? o negated fields terms = some c :=
    ⟨_, by rw [Clause.ofLists?, dif_neg hf, dif_neg ht]⟩
  obtain ⟨rfl, rfl, hfields, rfl⟩ := (Description.ofLists?_eq_some_iff hf ht).1 hc
  have htext : sign ++ ("TITLE-ABS-KEY" ++ Grammar.parenthesized quoted) =
      c.sign ++ scopusGrammar.called descriptiveToken c := rfl
  have hiff := Clause.onDescriptive_iff hfields
  unfold Grammar.descriptiveFields at hiff
  rw [htext, ← hiff]
  refine ⟨c, hc, ⟨fun h => ?_, scopusGrammar.clauseText_of_onDescriptive rfl⟩, fun h =>
    ⟨scopusGrammar.clauseText_of_not_onDescriptive h, c.fields, hfields,
      scopusGrammar.parts_fieldByField c⟩⟩
  by_contra hother
  rw [scopusGrammar.clauseText_of_not_onDescriptive hother] at h
  exact clauseText_fieldByField_ne c h

/-- The three fields in another order with a repeat, negated; and with a further field. -/
theorem clauseText_scopus_repeated :
    let terms := ["plc", "iec"]
    (∃ c, Clause.ofLists? .or true [.keywords, .title, .keywords, .abstract] terms = some c ∧
      scopusGrammar.clauseText c = "NOT TITLE-ABS-KEY(\"plc\" OR \"iec\")") ∧
    ∃ c, Clause.ofLists? .or true [.keywords, .title, .abstract, .all, .title] terms = some c ∧
      scopusGrammar.clauseText c = scopusGrammar.fieldByField.clauseText c := by
  intro terms
  have hterms : terms ≠ [] := by decide
  have hf : [Field.keywords, .title, .keywords, .abstract] ≠ [] := by decide
  have hf' : [Field.keywords, .title, .abstract, .all, .title] ≠ [] := by decide
  obtain ⟨c, hc, htext, -⟩ := clauseText_scopus .or true hf hterms
  obtain ⟨c', hc', -, hother⟩ := clauseText_scopus .or true hf' hterms
  refine ⟨⟨c, hc, (htext.2 ⟨rfl, fun f => ?_⟩).trans (by decide +kernel)⟩, c', hc',
    (hother fun h => ?_).1⟩
  · cases f <;> decide
  · exact absurd ((h.2 .all).1 (by decide)) (by decide)

end Vendor

end PaperTrail
