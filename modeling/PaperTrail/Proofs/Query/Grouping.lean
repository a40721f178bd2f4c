import PaperTrail.Proofs.Query.Skeleton
import PaperTrail.Proofs.Text.Balanced
import PaperTrail.Proofs.Text.Separator

/-!
# Nested queries are closed groups

* `Query.at? path` : the query that stands at a path in a tree;
* `Grammar.before path` : what the text of the tree has in front of the text of that query, up to the
  parenthesis that is opened for it (`exists_compile_eq`);
* `Grammar.Tidy.balanced_compile` : where the parentheses of every term are balanced, so are those of
  the text;
* `Vendor.compile_grouped` : the parenthesis that is opened for a nested query is closed by the one that
  is written behind its text.

Terms are written as they are, so that a term whose parentheses are not balanced can close a group or
leave it open.
-/

namespace PaperTrail

open Text (Balanced Matching)

namespace Query

/-- The parentheses of every term of the tree are balanced. -/
def TermsBalanced (q : Query) : Prop := ∀ c ∈ q.clauses, ∀ t ∈ c.terms, Balanced t.toList

/-- The query at a path, which gives the numbers of the parts that lead from a query to one nested in it.
The empty path leads to the query itself, and no path goes on into a clause. -/
def at? (q : Query) : List Nat → Option Query
  | [] => some q
  | i :: path =>
    match q.children[i]? with
    | some (.group o children) => at? ⟨o, children⟩ path
    | _ => none

theorem at?_cons_eq_some_iff {q inner : Query} {i : Nat} {path : List Nat} :
    q.at? (i :: path) = some inner ↔
      ∃ child : Query, q.children[i]? = some child.toNode ∧ child.at? path = some inner := by
  rw [at?]
  constructor
  · intro h
    split at h
    · next o children hchild => exact ⟨⟨o, children⟩, hchild, h⟩
    · cases h
  · rintro ⟨child, hchild, h⟩
    rw [hchild]
    exact h

theorem clauses_subset_of_at? {q inner : Query} {path : List Nat} (h : q.at? path = some inner) :
    inner.clauses ⊆ q.clauses := by
  induction path generalizing q with
  | nil =>
    obtain rfl := Option.some.inj h
    exact fun c hc => hc
  | cons i path ih =>
    obtain ⟨child, hchild, h⟩ := at?_cons_eq_some_iff.1 h
    exact fun c hc => mem_clauses.2 ⟨child.toNode, List.mem_of_getElem? hchild, ih h hc⟩

theorem TermsBalanced.at? {q inner : Query} {path : List Nat} (hq : q.TermsBalanced)
    (h : q.at? path = some inner) : inner.TermsBalanced :=
  fun c hc => hq c (clauses_subset_of_at? h hc)

end Query

namespace Grammar
variable (g : Grammar)

/-! ## Where a nested query is written -/

/-- What is written in front of the part with number `i`: the parts before it, each one with the
operator behind it. -/
def textBefore (q : Query) (i : Nat) : String :=
  String.join ((g.nodeTexts (q.children.take i)).map (· ++ g.separator q.operator))

/-- What is written in front of the text of the query at a path: at every step the parts before it, and
the parenthesis that is opened for it. -/
def before (q : Query) : List Nat → String
  | [] => ""
  | i :: path =>
    match q.children[i]? with
    | some (.group o children) => g.textBefore q i ++ "(" ++ before ⟨o, children⟩ path
    | _ => ""

theorem before_cons {q child : Query} {i : Nat} (h : q.children[i]? = some child.toNode)
    (path : List Nat) : g.before q (i :: path) = g.textBefore q i ++ "(" ++ g.before child path := by
  rw [before, h]
  rfl

theorem exists_compile_eq_of_child {q : Query} {i : Nat} {n : Node} (h : q.children[i]? = some n) :
    ∃ rest, g.compile q = g.textBefore q i ++ g.nodeText n ++ rest := by
  obtain ⟨hi, rfl⟩ := List.getElem?_eq_some_iff.1 h
  have hparts : q.children.take i ++ q.children[i] :: q.children.drop (i + 1) = q.children := by
    rw [← List.drop_eq_getElem_cons hi, List.take_append_drop]
  obtain ⟨rest, hrest⟩ := Text.exists_intercalate_append (g.separator q.operator)
    ((q.children.take i).map g.nodeText) (g.nodeText q.children[i])
    ((q.children.drop (i + 1)).map g.nodeText)
  refine ⟨rest, ?_⟩
  rw [← List.map_cons, ← List.map_append, hparts] at hrest
  rw [compile, textBefore, nodeTexts_eq_map, nodeTexts_eq_map, hrest]

/-- The text of a nested query stands between the parentheses that are written for it. -/
theorem exists_compile_eq {q inner : Query} {path : List Nat} (hne : path ≠ [])
    (h : q.at? path = some inner) :
    ∃ front back, g.before q path = front ++ "(" ∧
      g.compile q = front ++ "(" ++ g.compile inner ++ ")" ++ back := by
  induction path generalizing q with
  | nil => exact absurd rfl hne
  | cons i path ih =>
    obtain ⟨child, hchild, hinner⟩ := Query.at?_cons_eq_some_iff.1 h
    obtain ⟨rest, hrest⟩ := g.exists_compile_eq_of_child hchild
    rw [g.before_cons hchild, hrest, nodeText_toNode, parenthesized]
    cases path with
    | nil =>
      obtain rfl := Option.some.inj hinner
      exact ⟨g.textBefore q i, rest, String.append_empty, by simp only [String.append_assoc]⟩
    | cons i' path =>
      obtain ⟨front, back, hfront, htext⟩ := ih (List.cons_ne_nil i' path) hinner
      refine ⟨g.textBefore q i ++ "(" ++ front, back ++ ")" ++ rest, ?_, ?_⟩
      · simp only [hfront, String.append_assoc]
      · simp only [htext, String.append_assoc]

/-! ## Balanced texts -/

/-- Every token of the grammar has balanced parentheses. -/
structure Tidy : Prop where
  operatorToken : ∀ o, Balanced (g.operatorToken o).toList
  fieldToken : ∀ f, Balanced (g.fieldToken f).toList
  descriptiveToken : ∀ token ∈ g.descriptiveToken?, Balanced token.toList

variable {g}

theorem Tidy.separator (hg : g.Tidy) (o : Operator) : Balanced (g.separator o).toList := by
  have hblank : Balanced " ".toList := by decide
  rw [Grammar.separator, String.toList_append, String.toList_append]
  exact (hblank.append (hg.operatorToken o)).append hblank

theorem Tidy.partToken (hg : g.Tidy) {c : Clause} {token : String} (h : token ∈ g.partTokens c) :
    Balanced token.toList := by
  have hfields : ∀ token ∈ c.fields.map g.fieldToken, Balanced token.toList :=
    List.forall_mem_map.2 fun f _ => hg.fieldToken f
  rw [partTokens] at h
  split at h
  · next t ht =>
    split at h
    · obtain rfl := List.mem_singleton.1 h
      exact hg.descriptiveToken _ ht
    · exact hfields _ h
  · exact hfields _ h

theorem balanced_parenthesized {s : String} (h : Balanced s.toList) :
    Balanced (parenthesized s).toList := by
  rw [toList_parenthesized]
  exact h.parenthesized

theorem Tidy.intercalate (hg : g.Tidy) (o : Operator) {texts : List String}
    (h : ∀ text ∈ texts, Balanced text.toList) :
    Balanced ((g.separator o).intercalate texts).toList := by
  rw [toList_intercalate_separator]
  exact (hg.separator o).intercalate (List.forall_mem_map.2 h)

theorem balanced_quoteTerm {t : String} (h : Balanced t.toList) :
    Balanced (quoteTerm t).toList := by
  have hquote : Balanced "\"".toList := by decide
  rw [quoteTerm, String.toList_append, String.toList_append]
  exact (hquote.append h).append hquote

theorem Tidy.called (hg : g.Tidy) {token : String} (htoken : Balanced token.toList) {c : Clause}
    (h : ∀ t ∈ c.terms, Balanced t.toList) : Balanced (g.called token c).toList := by
  have hcolon : Balanced ":".toList := by decide
  have hterms : Balanced (parenthesized (g.quotedTerms c)).toList :=
    balanced_parenthesized
      (hg.intercalate _ (List.forall_mem_map.2 fun t ht => balanced_quoteTerm (h t ht)))
  rw [Grammar.called]
  cases g.shape with
  | call =>
    rw [String.toList_append]
    exact htoken.append hterms
  | label =>
    rw [String.toList_append, String.toList_append]
    exact (htoken.append hcolon).append hterms
  | eachTerm =>
    refine balanced_parenthesized (hg.intercalate _ (List.forall_mem_map.2 fun t ht => ?_))
    rw [String.toList_append, String.toList_append]
    exact (htoken.append hcolon).append (balanced_quoteTerm (h t ht))

theorem Tidy.clauseText (hg : g.Tidy) {c : Clause} (h : ∀ t ∈ c.terms, Balanced t.toList) :
    Balanced (g.clauseText c).toList := by
  have hnot : Balanced "NOT ".toList := by decide
  have hparts : ∀ part ∈ g.parts c, Balanced part.toList := by
    refine List.forall_mem_map.2 fun token htoken => ?_
    have hcalled := hg.called (hg.partToken htoken) h
    split
    · rw [String.toList_append]
      exact hnot.append hcalled
    · exact hcalled
  rw [Grammar.clauseText]
  split
  · next part hpart => exact hparts part (by rw [hpart]; exact List.mem_singleton_self part)
  · exact balanced_parenthesized (hg.intercalate _ hparts)

theorem Tidy.nodeText (hg : g.Tidy) {n : Node}
    (h : ∀ c ∈ n.clauses, ∀ t ∈ c.terms, Balanced t.toList) : Balanced (g.nodeText n).toList := by
  induction n using Node.induct with
  | clause c => exact hg.clauseText (h c (List.mem_singleton_self c))
  | group o children ih =>
    rw [Grammar.nodeText, nodeTexts_eq_map]
    refine balanced_parenthesized (hg.intercalate o (List.forall_mem_map.2 fun n hn => ?_))
    exact ih n hn fun c hc => h c (Node.mem_clauses_group.2 ⟨n, hn, hc⟩)

/-- Terms with balanced parentheses make a text with balanced parentheses. -/
theorem Tidy.balanced_compile (hg : g.Tidy) {q : Query} (h : q.TermsBalanced) :
    Balanced (g.compile q).toList := by
  rw [compile, nodeTexts_eq_map]
  refine hg.intercalate q.operator (List.forall_mem_map.2 fun n hn => hg.nodeText fun c hc => ?_)
  exact h c (Query.mem_clauses.2 ⟨n, hn, hc⟩)

end Grammar

namespace Vendor

theorem tidy (v : Vendor) : v.grammar.Tidy := by
  refine ⟨fun o => ?_, fun f => ?_, fun token htoken => ?_⟩
  · cases v <;> cases o <;> decide
  · cases v <;> cases f <;> decide
  · cases v with
    | scopus =>
      obtain rfl := Option.mem_some.1 htoken
      decide
    | ieee => cases htoken
    | acm => cases htoken

/-- The text of a query for a search engine has balanced parentheses, and every query nested in it, at
whatever path, is a closed group in it: the parenthesis that is written in front of its text is closed
by the one behind its text, and by no other. The terms can be any texts with balanced parentheses, and
queries can be empty. -/
theorem compile_grouped (v : Vendor) {q : Query} (h : q.TermsBalanced) :
    Balanced (v.grammar.compile q).toList ∧
      ∀ path inner, path ≠ [] → q.at? path = some inner →
        ∃ front back, v.grammar.before q path = front ++ "(" ∧
          v.grammar.compile q = front ++ "(" ++ v.grammar.compile inner ++ ")" ++ back ∧
          ∀ j, Matching (v.grammar.compile q).toList front.length j ↔
            j = front.length + 1 + (v.grammar.compile inner).length := by
  refine ⟨v.tidy.balanced_compile h, fun path inner hne hinner => ?_⟩
  obtain ⟨front, back, hfront, htext⟩ := v.grammar.exists_compile_eq hne hinner
  refine ⟨front, back, hfront, htext, fun j => ?_⟩
  have hchars : (v.grammar.compile q).toList =
      front.toList ++ '(' :: ((v.grammar.compile inner).toList ++ ')' :: back.toList) := by
    rw [htext]
    simp [String.toList_append]
  rw [hchars, ← String.length_toList, ← String.length_toList]
  exact Text.matching_around_iff (v.tidy.balanced_compile (h.at? hinner)) front.toList back.toList

/-- A query without parts inside a nested query, beside terms with parentheses and quotes. -/
theorem compile_grouped_empty :
    let c : Clause := ⟨.or, true, [.title, .all], ["f(x)", "say \"(()hi)\""], by decide, by decide,
      by decide⟩
    let q : Query := ⟨.and, [.clause c, .group .or [.clause c, .group .and []]]⟩
    q.TermsBalanced ∧ q.at? [1, 1] = some ⟨.and, []⟩ ∧
      Balanced (ieeeGrammar.compile q).toList ∧
      ∃ front back, ieeeGrammar.before q [1, 1] = front ++ "(" ∧
        ieeeGrammar.compile q = front ++ "(" ++ ieeeGrammar.compile ⟨.and, []⟩ ++ ")" ++ back ∧
        ∀ j, Matching (ieeeGrammar.compile q).toList front.length j ↔
          j = front.length + 1 + (ieeeGrammar.compile ⟨.and, []⟩).length := by
  intro c q
  have hq : q.TermsBalanced := by unfold Query.TermsBalanced; decide +kernel
  have hinner : q.at? [1, 1] = some ⟨.and, []⟩ := rfl
  obtain ⟨hbalanced, hnested⟩ := compile_grouped .ieee hq
  exact ⟨hq, hinner, hbalanced, hnested [1, 1] _ (by decide) hinner⟩

end Vendor

end PaperTrail
