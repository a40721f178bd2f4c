import PaperTrail.Paper.Basic
import PaperTrail.Proofs.Text.Separator
import PaperTrail.Proofs.Text.Spelling

/-!
# Keywords as one text

`joinKeywords` keeps the keywords that are not blank, trimmed and in their order (`keptKeywords`). What
is joined already is trimmed (`trim_joinKeywords`), and it is empty only where nothing was kept
(`joinKeywords_eq_empty_iff`). Hence keywords can be joined in groups (`joinKeywords_flatten`), and
where none of them has the bar of the separator they are found again by cutting the text
(`splitText_joinKeywords`).
-/

namespace PaperTrail

/-- The keywords that are not blank, without the blanks around them. -/
def keptKeywords (keywords : List String) : List String :=
  (keywords.filter fun k => !Text.isBlankText k).map Text.trim

theorem isEmpty_trim (s : String) : (Text.trim s).isEmpty = Text.isBlankText s := by
  rw [Bool.eq_iff_iff, String.isEmpty_iff, Text.isBlankText_iff]

theorem joinKeywords_eq (keywords : List String) :
    joinKeywords keywords = keywordSeparator.intercalate (keptKeywords keywords) := by
  have hblank : (fun k : String => !k.isEmpty) ∘ Text.trim = fun k => !Text.isBlankText k := by
    funext k
    rw [Function.comp_apply, isEmpty_trim]
  rw [joinKeywords, keptKeywords, List.filter_map, hblank]

theorem keptKeywords_flatten (groups : List (List String)) :
    keptKeywords groups.flatten = (groups.map keptKeywords).flatten := by
  rw [keptKeywords, List.filter_flatten, List.map_flatten, List.map_map]
  rfl

theorem mem_keptKeywords {keywords : List String} {text : String} (h : text ∈ keptKeywords keywords) :
    text.toList ≠ [] ∧ Text.Trimmed text.toList := by
  obtain ⟨k, hk, rfl⟩ := List.mem_map.1 h
  have hblank : Text.isBlankText k = false := by simpa using (List.mem_filter.1 hk).2
  refine ⟨fun hnil => ?_, ?_⟩
  · rw [String.toList_eq_nil_iff, ← Text.isBlankText_iff, hblank] at hnil
    cases hnil
  · rw [Text.toList_trim]
    exact Text.trimmed_trimChars k.toList

theorem trim_joinKeywords (keywords : List String) :
    Text.trim (joinKeywords keywords) = joinKeywords keywords := by
  have htrimmed : Text.Trimmed (joinKeywords keywords).toList := by
    rw [joinKeywords_eq, String.toList_intercalate]
    exact .intercalate _ (List.forall_mem_map.2 fun text h => mem_keptKeywords h)
  rw [Text.trim, Text.trimChars_eq_self htrimmed.head htrimmed.last, String.ofList_toList]

theorem joinKeywords_eq_empty_iff {keywords : List String} :
    joinKeywords keywords = "" ↔ keptKeywords keywords = [] := by
  rw [joinKeywords_eq]
  constructor
  · intro h
    cases hkept : keptKeywords keywords with
    | nil => rfl
    | cons first rest =>
      obtain ⟨hne, -⟩ := mem_keptKeywords (hkept ▸ List.mem_cons_self)
      rw [hkept, ← String.toList_eq_nil_iff, String.toList_intercalate, List.map_cons,
        Text.intercalate_cons, List.append_eq_nil_iff] at h
      exact absurd h.1 hne
  · intro h
    rw [h]
    rfl

/-- Of groups that are joined already, the ones are kept of which something is left. -/
theorem keptKeywords_map_joinKeywords (groups : List (List String)) :
    keptKeywords (groups.map joinKeywords) =
      ((groups.map keptKeywords).filter (· ≠ [])).map keywordSeparator.intercalate := by
  have hblank : ((fun k => !Text.isBlankText k) ∘ joinKeywords) =
      ((fun texts : List String => decide (texts ≠ [])) ∘ keptKeywords) := by
    funext keywords
    rw [Function.comp_apply, Function.comp_apply, ← isEmpty_trim, trim_joinKeywords, Bool.eq_iff_iff,
      Bool.not_eq_true', decide_eq_true_iff, ← Bool.not_eq_true, String.isEmpty_iff, ne_eq,
      joinKeywords_eq_empty_iff]
  rw [keptKeywords, List.filter_map, List.filter_map, hblank, List.map_map, List.map_map]
  refine List.map_congr_left fun keywords _ => ?_
  rw [Function.comp_apply, trim_joinKeywords, joinKeywords_eq]
  rfl

theorem joinKeywords_flatten (groups : List (List String)) :
    joinKeywords groups.flatten = joinKeywords (groups.map joinKeywords) := by
  have hne : ∀ texts ∈ (groups.map keptKeywords).filter (· ≠ []), texts ≠ [] := fun texts h => by
    simpa using (List.mem_filter.1 h).2
  rw [joinKeywords_eq, joinKeywords_eq, keptKeywords_flatten, keptKeywords_map_joinKeywords,
    Text.intercalate_map_intercalate _ hne, List.flatten_filter_ne_nil]

theorem splitText_joinKeywords {keywords : List String} (h : ∀ k ∈ keywords, '|' ∉ k.toList)
    (hne : keptKeywords keywords ≠ []) :
    Text.splitText keywordSeparator (joinKeywords keywords) = keptKeywords keywords := by
  rw [joinKeywords_eq]
  refine Text.splitText_intercalate (m := '|') (by decide) hne fun text htext => ?_
  obtain ⟨k, hk, rfl⟩ := List.mem_map.1 htext
  rw [Text.toList_trim, Text.mem_trimChars (by decide)]
  exact h k (List.mem_filter.1 hk).1

/-- Joining keywords is associative: groups that are joined first give the same text, whatever they
hold. And it can be undone: of keywords without a bar, cutting the text at the separator gives the ones
that are not blank, trimmed and in their order; the empty text is that of no keyword. -/
theorem joinKeywords_associative_reversible :
    (∀ groups : List (List String),
      joinKeywords groups.flatten = joinKeywords (groups.map joinKeywords)) ∧
    ∀ keywords : List String, (∀ k ∈ keywords, '|' ∉ k.toList) →
      let kept := (keywords.filter fun k => !Text.isBlankText k).map Text.trim
      (joinKeywords keywords = "" ↔ kept = []) ∧
        Text.splitText " | " (joinKeywords keywords) = if kept = [] then [""] else kept := by
  refine ⟨joinKeywords_flatten, fun keywords h => ⟨joinKeywords_eq_empty_iff, ?_⟩⟩
  split
  · next hkept =>
    rw [joinKeywords_eq_empty_iff.2 hkept]
    have hempty : ∀ part ∈ [""], '|' ∉ part.toList := by decide
    exact Text.splitText_intercalate (by decide) (List.cons_ne_nil _ _) hempty
  · next hkept => exact splitText_joinKeywords h hkept

/-- Groups of which one is blank and one begins with a blank keyword, and keywords with blanks of
several kinds around them. -/
theorem joinKeywords_associative_reversible_blanks :
    joinKeywords [["\u3000PLC ", ""], [" \t"], ["\u00a0", "a b\n"]].flatten =
        joinKeywords ([["\u3000PLC ", ""], [" \t"], ["\u00a0", "a b\n"]].map joinKeywords) ∧
      (∀ k ∈ ["\u3000PLC ", "", "a b\n"], '|' ∉ k.toList) ∧
      Text.splitText " | " (joinKeywords ["\u3000PLC ", "", "a b\n"]) = ["PLC", "a b"] := by
  obtain ⟨hflatten, hsplit⟩ := joinKeywords_associative_reversible
  have hbar : ∀ k ∈ ["\u3000PLC ", "", "a b\n"], '|' ∉ k.toList := by decide
  refine ⟨hflatten _, hbar, (hsplit _ hbar).2.trans ?_⟩
  decide +kernel

end PaperTrail
