import PaperTrail.Proofs.Text.Case

/-!
# Spellings of a name

`Spells text name`: the text is the name in any letter case, with any blanks around it. A reader that
trims the text and folds its letters sees the name (`fold_trim_of_spells`), since blanks at the ends
do not count (`trimChars_append`) and letter case does not make a character blank. Trimming keeps all
other characters (`mem_trimChars`).
-/

namespace PaperTrail.Text

/-- Blanks around a text are trimmed with those of the text itself. -/
theorem trimChars_append {l cs r : List Char} (hl : ∀ c ∈ l, isBlank c = true)
    (hr : ∀ c ∈ r, isBlank c = true) : trimChars (l ++ cs ++ r) = trimChars cs := by
  have hend : ∀ ds, trimEndChars (ds ++ r) = trimEndChars ds := by
    intro ds
    rw [trimEndChars, List.reverse_append,
      List.dropWhile_append_of_pos fun c hc => hr c (List.mem_reverse.1 hc), trimEndChars]
  rw [trimChars, List.append_assoc, List.dropWhile_append_of_pos hl, List.dropWhile_append, trimChars]
  split
  · next h =>
    rw [List.isEmpty_iff.1 h, dropWhile_eq_nil_iff.2 hr]
  · exact hend _

theorem mem_dropWhile {α : Type} {p : α → Bool} {x : α} (h : p x = false) {xs : List α} :
    x ∈ xs.dropWhile p ↔ x ∈ xs := by
  induction xs with
  | nil => rfl
  | cons y xs ih =>
    rw [List.dropWhile_cons]
    split
    · next hy =>
      have hne : x ≠ y := by rintro rfl; rw [h] at hy; cases hy
      rw [ih, List.mem_cons, or_iff_right hne]
    · rfl

/-- Trimming keeps every character that is not blank. -/
theorem mem_trimChars {c : Char} (h : isBlank c = false) {cs : List Char} :
    c ∈ trimChars cs ↔ c ∈ cs := by
  rw [trimChars, trimEndChars, List.mem_reverse, mem_dropWhile h, List.mem_reverse, mem_dropWhile h]

theorem isBlankText_eq_false_iff {s : String} :
    isBlankText s = false ↔ ∃ c ∈ s.toList, isBlank c = false := by
  simp only [isBlankText, List.all_eq_false, Bool.not_eq_true]

theorem isBlankText_trim (s : String) : isBlankText (trim s) = isBlankText s := by
  rw [← Bool.not_inj_iff, Bool.eq_iff_iff, Bool.not_eq_true', Bool.not_eq_true',
    isBlankText_eq_false_iff, isBlankText_eq_false_iff, toList_trim]
  exact exists_congr fun c => and_congr_left fun hc => mem_trimChars hc

/-- The text is the name in any letter case, with any blanks around it. -/
def Spells (text name : String) : Prop :=
  ∃ l s r : String, text = l ++ s ++ r ∧ isBlankText l = true ∧ isBlankText r = true ∧
    sameFolded s name = true

theorem spells_self (name : String) : Spells name name :=
  ⟨"", name, "", by simp, rfl, rfl, sameFolded_refl name⟩

def isPlain (name : String) : Bool := name.toList.all fun c => c.toLower == c && !isBlank c

theorem fold_trim_of_spells {text name : String} (hname : isPlain name = true)
    (h : Spells text name) : fold (trim text) = name := by
  obtain ⟨l, s, r, rfl, hl, hr, hs⟩ := h
  have hplain : ∀ c ∈ name.toList, c.toLower = c ∧ isBlank c = false := by
    intro c hc
    simpa using List.all_eq_true.1 hname c hc
  have hfold : fold name = name := by
    rw [← String.toList_inj, toList_fold]
    exact (List.map_congr_left fun c hc => (hplain c hc).1).trans (List.map_id _)
  rw [sameFolded_iff, hfold] at hs
  have hblank : ∀ c ∈ s.toList, isBlank c = false := by
    intro c hc
    have hlower : c.toLower ∈ name.toList := by
      rw [← hs, toList_fold]
      exact List.mem_map_of_mem hc
    rw [← isBlank_toLower, (hplain _ hlower).2]
  have htrim : trim (l ++ s ++ r) = s := by
    rw [← String.toList_inj, toList_trim, String.toList_append, String.toList_append,
      trimChars_append (List.all_eq_true.1 hl) (List.all_eq_true.1 hr)]
    exact trimChars_eq_self (fun c hc => hblank c (List.mem_of_mem_head? hc))
      fun c hc => hblank c (List.mem_of_mem_getLast? hc)
  rw [htrim, hs]

end PaperTrail.Text
