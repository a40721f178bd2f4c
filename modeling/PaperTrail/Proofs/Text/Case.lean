import PaperTrail.Text.Blank
import PaperTrail.Text.Case

/-!
# What folding letters leaves as it is

Folding changes the letters `A` to `Z` only (`toLower_eq_self_or`). Hence it is idempotent
(`fold_fold`), keeps blanks (`isBlank_toLower`, `isBlankText_fold`) and the number of bytes
(`utf8ByteSize_fold`), and texts that are the same up to letter case are blank together
(`isBlankText_congr`).
-/

namespace PaperTrail.Text

theorem toLower_eq_self_or (c : Char) :
    c.toLower = c ∨ (65 ≤ c.toNat ∧ c.toNat ≤ 90 ∧ c.toLower.toNat = c.toNat + 32) := by
  unfold Char.toLower
  split
  · next h =>
    refine Or.inr ?_
    have hlo : 65 ≤ c.toNat := h.1
    have hhi : c.toNat ≤ 90 := h.2
    refine ⟨hlo, hhi, ?_⟩
    show (c.val + ('a'.val - 'A'.val)).toNat = c.val.toNat + 32
    rw [UInt32.toNat_add]
    have hc : c.val.toNat ≤ 90 := hhi
    have hdiff : ('a'.val - 'A'.val).toNat = 32 := rfl
    omega
  · exact Or.inl rfl

theorem toLower_toLower (c : Char) : c.toLower.toLower = c.toLower := by
  rcases toLower_eq_self_or c.toLower with h | ⟨hlo, hhi, -⟩
  · exact h
  · rcases toLower_eq_self_or c with h | ⟨hlo', -, hval⟩
    · rw [h, h]
    · omega

theorem fold_fold (s : String) : fold (fold s) = fold s := by
  rw [← String.toList_inj, toList_fold, toList_fold, List.map_map]
  exact List.map_congr_left fun c _ => toLower_toLower c

/-- No character between `A` and `z` is blank. -/
theorem isBlank_eq_false_of_le {c : Char} (hlo : 65 ≤ c.toNat) (hhi : c.toNat ≤ 122) :
    isBlank c = false := by
  simp only [isBlank, inRanges, blankRanges, List.any_cons, List.any_nil, Bool.or_eq_false_iff,
    Bool.and_eq_false_iff, decide_eq_false_iff_not, and_true]
  omega

theorem isBlank_toLower (c : Char) : isBlank c.toLower = isBlank c := by
  rcases toLower_eq_self_or c with h | ⟨hlo, hhi, hval⟩
  · rw [h]
  · rw [isBlank_eq_false_of_le hlo (by omega), isBlank_eq_false_of_le (by omega) (by omega)]

theorem isBlankText_fold (s : String) : isBlankText (fold s) = isBlankText s := by
  rw [isBlankText, toList_fold, List.all_map, isBlankText]
  congr 1
  funext c
  exact isBlank_toLower c

/-- Texts that are the same up to letter case are blank together. -/
theorem isBlankText_congr {a b : String} (h : sameFolded a b = true) :
    isBlankText a = isBlankText b := by
  rw [← isBlankText_fold a, sameFolded_iff.1 h, isBlankText_fold]

theorem utf8Size_toLower (c : Char) : c.toLower.utf8Size = c.utf8Size := by
  rcases toLower_eq_self_or c with h | ⟨hlo, hhi, hval⟩
  · rw [h]
  · have hc : c.utf8Size = 1 := Char.utf8Size_eq_one_iff.2 (UInt32.le_iff_toNat_le.2 (by
      show c.toNat ≤ 127
      omega))
    have hl : c.toLower.utf8Size = 1 := Char.utf8Size_eq_one_iff.2 (UInt32.le_iff_toNat_le.2 (by
      show c.toLower.toNat ≤ 127
      omega))
    rw [hc, hl]

theorem utf8ByteSize_map_toLower (cs : List Char) :
    (String.ofList (cs.map Char.toLower)).utf8ByteSize = (String.ofList cs).utf8ByteSize := by
  induction cs with
  | nil => rfl
  | cons c cs ih =>
    rw [List.map_cons, String.ofList_cons, String.ofList_cons, String.utf8ByteSize_append,
      String.utf8ByteSize_append, String.utf8ByteSize_singleton, String.utf8ByteSize_singleton,
      utf8Size_toLower, ih]

theorem utf8ByteSize_fold (s : String) : (fold s).utf8ByteSize = s.utf8ByteSize := by
  rw [fold, utf8ByteSize_map_toLower, String.ofList_toList]

end PaperTrail.Text
