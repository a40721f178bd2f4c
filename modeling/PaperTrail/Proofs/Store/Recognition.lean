import Mathlib.Data.List.TakeWhile
import PaperTrail.Proofs.Text.Case
import PaperTrail.Store.Database

/-!
# Recognising papers

* `sameStored_of_sameFolded` : texts that differ in the case of letters only count as the same;
  `isBlankText_of_sameStored` : blank texts do so with blank ones only;
* `sharesAny_identity_iff` : what it means that a row shares a field with a resource;
* `find?_eq_none_iff` : when a search for a resource finds nothing;
* `sharesAny_ofEntry` : the row made for an entry shares a field with it, unless all are blank.
-/

namespace PaperTrail

/-! ## Texts that count as the same -/

theorem beforeZero_fold (s : String) : beforeZero (Text.fold s) = Text.fold (beforeZero s) := by
  have hzero : ∀ c : Char, decide (c.toLower.toNat ≠ 0) = decide (c.toNat ≠ 0) := by
    intro c
    rcases Text.toLower_eq_self_or c with h | ⟨hlo, hhi, hval⟩
    · rw [h]
    · exact decide_eq_decide.2 (by omega)
  rw [beforeZero, Text.toList_fold, List.takeWhile_map, Text.fold, beforeZero, String.toList_ofList]
  congr 3
  funext c
  exact hzero c

theorem sameStored_of_sameFolded {a b : String} (h : Text.sameFolded a b = true) :
    sameStored a b = true := by
  rw [Text.sameFolded_iff] at h
  rw [sameStored, Bool.and_eq_true, beq_iff_eq, Text.sameFolded_iff]
  refine ⟨?_, ?_⟩
  · rw [← Text.utf8ByteSize_fold a, h, Text.utf8ByteSize_fold]
  · rw [← beforeZero_fold, h, beforeZero_fold]

/-- Texts without a zero character count as the same just when they differ in the case of letters
only. -/
theorem sameStored_eq_sameFolded {a b : String} (ha : beforeZero a = a) (hb : beforeZero b = b) :
    sameStored a b = Text.sameFolded a b := by
  rw [Bool.eq_iff_iff]
  refine ⟨fun h => ?_, sameStored_of_sameFolded⟩
  rw [sameStored, ha, hb, Bool.and_eq_true] at h
  exact h.2

theorem sameStored_refl (a : String) : sameStored a a = true :=
  sameStored_of_sameFolded (Text.sameFolded_refl a)

theorem sameStored_comm (a b : String) : sameStored a b = sameStored b a := by
  rw [sameStored, sameStored, BEq.comm, Text.sameFolded_comm]

theorem beforeZero_of_isBlankText {s : String} (h : Text.isBlankText s = true) :
    beforeZero s = s := by
  have hzero : ∀ c ∈ s.toList, c.toNat ≠ 0 := by
    intro c hc hval
    have hblank := List.all_eq_true.1 h c hc
    simp [Text.isBlank, Text.inRanges, Text.blankRanges, hval] at hblank
  unfold beforeZero
  rw [List.takeWhile_eq_self_iff.2 (by simpa using hzero), String.ofList_toList]

/-- A text that is as long as what comes before its first zero character has none. -/
theorem beforeZero_of_utf8ByteSize {s : String}
    (h : (beforeZero s).utf8ByteSize = s.utf8ByteSize) : beforeZero s = s := by
  let rest := String.ofList (s.toList.dropWhile fun c => c.toNat ≠ 0)
  have hsplit : beforeZero s ++ rest = s := by
    unfold beforeZero
    rw [← String.ofList_append, List.takeWhile_append_dropWhile, String.ofList_toList]
  have hsize : (beforeZero s).utf8ByteSize + rest.utf8ByteSize = s.utf8ByteSize := by
    rw [← String.utf8ByteSize_append, hsplit]
  have hrest : rest = "" := String.utf8ByteSize_eq_zero_iff.1 (by omega)
  rw [hrest, String.append_empty] at hsplit
  exact hsplit

/-- A text that counts as the same as a blank one is blank. -/
theorem isBlankText_of_sameStored {a b : String} (h : sameStored a b = true)
    (ha : Text.isBlankText a = true) : Text.isBlankText b = true := by
  have hzero := beforeZero_of_isBlankText ha
  rw [sameStored, hzero, Bool.and_eq_true, beq_iff_eq] at h
  obtain ⟨hsize, hfold⟩ := h
  have hlength : (beforeZero b).utf8ByteSize = b.utf8ByteSize := by
    rw [← Text.utf8ByteSize_fold, ← Text.sameFolded_iff.1 hfold, Text.utf8ByteSize_fold, hsize]
  rw [beforeZero_of_utf8ByteSize hlength] at hfold
  rw [← Text.isBlankText_congr hfold, ha]

/-! ## Rows that share a field with a resource -/

theorem sharesAny_identity_iff {row : MainRow} {r : Resource} :
    row.sharesAny r.identity = true ↔ ∃ f v, row.get? f = some v ∧
      Text.isBlankText (r.get f) = false ∧ sameStored v (r.get f) = true := by
  rw [MainRow.sharesAny, List.any_eq_true]
  constructor
  · rintro ⟨⟨f, text⟩, hmem, hany⟩
    obtain ⟨rfl, hblank⟩ := Resource.mem_identity.1 hmem
    obtain ⟨v, hv, hsame⟩ := (Option.any_eq_true ..).1 hany
    exact ⟨f, v, hv, hblank, hsame⟩
  · rintro ⟨f, v, hv, hblank, hsame⟩
    refine ⟨(f, r.get f), Resource.mem_identity.2 ⟨rfl, hblank⟩, ?_⟩
    rw [hv]
    exact hsame

theorem find?_eq_none_iff {db : Database} {r : Resource} :
    db.find? r = none ↔ ∀ row ∈ db.main, row.sharesAny r.identity = false := by
  rw [Database.find?, Option.map_eq_none_iff, List.find?_eq_none]
  simp only [Bool.not_eq_true]

@[simp] theorem get?_ofEntry (id : Int) (e : Entry) (f : IdentityField) :
    (MainRow.ofEntry id e).get? f = some (e.resource.get f) := by
  cases f <;> rfl

theorem sharesAny_ofEntry (id : Int) {e : Entry} {f : IdentityField}
    (h : Text.isBlankText (e.resource.get f) = false) :
    (MainRow.ofEntry id e).sharesAny e.resource.identity = true :=
  sharesAny_identity_iff.2 ⟨f, _, get?_ofEntry id e f, h, sameStored_refl _⟩

end PaperTrail
