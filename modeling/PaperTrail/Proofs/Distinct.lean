import Mathlib.Data.List.Sort
import PaperTrail.Distinct

/-!
# The order of first occurrences

`FirstSeen xs kept` says what it means that `kept` holds the elements of `xs` in the order in which
each is first seen. There is exactly one such list, and `distinct` finds it (`firstSeen_iff`).
-/

namespace PaperTrail
variable {α : Type} [DecidableEq α]

/-- The list `kept` has the elements of `xs`, an element before another one when it is first seen
before it. -/
structure FirstSeen (xs kept : List α) : Prop where
  mem_iff : ∀ x, x ∈ kept ↔ x ∈ xs
  ordered : kept.Pairwise fun a b => xs.idxOf a < xs.idxOf b

theorem firstSeen_distinct (xs : List α) : FirstSeen xs (distinct xs) := by
  refine ⟨fun x => mem_distinct, ?_⟩
  induction xs with
  | nil => exact List.Pairwise.nil
  | cons x xs ih =>
    have hlater : ∀ y, y ≠ x → (x :: xs).idxOf y = xs.idxOf y + 1 :=
      fun y hy => List.idxOf_cons_ne xs (Ne.symm hy)
    rw [distinct, List.pairwise_cons]
    refine ⟨fun y hy => ?_, ?_⟩
    · have hne : y ≠ x := by simpa using (List.mem_filter.1 hy).2
      rw [List.idxOf_cons_self, hlater y hne]
      omega
    · refine List.Pairwise.imp_of_mem ?_ (ih.sublist List.filter_sublist)
      intro a b ha hb hab
      have hane : a ≠ x := by simpa using (List.mem_filter.1 ha).2
      have hbne : b ≠ x := by simpa using (List.mem_filter.1 hb).2
      rw [hlater a hane, hlater b hbne]
      omega

theorem firstSeen_iff {xs kept : List α} : FirstSeen xs kept ↔ kept = distinct xs := by
  constructor
  · intro h
    have hasymm : Std.Asymm fun a b : α => xs.idxOf a < xs.idxOf b := ⟨fun _ _ => Nat.lt_asymm⟩
    refine List.Pairwise.eq_of_mem_iff h.ordered (firstSeen_distinct xs).ordered fun x => ?_
    rw [h.mem_iff, (firstSeen_distinct xs).mem_iff]
  · rintro rfl
    exact firstSeen_distinct xs

end PaperTrail
