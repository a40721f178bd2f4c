/-!
# Lists without repetitions

`distinct xs` holds the elements of `xs`, each one where it occurs first. It has the same elements
(`mem_distinct`), none twice (`nodup_distinct`), and is `xs` itself when that repeats nothing
(`distinct_eq_self`). More elements at the end count only where they are new (`distinct_append`).
-/

namespace PaperTrail
variable {α : Type} [DecidableEq α]

/-- The elements of a list in the order of their first occurrences. -/
def distinct : List α → List α
  | [] => []
  | x :: xs => x :: (distinct xs).filter (· ≠ x)

theorem mem_distinct {x : α} {xs : List α} :
    x ∈ distinct xs ↔ x ∈ xs := by
  induction xs with
  | nil => simp [distinct]
  | cons y ys ih =>
    by_cases h : x = y
    · simp [distinct, h]
    · simp [distinct, h, ih]

theorem nodup_distinct (xs : List α) : (distinct xs).Nodup := by
  induction xs with
  | nil => simp [distinct]
  | cons x xs ih =>
    simp only [distinct, List.nodup_cons, List.mem_filter, ne_eq, decide_not, Bool.not_eq_eq_eq_not,
      Bool.not_true, decide_eq_false_iff_not, not_true_eq_false, and_false, not_false_eq_true,
      true_and]
    exact ih.sublist List.filter_sublist

theorem distinct_eq_nil_iff {xs : List α} :
    distinct xs = [] ↔ xs = [] := by
  cases xs <;> simp [distinct]

theorem distinct_eq_self {xs : List α} (h : xs.Nodup) :
    distinct xs = xs := by
  induction xs with
  | nil => rfl
  | cons x xs ih =>
    rw [List.nodup_cons] at h
    rw [distinct, ih h.2, List.filter_eq_self.2]
    intro a ha
    simp only [decide_eq_true_eq]
    rintro rfl
    exact h.1 ha

theorem distinct_append (xs ys : List α) :
    distinct (xs ++ ys) = distinct xs ++ (distinct ys).filter (· ∉ xs) := by
  induction xs with
  | nil => exact (List.filter_eq_self.2 (by simp)).symm
  | cons x xs ih =>
    rw [List.cons_append, distinct, ih, distinct, List.filter_append, List.filter_filter,
      List.cons_append]
    congr 2
    refine List.filter_congr fun y _ => ?_
    by_cases h : y = x <;> simp [h]

/-- Repeats of what is there already add nothing. -/
theorem distinct_append_of_subset {xs ys : List α} (h : ys ⊆ xs) :
    distinct (xs ++ ys) = distinct xs := by
  rw [distinct_append, List.filter_eq_nil_iff.2, List.append_nil]
  intro y hy
  simpa using h (mem_distinct.1 hy)

/-- One more element counts only when it is new. -/
theorem distinct_concat (xs : List α) (x : α) :
    distinct (xs ++ [x]) = if x ∈ distinct xs then distinct xs else distinct xs ++ [x] := by
  have hsingle : distinct [x] = [x] := rfl
  rw [distinct_append, hsingle]
  by_cases hx : x ∈ xs
  · rw [if_pos (mem_distinct.2 hx), List.filter_eq_nil_iff.2 (by simpa using hx), List.append_nil]
  · rw [if_neg (mt mem_distinct.1 hx), List.filter_eq_self.2 (by simpa using hx)]

theorem distinct_map {β : Type} [DecidableEq β] {f : α → β} (hf : ∀ x y, f x = f y → x = y)
    (xs : List α) : distinct (xs.map f) = (distinct xs).map f := by
  induction xs with
  | nil => rfl
  | cons x xs ih =>
    rw [List.map_cons, distinct, ih, distinct, List.map_cons, List.filter_map]
    congr 2
    refine List.filter_congr fun y _ => decide_eq_decide.2 (not_congr ⟨hf y x, ?_⟩)
    rintro rfl
    rfl

theorem distinct_flatMap_congr {β : Type} {f g : β → List α} {ys : List β}
    (h : ∀ y ∈ ys, distinct (f y) = distinct (g y)) :
    distinct (ys.flatMap f) = distinct (ys.flatMap g) := by
  induction ys with
  | nil => rfl
  | cons y ys ih =>
    rw [List.forall_mem_cons] at h
    rw [List.flatMap_cons, distinct_append, ih h.2, h.1, List.flatMap_cons, distinct_append]
    congr 1
    have hmem : ∀ x, x ∉ f y ↔ x ∉ g y := fun x => by rw [← mem_distinct, h.1, mem_distinct]
    exact List.filter_congr fun x _ => decide_eq_decide.2 (hmem x)

end PaperTrail
