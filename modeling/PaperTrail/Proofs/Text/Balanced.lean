import Mathlib.Data.List.Basic
import PaperTrail.Proofs.Text.Split

/-!
# Balanced parentheses

* `Balanced cs` : no beginning of the text closes more parentheses than it opens, and the whole text
  closes all that it opens. Balanced texts stay so when they are put one after the other, joined, or
  put in parentheses;
* `Matching cs i j` : the parenthesis at place `j` closes the one at place `i`. Around a balanced
  text an opening parenthesis is closed by the one behind the text, and by no other
  (`matching_around_iff`).
-/

namespace PaperTrail.Text

/-- No beginning of the text has more closing than opening parentheses, and the whole text has equally
many of them. -/
structure Balanced (cs : List Char) : Prop where
  closed_le : ∀ n, (cs.take n).count ')' ≤ (cs.take n).count '('
  closed_eq : cs.count ')' = cs.count '('

/-- Only the beginnings up to the length of the text are to be looked at. -/
theorem balanced_iff {cs : List Char} :
    Balanced cs ↔ (∀ n < cs.length, (cs.take n).count ')' ≤ (cs.take n).count '(') ∧
      cs.count ')' = cs.count '(' := by
  constructor
  · exact fun h => ⟨fun n _ => h.closed_le n, h.closed_eq⟩
  · rintro ⟨hle, heq⟩
    refine ⟨fun n => ?_, heq⟩
    by_cases hn : n < cs.length
    · exact hle n hn
    · rw [List.take_of_length_le (by omega)]
      omega

instance (cs : List Char) : Decidable (Balanced cs) := decidable_of_iff' _ balanced_iff

theorem balanced_of_not_mem {cs : List Char} (hopen : '(' ∉ cs) (hclose : ')' ∉ cs) :
    Balanced cs := by
  have hcount : ∀ n, (cs.take n).count ')' = 0 := fun n =>
    List.count_eq_zero_of_not_mem fun hmem => hclose (List.mem_of_mem_take hmem)
  refine ⟨fun n => ?_, ?_⟩
  · rw [hcount]
    exact Nat.zero_le _
  · rw [List.count_eq_zero_of_not_mem hopen, List.count_eq_zero_of_not_mem hclose]

theorem balanced_nil : Balanced [] := balanced_of_not_mem List.not_mem_nil List.not_mem_nil

theorem Balanced.append {a b : List Char} (ha : Balanced a) (hb : Balanced b) :
    Balanced (a ++ b) := by
  refine ⟨fun n => ?_, ?_⟩
  · have hleft := ha.closed_le n
    have hright := hb.closed_le (n - a.length)
    rw [List.take_append, List.count_append, List.count_append]
    omega
  · rw [List.count_append, List.count_append, ha.closed_eq, hb.closed_eq]

/-- A balanced text in parentheses is balanced. -/
theorem Balanced.parenthesized {cs : List Char} (h : Balanced cs) :
    Balanced ('(' :: (cs ++ [')'])) := by
  refine ⟨fun n => ?_, ?_⟩
  · cases n with
    | zero => exact Nat.le_refl _
    | succ n =>
      have hinside := h.closed_le n
      have hlast : ([')'].take (n - cs.length)).count ')' ≤ 1 :=
        Nat.le_trans List.count_le_length (List.length_take_le' _ _)
      rw [List.take_succ_cons, List.take_append, List.count_cons, List.count_cons,
        List.count_append, List.count_append]
      simp only [beq_iff_eq, Char.reduceEq, if_false, if_true]
      omega
  · have hinside := h.closed_eq
    simp only [List.count_cons, List.count_append, List.count_nil, beq_iff_eq, Char.reduceEq,
      if_false, if_true]
    omega

theorem Balanced.intercalate {sep : List Char} (hsep : Balanced sep) {texts : List (List Char)}
    (h : ∀ text ∈ texts, Balanced text) : Balanced (sep.intercalate texts) := by
  induction texts with
  | nil => exact balanced_nil
  | cons text texts ih =>
    obtain ⟨htext, htexts⟩ := List.forall_mem_cons.1 h
    cases texts with
    | nil => simpa using htext
    | cons next texts =>
      rw [List.intercalate_cons_cons]
      exact (htext.append hsep).append (ih htexts)

/-! ## Which parenthesis closes which -/

/-- The parenthesis at place `j` closes the one at place `i`: what stands between them is
balanced. -/
structure Matching (cs : List Char) (i j : Nat) : Prop where
  lt : i < j
  opening : cs[i]? = some '('
  closing : cs[j]? = some ')'
  inside : Balanced ((cs.take j).drop (i + 1))

/-- No balanced text begins with a balanced text and a closing parenthesis. -/
theorem Balanced.not_begins_closed {a b : List Char} (ha : Balanced a) (hb : Balanced b) :
    ¬ a ++ [')'] <+: b := by
  rintro ⟨rest, rfl⟩
  have hle := hb.closed_le (a ++ [')']).length
  have heq := ha.closed_eq
  rw [List.take_left, List.count_append, List.count_append] at hle
  simp only [List.count_cons, List.count_nil, beq_iff_eq, Char.reduceEq, if_false, if_true] at hle
  omega

/-- Where a balanced text is followed by a closing parenthesis, this is the only one that has a balanced
text in front of it. -/
theorem closing_iff {inside : List Char} (h : Balanced inside) (back : List Char) {k : Nat} :
    (inside ++ ')' :: back)[k]? = some ')' ∧ Balanced ((inside ++ ')' :: back).take k) ↔
      k = inside.length := by
  constructor
  · rintro ⟨hclosing, hbalanced⟩
    rcases Nat.lt_trichotomy k inside.length with hlt | heq | hgt
    · rw [List.getElem?_append_left hlt] at hclosing
      rw [List.take_append_of_le_length (Nat.le_of_lt hlt)] at hbalanced
      have hbegin : inside.take k ++ [')'] = inside.take (k + 1) := by
        rw [List.take_add_one, hclosing]
        rfl
      exact absurd (hbegin ▸ List.take_prefix (k + 1) inside) (hbalanced.not_begins_closed h)
    · exact heq
    · have hbegin : inside ++ [')'] <+: (inside ++ ')' :: back).take k := by
        refine List.prefix_take_iff.2 ⟨⟨back, by simp⟩, ?_⟩
        rw [List.length_append, List.length_singleton]
        omega
      exact absurd hbegin (h.not_begins_closed hbalanced)
  · rintro rfl
    refine ⟨?_, ?_⟩
    · rw [List.getElem?_append_right (Nat.le_refl _), Nat.sub_self]
      rfl
    · rwa [List.take_left]

/-- The parenthesis in front of a balanced text is closed by the one behind it, and by no other. -/
theorem matching_around_iff {inside : List Char} (h : Balanced inside) (front back : List Char)
    {j : Nat} :
    Matching (front ++ '(' :: (inside ++ ')' :: back)) front.length j ↔
      j = front.length + 1 + inside.length := by
  have hplace : ∀ k, (front ++ '(' :: (inside ++ ')' :: back))[front.length + 1 + k]? =
      (inside ++ ')' :: back)[k]? := by
    intro k
    rw [List.getElem?_append_right (by omega), show front.length + 1 + k - front.length = k + 1 by omega,
      List.getElem?_cons_succ]
  have hbetween : ∀ k, ((front ++ '(' :: (inside ++ ')' :: back)).take
      (front.length + 1 + k)).drop (front.length + 1) = (inside ++ ')' :: back).take k := by
    intro k
    rw [List.drop_take, Nat.add_sub_cancel_left, ← List.drop_drop, List.drop_left]
    rfl
  constructor
  · intro hm
    obtain ⟨k, rfl⟩ := Nat.exists_eq_add_of_le hm.lt
    have hclosing := hm.closing
    have hinside := hm.inside
    rw [Nat.succ_eq_add_one, hplace] at hclosing
    rw [Nat.succ_eq_add_one, hbetween] at hinside
    rw [(closing_iff h back).1 ⟨hclosing, hinside⟩]
  · rintro rfl
    obtain ⟨hclosing, hinside⟩ := (closing_iff h back).2 rfl
    refine ⟨by omega, ?_, ?_, ?_⟩
    · rw [List.getElem?_append_right (Nat.le_refl _), Nat.sub_self]
      rfl
    · rwa [hplace]
    · rwa [hbetween]

end PaperTrail.Text
