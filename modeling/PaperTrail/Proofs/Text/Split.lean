import Mathlib.Data.List.Basic
import PaperTrail.Text.Split

/-!
# Cutting and joining

Texts that are joined with a character between them, or behind each of them, are found again by
cutting at this character, when none of them has it. What is dropped at an end, and what an opening
that is taken off as often as it stands there leaves.
-/

namespace PaperTrail.Text

theorem cut?_eq_some_iff {c : Char} {s a b : String} :
    cut? c s = some (a, b) ↔ s = a ++ c.toString ++ b ∧ c ∉ a.toList := by
  simp only [cut?, Option.map_eq_some_iff, Prod.exists, cutChars?_eq_some_iff, Prod.mk.injEq]
  constructor
  · rintro ⟨a', b', ⟨hs, hc⟩, rfl, rfl⟩
    refine ⟨?_, by rwa [String.toList_ofList]⟩
    rw [← String.toList_inj, hs]
    simp
  · rintro ⟨rfl, hc⟩
    exact ⟨a.toList, b.toList, ⟨by simp, hc⟩, String.ofList_toList, String.ofList_toList⟩

theorem intercalate_cons (sep text : List Char) (texts : List (List Char)) :
    sep.intercalate (text :: texts) = text ++ texts.flatMap (sep ++ ·) := by
  induction texts generalizing text with
  | nil => simp
  | cons text' texts ih => simp [List.intercalate_cons_cons, ih]

theorem exists_intercalate_concat (sep : List Char) (texts : List (List Char)) (last : List Char) :
    ∃ front, sep.intercalate (texts ++ [last]) = front ++ last := by
  cases texts with
  | nil => exact ⟨[], by simp⟩
  | cons text texts =>
    refine ⟨text ++ texts.flatMap (sep ++ ·) ++ sep, ?_⟩
    rw [List.cons_append, intercalate_cons, List.flatMap_append]
    simp

theorem splitChars_of_not_mem {c : Char} {cs : List Char} (h : c ∉ cs) : splitChars c cs = [cs] := by
  induction cs with
  | nil => rfl
  | cons x xs ih =>
    have hx : x ≠ c := by rintro rfl; exact h List.mem_cons_self
    rw [splitChars, if_neg hx, ih fun hmem => h (List.mem_cons_of_mem x hmem)]

theorem splitChars_ne_nil (c : Char) (cs : List Char) : splitChars c cs ≠ [] := by
  cases cs with
  | nil => exact List.cons_ne_nil _ _
  | cons x xs =>
    rw [splitChars]
    split
    · exact List.cons_ne_nil _ _
    · split <;> exact List.cons_ne_nil _ _

theorem not_mem_of_mem_splitChars {c : Char} {cs part : List Char} (h : part ∈ splitChars c cs) :
    c ∉ part := by
  induction cs generalizing part with
  | nil =>
    obtain rfl := List.mem_singleton.1 h
    exact List.not_mem_nil
  | cons x xs ih =>
    rw [splitChars] at h
    split at h
    · rcases List.mem_cons.1 h with rfl | h
      · exact List.not_mem_nil
      · exact ih h
    · next hx =>
      split at h
      · next hnil => exact absurd hnil (splitChars_ne_nil c xs)
      · next p ps hsplit =>
        rw [hsplit] at ih
        rcases List.mem_cons.1 h with rfl | h
        · simp only [List.mem_cons, not_or]
          exact ⟨Ne.symm hx, ih List.mem_cons_self⟩
        · exact ih (List.mem_cons_of_mem p h)

theorem splitChars_append {c : Char} {cs : List Char} (h : c ∉ cs) (rest : List Char) :
    splitChars c (cs ++ c :: rest) = cs :: splitChars c rest := by
  induction cs with
  | nil => rw [List.nil_append, splitChars, if_pos rfl]
  | cons x xs ih =>
    have hx : x ≠ c := by rintro rfl; exact h List.mem_cons_self
    rw [List.cons_append, splitChars, if_neg hx, ih fun hmem => h (List.mem_cons_of_mem x hmem)]

/-- Parts without the character between them are found again. -/
theorem splitChars_intercalate {c : Char} {parts : List (List Char)} (hne : parts ≠ [])
    (h : ∀ p ∈ parts, c ∉ p) : splitChars c ([c].intercalate parts) = parts := by
  induction parts with
  | nil => exact absurd rfl hne
  | cons p rest ih =>
    have hp : c ∉ p := h p List.mem_cons_self
    cases rest with
    | nil => simpa using splitChars_of_not_mem hp
    | cons q rest =>
      have hrest := ih (List.cons_ne_nil q rest) fun r hr => h r (List.mem_cons_of_mem p hr)
      rw [List.intercalate_cons_cons, List.append_assoc, List.singleton_append,
        splitChars_append hp, hrest]

theorem split_intercalate {c : Char} {parts : List String} (hne : parts ≠ [])
    (h : ∀ p ∈ parts, c ∉ p.toList) : split c (c.toString.intercalate parts) = parts := by
  have hchars : (c.toString.intercalate parts).toList = [c].intercalate (parts.map String.toList) := by
    simp [String.toList_intercalate]
  rw [split, hchars, splitChars_intercalate (by simpa using hne), List.map_map]
  · exact (List.map_congr_left fun p _ => String.ofList_toList).trans (List.map_id _)
  · intro part hpart
    obtain ⟨p, hp, rfl⟩ := List.mem_map.1 hpart
    exact h p hp

theorem not_mem_of_mem_split {c : Char} {s part : String} (h : part ∈ split c s) :
    c ∉ part.toList := by
  obtain ⟨cs, hcs, rfl⟩ := List.mem_map.1 h
  rw [String.toList_ofList]
  exact not_mem_of_mem_splitChars hcs

/-! ## Ends -/

theorem dropTrailing_eq_self {c : Char} {s : String} (h : ∀ x ∈ s.toList.getLast?, x ≠ c) :
    dropTrailing c s = s := by
  have hkept : s.toList.reverse.dropWhile (· = c) = s.toList.reverse := by
    cases hlast : s.toList.reverse with
    | nil => rfl
    | cons x rest =>
      have hx : x ≠ c := h x (by rw [← List.head?_reverse, hlast]; rfl)
      rw [List.dropWhile_cons_of_neg (by simpa using hx)]
  rw [dropTrailing, hkept, List.reverse_reverse, String.ofList_toList]

theorem takeWhile_append_of_not_mem {c : Char} {cs : List Char} (h : c ∉ cs) (rest : List Char) :
    (cs ++ rest).takeWhile (· ≠ c) = cs ++ rest.takeWhile (· ≠ c) := by
  apply List.takeWhile_append_of_pos
  intro x hx
  rw [decide_eq_true_eq]
  rintro rfl
  exact h hx

theorem afterLast_append {c : Char} {last : String} (h : c ∉ last.toList) (before : String) :
    afterLast c (before ++ c.toString ++ last) = last := by
  have hchars : (before ++ c.toString ++ last).toList.reverse =
      last.toList.reverse ++ c :: before.toList.reverse := by
    simp
  rw [afterLast, hchars, takeWhile_append_of_not_mem (mt List.mem_reverse.1 h),
    List.takeWhile_cons_of_neg (by simp), List.append_nil, List.reverse_reverse, String.ofList_toList]

theorem afterLast_of_not_mem {c : Char} {s : String} (h : c ∉ s.toList) : afterLast c s = s := by
  have hkept := takeWhile_append_of_not_mem (mt List.mem_reverse.1 h) []
  rw [List.append_nil, List.takeWhile_nil, List.append_nil] at hkept
  rw [afterLast, hkept, List.reverse_reverse, String.ofList_toList]

/-- A text with the character can be cut at its last place. -/
theorem exists_cut_last {c : Char} {s : String} (h : c ∈ s.toList) :
    ∃ before last : String, s = before ++ c.toString ++ last ∧ c ∉ last.toList := by
  obtain ⟨last, before, hchars, hlast⟩ := List.eq_append_cons_of_mem (List.mem_reverse.2 h)
  refine ⟨String.ofList before.reverse, String.ofList last.reverse, ?_, by simpa using hlast⟩
  have hreverse := congrArg List.reverse hchars
  rw [List.reverse_reverse] at hreverse
  apply String.toList_inj.1
  simp [hreverse]

/-! ## Openings -/

theorem dropStartChars?_eq_none_iff {p s : List Char} : dropStartChars? p s = none ↔ ¬ p <+: s := by
  rw [Option.eq_none_iff_forall_ne_some]
  constructor
  · rintro h ⟨r, rfl⟩
    exact h r (dropStartChars?_append p r)
  · exact fun h r hr => h ⟨r, (dropStartChars?_eq_some_iff.1 hr).symm⟩

theorem dropStarts_of_not_prefix {p : Char} {ps s : List Char} (h : ¬ p :: ps <+: s) :
    dropStarts p ps s = s := by
  rw [dropStarts, dropStartChars?_eq_none_iff.2 h]

theorem dropStarts_append (p : Char) (ps s : List Char) :
    dropStarts p ps (p :: ps ++ s) = dropStarts p ps s := by
  rw [dropStarts, dropStartChars?_append]

/-- An opening without the character ends before it. -/
theorem prefix_of_prefix_append {c : Char} {p a b : List Char} (hc : c ∉ p)
    (h : p <+: a ++ c :: b) : p <+: a := by
  rcases List.prefix_or_prefix_of_prefix h (List.prefix_append a (c :: b)) with h' | ⟨q, rfl⟩
  · exact h'
  · cases q with
    | nil => exact ⟨[], by simp⟩
    | cons x q =>
      obtain ⟨hx, -⟩ := List.cons_prefix_cons.1 ((List.prefix_append_right_inj a).1 h)
      exact absurd (by simp [hx]) hc

end PaperTrail.Text
