import PaperTrail.Proofs.Text.Split
import PaperTrail.Text.Blank

/-!
# Texts with a separator between them

* `splitText sep s` : the texts between the occurrences of a separator of several characters. Texts
  that lack some character of the separator are found again where it stands between them
  (`splitText_intercalate`);
* `Trimmed cs` : no blank at either end. Texts that are trimmed and not empty stay trimmed when they
  are joined, whatever the separator is (`Trimmed.intercalate`);
* `intercalate_map_intercalate` : joining is associative; `exists_intercalate_append` : where one of the
  joined texts stands.
-/

namespace PaperTrail.Text

/-! ## Cutting at a text -/

/-- The parts between the occurrences of `p :: ps`, which are looked for from left to right, each one
behind the one before it; there is always at least one part. -/
def splitTextChars (p : Char) (ps : List Char) : List Char → List (List Char)
  | [] => [[]]
  | c :: cs =>
    match _h : dropStartChars? (p :: ps) (c :: cs) with
    | some rest => [] :: splitTextChars p ps rest
    | none => (splitTextChars p ps cs).modifyHead (c :: ·)
termination_by cs => cs.length
decreasing_by
  · have := length_of_dropStartChars? _h
    simp only [List.length_cons] at this ⊢
    omega
  · simp

/-- The texts between the occurrences of `sep`. An empty separator cuts nothing. -/
def splitText (sep s : String) : List String :=
  match sep.toList with
  | [] => [s]
  | p :: ps => (splitTextChars p ps s.toList).map String.ofList

section
variable {p m : Char} {ps : List Char}

theorem splitTextChars_separator (rest : List Char) :
    splitTextChars p ps (p :: ps ++ rest) = [] :: splitTextChars p ps rest := by
  have hdrop := dropStartChars?_append (p :: ps) rest
  rw [List.cons_append] at hdrop ⊢
  rw [splitTextChars]
  split
  · next rest' h => rw [Option.some.inj (h.symm.trans hdrop)]
  · next h => cases h.symm.trans hdrop

theorem splitTextChars_cons {c : Char} {cs : List Char} (h : ¬ p :: ps <+: c :: cs) :
    splitTextChars p ps (c :: cs) = (splitTextChars p ps cs).modifyHead (c :: ·) := by
  have hdrop := dropStartChars?_eq_none_iff.2 h
  rw [splitTextChars]
  split
  · next rest h => cases h.symm.trans hdrop
  · rfl

theorem splitTextChars_of_not_mem (hm : m ∈ p :: ps) {cs : List Char} (h : m ∉ cs) :
    splitTextChars p ps cs = [cs] := by
  induction cs with
  | nil => rw [splitTextChars]
  | cons c cs ih =>
    have hprefix : ¬ p :: ps <+: c :: cs := fun hp => h (hp.subset hm)
    rw [splitTextChars_cons hprefix, ih fun hmem => h (List.mem_cons_of_mem c hmem),
      List.modifyHead_cons]

/-- A separator with the character `m` does not begin inside a text without this character. -/
theorem not_prefix_of_not_mem {sep cs rest : List Char} (hm : m ∈ sep) (hcs : m ∉ cs)
    (hne : cs ≠ []) : ¬ sep <+: cs ++ sep ++ rest := by
  rintro ⟨tail, htail⟩
  obtain ⟨a, b, rfl, ha⟩ := List.eq_append_cons_of_mem hm
  have hleft := cutChars?_append ha (b ++ tail)
  have hright := cutChars?_append (List.not_mem_append hcs ha) (b ++ rest)
  have heq : a ++ m :: (b ++ tail) = cs ++ a ++ m :: (b ++ rest) := by
    simpa only [List.append_assoc, List.cons_append] using htail
  rw [heq, hright] at hleft
  have hsame : cs ++ a = a := (Prod.mk.inj (Option.some.inj hleft)).1
  exact hne (List.append_left_eq_self.1 hsame)

theorem splitTextChars_append (hm : m ∈ p :: ps) {cs : List Char} (h : m ∉ cs) (rest : List Char) :
    splitTextChars p ps (cs ++ (p :: ps) ++ rest) = cs :: splitTextChars p ps rest := by
  induction cs with
  | nil => exact splitTextChars_separator rest
  | cons c cs ih =>
    have hprefix : ¬ p :: ps <+: c :: cs ++ (p :: ps) ++ rest :=
      not_prefix_of_not_mem hm h (List.cons_ne_nil c cs)
    rw [List.cons_append, List.cons_append] at hprefix ⊢
    rw [splitTextChars_cons hprefix, ih fun hmem => h (List.mem_cons_of_mem c hmem),
      List.modifyHead_cons]

theorem splitTextChars_intercalate (hm : m ∈ p :: ps) {parts : List (List Char)} (hne : parts ≠ [])
    (h : ∀ part ∈ parts, m ∉ part) :
    splitTextChars p ps ((p :: ps).intercalate parts) = parts := by
  induction parts with
  | nil => exact absurd rfl hne
  | cons part parts ih =>
    obtain ⟨hpart, hparts⟩ := List.forall_mem_cons.1 h
    cases parts with
    | nil => rw [List.intercalate_singleton, splitTextChars_of_not_mem hm hpart]
    | cons next parts =>
      rw [List.intercalate_cons_cons, splitTextChars_append hm hpart,
        ih (List.cons_ne_nil next parts) hparts]

/-- Texts that lack a character of the separator between them are found again. -/
theorem splitText_intercalate {sep : String} (hm : m ∈ sep.toList) {parts : List String}
    (hne : parts ≠ []) (h : ∀ part ∈ parts, m ∉ part.toList) :
    splitText sep (sep.intercalate parts) = parts := by
  rw [splitText]
  split
  · next hsep =>
    rw [hsep] at hm
    cases hm
  · next p ps hsep =>
    rw [hsep] at hm
    rw [String.toList_intercalate, hsep, splitTextChars_intercalate hm (mt List.map_eq_nil_iff.1 hne)
      (List.forall_mem_map.2 h), List.map_map]
    exact (List.map_congr_left fun part _ => String.ofList_toList).trans (List.map_id _)

end

/-! ## Trimmed texts -/

/-- Neither the first nor the last character is blank. -/
structure Trimmed (cs : List Char) : Prop where
  head : ∀ c ∈ cs.head?, isBlank c = false
  last : ∀ c ∈ cs.getLast?, isBlank c = false

theorem not_blank_of_head?_dropWhile {cs : List Char} {c : Char}
    (h : (cs.dropWhile isBlank).head? = some c) : isBlank c = false := by
  have hkept := List.head?_dropWhile_not isBlank cs
  rw [h] at hkept
  exact hkept

theorem trimmed_trimChars (cs : List Char) : Trimmed (trimChars cs) := by
  refine ⟨fun c hc => ?_, fun c hc => ?_⟩
  · have hprefix : trimChars cs <+: cs.dropWhile isBlank := by
      rw [trimChars, trimEndChars, ← List.reverse_suffix, List.reverse_reverse]
      exact List.dropWhile_suffix isBlank
    obtain ⟨rest, hrest⟩ := hprefix
    have hhead : (cs.dropWhile isBlank).head? = some c := by
      rw [← hrest, List.head?_append, Option.mem_def.1 hc, Option.some_or]
    exact not_blank_of_head?_dropWhile hhead
  · rw [trimChars, trimEndChars, List.getLast?_reverse] at hc
    exact not_blank_of_head?_dropWhile hc

/-- Joined texts begin and end as the first and the last one of them. -/
theorem Trimmed.intercalate (sep : List Char) {texts : List (List Char)}
    (h : ∀ text ∈ texts, text ≠ [] ∧ Trimmed text) : Trimmed (sep.intercalate texts) := by
  refine ⟨fun c hc => ?_, fun c hc => ?_⟩
  · cases texts with
    | nil => cases hc
    | cons first texts =>
      obtain ⟨hne, htrimmed⟩ := h first List.mem_cons_self
      rw [intercalate_cons, List.head?_append_of_ne_nil _ hne] at hc
      exact htrimmed.head c hc
  · rcases List.eq_nil_or_concat texts with rfl | ⟨texts, last, rfl⟩
    · cases hc
    · rw [List.concat_eq_append] at h hc
      obtain ⟨hne, htrimmed⟩ := h last (by simp)
      obtain ⟨front, hfront⟩ := exists_intercalate_concat sep texts last
      rw [hfront, List.getLast?_append_of_ne_nil _ hne] at hc
      exact htrimmed.last c hc

/-! ## Joining -/

/-- Joining is associative: groups of texts can be joined first, where no group is empty. -/
theorem intercalate_map_intercalate (sep : String) {groups : List (List String)}
    (h : ∀ texts ∈ groups, texts ≠ []) :
    sep.intercalate (groups.map sep.intercalate) = sep.intercalate groups.flatten := by
  induction groups with
  | nil => rfl
  | cons texts groups ih =>
    obtain ⟨htexts, hgroups⟩ := List.forall_mem_cons.1 h
    cases groups with
    | nil => simp
    | cons next groups =>
      have hnext : (next :: groups).flatten ≠ [] := by
        rw [List.flatten_cons]
        exact List.append_ne_nil_of_left_ne_nil (hgroups next List.mem_cons_self) _
      have hall : (texts :: next :: groups).flatten = texts ++ (next :: groups).flatten :=
        List.flatten_cons
      rw [List.map_cons, String.intercalate_cons_of_ne_nil (by simp), ih hgroups, hall,
        String.intercalate_append_of_ne_nil htexts hnext]

/-- What joined texts have in front of one of them: the texts before it, each one with the separator
behind it. -/
theorem exists_intercalate_append (sep : String) (front : List String) (text : String)
    (back : List String) : ∃ rest, sep.intercalate (front ++ text :: back) =
      String.join (front.map (· ++ sep)) ++ text ++ rest := by
  induction front with
  | nil =>
    cases back with
    | nil => exact ⟨"", by simp⟩
    | cons next back => exact ⟨sep ++ sep.intercalate (next :: back), by simp [String.append_assoc]⟩
  | cons first front ih =>
    obtain ⟨rest, hrest⟩ := ih
    refine ⟨rest, ?_⟩
    rw [List.cons_append, String.intercalate_cons_of_ne_nil (by simp), hrest]
    simp [String.append_assoc]

end PaperTrail.Text
