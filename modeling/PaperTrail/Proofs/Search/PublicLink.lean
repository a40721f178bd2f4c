import Mathlib.Data.List.TakeWhile
import PaperTrail.Proofs.Text.Split
import PaperTrail.Search.Scopus

/-!
# The record of a public link

With a partner, the address of a paper in the service becomes that of a public page, with the number of
the record in it. `Scopus.publicLink_of_identifies`: it is the number that the address identifies, so that
addresses of different records never become the same public link.

* `Scopus.FirstNumber` : the first mark with a digit behind it, and all the digits there. There is at
  most one such place (`FirstNumber.unique`), and the search from left to right finds it
  (`markedId?_eq_some_iff`);
* `Scopus.Identifies` : the record that an address identifies, by its first number or else by what stands
  behind the last slash.
-/

namespace PaperTrail.Scopus
variable {cs front front' ds ds' back back' : List Char}

/-- Behind `front` the mark stands, with a decimal digit right behind it. -/
def MarkedBehind (cs front : List Char) : Prop :=
  ∃ d rest, cs = front ++ "scopus_id/".toList ++ d :: rest ∧ Text.isDigit d = true

/-- Behind `front` the first mark with a decimal digit right behind it stands; `ds` are all the digits
there, as far as they go, and `back` is the rest. -/
structure FirstNumber (cs front ds back : List Char) : Prop where
  split : cs = front ++ "scopus_id/".toList ++ ds ++ back
  ne_nil : ds ≠ []
  digits : ∀ d ∈ ds, Text.isDigit d = true
  longest : ∀ c ∈ back.head?, Text.isDigit c = false
  first : ∀ front', MarkedBehind cs front' → front.length ≤ front'.length

/-! ## Marks with a digit behind them -/

theorem markedBehind_cons_iff {c c' : Char} :
    MarkedBehind (c :: cs) (c' :: front) ↔ c = c' ∧ MarkedBehind cs front := by
  simp only [MarkedBehind, List.cons_append, List.cons.injEq]
  constructor
  · rintro ⟨d, rest, ⟨hc, hcs⟩, hd⟩
    exact ⟨hc, d, rest, hcs, hd⟩
  · rintro ⟨hc, d, rest, hcs, hd⟩
    exact ⟨d, rest, ⟨hc, hcs⟩, hd⟩

theorem not_markedBehind_empty : ¬ MarkedBehind [] front := by
  rintro ⟨d, rest, hnil, -⟩
  simp at hnil

/-- Where no mark with a digit starts at a character, such marks start behind it. -/
theorem not_markedBehind_cons {c : Char} (hc : ¬ MarkedBehind (c :: cs) [])
    (h : ∀ front, ¬ MarkedBehind cs front) : ∀ front, ¬ MarkedBehind (c :: cs) front
  | [] => hc
  | _ :: front => fun hmarked => h front (markedBehind_cons_iff.1 hmarked).2

theorem not_markedBehind_of_no_mark (h : Text.dropStartChars? idMark cs = none) :
    ¬ MarkedBehind cs [] := by
  rintro ⟨d, rest, rfl, -⟩
  cases h.symm.trans (Text.dropStartChars?_append idMark (d :: rest))

theorem not_markedBehind_of_no_digit {rest : List Char}
    (hrest : Text.dropStartChars? idMark cs = some rest) (hds : rest.takeWhile Text.isDigit = []) :
    ¬ MarkedBehind cs [] := by
  rintro ⟨d, rest', rfl, hd⟩
  obtain rfl := Option.some.inj (hrest.symm.trans (Text.dropStartChars?_append idMark (d :: rest')))
  rw [List.takeWhile_cons_of_pos hd] at hds
  cases hds

theorem firstNumber_of_digit {rest : List Char}
    (hrest : Text.dropStartChars? idMark cs = some rest) (hds : rest.takeWhile Text.isDigit ≠ []) :
    FirstNumber cs [] (rest.takeWhile Text.isDigit) (rest.dropWhile Text.isDigit) where
  split := by
    rw [Text.dropStartChars?_eq_some_iff.1 hrest, List.append_assoc, List.takeWhile_append_dropWhile]
    rfl
  ne_nil := hds
  digits := fun _ hd => List.mem_takeWhile_imp hd
  longest := by
    intro c hc
    have hnot := List.head?_dropWhile_not Text.isDigit rest
    rw [Option.mem_def.1 hc] at hnot
    exact hnot
  first := fun front' _ => Nat.zero_le front'.length

/-! ## The first number -/

namespace FirstNumber

theorem markedBehind (h : FirstNumber cs front ds back) : MarkedBehind cs front := by
  obtain ⟨d, ds', rfl⟩ := List.exists_cons_of_ne_nil h.ne_nil
  refine ⟨d, ds' ++ back, ?_, h.digits d List.mem_cons_self⟩
  rw [h.split, List.append_assoc, List.cons_append]

theorem cons {c : Char} (hc : ¬ MarkedBehind (c :: cs) []) (h : FirstNumber cs front ds back) :
    FirstNumber (c :: cs) (c :: front) ds back where
  split := by rw [h.split]; rfl
  ne_nil := h.ne_nil
  digits := h.digits
  longest := h.longest
  first := by
    intro front' hmarked
    cases front' with
    | nil => exact absurd hmarked hc
    | cons c' front' =>
      exact Nat.succ_le_succ (h.first front' (markedBehind_cons_iff.1 hmarked).2)

theorem takeWhile_eq (h : FirstNumber cs front ds back) :
    (ds ++ back).takeWhile Text.isDigit = ds := by
  have hback : back.takeWhile Text.isDigit = [] := by
    cases back with
    | nil => rfl
    | cons c back =>
      have hc := h.longest c rfl
      exact List.takeWhile_cons_of_neg (by simp [hc])
  rw [List.takeWhile_append_of_pos h.digits, hback, List.append_nil]

/-- There is one first mark with a digit behind it, and it has one longest run of digits. -/
theorem unique (h : FirstNumber cs front ds back) (h' : FirstNumber cs front' ds' back') :
    ds = ds' := by
  have hlength : front.length = front'.length :=
    Nat.le_antisymm (h.first front' h'.markedBehind) (h'.first front h.markedBehind)
  have hsplit := h.split.symm.trans h'.split
  simp only [List.append_assoc] at hsplit
  have hrest := List.append_cancel_left (List.append_inj hsplit hlength).2
  rw [← h.takeWhile_eq, hrest, h'.takeWhile_eq]

end FirstNumber

theorem exists_firstNumber (h : markedId? cs = some ds) :
    ∃ front back, FirstNumber cs front ds back := by
  -- A search that goes on has met no mark here, or one without a digit: neither counts as first.
  fun_induction markedId? cs with
  | case1 => cases h
  | case2 c cs rest hrest hds ih =>
    obtain ⟨front, back, hnumber⟩ := ih h
    exact ⟨c :: front, back, hnumber.cons (not_markedBehind_of_no_digit hrest hds)⟩
  | case3 c cs rest hrest hds =>
    obtain rfl := Option.some.inj h
    exact ⟨[], _, firstNumber_of_digit hrest hds⟩
  | case4 c cs hnone ih =>
    obtain ⟨front, back, hnumber⟩ := ih h
    exact ⟨c :: front, back, hnumber.cons (not_markedBehind_of_no_mark hnone)⟩

theorem markedId?_eq_none_iff : markedId? cs = none ↔ ∀ front, ¬ MarkedBehind cs front := by
  constructor
  · intro h
    fun_induction markedId? cs with
    | case1 => exact fun _ => not_markedBehind_empty
    | case2 c cs rest hrest hds ih =>
      exact not_markedBehind_cons (not_markedBehind_of_no_digit hrest hds) (ih h)
    | case3 => cases h
    | case4 c cs hnone ih =>
      exact not_markedBehind_cons (not_markedBehind_of_no_mark hnone) (ih h)
  · intro h
    rw [Option.eq_none_iff_forall_ne_some]
    intro ds hds
    obtain ⟨front, back, hnumber⟩ := exists_firstNumber hds
    exact h front hnumber.markedBehind

/-- The search from left to right finds the first number. -/
theorem markedId?_eq_some_iff : markedId? cs = some ds ↔ ∃ front back, FirstNumber cs front ds back := by
  refine ⟨exists_firstNumber, ?_⟩
  rintro ⟨front, back, hnumber⟩
  cases h : markedId? cs with
  | none => exact absurd hnumber.markedBehind (markedId?_eq_none_iff.1 h front)
  | some ds' =>
    obtain ⟨front', back', hnumber'⟩ := exists_firstNumber h
    rw [hnumber'.unique hnumber]

/-! ## The record of an address -/

/-- The record that the address `link` identifies: by the first number in it; without one, by the text
behind its last slash; and without a slash, by itself. -/
inductive Identifies (link : String) : String → Prop
  | number {front back : List Char} {id : String}
      (h : FirstNumber link.toList front id.toList back) : Identifies link id
  | lastPart {before id : String} (hunmarked : ∀ front, ¬ MarkedBehind link.toList front)
      (hsplit : link = before ++ "/" ++ id) (hlast : '/' ∉ id.toList) : Identifies link id
  | whole (hunmarked : ∀ front, ¬ MarkedBehind link.toList front)
      (hslash : '/' ∉ link.toList) : Identifies link link

variable {link id : String}

theorem recordId_of_some (h : markedId? link.toList = some ds) : recordId link = String.ofList ds := by
  rw [recordId, h]

theorem recordId_of_none (h : markedId? link.toList = none) :
    recordId link = Text.afterLast '/' link := by
  rw [recordId, h]

theorem Identifies.recordId_eq (h : Identifies link id) : recordId link = id := by
  cases h with
  | number h => rw [recordId_of_some (markedId?_eq_some_iff.2 ⟨_, _, h⟩), String.ofList_toList]
  | lastPart hunmarked hsplit hlast =>
    rw [recordId_of_none (markedId?_eq_none_iff.2 hunmarked), hsplit]
    exact Text.afterLast_append hlast _
  | whole hunmarked hslash =>
    rw [recordId_of_none (markedId?_eq_none_iff.2 hunmarked), Text.afterLast_of_not_mem hslash]

theorem identifies_recordId (link : String) : Identifies link (recordId link) := by
  cases h : markedId? link.toList with
  | some ds =>
    obtain ⟨front, back, hnumber⟩ := markedId?_eq_some_iff.1 h
    rw [recordId_of_some h]
    apply Identifies.number
    rw [String.toList_ofList]
    exact hnumber
  | none =>
    have hunmarked := markedId?_eq_none_iff.1 h
    rw [recordId_of_none h]
    by_cases hslash : '/' ∈ link.toList
    · obtain ⟨before, last, hsplit, hlast⟩ := Text.exists_cut_last hslash
      have hlastPart : Text.afterLast '/' link = last := by
        rw [hsplit]
        exact Text.afterLast_append hlast before
      rw [hlastPart]
      exact .lastPart hunmarked hsplit hlast
    · rw [Text.afterLast_of_not_mem hslash]
      exact .whole hunmarked hslash

theorem publicLink_of_ne_empty (partner : String) (h : link ≠ "") :
    publicLink (some partner) link = "https://www.scopus.com/inward/record.uri?partnerID=" ++ partner ++
      "&scp=" ++ recordId link := by
  have hempty : ¬ link.isEmpty = true := mt String.isEmpty_iff.1 h
  have hpage : recordUrl ++ "?partnerID=" =
      "https://www.scopus.com/inward/record.uri?partnerID=" := by decide
  rw [publicLink, if_neg hempty, hpage]

/-- Every address identifies a record, and this record is in its public link, behind the partner. So
addresses of different records never become the same public link. -/
theorem publicLink_of_identifies (partner : String) (hlink : link ≠ "") :
    (∃ id, Identifies link id) ∧
      ∀ id, Identifies link id →
        publicLink (some partner) link =
          "https://www.scopus.com/inward/record.uri?partnerID=" ++ partner ++ "&scp=" ++ id ∧
        ∀ link' id', link' ≠ "" → Identifies link' id' → id' ≠ id →
          publicLink (some partner) link' ≠ publicLink (some partner) link := by
  refine ⟨⟨_, identifies_recordId link⟩, fun id hid => ?_⟩
  have hpublic := publicLink_of_ne_empty partner hlink
  rw [hid.recordId_eq] at hpublic
  refine ⟨hpublic, ?_⟩
  intro link' id' hlink' hid' hne heq
  have hpublic' := publicLink_of_ne_empty partner hlink'
  rw [hid'.recordId_eq] at hpublic'
  rw [hpublic', hpublic, String.append_right_inj] at heq
  exact hne heq

/-- A mark without a digit before the first number, and another number behind it; and an address whose
only mark is without a digit. -/
theorem publicLink_of_identifies_marks :
    let link := "https://h.org/scopus_id/a?x=scopus_id/0123456789&y=scopus_id/7"
    let link' := "https://h.org/scopus_id/a"
    link ≠ "" ∧ Identifies link "0123456789" ∧ link' ≠ "" ∧ Identifies link' "a" ∧
      publicLink (some "p") link =
        "https://www.scopus.com/inward/record.uri?partnerID=p&scp=0123456789" ∧
      publicLink (some "p") link' ≠ publicLink (some "p") link := by
  intro link link'
  have hlink : link ≠ "" := by decide
  have hlink' : link' ≠ "" := by decide
  have hid : recordId link = "0123456789" := by decide +kernel
  have hid' : recordId link' = "a" := by decide +kernel
  have hidentifies : Identifies link "0123456789" := hid ▸ identifies_recordId link
  have hidentifies' : Identifies link' "a" := hid' ▸ identifies_recordId link'
  obtain ⟨hpublic, hother⟩ := (publicLink_of_identifies "p" hlink).2 _ hidentifies
  exact ⟨hlink, hidentifies, hlink', hidentifies', hpublic.trans (by decide +kernel),
    hother link' "a" hlink' hidentifies' (by decide)⟩

end PaperTrail.Scopus
