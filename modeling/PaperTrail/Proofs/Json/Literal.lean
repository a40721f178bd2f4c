import PaperTrail.Json.Printer
import PaperTrail.Json.Reader

/-!
# Reading texts and whole numbers that were written

* `readUnits_escaped`, `textOfUnits?_toNat` : every text is read back from its literal, character by
  character, as no character is half of a surrogate pair;
* `readDigits_append`, `Scan.whole_eq` : decimal digits are read back, and the significand never
  loses one while it has a place among the 64 bit numbers;
* `read_toString` : every whole number of 64 bits is read back from its digits;
* `toNat_of_mem_escape`, `toNat_of_mem_toString` : what is written has no control characters.
-/

namespace PaperTrail.Json
open Decimal

/-! ## Texts -/

/-- A character is written with a backslash and a letter or sign of its own, or by its number when it
is another control character, or as itself. -/
theorem escape_cases (c : Char) :
    (∃ x, escape c = ['\\', x] ∧ escaped? x = some c ∧ x ≠ 'u' ∧ 0x20 ≤ x.toNat) ∨
    (escape c = ['\\', 'u', '0', '0', hexChar (c.toNat / 16), hexChar (c.toNat % 16)] ∧
      c.toNat < 0x20) ∨
    (escape c = [c] ∧ c ≠ '"' ∧ c ≠ '\\' ∧ 0x20 ≤ c.toNat) := by
  have hown : ∀ {x : Char}, escaped? x = some c → x ≠ 'u' ∧ 0x20 ≤ x.toNat →
      ∃ y, ['\\', x] = ['\\', y] ∧ escaped? y = some c ∧ y ≠ 'u' ∧ 0x20 ≤ y.toNat :=
    fun {x} h hx => ⟨x, rfl, h, hx⟩
  unfold escape
  split
  · next hc => subst hc; exact Or.inl (hown rfl (by decide))
  split
  · next hc => subst hc; exact Or.inl (hown rfl (by decide))
  split
  · next hc => subst hc; exact Or.inl (hown rfl (by decide))
  split
  · next hc => subst hc; exact Or.inl (hown rfl (by decide))
  split
  · next hc => subst hc; exact Or.inl (hown rfl (by decide))
  split
  · next hc => subst hc; exact Or.inl (hown rfl (by decide))
  split
  · next hc => subst hc; exact Or.inl (hown rfl (by decide))
  split
  · next hc => exact Or.inr (Or.inl ⟨rfl, hc⟩)
  · next hquote hslash _ _ _ _ _ hc =>
    exact Or.inr (Or.inr ⟨rfl, hquote, hslash, Nat.not_lt.1 hc⟩)

theorem hex4?_hexChar : ∀ n < 0x20, hex4? '0' '0' (hexChar (n / 16)) (hexChar (n % 16)) = some n := by
  decide

theorem readUnits_escape (c : Char) (cs : List Char) :
    readUnits (escape c ++ cs) = (readUnits cs).map fun p => (c.toNat :: p.1, p.2) := by
  rcases escape_cases c with ⟨x, hc, hx, hu, -⟩ | ⟨hc, hcontrol⟩ | ⟨hc, hquote, hslash, hcontrol⟩
  · rw [hc, List.cons_append, List.singleton_append,
      readUnits.eq_4 _ _ fun _ _ _ _ _ hxu _ => hu hxu, hx]
    cases readUnits cs <;> rfl
  · simp only [hc, List.cons_append, List.nil_append, readUnits, hex4?_hexChar c.toNat hcontrol]
    cases readUnits cs <;> rfl
  · rw [hc, List.singleton_append, readUnits.eq_5 _ _ hquote (fun _ _ _ _ _ hcs _ => hslash hcs)
      (fun _ _ hcs _ => hslash hcs), if_neg (Nat.not_lt.2 hcontrol)]
    cases readUnits cs <;> rfl

theorem readUnits_escaped (cs rest : List Char) :
    readUnits (cs.flatMap escape ++ '"' :: rest) = some (cs.map Char.toNat, rest) := by
  induction cs with
  | nil => rfl
  | cons c cs ih => rw [List.flatMap_cons, List.append_assoc, readUnits_escape, ih]; rfl

/-- No character is half of a surrogate pair. -/
theorem halves_toNat (c : Char) : opensPair c.toNat = false ∧ closesPair c.toNat = false := by
  have h : c.toNat < 0xD800 ∨ 0xDFFF < c.toNat ∧ c.toNat < 0x110000 := c.valid
  simp only [opensPair, closesPair, Bool.and_eq_false_iff, decide_eq_false_iff_not]
  omega

theorem joinUnits?_toNat (cs : List Char) : joinUnits? (cs.map Char.toNat) = some cs := by
  induction cs with
  | nil => rfl
  | cons c cs ih =>
    cases cs with
    | nil => simp [joinUnits?, halves_toNat]
    | cons d cs =>
      rw [List.map_cons] at ih
      simp [joinUnits?, halves_toNat, ih]

/-- No text loses anything in a literal. -/
theorem textOfUnits?_toNat (s : String) : textOfUnits? (s.toList.map Char.toNat) = some s := by
  rw [textOfUnits?, joinUnits?_toNat, Option.map_some, String.ofList_toList]

theorem toNat_hexChar : ∀ n < 0x10, 0x20 ≤ (hexChar n).toNat := by decide

theorem toNat_of_mem_escape {c x : Char} (h : x ∈ escape c) : 0x20 ≤ x.toNat := by
  have hslash : 0x20 ≤ '\\'.toNat := by decide
  rcases escape_cases c with ⟨y, hc, -, -, hy⟩ | ⟨hc, hcontrol⟩ | ⟨hc, -, -, hcontrol⟩ <;> rw [hc] at h
  · rcases List.mem_cons.1 h with rfl | h
    · exact hslash
    · rwa [List.mem_singleton.1 h]
  · have hhigh := toNat_hexChar (c.toNat / 16) (by omega)
    have hlow := toNat_hexChar (c.toNat % 16) (by omega)
    simp only [List.mem_cons, List.not_mem_nil, or_false] at h
    rcases h with rfl | rfl | rfl | rfl | rfl | rfl
    · exact hslash
    · decide
    · decide
    · decide
    · exact hhigh
    · exact hlow
  · rwa [List.mem_singleton.1 h]

/-! ## Whole numbers -/

namespace Numeral

/-- What follows a numeral does not go on with it. -/
def Ends (rest : List Char) : Prop :=
  ∀ c ∈ rest.head?, c.isDigit = false ∧ c ≠ '.' ∧ c ≠ 'e' ∧ c ≠ 'E'

theorem digit?_of_isDigit {c : Char} (h : c.isDigit = true) : digit? c = some (c.toNat - '0'.toNat) :=
  if_pos h

theorem readDigits_append {cs rest : List Char} (h : ∀ c ∈ cs, c.isDigit = true)
    (hrest : Ends rest) :
    readDigits (cs ++ rest) = (cs.map fun c => c.toNat - '0'.toNat, rest) := by
  induction cs with
  | nil =>
    cases rest with
    | nil => rfl
    | cons c rest =>
      have hc : digit? c = none := if_neg (by simp [(hrest c rfl).1])
      rw [List.nil_append, readDigits, hc]
      rfl
  | cons c cs ih =>
    rw [List.forall_mem_cons] at h
    rw [List.cons_append, readDigits, digit?_of_isDigit h.1, ih h.2]
    rfl

theorem le_ofDigitChars (cs : List Char) (m : Nat) : m ≤ Nat.ofDigitChars 10 cs m := by
  induction cs generalizing m with
  | nil => exact Nat.le_refl m
  | cons c cs ih =>
    rw [Nat.ofDigitChars_cons]
    exact Nat.le_trans (by omega) (ih _)

theorem Scan.whole_eq {cs : List Char} {m : Nat} (h : Nat.ofDigitChars 10 cs m < Nat.pow 2 64) :
    Scan.whole ⟨m, 0, false⟩ (cs.map fun c => c.toNat - '0'.toNat) =
      ⟨Nat.ofDigitChars 10 cs m, 0, false⟩ := by
  induction cs generalizing m with
  | nil => rfl
  | cons c cs ih =>
    rw [Nat.ofDigitChars_cons] at h ⊢
    have hle := le_ofDigitChars cs (10 * m + (c.toNat - '0'.toNat))
    have hadmits : (Scan.mk m 0 false).admits (c.toNat - '0'.toNat) = true :=
      decide_eq_true (by rw [Nat.mul_comm]; exact Nat.lt_of_le_of_lt hle h)
    rw [List.map_cons, Scan.whole, if_neg Bool.false_ne_true, if_pos hadmits, Nat.mul_comm m 10]
    exact ih h

theorem eq_zero_of_digit {c : Char} (h : c.isDigit = true) (hc : c.toNat - '0'.toNat = 0) :
    c = '0' := by
  have hle : '0'.toNat ≤ c.toNat := by
    simp only [Char.isDigit, Bool.and_eq_true, decide_eq_true_eq] at h
    exact h.1
  exact Char.toNat_inj.1 (Nat.le_antisymm (Nat.sub_eq_zero_iff_le.1 hc) hle)

/-- Digits start with a zero only for the number zero. -/
theorem toDigits_cons_zero {n : Nat} {cs : List Char} (h : Nat.toDigits 10 n = '0' :: cs) :
    cs = [] := by
  induction n using Nat.strongRecOn generalizing cs with
  | ind n ih =>
    rw [Nat.toDigits_eq_if (by decide)] at h
    split at h
    · exact (List.cons.inj h).2.symm
    · next hlt =>
      cases hfront : Nat.toDigits 10 (n / 10) with
      | nil => exact absurd hfront Nat.toDigits_ne_nil
      | cons c front =>
        rw [hfront, List.cons_append, List.cons.injEq] at h
        rw [h.1] at hfront
        obtain rfl := ih _ (Nat.div_lt_self (by omega) (by decide)) hfront
        have hzero : n / 10 = 0 := by
          rw [← Nat.ofDigitChars_toDigits (n := n / 10) (b := 10) (by decide) (by decide), hfront]
          rfl
        omega

theorem readTail_of_ends {rest : List Char} (h : Ends rest) (negative : Bool) (s : Scan) :
    readTail negative s rest = some (whole? negative s, rest) := by
  cases rest with
  | nil => rfl
  | cons c rest =>
    obtain ⟨-, hpoint, he, hE⟩ := h c rfl
    exact readTail.eq_4 _ _ _ (fun _ hc => hpoint (List.cons.inj hc).1)
      (fun _ hc => he (List.cons.inj hc).1) (fun _ hc => hE (List.cons.inj hc).1)

theorem readUnsigned_toDigits {n : Nat} (hn : n < Nat.pow 2 64) {rest : List Char} (h : Ends rest)
    (negative : Bool) :
    readUnsigned negative (Nat.toDigits 10 n ++ rest) =
      some (whole? negative ⟨n, 0, false⟩, rest) := by
  have hdigits : ∀ c ∈ Nat.toDigits 10 n, c.isDigit = true :=
    fun c hc => Nat.isDigit_of_mem_toDigits (by decide) (by decide) hc
  have hvalue : Nat.ofDigitChars 10 (Nat.toDigits 10 n) 0 = n :=
    Nat.ofDigitChars_toDigits (by decide) (by decide)
  have hscan := Scan.whole_eq (m := 0) (hvalue.symm ▸ hn)
  rw [hvalue] at hscan
  rw [readUnsigned, readDigits_append hdigits h]
  split
  · next hnil =>
    rw [Prod.mk.injEq, List.map_eq_nil_iff] at hnil
    exact absurd hnil.1 Nat.toDigits_ne_nil
  · next hlong =>
    rw [Prod.mk.injEq, List.map_eq_cons_iff] at hlong
    obtain ⟨⟨c, cs, hcs, hc, hmore⟩, -⟩ := hlong
    obtain rfl : c = '0' := eq_zero_of_digit (hdigits c (hcs ▸ List.mem_cons_self)) hc
    obtain rfl := toDigits_cons_zero hcs
    cases hmore
  · next hds =>
    obtain ⟨rfl, rfl⟩ := Prod.mk.inj hds
    rw [hscan, readTail_of_ends h]

/-- The characters of a whole number: its digits, behind a minus when it is negative. -/
theorem toList_toString (i : Int) :
    (toString i).toList =
      if 0 ≤ i then Nat.toDigits 10 i.toNat else '-' :: Nat.toDigits 10 (-i).toNat := by
  rw [Int.toString_eq_repr, Int.repr_eq_if]
  split
  · exact Nat.toList_repr
  · rw [String.toList_append, Nat.toList_repr]
    rfl

theorem read_toString {i : Int} (hleast : Number.minInt ≤ i) (hgreatest : i ≤ Number.maxUnsigned)
    {rest : List Char} (h : Ends rest) :
    read ((toString i).toList ++ rest) = some (some (.int i), rest) := by
  unfold Number.minInt at hleast
  unfold Number.maxUnsigned at hgreatest
  rw [toList_toString]
  by_cases hi : 0 ≤ i
  · have hn : i.toNat < Nat.pow 2 64 := by
      have hpow : Nat.pow 2 64 = 18446744073709551616 := rfl
      omega
    have hdash : ∀ cs, Nat.toDigits 10 i.toNat ++ rest = '-' :: cs → False := by
      intro cs hcs
      cases hdigits : Nat.toDigits 10 i.toNat with
      | nil => exact Nat.toDigits_ne_nil hdigits
      | cons c front =>
        rw [hdigits, List.cons_append, List.cons.injEq] at hcs
        have hc : c.isDigit = true := Nat.isDigit_of_mem_toDigits (b := 10) (n := i.toNat)
          (by decide) (by decide) (hdigits ▸ List.mem_cons_self)
        rw [hcs.1] at hc
        cases hc
    rw [if_pos hi, read.eq_2 _ hdash, readUnsigned_toDigits hn h, whole?, if_neg Bool.false_ne_true,
      if_pos Bool.false_ne_true, Int.toNat_of_nonneg hi]
  · have hpow : Nat.pow 2 63 = 9223372036854775808 := rfl
    have hpow' : Nat.pow 2 64 = 18446744073709551616 := rfl
    have hpositive : 0 < (-i).toNat ∧ (-i).toNat ≤ Nat.pow 2 63 := by omega
    have hvalue : -((-i).toNat : Int) = i := by omega
    rw [if_neg hi, List.cons_append, read, readUnsigned_toDigits (by omega) h, whole?,
      if_neg Bool.false_ne_true, if_neg (by simp), if_pos hpositive, hvalue]

theorem toNat_of_mem_toString {i : Int} {c : Char} (h : c ∈ (toString i).toList) :
    0x20 ≤ c.toNat := by
  have hdigit : ∀ {n : Nat}, c ∈ Nat.toDigits 10 n → 0x20 ≤ c.toNat := by
    intro n hc
    have hc := Nat.isDigit_of_mem_toDigits (by decide) (by decide) hc
    simp only [Char.isDigit, Bool.and_eq_true, decide_eq_true_eq] at hc
    exact Nat.le_trans (by decide) hc.1
  rw [toList_toString] at h
  split at h
  · exact hdigit h
  · rcases List.mem_cons.1 h with rfl | h
    · decide
    · exact hdigit h

end Numeral

end PaperTrail.Json
