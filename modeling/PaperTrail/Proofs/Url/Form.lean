import PaperTrail.Proofs.Text.Split
import PaperTrail.Url.Form

/-!
# Reading forms back

What a form says can be read from its text: `decodePairs?_encodePairs`. A written name or value
consists of letters, digits, `*-._`, plus and percent signs, so no ampersand and no equals sign in
it is mistaken for one between the parts (`mem_encode`).
-/

namespace PaperTrail.Percent

theorem textOfBytes?_utf8Bytes (s : String) : textOfBytes? (utf8Bytes s.toList) = some s := by
  have hbytes : (⟨(utf8Bytes s.toList).toArray⟩ : ByteArray) = s.toByteArray := by
    rw [← String.utf8Encode_toList]
    apply ByteArray.ext
    simp [utf8Bytes, List.utf8Encode]
  rw [textOfBytes?, hbytes, String.fromUTF8?, dif_pos s.isValidUTF8]
  rfl

theorem digitValue?_hexDigit : ∀ n < 16, digitValue? (hexDigit n) = some n := by decide

theorem decodeBytes_cons {a : Char} (h : a ≠ '%') (rest : List Char) :
    decodeBytes (a :: rest) = String.utf8EncodeChar a ++ decodeBytes rest := by
  match rest with
  | [] => simp [decodeBytes]
  | [b] => simp [decodeBytes]
  | b :: c :: rest => rw [decodeBytes, if_neg h]

theorem decodeBytes_escape (b : UInt8) (rest : List Char) :
    decodeBytes (escape b ++ rest) = b :: decodeBytes rest := by
  have hb : b.toNat < 256 := b.toNat_lt
  have hhigh := digitValue?_hexDigit (b.toNat / 16) (by omega)
  have hlow := digitValue?_hexDigit (b.toNat % 16) (by omega)
  have hsum : b.toNat / 16 * 16 + b.toNat % 16 = b.toNat := by omega
  simp only [escape, List.cons_append, List.nil_append]
  rw [decodeBytes, if_pos rfl, hhigh, hlow]
  simp only [hsum, UInt8.ofNat_toNat]

theorem decodeBytes_escapes (bs : List UInt8) (rest : List Char) :
    decodeBytes (bs.flatMap escape ++ rest) = bs ++ decodeBytes rest := by
  induction bs with
  | nil => rfl
  | cons b bs ih => rw [List.flatMap_cons, List.append_assoc, decodeBytes_escape, ih, List.cons_append]

/-- A text without percent signs stands for itself. -/
theorem decode?_of_not_mem {s : String} (h : '%' ∉ s.toList) : decode? s = some s := by
  have hbytes : ∀ cs : List Char, '%' ∉ cs → decodeBytes cs = utf8Bytes cs := by
    intro cs hcs
    induction cs with
    | nil => rfl
    | cons c cs ih =>
      rw [List.mem_cons, not_or] at hcs
      rw [decodeBytes_cons (Ne.symm hcs.1), ih hcs.2]
      rfl
  rw [decode?, hbytes _ h, textOfBytes?_utf8Bytes]

end PaperTrail.Percent

namespace PaperTrail.Form
open Percent

def spaced (c : Char) : Char := if c = '+' then ' ' else c

theorem isKept_hexDigit : ∀ n < 16, isKept (hexDigit n) = true := by decide

theorem isKept_or_of_mem_escape {b : UInt8} {c : Char} (h : c ∈ escape b) :
    isKept c = true ∨ c = '%' := by
  have hb : b.toNat < 256 := b.toNat_lt
  simp only [escape, List.mem_cons, List.not_mem_nil, or_false] at h
  rcases h with rfl | rfl | rfl
  · exact Or.inr rfl
  · exact Or.inl (isKept_hexDigit _ (by omega))
  · exact Or.inl (isKept_hexDigit _ (by omega))

theorem mem_encodeChar {x c : Char} (h : c ∈ encodeChar x) :
    isKept c = true ∨ c = '%' ∨ c = '+' := by
  rw [encodeChar] at h
  split at h
  · exact Or.inr (Or.inr (List.mem_singleton.1 h))
  · split at h
    · next hkept =>
      obtain rfl := List.mem_singleton.1 h
      exact Or.inl hkept
    · obtain ⟨b, -, hc⟩ := List.mem_flatMap.1 h
      rcases isKept_or_of_mem_escape hc with hkept | rfl
      · exact Or.inl hkept
      · exact Or.inr (Or.inl rfl)

theorem mem_encode {s : String} {c : Char} (h : c ∈ (encode s).toList) :
    isKept c = true ∨ c = '%' ∨ c = '+' := by
  rw [encode, String.toList_ofList] at h
  obtain ⟨x, -, hc⟩ := List.mem_flatMap.1 h
  exact mem_encodeChar hc

theorem not_mem_encode {c : Char} (hkept : isKept c = false) (hpercent : c ≠ '%') (hplus : c ≠ '+')
    (s : String) : c ∉ (encode s).toList := by
  intro h
  rcases mem_encode h with h | h | h
  · rw [hkept] at h; cases h
  · exact hpercent h
  · exact hplus h

theorem spaced_of_ne {c : Char} (h : c ≠ '+') : spaced c = c := if_neg h

theorem map_spaced_escapes (bs : List UInt8) :
    (bs.flatMap escape).map spaced = bs.flatMap escape := by
  refine (List.map_congr_left fun c hc => ?_).trans (List.map_id _)
  obtain ⟨b, -, hb⟩ := List.mem_flatMap.1 hc
  apply spaced_of_ne
  rintro rfl
  rcases isKept_or_of_mem_escape hb with h | h
  · exact absurd h (by decide)
  · exact absurd h (by decide)

/-- One character is read back as its bytes. -/
theorem decodeBytes_encodeChar (c : Char) (rest : List Char) :
    decodeBytes ((encodeChar c).map spaced ++ rest) =
      String.utf8EncodeChar c ++ decodeBytes rest := by
  rw [encodeChar]
  split
  · next hspace =>
    subst hspace
    exact decodeBytes_cons (by decide) rest
  · split
    · next hkept =>
      have hplus : c ≠ '+' := by rintro rfl; exact absurd hkept (by decide)
      have hpercent : c ≠ '%' := by rintro rfl; exact absurd hkept (by decide)
      rw [List.map_singleton, spaced_of_ne hplus, List.singleton_append, decodeBytes_cons hpercent]
    · rw [map_spaced_escapes, decodeBytes_escapes]

theorem decodeBytes_encodeChars (cs : List Char) :
    decodeBytes ((cs.flatMap encodeChar).map spaced) = utf8Bytes cs := by
  induction cs with
  | nil => rfl
  | cons c cs ih =>
    rw [List.flatMap_cons, List.map_append, decodeBytes_encodeChar, ih]
    rfl

theorem decode?_encode (s : String) : decode? (encode s) = some s := by
  change textOfBytes? (decodeBytes ((encode s).toList.map spaced)) = some s
  rw [encode, String.toList_ofList, decodeBytes_encodeChars, textOfBytes?_utf8Bytes]

/-! ## Pairs -/

def pairChars (p : String × String) : List Char :=
  (encode p.1).toList ++ '=' :: (encode p.2).toList

theorem ampersand_not_mem_pairChars (p : String × String) : '&' ∉ pairChars p := by
  have hnone := not_mem_encode (c := '&') (by decide) (by decide) (by decide)
  simp only [pairChars, List.mem_append, List.mem_cons, not_or]
  exact ⟨hnone p.1, by decide, hnone p.2⟩

theorem decodePair?_pairChars (p : String × String) :
    decodePair? (String.ofList (pairChars p)) = some p := by
  have hname : '=' ∉ (encode p.1).toList := not_mem_encode (by decide) (by decide) (by decide) p.1
  have hcut : Text.cut? '=' (String.ofList (pairChars p)) = some (encode p.1, encode p.2) := by
    rw [Text.cut?, String.toList_ofList, pairChars, Text.cutChars?_append hname]
    simp only [Option.map_some, String.ofList_toList]
  rw [decodePair?, hcut]
  simp only [Option.getD_some, decode?_encode]
  rfl

theorem toList_encodePairs (pairs : List (String × String)) :
    (encodePairs pairs).toList = ['&'].intercalate (pairs.map pairChars) := by
  have hpair : ∀ p : String × String, (encode p.1 ++ "=" ++ encode p.2).toList = pairChars p := by
    intro p
    simp [pairChars]
  have hseparator : "&".toList = ['&'] := by decide
  simp only [encodePairs, String.toList_intercalate, List.map_map, Function.comp_def, hpair,
    hseparator]

theorem mapM_decodePair?_pairChars (pairs : List (String × String)) :
    (pairs.map fun p => String.ofList (pairChars p)).mapM decodePair? = some pairs := by
  induction pairs with
  | nil => rfl
  | cons p pairs ih =>
    rw [List.map_cons, List.mapM_cons, decodePair?_pairChars, ih]
    rfl

/-- What a form says can be read from its text. -/
theorem decodePairs?_encodePairs (pairs : List (String × String)) :
    decodePairs? (encodePairs pairs) = some pairs := by
  cases pairs with
  | nil => rfl
  | cons p rest =>
    have hsplit : Text.split '&' (encodePairs (p :: rest)) =
        (p :: rest).map fun q => String.ofList (pairChars q) := by
      rw [Text.split, toList_encodePairs, Text.splitChars_intercalate (by simp), List.map_map]
      · rfl
      · intro part hpart
        obtain ⟨q, -, rfl⟩ := List.mem_map.1 hpart
        exact ampersand_not_mem_pairChars q
    have hkept : ((p :: rest).map fun q => String.ofList (pairChars q)).filter
        (fun part => !part.isEmpty) = (p :: rest).map fun q => String.ofList (pairChars q) := by
      rw [List.filter_eq_self]
      intro part hpart
      obtain ⟨q, -, rfl⟩ := List.mem_map.1 hpart
      simp [pairChars]
    rw [decodePairs?, hsplit, hkept, mapM_decodePair?_pairChars]

end PaperTrail.Form
