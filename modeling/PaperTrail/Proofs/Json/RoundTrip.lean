import PaperTrail.Proofs.Json.Literal
import PaperTrail.Proofs.Text.Split

/-!
# Reading a value that was written

* `isExact` : values whose text tells all of them: texts, truth values, whole numbers of 64 bits, and
  arrays and objects of such values. A floating point number may lose its last digit;
* `readValue_compact` : by recursion over the value, reading its text gives the value and leaves what
  follows, with steps enough;
* `ofString?_compact` : the text of a value is read as this value;
* `oneLine_compact` : the text has no control characters, so it is one line.
-/

namespace PaperTrail.Json

mutual

/-- Whether the text of a value tells all of it. -/
def isExact : Json → Bool
  | number (.int i) => decide (Number.minInt ≤ i) && decide (i ≤ Number.maxUnsigned)
  | number (.float _) => false
  | unreadable => false
  | array items => areExact items
  | object members => membersExact members
  | _ => true

def areExact : List Json → Bool
  | [] => true
  | v :: rest => v.isExact && areExact rest

def membersExact : List (String × Json) → Bool
  | [] => true
  | (_, v) :: rest => v.isExact && membersExact rest

end

/-! ## Parts of a text -/

def commaChars (texts : List String) : List Char := texts.flatMap fun s => ',' :: s.toList

theorem toList_intercalate_cons (s : String) (texts : List String) :
    (",".intercalate (s :: texts)).toList = s.toList ++ commaChars texts := by
  rw [String.toList_intercalate, List.map_cons, Text.intercalate_cons, List.flatMap_map]
  rfl

theorem commaChars_cons (s : String) (texts : List String) :
    commaChars (s :: texts) = ',' :: (",".intercalate (s :: texts)).toList := by
  rw [toList_intercalate_cons]
  rfl

theorem ends_cons {c : Char} (h : c.isDigit = false ∧ c ≠ '.' ∧ c ≠ 'e' ∧ c ≠ 'E')
    (rest : List Char) : Numeral.Ends (c :: rest) := by
  rintro d ⟨⟩
  exact h

theorem ends_commaChars {rest : List Char} (h : Numeral.Ends rest) (texts : List String) :
    Numeral.Ends (commaChars texts ++ rest) := by
  cases texts with
  | nil => exact h
  | cons s texts => exact ends_cons (by decide) _

theorem skipSpace_of_head {c : Char} (h : isSpace c = false) (cs : List Char) :
    skipSpace (c :: cs) = c :: cs := List.dropWhile_cons_of_neg (by simp [h])

theorem ne_of_numeral {c d : Char} (h : c.isDigit = true ∨ c = '-') (hdigit : d.isDigit = false)
    (hdash : d ≠ '-') : c ≠ d := by
  rintro rfl
  rcases h with h | h
  · rw [hdigit] at h
    cases h
  · exact hdash h

theorem isSpace_of_numeral {c : Char} (h : c.isDigit = true ∨ c = '-') : isSpace c = false := by
  have hc : ∀ d, d.isDigit = false → d ≠ '-' → c ≠ d := fun _ => ne_of_numeral h
  simp only [isSpace, Bool.or_eq_false_iff, beq_eq_false_iff_ne]
  exact ⟨⟨⟨hc _ rfl (by decide), hc _ rfl (by decide)⟩, hc _ rfl (by decide)⟩,
    hc _ rfl (by decide)⟩

/-- A text that starts like a numeral is read as one. -/
theorem readValue_numeral {c : Char} (h : c.isDigit = true ∨ c = '-') (cs : List Char) (n : Nat) :
    readValue (n + 1) (c :: cs) =
      (Numeral.read (c :: cs)).map fun p => (p.1.elim .unreadable .number, p.2) := by
  have hc : ∀ d, d.isDigit = false → d ≠ '-' → c ≠ d := fun _ => ne_of_numeral h
  rw [readValue, skipSpace_of_head (isSpace_of_numeral h)]
  split <;> first
    | rfl
    | next heq => exact absurd (List.cons.inj heq).1 (hc _ rfl (by decide))

theorem skipSpace_comma (cs : List Char) : skipSpace (',' :: cs) = ',' :: cs :=
  skipSpace_of_head (by decide) cs

theorem skipSpace_colon (cs : List Char) : skipSpace (':' :: cs) = ':' :: cs :=
  skipSpace_of_head (by decide) cs

/-! ## Texts of each kind of value -/

theorem toList_compact_null : null.compact.toList = ['n', 'u', 'l', 'l'] := by
  simp [compact]

theorem toList_compact_bool (b : Bool) :
    (bool b).compact.toList = if b then ['t', 'r', 'u', 'e'] else ['f', 'a', 'l', 's', 'e'] := by
  cases b <;> simp [compact]

theorem toList_quoted (s : String) :
    (quoted s).toList = '"' :: (s.toList.flatMap escape ++ ['"']) := by
  rw [quoted, String.toList_ofList]

theorem toList_compact_array (items : List Json) :
    (array items).compact.toList =
      '[' :: ((",".intercalate (compactItems items)).toList ++ [']']) := by
  rw [compact, String.toList_append, String.toList_append]
  rfl

theorem toList_compact_object (members : List (String × Json)) :
    (object members).compact.toList =
      '{' :: ((",".intercalate (compactMembers members)).toList ++ ['}']) := by
  rw [compact, String.toList_append, String.toList_append]
  rfl

/-- The text of a whole number starts like a numeral. -/
theorem exists_toList_compact_int (i : Int) : ∃ c cs, (int i).compact.toList = c :: cs ∧
    (c.isDigit = true ∨ c = '-') := by
  rw [int, compact, numberText, Numeral.toList_toString]
  split
  · cases hdigits : Nat.toDigits 10 i.toNat with
    | nil => exact absurd hdigits Nat.toDigits_ne_nil
    | cons c cs =>
      have hc : c ∈ Nat.toDigits 10 i.toNat := hdigits ▸ List.mem_cons_self
      exact ⟨c, cs, rfl, Or.inl (Nat.isDigit_of_mem_toDigits (by decide) (by decide) hc)⟩
  · exact ⟨_, _, rfl, Or.inr rfl⟩

/-- The text of a value starts with a character that neither separates nor closes anything. -/
theorem exists_toList_compact : ∀ v : Json, v.isExact = true →
    ∃ c cs, v.compact.toList = c :: cs ∧ isSpace c = false ∧ c ≠ ']'
  | null, _ => ⟨_, _, toList_compact_null, by decide, by decide⟩
  | bool true, _ => ⟨_, _, toList_compact_bool true, by decide, by decide⟩
  | bool false, _ => ⟨_, _, toList_compact_bool false, by decide, by decide⟩
  | number (.int i), _ => by
    obtain ⟨c, cs, hcs, hc⟩ := exists_toList_compact_int i
    have hne : ∀ d, d.isDigit = false → d ≠ '-' → c ≠ d := fun _ => ne_of_numeral hc
    refine ⟨c, cs, hcs, isSpace_of_numeral hc, hne _ rfl (by decide)⟩
  | string s, _ => ⟨_, _, toList_quoted s, by decide, by decide⟩
  | array items, _ => ⟨_, _, toList_compact_array items, by decide, by decide⟩
  | object members, _ => ⟨_, _, toList_compact_object members, by decide, by decide⟩

/-! ## Values -/

theorem readValue_string (s : String) (n : Nat) (rest : List Char) :
    readValue (n + 1) ((string s).compact.toList ++ rest) = some (.string s, rest) := by
  rw [compact, toList_quoted, List.cons_append, List.append_assoc, List.singleton_append, readValue,
    skipSpace_of_head (by decide)]
  simp only [readUnits_escaped, textOfUnits?_toNat]
  rfl

theorem readValue_array {c : Char} (hspace : isSpace c = false) (hclose : c ≠ ']') (cs : List Char)
    (n : Nat) :
    readValue (n + 1) ('[' :: c :: cs) = (readItems n (c :: cs)).map fun p => (.array p.1, p.2) := by
  rw [readValue, skipSpace_of_head (by decide)]
  simp only [skipSpace_of_head hspace]
  split
  · next heq => exact absurd (List.cons.inj heq).1 hclose
  · rfl

theorem readValue_object {c : Char} (hspace : isSpace c = false) (hclose : c ≠ '}') (cs : List Char)
    (n : Nat) :
    readValue (n + 1) ('{' :: c :: cs) =
      (readMembers n (c :: cs)).map fun p => (ofMembers p.1, p.2) := by
  rw [readValue, skipSpace_of_head (by decide)]
  simp only [skipSpace_of_head hspace]
  split
  · next heq => exact absurd (List.cons.inj heq).1 hclose
  · rfl

theorem ofMembers_some (members : List (String × Json)) :
    ofMembers (members.map fun m => (some m.1, m.2)) = .object members := by
  have hall : (members.map fun m => (some m.1, m.2)).mapM
      (fun m : Option String × Json => m.1.map fun name => (name, m.2)) = some members := by
    induction members with
    | nil => rfl
    | cons m members ih =>
      rw [List.map_cons, List.mapM_cons, ih]
      rfl
  rw [ofMembers, hall]

theorem readValue_int {i : Int} (h : (int i).isExact = true) (n : Nat) {rest : List Char}
    (hrest : Numeral.Ends rest) :
    readValue (n + 1) ((int i).compact.toList ++ rest) = some (.int i, rest) := by
  rw [int, isExact, Bool.and_eq_true, decide_eq_true_eq, decide_eq_true_eq] at h
  have hread := Numeral.read_toString h.1 h.2 hrest
  obtain ⟨c, cs, hcs, hc⟩ := exists_toList_compact_int i
  have htext : (int i).compact.toList = (toString i).toList := rfl
  rw [← htext, hcs, List.cons_append] at hread
  rw [hcs, List.cons_append, readValue_numeral hc, hread]
  rfl

mutual

/-- Reading the text of a value gives the value and leaves what follows. -/
theorem readValue_compact : ∀ (v : Json), v.isExact = true → ∀ (n : Nat) (rest : List Char),
    2 * v.compact.toList.length ≤ n + 2 → Numeral.Ends rest →
    readValue (n + 1) (v.compact.toList ++ rest) = some (v, rest)
  | null => by
    intro _ n rest _ _
    rw [toList_compact_null]
    rfl
  | bool b => by
    intro _ n rest _ _
    rw [toList_compact_bool]
    cases b <;> rfl
  | number (.int i) => fun h n _ _ hrest => readValue_int h n hrest
  | number (.float x) => nofun
  | unreadable => nofun
  | string s => fun _ n rest _ _ => readValue_string s n rest
  | array items => by
    intro h n rest hn _
    rw [isExact] at h
    rw [toList_compact_array, List.length_cons, List.length_append, List.length_singleton] at hn
    rw [toList_compact_array, List.cons_append, List.append_assoc, List.singleton_append]
    cases items with
    | nil => rfl
    | cons v items =>
      obtain ⟨n, rfl⟩ := Nat.exists_eq_succ_of_ne_zero (by omega : n ≠ 0)
      have hread := readItems_compact (v :: items) h (List.cons_ne_nil _ _) n rest (by omega)
      rw [areExact, Bool.and_eq_true] at h
      obtain ⟨c, cs, hcs, hspace, hclose⟩ := exists_toList_compact v h.1
      rw [compactItems, toList_intercalate_cons, hcs, List.cons_append, List.cons_append] at hread ⊢
      rw [readValue_array hspace hclose, hread]
      rfl
  | object members => by
    intro h n rest hn _
    rw [isExact] at h
    rw [toList_compact_object, List.length_cons, List.length_append, List.length_singleton] at hn
    rw [toList_compact_object, List.cons_append, List.append_assoc, List.singleton_append]
    cases members with
    | nil => rfl
    | cons m members =>
      obtain ⟨n, rfl⟩ := Nat.exists_eq_succ_of_ne_zero (by omega : n ≠ 0)
      have hread := readMembers_compact (m :: members) h (List.cons_ne_nil _ _) n rest (by omega)
      rw [compactMembers, toList_intercalate_cons, String.toList_append, String.toList_append,
        toList_quoted, List.cons_append, List.cons_append, List.cons_append,
        List.cons_append] at hread ⊢
      rw [readValue_object (by decide) (by decide), hread, Option.map_some, ofMembers_some]

theorem readItems_compact : ∀ (items : List Json), areExact items = true → items ≠ [] →
    ∀ (n : Nat) (rest : List Char),
    2 * (",".intercalate (compactItems items)).toList.length ≤ n + 1 →
    readItems (n + 1) ((",".intercalate (compactItems items)).toList ++ ']' :: rest) =
      some (items, rest)
  | [] => fun _ hne => absurd rfl hne
  | v :: items => by
    intro h _ n rest hn
    rw [areExact, Bool.and_eq_true] at h
    obtain ⟨c, cs, hcs, -⟩ := exists_toList_compact v h.1
    have hlength : 0 < v.compact.toList.length := by rw [hcs]; exact Nat.succ_pos _
    rw [compactItems, toList_intercalate_cons] at hn ⊢
    rw [List.length_append] at hn
    obtain ⟨n, rfl⟩ := Nat.exists_eq_succ_of_ne_zero (by omega : n ≠ 0)
    have hv := readValue_compact v h.1 n (commaChars (compactItems items) ++ ']' :: rest) (by omega)
      (ends_commaChars (ends_cons (by decide) rest) _)
    rw [List.append_assoc, readItems, hv]
    cases items with
    | nil => rfl
    | cons w items =>
      rw [compactItems, commaChars_cons, ← compactItems, List.length_cons] at hn
      have hitems := readItems_compact (w :: items) h.2 (List.cons_ne_nil _ _) n rest (by omega)
      rw [compactItems] at hitems
      simp only [compactItems, commaChars_cons, List.cons_append, skipSpace_comma, hitems]
      rfl

theorem readMembers_compact : ∀ (members : List (String × Json)), membersExact members = true →
    members ≠ [] → ∀ (n : Nat) (rest : List Char),
    2 * (",".intercalate (compactMembers members)).toList.length ≤ n + 1 →
    readMembers (n + 1) ((",".intercalate (compactMembers members)).toList ++ '}' :: rest) =
      some (members.map fun m => (some m.1, m.2), rest)
  | [] => fun _ hne => absurd rfl hne
  | (name, v) :: members => by
    intro h _ n rest hn
    rw [membersExact, Bool.and_eq_true] at h
    rw [compactMembers, toList_intercalate_cons] at hn ⊢
    rw [String.toList_append, String.toList_append, toList_quoted, List.length_append,
      List.length_append, List.length_append, List.length_cons, List.length_append,
      List.length_singleton] at hn
    obtain ⟨n, rfl⟩ := Nat.exists_eq_succ_of_ne_zero (by omega : n ≠ 0)
    have hv := readValue_compact v h.1 n (commaChars (compactMembers members) ++ '}' :: rest)
      (by omega) (ends_commaChars (ends_cons (by decide) rest) _)
    have htext : (quoted name ++ ":" ++ v.compact).toList ++ commaChars (compactMembers members) ++
        '}' :: rest = '"' :: (name.toList.flatMap escape ++ '"' :: ':' :: (v.compact.toList ++
          (commaChars (compactMembers members) ++ '}' :: rest))) := by
      rw [String.toList_append, String.toList_append, toList_quoted]
      simp
    rw [htext, readMembers, skipSpace_of_head (by decide)]
    simp only [readUnits_escaped, skipSpace_colon, hv, textOfUnits?_toNat]
    cases members with
    | nil => rfl
    | cons m members =>
      obtain ⟨other, w⟩ := m
      rw [compactMembers, commaChars_cons, ← compactMembers, List.length_cons] at hn
      have hmembers := readMembers_compact ((other, w) :: members) h.2 (List.cons_ne_nil _ _) n rest
        (by omega)
      rw [compactMembers] at hmembers
      simp only [compactMembers, commaChars_cons, List.cons_append, skipSpace_comma,
        hmembers]
      rfl

end

/-- The text of a value holds this value and nothing else. -/
theorem ofString?_compact {v : Json} (h : v.isExact = true) : ofString? v.compact = some v := by
  have hread := readValue_compact v h (2 * v.compact.toList.length + 1) [] (by omega) nofun
  rw [List.append_nil] at hread
  simp only [ofString?, stepsFor, hread]
  rfl

/-! ## One line -/

/-- No control characters. -/
def OneLine (cs : List Char) : Prop := ∀ c ∈ cs, 0x20 ≤ c.toNat

theorem oneLine_append {cs ds : List Char} : OneLine (cs ++ ds) ↔ OneLine cs ∧ OneLine ds :=
  List.forall_mem_append

theorem oneLine_of_all {cs : List Char} (h : cs.all fun c => Nat.ble 0x20 c.toNat) : OneLine cs :=
  fun c hc => Nat.le_of_ble_eq_true (List.all_eq_true.1 h c hc)

theorem oneLine_quoted (s : String) : OneLine (quoted s).toList := by
  have hquote : OneLine ['"'] := oneLine_of_all rfl
  have hchars : OneLine (s.toList.flatMap escape) := by
    intro c hc
    obtain ⟨d, -, hd⟩ := List.mem_flatMap.1 hc
    exact toNat_of_mem_escape hd
  rw [toList_quoted, ← List.singleton_append, oneLine_append, oneLine_append]
  exact ⟨hquote, hchars, hquote⟩

theorem oneLine_intercalate {texts : List String} (h : ∀ s ∈ texts, OneLine s.toList) :
    OneLine (",".intercalate texts).toList := by
  cases texts with
  | nil => exact nofun
  | cons s texts =>
    rw [List.forall_mem_cons] at h
    rw [toList_intercalate_cons, oneLine_append]
    refine ⟨h.1, fun c hc => ?_⟩
    obtain ⟨t, ht, hc⟩ := List.mem_flatMap.1 hc
    rcases List.mem_cons.1 hc with rfl | hc
    · decide
    · exact h.2 t ht c hc

mutual

/-- The text of a value has no control characters. -/
theorem oneLine_compact : ∀ v : Json, v.isExact = true → OneLine v.compact.toList
  | null => by
    intro _
    rw [toList_compact_null]
    exact oneLine_of_all rfl
  | bool b => by
    intro _
    rw [toList_compact_bool]
    cases b <;> exact oneLine_of_all rfl
  | number (.int i) => fun _ _ => Numeral.toNat_of_mem_toString
  | number (.float x) => nofun
  | unreadable => nofun
  | string s => fun _ => oneLine_quoted s
  | array items => by
    intro h
    have hitems := oneLine_intercalate (oneLine_compactItems items h)
    rw [toList_compact_array, ← List.singleton_append, oneLine_append, oneLine_append]
    exact ⟨oneLine_of_all rfl, hitems, oneLine_of_all rfl⟩
  | object members => by
    intro h
    have hmembers := oneLine_intercalate (oneLine_compactMembers members h)
    rw [toList_compact_object, ← List.singleton_append, oneLine_append, oneLine_append]
    exact ⟨oneLine_of_all rfl, hmembers, oneLine_of_all rfl⟩

theorem oneLine_compactItems : ∀ items : List Json, areExact items = true →
    ∀ s ∈ compactItems items, OneLine s.toList
  | [] => nofun
  | v :: items => by
    intro h
    rw [areExact, Bool.and_eq_true] at h
    rw [compactItems, List.forall_mem_cons]
    exact ⟨oneLine_compact v h.1, oneLine_compactItems items h.2⟩

theorem oneLine_compactMembers : ∀ members : List (String × Json), membersExact members = true →
    ∀ s ∈ compactMembers members, OneLine s.toList
  | [] => nofun
  | (name, v) :: members => by
    intro h
    rw [membersExact, Bool.and_eq_true] at h
    rw [compactMembers, List.forall_mem_cons, String.toList_append, String.toList_append,
      oneLine_append, oneLine_append]
    exact ⟨⟨⟨oneLine_quoted name, oneLine_of_all rfl⟩, oneLine_compact v h.1⟩,
      oneLine_compactMembers members h.2⟩

end

end PaperTrail.Json
