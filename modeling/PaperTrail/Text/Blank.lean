/-!
# Blank characters and trimming

* `isBlank` : the Unicode property White_Space, given by its ranges of code points;
* `trim s` : `s` without the blanks at its two ends; `trimChars` is the same on characters;
* `isBlankText s` : nothing of `s` is left after trimming (`isBlankText_iff`).

A character that only looks empty, such as the zero width space, is not blank.
-/

namespace PaperTrail.Text

/-- Whether `c` lies in one of the inclusive `ranges` of code points. -/
def inRanges (ranges : List (Nat × Nat)) (c : Char) : Bool :=
  ranges.any fun r => decide (r.1 ≤ c.toNat) && decide (c.toNat ≤ r.2)

/-- The code points with the property White_Space. -/
def blankRanges : List (Nat × Nat) :=
  [(0x09, 0x0D), (0x20, 0x20), (0x85, 0x85), (0xA0, 0xA0), (0x1680, 0x1680), (0x2000, 0x200A),
    (0x2028, 0x2029), (0x202F, 0x202F), (0x205F, 0x205F), (0x3000, 0x3000)]

def isBlank (c : Char) : Bool := inRanges blankRanges c

def trimEndChars (cs : List Char) : List Char := (cs.reverse.dropWhile isBlank).reverse

def trimChars (cs : List Char) : List Char := trimEndChars (cs.dropWhile isBlank)

/-- `s` without the blanks at its two ends. -/
def trim (s : String) : String := String.ofList (trimChars s.toList)

def isBlankText (s : String) : Bool := s.toList.all isBlank

/-! ## Trimming removes exactly the outer blanks -/

theorem toList_trim (s : String) : (trim s).toList = trimChars s.toList := String.toList_ofList

theorem dropWhile_eq_nil_iff {p : Char → Bool} {cs : List Char} :
    cs.dropWhile p = [] ↔ ∀ c ∈ cs, p c = true := by
  induction cs with
  | nil => simp
  | cons c cs ih => by_cases h : p c = true <;> simp [h, ih]

theorem trimEndChars_eq_nil_iff {cs : List Char} :
    trimEndChars cs = [] ↔ ∀ c ∈ cs, isBlank c = true := by
  rw [trimEndChars, List.reverse_eq_nil_iff, dropWhile_eq_nil_iff]
  simp

theorem trimChars_eq_nil_iff {cs : List Char} : trimChars cs = [] ↔ ∀ c ∈ cs, isBlank c = true := by
  rw [trimChars, trimEndChars_eq_nil_iff]
  induction cs with
  | nil => simp
  | cons c cs ih => by_cases h : isBlank c = true <;> simp [h, ih]

theorem isBlankText_iff {s : String} : isBlankText s = true ↔ trim s = "" := by
  rw [isBlankText, List.all_eq_true, ← trimChars_eq_nil_iff, ← toList_trim,
    ← String.toList_inj, String.toList_empty]

/-- Text that neither starts nor ends with a blank is left alone. -/
theorem trimChars_eq_self {cs : List Char} (h₁ : ∀ c ∈ cs.head?, isBlank c = false)
    (h₂ : ∀ c ∈ cs.getLast?, isBlank c = false) : trimChars cs = cs := by
  have hd : cs.dropWhile isBlank = cs := by
    cases cs with
    | nil => rfl
    | cons c cs => simp [h₁ c (by simp)]
  rw [trimChars, hd, trimEndChars]
  have hr : cs.reverse.dropWhile isBlank = cs.reverse := by
    cases h : cs.reverse with
    | nil => rfl
    | cons c r =>
      have : cs.getLast? = some c := by rw [← List.head?_reverse, h]; rfl
      simp [h₂ c (by simp [this])]
  rw [hr, List.reverse_reverse]

end PaperTrail.Text
