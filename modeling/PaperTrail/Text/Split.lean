/-!
# Cutting texts at a character

* `cut? c s` : the texts before and after the first `c` of `s`;
* `afterLast c s` : the text after the last `c`, or all of `s` when it has none;
* `split c s` : the texts between the characters `c` of `s`;
* `dropTrailing c s` : `s` without the run of `c` at its end;
* `dropStart? p s` : what follows the opening `p` of `s`.
-/

namespace PaperTrail.Text

def cutChars? (c : Char) : List Char → Option (List Char × List Char)
  | [] => none
  | x :: xs => if x = c then some ([], xs) else (cutChars? c xs).map fun p => (x :: p.1, p.2)

/-- The texts before and after the first `c`; none when `c` does not occur. -/
def cut? (c : Char) (s : String) : Option (String × String) :=
  (cutChars? c s.toList).map fun p => (String.ofList p.1, String.ofList p.2)

/-- The parts between the characters `c`; there is always at least one. -/
def splitChars (c : Char) : List Char → List (List Char)
  | [] => [[]]
  | x :: xs =>
    if x = c then [] :: splitChars c xs
    else
      match splitChars c xs with
      | [] => [[x]]
      | p :: ps => (x :: p) :: ps

def split (c : Char) (s : String) : List String := (splitChars c s.toList).map String.ofList

/-- The text after the last `c`, or the whole text when `c` does not occur. -/
def afterLast (c : Char) (s : String) : String :=
  String.ofList (s.toList.reverse.takeWhile (· ≠ c)).reverse

/-- `s` without the run of `c` at its end. -/
def dropTrailing (c : Char) (s : String) : String :=
  String.ofList (s.toList.reverse.dropWhile (· = c)).reverse

def dropStartChars? : List Char → List Char → Option (List Char)
  | [], cs => some cs
  | _ :: _, [] => none
  | p :: ps, c :: cs => if p = c then dropStartChars? ps cs else none

/-- What follows `p` in a text that starts with `p`. -/
def dropStart? (p s : String) : Option String :=
  (dropStartChars? p.toList s.toList).map String.ofList

def startsWith (p s : String) : Bool := (dropStartChars? p.toList s.toList).isSome

theorem length_of_dropStartChars? {p s r : List Char} (h : dropStartChars? p s = some r) :
    s.length = p.length + r.length := by
  induction p generalizing s with
  | nil => simp only [dropStartChars?, Option.some.injEq] at h; simp [h]
  | cons x p ih =>
    cases s with
    | nil => simp [dropStartChars?] at h
    | cons y s =>
      simp only [dropStartChars?] at h
      split at h
      · simp [ih h]; omega
      · cases h

/-- `s` without every repetition of the opening `p :: ps`. -/
def dropStarts (p : Char) (ps : List Char) (s : List Char) : List Char :=
  match _h : dropStartChars? (p :: ps) s with
  | none => s
  | some rest => dropStarts p ps rest
termination_by s.length
decreasing_by
  have := length_of_dropStartChars? _h
  simp only [List.length_cons] at this
  omega

/-! ## What a cut keeps -/

theorem cutChars?_eq_some_iff {c : Char} {cs a b : List Char} :
    cutChars? c cs = some (a, b) ↔ cs = a ++ c :: b ∧ c ∉ a := by
  induction cs generalizing a with
  | nil => simp [cutChars?]
  | cons x xs ih =>
    by_cases h : x = c
    · subst h
      constructor
      · intro e
        simp only [cutChars?, if_true, Option.some.injEq, Prod.mk.injEq] at e
        obtain ⟨rfl, rfl⟩ := e
        simp
      · rintro ⟨e, hn⟩
        cases a with
        | nil => simp at e; simp [cutChars?, e]
        | cons y a => simp at e; simp [e.1] at hn
    · constructor
      · intro e
        simp only [cutChars?, h, if_false, Option.map_eq_some_iff] at e
        obtain ⟨⟨a', b'⟩, he, hp⟩ := e
        simp only [Prod.mk.injEq] at hp
        obtain ⟨rfl, rfl⟩ := hp
        obtain ⟨rfl, hn⟩ := ih.1 he
        simp [hn, Ne.symm h]
      · rintro ⟨e, hn⟩
        cases a with
        | nil => simp at e; exact absurd e.1 h
        | cons y a =>
          simp only [List.cons_append, List.cons.injEq] at e
          obtain ⟨rfl, rfl⟩ := e
          simp only [List.mem_cons, not_or] at hn
          simp [cutChars?, h, ih.2 ⟨rfl, hn.2⟩]

theorem cutChars?_append {c : Char} {a : List Char} (h : c ∉ a) (b : List Char) :
    cutChars? c (a ++ c :: b) = some (a, b) :=
  cutChars?_eq_some_iff.2 ⟨rfl, h⟩

theorem cutChars?_eq_none_iff {c : Char} {cs : List Char} : cutChars? c cs = none ↔ c ∉ cs := by
  induction cs with
  | nil => simp [cutChars?]
  | cons x xs ih =>
    by_cases h : x = c
    · simp [cutChars?, h]
    · simp [cutChars?, h, ih, Ne.symm h]

theorem dropStartChars?_append (p s : List Char) : dropStartChars? p (p ++ s) = some s := by
  induction p with
  | nil => rfl
  | cons c p ih => simp [dropStartChars?, ih]

theorem dropStartChars?_eq_some_iff {p s r : List Char} :
    dropStartChars? p s = some r ↔ s = p ++ r := by
  constructor
  · induction p generalizing s with
    | nil => intro h; simpa [dropStartChars?] using h
    | cons c p ih =>
      intro h
      cases s with
      | nil => simp [dropStartChars?] at h
      | cons d s =>
        simp only [dropStartChars?] at h
        split at h
        · next e => rw [ih h, e]; rfl
        · cases h
  · rintro rfl; exact dropStartChars?_append p r

end PaperTrail.Text
