/-!
# Letter case of the ASCII letters

* `fold s` : `s` with the letters `A` to `Z` in lower case, every other character as it is;
* `upper s` : the opposite direction;
* `sameFolded a b` : `a` and `b` differ at most in the case of ASCII letters.

Letters outside ASCII keep their case: `É` and `é` are different here.
-/

namespace PaperTrail.Text

/-- `s` with its ASCII letters in lower case. -/
def fold (s : String) : String := String.ofList (s.toList.map Char.toLower)

def upper (s : String) : String := String.ofList (s.toList.map Char.toUpper)

/-- Equality up to the case of ASCII letters. -/
def sameFolded (a b : String) : Bool := fold a == fold b

theorem toList_fold (s : String) : (fold s).toList = s.toList.map Char.toLower :=
  String.toList_ofList

theorem sameFolded_iff {a b : String} : sameFolded a b = true ↔ fold a = fold b := by
  simp [sameFolded]

theorem sameFolded_refl (a : String) : sameFolded a a = true := by simp [sameFolded]

theorem sameFolded_comm (a b : String) : sameFolded a b = sameFolded b a := by
  simp [sameFolded, BEq.comm]

end PaperTrail.Text
