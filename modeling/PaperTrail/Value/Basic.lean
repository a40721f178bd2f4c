import PaperTrail.Number

/-!
# Values of a description

* `Value` : a scalar, a sequence, a mapping from values to values in the order in which it was
  written, or a value under a tag;
* `untagged v` : what is left of `v` when its tags are taken off;
* `get?`, `sequence?`, `string?`, `bool?` : views of a value, which all look through tags;
* `same` : equality of keys.
-/

namespace PaperTrail

/-- A value of a description. -/
inductive Value where
  | null
  | bool (value : Bool)
  | number (value : Number)
  | string (value : String)
  | sequence (items : List Value)
  | mapping (entries : List (Value × Value))
  | tagged (tag : String) (value : Value)
deriving Inhabited

namespace Value

def untagged : Value → Value
  | tagged _ v => v.untagged
  | v => v

def mapping? (v : Value) : Option (List (Value × Value)) :=
  match v.untagged with
  | mapping es => some es
  | _ => none

def isMapping (v : Value) : Bool := v.mapping?.isSome

def sequence? (v : Value) : Option (List Value) :=
  match v.untagged with
  | sequence items => some items
  | _ => none

def string? (v : Value) : Option String :=
  match v.untagged with
  | string s => some s
  | _ => none

def bool? (v : Value) : Option Bool :=
  match v.untagged with
  | bool b => some b
  | _ => none

/-- Whether the value is the untagged text `s`. -/
def isText (s : String) : Value → Bool
  | string t => t == s
  | _ => false

def find? (key : String) : List (Value × Value) → Option Value
  | [] => none
  | (k, v) :: rest => if k.isText key then some v else find? key rest

def get? (key : String) (v : Value) : Option Value := v.mapping?.bind (find? key)

/-- The text of a scalar that is a string, a number or a boolean, and has no tag. -/
def scalarText? : Value → Option String
  | string s => some s
  | number n => some n.text
  | bool b => some (if b then "true" else "false")
  | _ => none

/-! ## What the views show -/

theorem mapping?_eq_some_iff {v : Value} {es : List (Value × Value)} :
    v.mapping? = some es ↔ v.untagged = mapping es := by
  unfold mapping?
  split
  · next h => rw [h, Option.some_inj, mapping.injEq]
  · next h => exact iff_of_false (by simp) (h es)

theorem sequence?_eq_some_iff {v : Value} {items : List Value} :
    v.sequence? = some items ↔ v.untagged = sequence items := by
  unfold sequence?
  split
  · next h => rw [h, Option.some_inj, sequence.injEq]
  · next h => exact iff_of_false (by simp) (h items)

theorem string?_eq_some_iff {v : Value} {s : String} :
    v.string? = some s ↔ v.untagged = string s := by
  unfold string?
  split
  · next h => rw [h, Option.some_inj, string.injEq]
  · next h => exact iff_of_false (by simp) (h s)

theorem bool?_eq_some_iff {v : Value} {b : Bool} : v.bool? = some b ↔ v.untagged = bool b := by
  unfold bool?
  split
  · next h => rw [h, Option.some_inj, bool.injEq]
  · next h => exact iff_of_false (by simp) (h b)

theorem isMapping_iff {v : Value} : v.isMapping = true ↔ ∃ es, v.untagged = mapping es := by
  rw [isMapping, Option.isSome_iff_exists]
  exact exists_congr fun es => mapping?_eq_some_iff

/-- A mapping has under a key what its entries say. -/
theorem get?_eq_find? {v : Value} {es : List (Value × Value)} (h : v.untagged = mapping es)
    (key : String) : v.get? key = find? key es := by
  rw [get?, mapping?_eq_some_iff.2 h, Option.bind_some]

/-! ## Parts are smaller -/

theorem sizeOf_untagged_le (v : Value) : sizeOf v.untagged ≤ sizeOf v := by
  induction v using untagged.induct with
  | case1 t v ih => simp only [untagged, tagged.sizeOf_spec]; omega
  | case2 v h =>
    cases v with
    | tagged t w => exact absurd rfl (h t w)
    | _ => simp [untagged]

theorem sizeOf_lt_of_sequence? {v : Value} {items : List Value} (h : v.sequence? = some items) :
    sizeOf items < sizeOf v := by
  have := sizeOf_untagged_le v
  unfold sequence? at h
  split at h
  · next e =>
    rw [e, sequence.sizeOf_spec] at this
    obtain rfl := Option.some.inj h
    omega
  · cases h

theorem sizeOf_lt_of_mapping? {v : Value} {es : List (Value × Value)} (h : v.mapping? = some es) :
    sizeOf es < sizeOf v := by
  have := sizeOf_untagged_le v
  unfold mapping? at h
  split at h
  · next e =>
    rw [e, mapping.sizeOf_spec] at this
    obtain rfl := Option.some.inj h
    omega
  · cases h

theorem sizeOf_lt_of_find? {key : String} {es : List (Value × Value)} {v : Value}
    (h : find? key es = some v) : sizeOf v < sizeOf es := by
  induction es with
  | nil => simp [find?] at h
  | cons e es ih =>
    obtain ⟨k, w⟩ := e
    simp only [find?] at h
    split at h
    · obtain rfl := Option.some.inj h
      simp only [List.cons.sizeOf_spec, Prod.mk.sizeOf_spec]
      omega
    · have := ih h
      simp only [List.cons.sizeOf_spec]
      omega

theorem sizeOf_lt_of_get? {key : String} {v w : Value} (h : v.get? key = some w) :
    sizeOf w < sizeOf v := by
  obtain ⟨es, he, hw⟩ := Option.bind_eq_some_iff.1 h
  have := sizeOf_lt_of_mapping? he
  have := sizeOf_lt_of_find? hw
  omega

end Value

end PaperTrail
