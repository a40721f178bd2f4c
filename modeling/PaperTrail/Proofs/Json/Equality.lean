import PaperTrail.Json.Basic

/-!
# Equality of JSON values

Equality can be decided: `same` compares two values part by part, members in their order, and finds
out whether they are equal.
-/

namespace PaperTrail.Json

mutual

/-- Whether two values have the same parts. -/
def same : Json → Json → Bool
  | null, null => true
  | bool a, bool b => a == b
  | number a, number b => decide (a = b)
  | string a, string b => a == b
  | array as, array bs => sameItems as bs
  | object as, object bs => sameMembers as bs
  | unreadable, unreadable => true
  | _, _ => false

def sameItems : List Json → List Json → Bool
  | [], [] => true
  | a :: as, b :: bs => same a b && sameItems as bs
  | _, _ => false

def sameMembers : List (String × Json) → List (String × Json) → Bool
  | [], [] => true
  | (m, a) :: as, (n, b) :: bs => m == n && same a b && sameMembers as bs
  | _, _ => false

end

mutual

theorem same_iff : ∀ a b : Json, a.same b = true ↔ a = b
  | null, b => by cases b <;> simp [same]
  | bool _, b => by cases b <;> simp [same]
  | number _, b => by cases b <;> simp [same]
  | string _, b => by cases b <;> simp [same]
  | array as, b => by
    cases b with
    | array bs => rw [same, sameItems_iff as bs, array.injEq]
    | _ => simp [same]
  | object as, b => by
    cases b with
    | object bs => rw [same, sameMembers_iff as bs, object.injEq]
    | _ => simp [same]
  | unreadable, b => by cases b <;> simp [same]

theorem sameItems_iff : ∀ as bs : List Json, sameItems as bs = true ↔ as = bs
  | [], bs => by cases bs <;> simp [sameItems]
  | a :: as, bs => by
    cases bs with
    | nil => simp [sameItems]
    | cons b bs => rw [sameItems, Bool.and_eq_true, same_iff a b, sameItems_iff as bs, List.cons.injEq]

theorem sameMembers_iff : ∀ as bs : List (String × Json), sameMembers as bs = true ↔ as = bs
  | [], bs => by cases bs <;> simp [sameMembers]
  | (m, a) :: as, bs => by
    cases bs with
    | nil => simp [sameMembers]
    | cons b bs =>
      rw [sameMembers, Bool.and_eq_true, Bool.and_eq_true, beq_iff_eq, same_iff a b.2,
        sameMembers_iff as bs, List.cons.injEq, Prod.ext_iff]

end

instance : DecidableEq Json := fun a b => decidable_of_iff (a.same b = true) (same_iff a b)

end PaperTrail.Json
