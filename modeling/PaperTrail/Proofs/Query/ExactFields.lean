import PaperTrail.Proofs.Query.Description

/-!
# Whether a clause looks in exactly some fields

`Clause.hasExactly` compares the number of fields and asks whether each wanted one is among those of the
clause. Where the wanted fields have no repeats this decides whether they are the fields of the clause.
A repeat in them stands in for a field that is missing: the answer is yes exactly when the wanted
fields are fields of the clause and there are as many repeats among them as fields of the clause that
are not wanted (`hasExactly_iff`).
-/

namespace PaperTrail

section
variable {α : Type} [DecidableEq α]

theorem distinct_sublist (xs : List α) : (distinct xs).Sublist xs := by
  induction xs with
  | nil => exact List.Sublist.refl []
  | cons x xs ih => exact (List.filter_sublist.trans ih).cons_cons x

/-- How many elements of a list are there before already. -/
def repeats (xs : List α) : Nat := xs.length - (distinct xs).length

theorem length_eq_add_repeats (xs : List α) : xs.length = (distinct xs).length + repeats xs := by
  have hle := (distinct_sublist xs).length_le
  unfold repeats
  omega

theorem repeats_eq_zero_iff {xs : List α} : repeats xs = 0 ↔ xs.Nodup := by
  have hlength := length_eq_add_repeats xs
  constructor
  · intro h
    have heq : distinct xs = xs := (distinct_sublist xs).eq_of_length (by omega)
    rw [← heq]
    exact nodup_distinct xs
  · intro h
    rw [distinct_eq_self h] at hlength
    omega

end

namespace Clause
variable {c : Clause} {wanted : List Field}

def unwanted (c : Clause) (wanted : List Field) : List Field := c.fields.filter (· ∉ wanted)

theorem mem_unwanted {f : Field} : f ∈ c.unwanted wanted ↔ f ∈ c.fields ∧ f ∉ wanted := by
  rw [unwanted, List.mem_filter, decide_eq_true_iff]

theorem length_fields (h : ∀ f ∈ wanted, f ∈ c.fields) :
    c.fields.length = (distinct wanted).length + (c.unwanted wanted).length := by
  have hperm : (c.fields.filter (· ∈ wanted)).Perm (distinct wanted) := by
    refine (List.perm_ext_iff_of_nodup (c.nodup_fields.filter _) (nodup_distinct wanted)).2 fun f => ?_
    rw [List.mem_filter, decide_eq_true_iff, mem_distinct]
    exact and_iff_right_of_imp (h f)
  have hsplit := List.length_eq_length_filter_add (l := c.fields) fun f => decide (f ∈ wanted)
  rw [hperm.length_eq] at hsplit
  rw [hsplit, unwanted]
  congr 3
  funext f
  rw [decide_not]

/-- The answer is yes exactly when all wanted fields are fields of the clause, with as many repeats as
there are fields that are not wanted. -/
theorem hasExactly_iff : c.hasExactly wanted = true ↔
    (∀ f ∈ wanted, f ∈ c.fields) ∧ repeats wanted = (c.unwanted wanted).length := by
  have hmem : wanted.all c.fields.contains = true ↔ ∀ f ∈ wanted, f ∈ c.fields := by
    simp only [List.all_eq_true, List.contains_iff_mem]
  rw [hasExactly, Bool.and_eq_true, beq_iff_eq, hmem, and_comm]
  refine and_congr_right fun h => ?_
  have hfields := length_fields h
  have hwanted := length_eq_add_repeats wanted
  omega

theorem mem_fields_of_ofLists? {o : Operator} {negated : Bool} {fields : List Field}
    {terms : List String} (h : ofLists? o negated fields terms = some c) (f : Field) :
    f ∈ c.fields ↔ f ∈ fields := by
  unfold ofLists? at h
  split_ifs at h
  obtain rfl := Option.some.inj h
  exact mem_distinct

/-- What `hasExactly` decides, of the clause of any lists and any wanted fields. All wanted fields have to
be fields of the clause, with as many repeats among them as the clause has other fields. For wanted
fields without repeats this says that the clause looks in exactly these fields; with a repeat among
them, an answer of yes means that the clause looks in a field that is not wanted. -/
theorem hasExactly_ofLists? {o : Operator} {negated : Bool} {fields : List Field}
    {terms : List String} (h : ofLists? o negated fields terms = some c) (wanted : List Field) :
    (c.hasExactly wanted = true ↔
      (∀ f ∈ wanted, f ∈ fields) ∧ repeats wanted = (c.unwanted wanted).length) ∧
    (wanted.Nodup → (c.hasExactly wanted = true ↔ ∀ f, f ∈ fields ↔ f ∈ wanted)) ∧
    (¬ wanted.Nodup → c.hasExactly wanted = true → ∃ f ∈ fields, f ∉ wanted) := by
  simp only [← mem_fields_of_ofLists? h]
  refine ⟨hasExactly_iff, fun hnodup => ?_, fun hrepeats hexact => ?_⟩
  · rw [hasExactly_iff, repeats_eq_zero_iff.2 hnodup, eq_comm, List.length_eq_zero_iff,
      List.eq_nil_iff_forall_not_mem]
    constructor
    · rintro ⟨hmem, hnone⟩ f
      refine ⟨fun hf => ?_, hmem f⟩
      by_contra hnot
      exact hnone f (mem_unwanted.2 ⟨hf, hnot⟩)
    · intro hsame
      exact ⟨fun f => (hsame f).2, fun f hf =>
        (mem_unwanted.1 hf).2 ((hsame f).1 (mem_unwanted.1 hf).1)⟩
  · have hlength : (c.unwanted wanted).length ≠ 0 := by
      rw [← (hasExactly_iff.1 hexact).2]
      exact mt repeats_eq_zero_iff.1 hrepeats
    obtain ⟨f, hf⟩ := List.exists_mem_of_length_pos (Nat.pos_of_ne_zero hlength)
    exact ⟨f, mem_unwanted.1 hf⟩

/-- The fields of a clause in another order; and one of them twice, in place of the other one. -/
theorem hasExactly_ofLists?_repeated :
    ∃ c, ofLists? .or false [.abstract, .title, .abstract] ["x"] = some c ∧
      [Field.title, .abstract].Nodup ∧
      (c.hasExactly [.title, .abstract] = true ↔
        ∀ f, f ∈ [Field.abstract, .title, .abstract] ↔ f ∈ [Field.title, .abstract]) ∧
      ¬ [Field.title, .title].Nodup ∧ c.hasExactly [.title, .title] = true ∧
      ∃ f ∈ [Field.abstract, .title, .abstract], f ∉ [Field.title, .title] := by
  obtain ⟨c, hc, hexact⟩ : ∃ c, ofLists? .or false [.abstract, .title, .abstract] ["x"] = some c ∧
      c.hasExactly [.title, .title] = true := ⟨_, rfl, by decide⟩
  have hnodup : [Field.title, .abstract].Nodup := by decide
  have hrepeats : ¬ [Field.title, .title].Nodup := by decide
  exact ⟨c, hc, hnodup, (hasExactly_ofLists? hc _).2.1 hnodup, hrepeats, hexact,
    (hasExactly_ofLists? hc _).2.2 hrepeats hexact⟩

/-- With repeats among the wanted fields the answer can be yes for a clause that looks in other
fields too. -/
theorem not_hasExactly_iff_same :
    ¬ ∀ (o : Operator) (negated : Bool) (fields : List Field) (terms : List String) (c : Clause)
        (wanted : List Field), ofLists? o negated fields terms = some c →
        (c.hasExactly wanted = true ↔ ∀ f, f ∈ fields ↔ f ∈ wanted) := by
  intro hall
  have hiff := hall .or false [.title, .abstract] ["x"] _ [.title, .title] rfl
  have habstract := (hiff.1 (by decide) .abstract).1 (by decide)
  exact absurd habstract (by decide)

end Clause

end PaperTrail
