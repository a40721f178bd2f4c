import PaperTrail.Proofs.Query.Description

/-!
# The checks of a description

A description is checked node by node, from the root on and from left to right, every node by a list
of checks.

* `Check`, `Fails` : the checks, and what it means that one fails on a node, with the refusal;
* `sites` : all checks of a tree in their order, each with its node and the place of the node;
* `FirstFailure` : the first check of a list that fails;
* `Reports` : a result is an error exactly when one of some checks fails, and then that of the first
  one. It goes along `>>=`, so each reader reports the checks of its parts in their order.
-/

namespace PaperTrail

namespace DescriptionError

def node : DescriptionError → Value
  | unknownOperator _ node => node
  | unknownField _ node => node
  | missingKey _ node => node
  | invalidValue _ node => node
  | empty _ node => node

def wording : DescriptionError → String
  | unknownOperator token _ => "unknown operator '" ++ token ++ "'"
  | unknownField token _ => "unknown field '" ++ token ++ "'"
  | missingKey key _ => "missing '" ++ key.name ++ "' key"
  | invalidValue key _ => "invalid value for '" ++ key.name ++ "'"
  | empty key _ => "'" ++ key.name ++ "' must not be empty"

theorem message_eq (e : DescriptionError) :
    e.message = e.wording ++ " in " ++ e.node.fragment := by
  have hcut {a b c d : String} (h : b = c ++ " in ") : a ++ b ++ d = a ++ c ++ " in " ++ d := by
    rw [h, ← String.append_assoc]
  cases e with
  | unknownOperator token n => exact hcut rfl
  | unknownField token n => exact hcut rfl
  | missingKey key n => exact hcut rfl
  | invalidValue key n => exact hcut rfl
  | empty key n => exact hcut rfl

end DescriptionError

namespace Description

/-! ## Checks -/

/-- A check of a node. -/
inductive Check where
  /-- The node is a mapping; if it is not, the refusal names a key that it should have. -/
  | mapping (key : DescriptionKey)
  | negated
  | operator
  | present (key : DescriptionKey)
  | sequence (key : DescriptionKey)
  | nonEmpty (key : DescriptionKey)
  | field (item : Value)
  | term (item : Value)

/-- The check fails on the node, and this is the refusal. -/
inductive Fails (node : Value) : Check → DescriptionError → Prop where
  | mapping {key} (h : ∀ es, node.untagged ≠ .mapping es) :
      Fails node (.mapping key) (.invalidValue key node)
  | negated {raw} (h : node.get? "negated" = some raw) (hraw : ∀ b, raw.untagged ≠ .bool b) :
      Fails node .negated (.invalidValue .negated node)
  | operator {raw} (h : node.get? "operator" = some raw) (hraw : ∀ s, raw.untagged ≠ .string s) :
      Fails node .operator (.invalidValue .operator node)
  | operatorName {raw token} (h : node.get? "operator" = some raw)
      (hraw : raw.untagged = .string token)
      (hname : ∀ o : Operator, Text.fold (Text.trim token) ≠ o.name) :
      Fails node .operator (.unknownOperator token node)
  | present {key} (h : node.get? key.name = none) : Fails node (.present key) (.missingKey key node)
  | sequence {key raw} (h : node.get? key.name = some raw)
      (hraw : ∀ items, raw.untagged ≠ .sequence items) :
      Fails node (.sequence key) (.invalidValue key node)
  | nonEmpty {key raw} (h : node.get? key.name = some raw) (hraw : raw.untagged = .sequence []) :
      Fails node (.nonEmpty key) (.empty key node)
  | field {item} (h : ∀ s, item.untagged ≠ .string s) :
      Fails node (.field item) (.invalidValue .fields node)
  | fieldName {item token} (h : item.untagged = .string token)
      (hname : ∀ f : Field, Text.fold (Text.trim token) ≠ f.name) :
      Fails node (.field item) (.unknownField token node)
  | term {item} (h : ∀ s, ¬ IsTerm item s) : Fails node (.term item) (.invalidValue .terms node)

theorem Fails.node {node : Value} {c : Check} {e : DescriptionError} (h : Fails node c e) :
    e.node = node := by
  cases h <;> rfl

/-! ## Checks in their order -/

/-- A check of a node, and the place of the node: the numbers of the parts that lead to it. -/
structure Site where
  place : List Nat
  node : Value
  check : Check

def Site.Fails (s : Site) (e : DescriptionError) : Prop := Description.Fails s.node s.check e

def Site.Passes (s : Site) : Prop := ∀ e, ¬ s.Fails e

/-- The items that a node has under a key; there are none without a sequence. -/
def itemsUnder (node : Value) (key : DescriptionKey) : List Value :=
  ((node.get? key.name).bind Value.sequence?).getD []

def itemChecks (key : DescriptionKey) : List Check := [.present key, .sequence key, .nonEmpty key]

def queryChecks : List Check := .mapping .queries :: .operator :: itemChecks .queries

def clauseChecks (node : Value) : List Check :=
  .mapping .fields :: .negated :: .operator ::
    (itemChecks .fields ++ (itemsUnder node .fields).map .field ++
      (itemChecks .terms ++ (itemsUnder node .terms).map .term))

def sitesAt (place : List Nat) (node : Value) (cs : List Check) : List Site :=
  cs.map fun c => ⟨place, node, c⟩

theorem sizeOf_itemsUnder_le (node : Value) (key : DescriptionKey) :
    sizeOf (itemsUnder node key) ≤ sizeOf node := by
  unfold itemsUnder
  cases hraw : node.get? key.name with
  | none => cases node <;> simp; omega
  | some raw =>
    have hsmaller := Value.sizeOf_lt_of_get? hraw
    cases hitems : raw.sequence? with
    | none =>
      simp only [Option.bind_some, hitems, Option.getD_none, List.nil.sizeOf_spec]
      omega
    | some items =>
      have := Value.sizeOf_lt_of_sequence? hitems
      simp only [Option.bind_some, hitems, Option.getD_some]
      omega

mutual

/-- The checks of the query at a place: its own, and then those of its parts. -/
def sites (place : List Nat) (node : Value) : List Site :=
  sitesAt place node queryChecks ++ partSites place 0 (itemsUnder node .queries)
termination_by 3 * sizeOf node + 1
decreasing_by
  have := sizeOf_itemsUnder_le node .queries
  omega

/-- The checks of the part at a place: a query when it has the key `queries`, else a clause. -/
def sitesOfPart (place : List Nat) (v : Value) : List Site :=
  if (v.get? DescriptionKey.queries.name).isSome then sites place v
  else sitesAt place v (clauseChecks v)
termination_by 3 * sizeOf v + 2
decreasing_by omega

def partSites (place : List Nat) (i : Nat) (parts : List Value) : List Site :=
  match parts with
  | [] => []
  | v :: vs => sitesOfPart (place ++ [i]) v ++ partSites place (i + 1) vs
termination_by 3 * sizeOf parts
decreasing_by
  all_goals simp only [List.cons.sizeOf_spec]; omega

end

/-! ## The first failure -/

/-- The site is the first one of a list whose check fails, and this is the refusal. -/
def FirstFailure (ss : List Site) (s : Site) (e : DescriptionError) : Prop :=
  ∃ before after, ss = before ++ s :: after ∧ (∀ t ∈ before, t.Passes) ∧ s.Fails e

theorem FirstFailure.mem {ss : List Site} {s : Site} {e : DescriptionError}
    (h : FirstFailure ss s e) : s ∈ ss := by
  obtain ⟨before, after, rfl, -, -⟩ := h
  simp

theorem FirstFailure.fails {ss : List Site} {s : Site} {e : DescriptionError}
    (h : FirstFailure ss s e) : s.Fails e := by
  obtain ⟨-, -, -, -, h⟩ := h
  exact h

theorem not_firstFailure_nil {s : Site} {e : DescriptionError} : ¬ FirstFailure [] s e :=
  fun h => List.not_mem_nil h.mem

theorem firstFailure_cons_iff {t : Site} {ts : List Site} {s : Site} {e : DescriptionError} :
    FirstFailure (t :: ts) s e ↔ s = t ∧ t.Fails e ∨ t.Passes ∧ FirstFailure ts s e := by
  constructor
  · rintro ⟨before, after, hsplit, hpass, hfail⟩
    cases before with
    | nil =>
      obtain ⟨rfl, -⟩ := List.cons.inj hsplit
      exact Or.inl ⟨rfl, hfail⟩
    | cons b before =>
      obtain ⟨rfl, rfl⟩ := List.cons.inj hsplit
      obtain ⟨hb, hpass⟩ := List.forall_mem_cons.1 hpass
      exact Or.inr ⟨hb, before, after, rfl, hpass, hfail⟩
  · rintro (⟨rfl, hfail⟩ | ⟨ht, before, after, rfl, hpass, hfail⟩)
    · exact ⟨[], ts, rfl, by simp, hfail⟩
    · exact ⟨t :: before, after, rfl, List.forall_mem_cons.2 ⟨ht, hpass⟩, hfail⟩

theorem firstFailure_append_iff {ss ts : List Site} {s : Site} {e : DescriptionError} :
    FirstFailure (ss ++ ts) s e ↔
      FirstFailure ss s e ∨ (∀ t ∈ ss, t.Passes) ∧ FirstFailure ts s e := by
  induction ss with
  | nil => simp [not_firstFailure_nil]
  | cons t ss ih =>
    rw [List.cons_append, firstFailure_cons_iff, firstFailure_cons_iff, ih, List.forall_mem_cons]
    tauto

/-- Either a check is the first to fail, or none fails. -/
theorem exists_firstFailure_or_passes (ss : List Site) :
    (∃ s e, FirstFailure ss s e) ∨ ∀ s ∈ ss, s.Passes := by
  induction ss with
  | nil => exact Or.inr (by simp)
  | cons t ts ih =>
    by_cases ht : t.Passes
    · rcases ih with ⟨s, e, h⟩ | h
      · exact Or.inl ⟨s, e, firstFailure_cons_iff.2 (Or.inr ⟨ht, h⟩)⟩
      · exact Or.inr (List.forall_mem_cons.2 ⟨ht, h⟩)
    · obtain ⟨e, he⟩ := not_forall_not.1 ht
      exact Or.inl ⟨t, e, firstFailure_cons_iff.2 (Or.inl ⟨rfl, he⟩)⟩

/-! ## What readers report -/

section Reports
variable {α β : Type} {x : Except DescriptionError α} {ss ts : List Site}

/-- The result is an error exactly when one of the checks fails, and then that of the first one. -/
def Reports (x : Except DescriptionError α) (ss : List Site) : Prop :=
  ∀ e, x = .error e ↔ ∃ s, FirstFailure ss s e

theorem reports_ok (a : α) : Reports (.ok a) [] := by
  intro e
  simp [not_firstFailure_nil]

theorem reports_singleton {s : Site} (h : ∀ e, x = .error e ↔ s.Fails e) : Reports x [s] := by
  intro e
  rw [h]
  simp [firstFailure_cons_iff, not_firstFailure_nil]

theorem Reports.passes {a : α} (h : Reports x ss) (hx : x = .ok a) : ∀ s ∈ ss, s.Passes := by
  rcases exists_firstFailure_or_passes ss with ⟨s, e, hs⟩ | hpass
  · have he := (h e).2 ⟨s, hs⟩
    rw [hx] at he
    cases he
  · exact hpass

theorem Reports.bind {f : α → Except DescriptionError β} (h : Reports x ss)
    (hf : ∀ a, x = .ok a → Reports (f a) ts) : Reports (x >>= f) (ss ++ ts) := by
  intro e
  simp only [firstFailure_append_iff, exists_or, exists_and_left, ← h e]
  cases hx : x with
  | ok a =>
    have hpass := h.passes hx
    show f a = .error e ↔ _
    rw [hf a hx e]
    exact ⟨fun hs => Or.inr ⟨hpass, hs⟩, fun hs => (hs.resolve_left nofun).2⟩
  | error e' =>
    have hsame : (Except.error e' : Except _ β) = .error e ↔ (Except.error e' : Except _ α) = .error e := by
      simp
    show Except.error e' = .error e ↔ _
    rw [hsame]
    refine ⟨Or.inl, fun hs => hs.resolve_right fun hrest => ?_⟩
    obtain ⟨s, hs⟩ := (h e').1 hx
    exact hrest.1 s hs.mem e' hs.fails

end Reports

end Description

end PaperTrail
