import PaperTrail.Proofs.Query.Checks

/-!
# What the readers of descriptions refuse

Every reader reports the checks of its part of the description: `reports_clauseOf` for a clause,
`reports_queryOf` for a tree.
-/

namespace PaperTrail.Description

/-! ## The readers of a node -/

theorem orElse_eq_error_iff {α : Type} {e e' : DescriptionError} {x : Option α} :
    orElse e' x = .error e ↔ x = none ∧ e' = e := by
  cases x <;> simp [orElse]

theorem eq_none_iff_of_eq_some_iff {α : Type} {P : α → Prop} {x : Option α}
    (h : ∀ {a}, x = some a ↔ P a) : x = none ↔ ∀ a, ¬ P a :=
  Option.eq_none_iff_forall_ne_some.trans (forall_congr' fun _ => not_congr h)

section Node
variable {node : Value} {e : DescriptionError} {place : List Nat}

theorem negatedOf_eq_error_iff : negatedOf node = .error e ↔ Fails node .negated e := by
  unfold negatedOf
  constructor
  · intro h
    split at h
    · cases h
    · next raw hraw =>
      obtain ⟨hbool, rfl⟩ := orElse_eq_error_iff.1 h
      exact .negated hraw ((eq_none_iff_of_eq_some_iff Value.bool?_eq_some_iff).1 hbool)
  · intro h
    cases h with
    | negated h hraw =>
      simp only [DescriptionKey.name, h]
      exact orElse_eq_error_iff.2
        ⟨(eq_none_iff_of_eq_some_iff Value.bool?_eq_some_iff).2 hraw, rfl⟩

theorem operatorOf_eq_error_iff {default : Operator} :
    operatorOf node default = .error e ↔ Fails node .operator e := by
  unfold operatorOf
  constructor
  · intro h
    split at h
    · cases h
    · next raw hraw =>
      split at h
      · next hkind =>
        cases h
        exact .operator hraw ((eq_none_iff_of_eq_some_iff Value.string?_eq_some_iff).1 hkind)
      · next token htoken =>
        obtain ⟨hname, rfl⟩ := orElse_eq_error_iff.1 h
        exact .operatorName hraw (Value.string?_eq_some_iff.1 htoken)
          ((eq_none_iff_of_eq_some_iff operator_ofToken?_eq_some_iff).1 hname)
  · intro h
    cases h with
    | operator h hraw =>
      simp only [DescriptionKey.name, h,
        (eq_none_iff_of_eq_some_iff Value.string?_eq_some_iff).2 hraw]
    | operatorName h hraw hname =>
      simp only [DescriptionKey.name, h, Value.string?_eq_some_iff.2 hraw]
      exact orElse_eq_error_iff.2
        ⟨(eq_none_iff_of_eq_some_iff operator_ofToken?_eq_some_iff).2 hname, rfl⟩

theorem fieldOf_eq_error_iff {item : Value} :
    fieldOf node item = .error e ↔ Fails node (.field item) e := by
  unfold fieldOf
  constructor
  · intro h
    split at h
    · next hkind =>
      cases h
      exact .field ((eq_none_iff_of_eq_some_iff Value.string?_eq_some_iff).1 hkind)
    · next token htoken =>
      obtain ⟨hname, rfl⟩ := orElse_eq_error_iff.1 h
      exact .fieldName (Value.string?_eq_some_iff.1 htoken)
        ((eq_none_iff_of_eq_some_iff field_ofToken?_eq_some_iff).1 hname)
  · intro h
    cases h with
    | field h => simp only [(eq_none_iff_of_eq_some_iff Value.string?_eq_some_iff).2 h]
    | fieldName h hname =>
      simp only [Value.string?_eq_some_iff.2 h]
      exact orElse_eq_error_iff.2
        ⟨(eq_none_iff_of_eq_some_iff field_ofToken?_eq_some_iff).2 hname, rfl⟩

theorem termOf_eq_error_iff {item : Value} :
    termOf node item = .error e ↔ Fails node (.term item) e := by
  have hok : ∀ {s}, item.scalarText? = some s ↔ IsTerm item s := by
    intro s
    rw [← @termOf_eq_ok_iff node, termOf, orElse_eq_ok_iff]
  have hterm : item.scalarText? = none ↔ ∀ s, ¬ IsTerm item s := eq_none_iff_of_eq_some_iff hok
  rw [termOf, orElse_eq_error_iff, hterm]
  constructor
  · rintro ⟨h, rfl⟩
    exact .term h
  · intro h
    cases h with
    | term h => exact ⟨h, rfl⟩

theorem not_fails_present {key : DescriptionKey} {raw : Value} (h : node.get? key.name = some raw) :
    ¬ Fails node (.present key) e := by
  intro hfail
  cases hfail with
  | present hnone => simp [h] at hnone

theorem not_fails_sequence {key : DescriptionKey} {raw : Value} {items : List Value}
    (h : node.get? key.name = some raw) (hraw : raw.untagged = .sequence items) :
    ¬ Fails node (.sequence key) e := by
  intro hfail
  cases hfail with
  | sequence h' hnone =>
    obtain rfl := Option.some.inj (h.symm.trans h')
    exact hnone items hraw

theorem reports_itemsOf (place : List Nat) (node : Value) (key : DescriptionKey) :
    Reports (itemsOf node key) (sitesAt place node (itemChecks key)) := by
  intro e
  simp only [sitesAt, itemChecks, List.map_cons, List.map_nil, firstFailure_cons_iff,
    not_firstFailure_nil, and_false, or_false, Site.Passes, Site.Fails]
  constructor
  · intro h
    unfold itemsOf at h
    split at h
    · next hkey =>
      cases h
      exact ⟨⟨place, node, _⟩, Or.inl ⟨rfl, .present hkey⟩⟩
    · next raw hkey =>
      split at h
      · next hkind =>
        cases h
        have hraw := (eq_none_iff_of_eq_some_iff Value.sequence?_eq_some_iff).1 hkind
        exact ⟨⟨place, node, _⟩, Or.inr ⟨fun _ => not_fails_present hkey,
          Or.inl ⟨rfl, .sequence hkey hraw⟩⟩⟩
      · next hempty =>
        cases h
        have hraw := Value.sequence?_eq_some_iff.1 hempty
        exact ⟨⟨place, node, _⟩, Or.inr ⟨fun _ => not_fails_present hkey,
          Or.inr ⟨fun _ => not_fails_sequence hkey hraw, rfl, .nonEmpty hkey hraw⟩⟩⟩
      · cases h
  · rintro ⟨s, ⟨-, h⟩ | ⟨-, ⟨-, h⟩ | ⟨-, -, h⟩⟩⟩
    · cases h with
      | present h => simp only [itemsOf, h]
    · cases h with
      | sequence h hraw =>
        simp only [itemsOf, h, (eq_none_iff_of_eq_some_iff Value.sequence?_eq_some_iff).2 hraw]
    · cases h with
      | nonEmpty h hraw => simp only [itemsOf, h, Value.sequence?_eq_some_iff.2 hraw]

theorem itemsUnder_of_itemsOf {key : DescriptionKey} {items : List Value}
    (h : itemsOf node key = .ok items) : itemsUnder node key = items := by
  unfold itemsOf at h
  split at h
  · cases h
  · next raw hkey =>
    split at h
    · cases h
    · cases h
    · next v vs hitems =>
      cases h
      simp only [itemsUnder, hkey, Option.bind_some, hitems, Option.getD_some]

theorem reports_forEach {β : Type} {f : Value → Except DescriptionError β} {check : Value → Check}
    (hf : ∀ v e, f v = .error e ↔ Fails node (check v) e) (vs : List Value) :
    Reports (forEach f vs) (sitesAt place node (vs.map check)) := by
  induction vs with
  | nil => exact reports_ok []
  | cons v vs ih =>
    have hfirst : Reports (f v) [⟨place, node, check v⟩] := reports_singleton (hf v)
    have hstep : forEach f (v :: vs) = f v >>= fun y => forEach f vs >>= fun ys => .ok (y :: ys) := by
      rw [forEach]
      cases f v with
      | error e => rfl
      | ok y => cases forEach f vs <;> rfl
    rw [hstep]
    have hrest := fun y => ih.bind fun ys _ => reports_ok (y :: ys)
    simp only [List.append_nil] at hrest
    exact hfirst.bind fun y _ => hrest y

theorem mapping_eq_error_iff {key : DescriptionKey} :
    (if node.isMapping then .ok () else .error (.invalidValue key node) :
      Except DescriptionError Unit) = .error e ↔ Fails node (.mapping key) e := by
  constructor
  · intro h
    split at h
    · cases h
    · next hmap =>
      cases h
      exact .mapping fun es hes => hmap (Value.isMapping_iff.2 ⟨es, hes⟩)
  · intro h
    cases h with
    | mapping h =>
      have hmap : ¬ node.isMapping = true := fun hmap =>
        (Value.isMapping_iff.1 hmap).elim h
      rw [if_neg hmap]

/-- A reader that wants a mapping checks this first. -/
theorem reports_mapping {α : Type} {x : Except DescriptionError α} {key : DescriptionKey}
    {ss : List Site} (hx : Reports x ss) :
    Reports (if node.isMapping then x else .error (.invalidValue key node))
      (⟨place, node, .mapping key⟩ :: ss) := by
  have hfirst : Reports (if node.isMapping then .ok () else .error (.invalidValue key node))
      [⟨place, node, .mapping key⟩] := reports_singleton fun _ => mapping_eq_error_iff
  have hstep : (if node.isMapping then x else .error (.invalidValue key node)) =
      (if node.isMapping then .ok () else .error (.invalidValue key node)) >>= fun _ => x := by
    split <;> rfl
  rw [hstep]
  exact hfirst.bind fun _ _ => hx

theorem ne_nil_of_itemsOf {key : DescriptionKey} {items : List Value}
    (h : itemsOf node key = .ok items) : items ≠ [] := by
  unfold itemsOf at h
  split at h
  · cases h
  · split at h
    · cases h
    · cases h
    · cases h
      exact List.cons_ne_nil _ _

/-- Whatever gets as far as this makes a clause. -/
theorem exists_ofLists? {fieldItems termItems : List Value} {named : List Field}
    {terms : List String} (hfi : itemsOf node .fields = .ok fieldItems)
    (hnamed : forEach (fieldOf node) fieldItems = .ok named)
    (hti : itemsOf node .terms = .ok termItems)
    (hterms : forEach (termOf node) termItems = .ok terms) (o : Operator) (negated : Bool) :
    ∃ c, Clause.ofLists? o negated named terms = some c := by
  have hne : named ≠ [] := ne_nil_of_forall₂ (forEach_eq_ok_iff.1 hnamed) (ne_nil_of_itemsOf hfi)
  have hne' : terms ≠ [] := ne_nil_of_forall₂ (forEach_eq_ok_iff.1 hterms) (ne_nil_of_itemsOf hti)
  exact ⟨_, by rw [Clause.ofLists?, dif_neg hne, dif_neg hne']⟩

theorem reports_clauseOf (place : List Nat) (node : Value) :
    Reports (clauseOf node) (sitesAt place node (clauseChecks node)) := by
  have hsites : sitesAt place node (clauseChecks node) =
      ⟨place, node, .mapping .fields⟩ :: ([⟨place, node, .negated⟩] ++ ([⟨place, node, .operator⟩] ++
        (sitesAt place node (itemChecks .fields) ++
          (sitesAt place node ((itemsUnder node .fields).map .field) ++
            (sitesAt place node (itemChecks .terms) ++
              (sitesAt place node ((itemsUnder node .terms).map .term) ++ [])))))) := by
    simp [sitesAt, clauseChecks]
  rw [hsites, clauseOf]
  refine reports_mapping ?_
  refine (reports_singleton fun _ => negatedOf_eq_error_iff).bind fun negated _ => ?_
  refine (reports_singleton fun _ => operatorOf_eq_error_iff).bind fun operator _ => ?_
  refine (reports_itemsOf place node .fields).bind fun fieldItems hfi => ?_
  rw [itemsUnder_of_itemsOf hfi]
  refine (reports_forEach (fun _ _ => fieldOf_eq_error_iff) fieldItems).bind fun named hnamed => ?_
  refine (reports_itemsOf place node .terms).bind fun termItems hti => ?_
  rw [itemsUnder_of_itemsOf hti]
  refine (reports_forEach (fun _ _ => termOf_eq_error_iff) termItems).bind fun terms hterms => ?_
  obtain ⟨c, hc⟩ := exists_ofLists? hfi hnamed hti hterms operator negated
  rw [hc]
  exact reports_ok c

theorem reports_levelOf (place : List Nat) (node : Value) :
    Reports (levelOf node) (sitesAt place node queryChecks) := by
  have hsites : sitesAt place node queryChecks =
      ⟨place, node, .mapping .queries⟩ :: ([⟨place, node, .operator⟩] ++
        (sitesAt place node (itemChecks .queries) ++ [])) := by
    simp [sitesAt, queryChecks]
  rw [hsites, levelOf]
  refine reports_mapping ?_
  refine (reports_singleton fun _ => operatorOf_eq_error_iff).bind fun operator _ => ?_
  exact (reports_itemsOf place node .queries).bind fun items _ => reports_ok (operator, items)

theorem itemsUnder_of_levelOf {o : Operator} {items : List Value}
    (h : levelOf node = .ok (o, items)) : itemsUnder node .queries = items := by
  obtain ⟨es, hes, -, hi⟩ := levelOf_eq_ok_iff.1 h
  exact itemsUnder_of_itemsOf ((itemsOf_eq_ok_iff hes).2 hi)

end Node

/-! ## The readers of trees -/

def nodeOf (v : Value) : Except DescriptionError Node :=
  if (v.get? DescriptionKey.queries.name).isSome then queryOf v >>= fun q => .ok q.toNode
  else clauseOf v >>= fun c => .ok (.clause c)

theorem queryOf_eq (node : Value) :
    queryOf node = levelOf node >>= fun level => nodesOf level.2 >>= fun children =>
      .ok ⟨level.1, children⟩ := by
  rw [queryOf]
  split
  · next e h => rw [h]; rfl
  · next o items h =>
    rw [h]
    show _ = nodesOf items >>= _
    cases nodesOf items <;> rfl

theorem nodesOf_cons (v : Value) (vs : List Value) :
    nodesOf (v :: vs) = nodeOf v >>= fun n => nodesOf vs >>= fun ns => .ok (n :: ns) := by
  rw [nodesOf, nodeOf]
  by_cases hkey : (v.get? DescriptionKey.queries.name).isSome = true
  · rw [if_pos hkey, if_pos hkey]
    cases queryOf v <;> cases nodesOf vs <;> rfl
  · rw [if_neg hkey, if_neg hkey]
    cases clauseOf v <;> cases nodesOf vs <;> rfl

mutual

theorem reports_queryOf (place : List Nat) (node : Value) :
    Reports (queryOf node) (sites place node) := by
  rw [queryOf_eq, sites]
  refine (reports_levelOf place node).bind fun level hlevel => ?_
  obtain ⟨o, items⟩ := level
  have hsmaller := sizeOf_lt_of_levelOf hlevel
  rw [itemsUnder_of_levelOf hlevel]
  have hparts := (reports_nodesOf place 0 items).bind fun children _ =>
    reports_ok (Query.mk o children)
  rwa [List.append_nil] at hparts
termination_by sizeOf node
decreasing_by exact hsmaller

theorem reports_nodesOf (place : List Nat) (i : Nat) (nodes : List Value) :
    Reports (nodesOf nodes) (partSites place i nodes) := by
  cases nodes with
  | nil =>
    rw [nodesOf, partSites]
    exact reports_ok []
  | cons v vs =>
    have hfirst : Reports (nodeOf v) (sitesOfPart (place ++ [i]) v) := by
      rw [nodeOf, sitesOfPart]
      split
      · have hquery := (reports_queryOf (place ++ [i]) v).bind fun q _ => reports_ok q.toNode
        rwa [List.append_nil] at hquery
      · have hclause := (reports_clauseOf (place ++ [i]) v).bind fun c _ => reports_ok (Node.clause c)
        rwa [List.append_nil] at hclause
    have hrest := fun n => (reports_nodesOf place (i + 1) vs).bind fun ns _ => reports_ok (n :: ns)
    simp only [List.append_nil] at hrest
    rw [nodesOf_cons, partSites]
    exact hfirst.bind fun n _ => hrest n
termination_by sizeOf nodes
decreasing_by
  all_goals simp only [List.cons.sizeOf_spec]; omega

end

end PaperTrail.Description
