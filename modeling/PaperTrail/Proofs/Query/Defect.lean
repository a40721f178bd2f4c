import PaperTrail.Proofs.Query.Refusal

/-!
# The first defect of a description

Reading a description ends with the first check that fails: `ofValue_eq_error_iff_firstFailure`. What
comes behind the node of this check has no part in it.

* `SameUpTo` : two trees that differ at most behind a node, in the lists that lead to it;
* `SameUpTo.firstFailure_sites` : they have the same first failure, when it is on this node.
-/

namespace PaperTrail.Description

/-! ## What comes behind a defect -/

/-- Two values with the same node at a place, and the same parts before it in the lists that lead to
it. What else there is in these lists, behind the way to the node, may differ. -/
inductive SameUpTo : List Nat → Value → Value → Prop where
  | here (v : Value) : SameUpTo [] v v
  | within {v w child child' : Value} {before after after' : List Value} {place : List Nat}
      (hv : itemsUnder v .queries = before ++ child :: after)
      (hw : itemsUnder w .queries = before ++ child' :: after')
      (hkeys : ∀ key, key ≠ "queries" → w.get? key = v.get? key)
      (h : SameUpTo place child child') : SameUpTo (before.length :: place) v w

theorem place_of_mem_sitesAt {place : List Nat} {node : Value} {cs : List Check} {s : Site}
    (h : s ∈ sitesAt place node cs) : s.place = place := by
  obtain ⟨c, -, rfl⟩ := List.mem_map.1 h
  rfl

mutual

theorem prefix_of_mem_sites (place : List Nat) (node : Value) {s : Site}
    (h : s ∈ sites place node) : place <+: s.place := by
  rw [sites, List.mem_append] at h
  rcases h with h | h
  · exact place_of_mem_sitesAt h ▸ List.prefix_rfl
  · obtain ⟨j, -, hj⟩ := prefix_of_mem_partSites place 0 _ h
    exact (List.prefix_append place [j]).trans hj
termination_by 3 * sizeOf node + 1
decreasing_by
  have := sizeOf_itemsUnder_le node .queries
  omega

theorem prefix_of_mem_sitesOfPart (place : List Nat) (v : Value) {s : Site}
    (h : s ∈ sitesOfPart place v) : place <+: s.place := by
  rw [sitesOfPart] at h
  split at h
  · exact prefix_of_mem_sites place v h
  · exact place_of_mem_sitesAt h ▸ List.prefix_rfl
termination_by 3 * sizeOf v + 2
decreasing_by omega

theorem prefix_of_mem_partSites (place : List Nat) (i : Nat) (parts : List Value) {s : Site}
    (h : s ∈ partSites place i parts) : ∃ j, i ≤ j ∧ place ++ [j] <+: s.place := by
  match parts with
  | [] => simp [partSites] at h
  | v :: vs =>
    rw [partSites, List.mem_append] at h
    rcases h with h | h
    · exact ⟨i, Nat.le_refl i, prefix_of_mem_sitesOfPart (place ++ [i]) v h⟩
    · obtain ⟨j, hij, hj⟩ := prefix_of_mem_partSites place (i + 1) vs h
      exact ⟨j, by omega, hj⟩
termination_by 3 * sizeOf parts
decreasing_by
  all_goals simp only [List.cons.sizeOf_spec]; omega

end

theorem partSites_append (place : List Nat) (i : Nat) (vs ws : List Value) :
    partSites place i (vs ++ ws) = partSites place i vs ++ partSites place (i + vs.length) ws := by
  induction vs generalizing i with
  | nil => rw [partSites]; rfl
  | cons v vs ih =>
    rw [List.cons_append, partSites, ih, partSites, List.append_assoc, List.length_cons]
    congr 3
    omega

theorem exists_sequence_of_itemsUnder {node v : Value} {key : DescriptionKey}
    (h : v ∈ itemsUnder node key) : ∃ raw, node.get? key.name = some raw ∧
      raw.untagged = .sequence (itemsUnder node key) := by
  unfold itemsUnder at h ⊢
  cases hraw : node.get? key.name with
  | none => simp [hraw] at h
  | some raw =>
    cases hitems : raw.sequence? with
    | none => simp [hraw, hitems] at h
    | some items =>
      refine ⟨raw, rfl, ?_⟩
      rw [Value.sequence?_eq_some_iff.1 hitems, Option.bind_some, hitems, Option.getD_some]

/-- A query with the parts of another one, but for some behind a place, passes its own checks. -/
theorem passes_queryChecks {v w : Value} {place : List Nat}
    (hkeys : ∀ key, key ≠ "queries" → w.get? key = v.get? key) {part : Value}
    (hpart : part ∈ itemsUnder w .queries) (hv : ∀ s ∈ sitesAt place v queryChecks, s.Passes) :
    ∀ s ∈ sitesAt place w queryChecks, s.Passes := by
  obtain ⟨raw, hraw, hitems⟩ := exists_sequence_of_itemsUnder hpart
  obtain ⟨es, hes, -⟩ := Option.bind_eq_some_iff.1 hraw
  have hoperator := hkeys "operator" (by decide)
  simp only [sitesAt, queryChecks, itemChecks, List.map_cons, List.map_nil, List.forall_mem_cons,
    Site.Passes, Site.Fails] at hv ⊢
  refine ⟨fun e h => ?_, fun e h => ?_, fun e => not_fails_present hraw,
    fun e => not_fails_sequence hraw hitems, fun e h => ?_, by simp⟩
  · cases h with
    | mapping h => exact h es (Value.mapping?_eq_some_iff.1 hes)
  · cases h with
    | operator h hkind => exact hv.2.1 _ (.operator (hoperator.symm.trans h) hkind)
    | operatorName h hkind hname =>
      exact hv.2.1 _ (.operatorName (hoperator.symm.trans h) hkind hname)
  · cases h with
    | nonEmpty h hempty =>
      obtain rfl := Option.some.inj (hraw.symm.trans h)
      rw [hitems] at hempty
      rw [Value.sequence.inj hempty] at hpart
      exact List.not_mem_nil hpart

theorem firstFailure_sites_of_within {v w child child' : Value} {before after after' : List Value}
    {place rest : List Nat} {s : Site} {e : DescriptionError}
    (hv : itemsUnder v .queries = before ++ child :: after)
    (hw : itemsUnder w .queries = before ++ child' :: after')
    (hkeys : ∀ key, key ≠ "queries" → w.get? key = v.get? key)
    (hplace : s.place = place ++ before.length :: rest)
    (hchild : FirstFailure (sitesOfPart (place ++ [before.length]) child) s e →
      FirstFailure (sitesOfPart (place ++ [before.length]) child') s e)
    (h : FirstFailure (sites place v) s e) : FirstFailure (sites place w) s e := by
  rw [sites, hv, partSites_append, partSites, Nat.zero_add] at h
  rw [sites, hw, partSites_append, partSites, Nat.zero_add]
  simp only [firstFailure_append_iff] at h ⊢
  have hpart : child' ∈ itemsUnder w .queries := by simp [hw]
  rcases h with hown | ⟨hown, hbefore | ⟨hbefore, hchild' | ⟨-, hafter⟩⟩⟩
  · have hsame := hplace.symm.trans (place_of_mem_sitesAt hown.mem)
    simp at hsame
  all_goals
    have hown' := passes_queryChecks hkeys hpart hown
  · exact Or.inr ⟨hown', Or.inl hbefore⟩
  · exact Or.inr ⟨hown', Or.inr ⟨hbefore, Or.inl (hchild hchild')⟩⟩
  · obtain ⟨j, hj, hprefix⟩ := prefix_of_mem_partSites place _ _ hafter.mem
    rw [hplace, List.prefix_append_right_inj, List.cons_prefix_cons] at hprefix
    omega

theorem SameUpTo.firstFailure_sitesOfPart {rest : List Nat} {v w : Value} (h : SameUpTo rest v w)
    {place : List Nat} {s : Site} {e : DescriptionError} (hplace : s.place = place ++ rest)
    (hs : FirstFailure (sitesOfPart place v) s e) : FirstFailure (sitesOfPart place w) s e := by
  induction h generalizing place with
  | here v => exact hs
  | @within v w child child' before after after' rest hv hw hkeys _ ih =>
    have hquery : ∀ {u part : Value}, part ∈ itemsUnder u .queries →
        (u.get? DescriptionKey.queries.name).isSome = true := by
      intro u part hpart
      obtain ⟨raw, hraw, -⟩ := exists_sequence_of_itemsUnder hpart
      rw [hraw, Option.isSome_some]
    have hchild : child ∈ itemsUnder v .queries := by simp [hv]
    have hchild' : child' ∈ itemsUnder w .queries := by simp [hw]
    rw [sitesOfPart, if_pos (hquery hchild)] at hs
    rw [sitesOfPart, if_pos (hquery hchild')]
    exact firstFailure_sites_of_within hv hw hkeys hplace (ih (by simp [hplace])) hs

theorem SameUpTo.firstFailure_sites {rest : List Nat} {v w : Value} (h : SameUpTo rest v w)
    {s : Site} {e : DescriptionError} (hplace : s.place = rest)
    (hs : FirstFailure (sites [] v) s e) : FirstFailure (sites [] w) s e := by
  cases h with
  | here => exact hs
  | within hv hw hkeys h =>
    exact firstFailure_sites_of_within hv hw hkeys hplace
      (h.firstFailure_sitesOfPart (by simp [hplace])) hs

/-- A value is refused exactly when one of the checks of its tree fails, with the refusal of the
first one that does: it shows the node of this check, and for a name that is unknown the name as it
is written. Whatever stands behind the node in the lists that lead to it, the refusal is the same.
And a clause that has passed its checks is never refused for want of fields or terms. -/
theorem ofValue_eq_error_iff_firstFailure (v : Value) (e : DescriptionError) :
    (Query.ofValue v = .error e ↔ ∃ s, FirstFailure (sites [] (rootOf v)) s e) ∧
    (∀ s, FirstFailure (sites [] (rootOf v)) s e →
      e.message = e.wording ++ " in " ++ s.node.fragment ∧
      ∀ w, SameUpTo s.place (rootOf v) (rootOf w) → Query.ofValue w = .error e) ∧
    ∀ (node : Value) (fieldItems termItems : List Value) (named : List Field) (terms : List String),
      itemsOf node .fields = .ok fieldItems → forEach (fieldOf node) fieldItems = .ok named →
      itemsOf node .terms = .ok termItems → forEach (termOf node) termItems = .ok terms →
      ∀ o negated, ∃ c, Clause.ofLists? o negated named terms = some c := by
  refine ⟨reports_queryOf [] (rootOf v) e, fun s hs => ⟨?_, fun w hw => ?_⟩,
    fun node fieldItems termItems named terms hfi hnamed hti hterms o negated =>
      exists_ofLists? hfi hnamed hti hterms o negated⟩
  · rw [e.message_eq, Fails.node hs.fails]
  · exact (reports_queryOf [] (rootOf w) e).2 ⟨s, hw.firstFailure_sites rfl hs⟩

def aboutTitle : Value :=
  .mapping [(.string "fields", .sequence [.string "title"]), (.string "terms", .sequence [.string "a"])]

def aboutAuthors : Value := .mapping [(.string "fields", .sequence [.string "Authors"])]

def nestedAuthors (after after' : List Value) : Value :=
  .mapping [(.string "queries", .sequence
    (aboutTitle :: .mapping [(.string "queries", .sequence (aboutAuthors :: after))] :: after'))]

theorem firstFailure_nestedAuthors (after after' : List Value) :
    ∃ s, FirstFailure (sites [] (nestedAuthors after after')) s
        (.unknownField "Authors" aboutAuthors) ∧ s.place = [1, 0] ∧ s.node = aboutAuthors := by
  let inner : Value := .mapping [(.string "queries", .sequence (aboutAuthors :: after))]
  have hroot : levelOf (nestedAuthors after after') = .ok (.and, aboutTitle :: inner :: after') := rfl
  have hinner : levelOf inner = .ok (.and, aboutAuthors :: after) := rfl
  obtain ⟨s, hs⟩ := (reports_clauseOf [1, 0] aboutAuthors _).1 rfl
  obtain ⟨c, -, hc⟩ := List.mem_map.1 hs.mem
  have hpart : FirstFailure (sitesOfPart [1] inner) s (.unknownField "Authors" aboutAuthors) := by
    have hkey : (inner.get? DescriptionKey.queries.name).isSome = true := rfl
    rw [sitesOfPart, if_pos hkey, sites, itemsUnder_of_levelOf hinner, partSites, sitesOfPart,
      if_neg (by decide)]
    exact firstFailure_append_iff.2 (Or.inr ⟨(reports_levelOf _ _).passes hinner,
      firstFailure_append_iff.2 (Or.inl hs)⟩)
  refine ⟨s, ?_, hc ▸ rfl, hc ▸ rfl⟩
  rw [sites, itemsUnder_of_levelOf hroot, partSites, partSites, sitesOfPart, if_neg (by decide)]
  exact firstFailure_append_iff.2 (Or.inr ⟨(reports_levelOf _ _).passes hroot,
    firstFailure_append_iff.2 (Or.inr ⟨(reports_clauseOf _ aboutTitle).passes rfl,
      firstFailure_append_iff.2 (Or.inl hpart)⟩)⟩)

theorem ofValue_nestedAuthors :
    let e := DescriptionError.unknownField "Authors" aboutAuthors
    Query.ofValue (nestedAuthors [.null] []) = .error e ∧
      e.message = "unknown field 'Authors' in \x7b\"fields\":[\"Authors\"]\x7d" ∧
      (∀ after after', Query.ofValue (nestedAuthors after after') = .error e) ∧
      ∃ c, Clause.ofLists? .and true [.title] ["a"] = some c := by
  intro e
  obtain ⟨hrefused, hfirst, hclause⟩ := ofValue_eq_error_iff_firstFailure (nestedAuthors [.null] []) e
  obtain ⟨s, hs, hplace, hnode⟩ := firstFailure_nestedAuthors [.null] []
  obtain ⟨hmessage, hsame⟩ := hfirst s hs
  refine ⟨hrefused.2 ⟨s, hs⟩, ?_, fun after after' => hsame _ ?_, ?_⟩
  · rw [hmessage, hnode]
    decide +kernel
  · have hnone : ∀ items items', ∀ key, key ≠ "queries" →
        Value.get? key (.mapping [(.string "queries", .sequence items)]) =
          Value.get? key (.mapping [(.string "queries", .sequence items')]) := by
      intro items items' key hkey
      have : ("queries" == key) = false := by simpa using hkey.symm
      simp [Value.get?, Value.mapping?, Value.untagged, Value.find?, Value.isText, this]
    let inner := fun parts => Value.mapping [(.string "queries", .sequence parts)]
    have hparts : ∀ parts, itemsUnder (inner (aboutAuthors :: parts)) .queries =
        [] ++ aboutAuthors :: parts := fun _ => rfl
    have hroot : ∀ parts parts', itemsUnder (nestedAuthors parts parts') .queries =
        [aboutTitle] ++ inner (aboutAuthors :: parts) :: parts' := fun _ _ => rfl
    rw [hplace]
    exact .within (hroot _ _) (hroot after after') (hnone _ _)
      (.within (hparts _) (hparts after) (hnone _ _) (.here aboutAuthors))
  · exact hclause aboutTitle [.string "title"] [.string "a"] [.title] ["a"] rfl rfl rfl rfl .and true

end PaperTrail.Description
