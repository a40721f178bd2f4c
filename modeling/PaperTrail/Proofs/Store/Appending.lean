import Mathlib.Data.List.Nodup
import Mathlib.Data.List.Perm.Basic
import PaperTrail.Proofs.Store.Filings

/-!
# Insertions append

What is there stays where it is when a batch goes in, and everything that the batch adds is read off
its filings.

* `rowsOf_insert` : the rows of a table after an insertion;
* `length_rows_insert` : over the tables of all origins there is one new row for each source;
* `insert_appends` : all that an insertion does, in any state in which it succeeds.
-/

namespace PaperTrail

/-! ## Rows over several tables -/

theorem flatMap_filter_of_nil {α β : Type} {p : α → Bool} {f : α → List β} {as : List α}
    (h : ∀ a ∈ as, p a = false → f a = []) : (as.filter p).flatMap f = as.flatMap f := by
  induction as with
  | nil => rfl
  | cons a as ih =>
    rw [List.forall_mem_cons] at h
    cases hp : p a with
    | true => rw [List.filter_cons_of_pos hp, List.flatMap_cons, List.flatMap_cons, ih h.2]
    | false =>
      rw [List.filter_cons_of_neg (by simp [hp]), List.flatMap_cons, h.1 hp, ih h.2]
      rfl

/-- Things sorted by keys that differ are all there, each once. -/
theorem flatMap_filter_perm {α : Type} (key : α → String) {keys : List String}
    (hnodup : keys.Nodup) {as : List α} (h : ∀ a ∈ as, key a ∈ keys) :
    (keys.flatMap fun k => as.filter fun a => key a = k).Perm as := by
  induction as with
  | nil => simp
  | cons a as ih =>
    rw [List.forall_mem_cons] at h
    have hown : (keys.flatMap fun k => if key a = k then [a] else []) = [a] := by
      obtain ⟨l₁, l₂, rfl⟩ := List.append_of_mem h.1
      rw [List.nodup_middle, List.nodup_cons, List.mem_append, not_or] at hnodup
      have hbefore : (l₁.flatMap fun k => if key a = k then [a] else []) = [] :=
        List.flatMap_eq_nil_iff.2 fun k hk => if_neg fun he : key a = k => hnodup.1.1 (he ▸ hk)
      have hafter : (l₂.flatMap fun k => if key a = k then [a] else []) = [] :=
        List.flatMap_eq_nil_iff.2 fun k hk => if_neg fun he : key a = k => hnodup.1.2 (he ▸ hk)
      rw [List.flatMap_append, List.flatMap_cons, hbefore, hafter, if_pos rfl]
      rfl
    have hcons : ∀ k, (a :: as).filter (fun a => key a = k) =
        (if key a = k then [a] else []) ++ as.filter fun a => key a = k := by
      intro k
      by_cases hk : key a = k <;> simp [hk]
    simp only [hcons]
    refine (List.flatMap_append_perm keys _ _).symm.trans ?_
    rw [hown]
    exact (ih h.2).cons a

/-- Over the tables of all origins there is one new row for each source. -/
theorem length_flatMap_linkRows {tables : List String} {filings : List Filing}
    (hnodup : (tables.map originKey).Nodup)
    (h : ∀ p ∈ given filings, originKey p.2.origin ∈ tables.map originKey) :
    (tables.flatMap (linkRows filings)).length = (given filings).length := by
  have hperm := flatMap_filter_perm (fun p : Int × Source => originKey p.2.origin) hnodup h
  rw [List.flatMap_map] at hperm
  rw [← hperm.length_eq]
  unfold linkRows
  rw [← List.map_flatMap, List.length_map]

/-! ## Insertions -/

namespace Store

section
variable {s : Store} (hs : s.Sound) {entries : List Entry}
  (hfit : firstUnfit (entries.flatMap (·.sources)) = none)

include hs in
theorem nodup_keys_origins : (s.origins.map originKey).Nodup := by
  rw [List.Nodup, List.pairwise_map]
  refine (sorted_origins hs).imp fun hlt heq => ?_
  rw [originKey, originKey] at heq
  rw [heq] at hlt
  exact String.lt_irrefl _ hlt

include hs hfit in
/-- The origins that an insertion adds have no rows before it. -/
theorem rowsOf_of_mem_origins_insert {name : String} (h : name ∈ (s.insert entries).1.origins)
    (hnew : name ∉ s.origins) : s.working.rowsOf name = [] := by
  have hv : isValidOrigin name = true :=
    (tableFor?_eq_some ((mem_origins_iff (sound_insert hs entries)).1 h)).1
  have hnone : s.working.tableFor? (originKey name) = none := by
    obtain ⟨hother, -⟩ := ((mem_origins_insert hs hfit).1 h).resolve_left hnew
    rw [Option.eq_none_iff_forall_ne_some]
    intro table htable
    exact hother table (mem_origins_of_tableFor? hs htable) (tableFor?_eq_some htable).2.1
  exact rowsOf_of_not_contains (contains_eq_false_of_tableFor? hv hnone)

include hs hfit in
theorem flatMap_rowsOf_insert :
    (s.insert entries).1.origins.flatMap s.working.rowsOf = s.origins.flatMap s.working.rowsOf := by
  have hirrefl : Std.Irrefl fun a b : String => Text.fold a < Text.fold b :=
    ⟨fun a => String.lt_irrefl (Text.fold a)⟩
  have hasymm : Std.Asymm fun a b : String => Text.fold a < Text.fold b :=
    ⟨fun _ _ => String.lt_asymm⟩
  have hold : (s.insert entries).1.origins.filter (· ∈ s.origins) = s.origins := by
    refine List.Pairwise.eq_of_mem_iff ((sorted_origins (sound_insert hs entries)).filter _)
      (sorted_origins hs) fun name => ?_
    rw [List.mem_filter, decide_eq_true_eq, mem_origins_insert hs hfit]
    exact ⟨fun h => h.2, fun h => ⟨Or.inl h, h⟩⟩
  rw [← flatMap_filter_of_nil fun name hname hnew =>
    rowsOf_of_mem_origins_insert hs hfit hname (of_decide_eq_false hnew), hold]

include hs hfit in
/-- Every source of a batch has a table afterwards. -/
theorem originKey_mem_of_mem_given : ∀ p ∈ given (s.working.filings entries),
    originKey p.2.origin ∈ (s.insert entries).1.origins.map originKey := by
  intro p hp
  have hsource : p.2 ∈ entries.flatMap (·.sources) := by
    have hmem : p.2 ∈ (given (s.working.filings entries)).map (·.2) := List.mem_map_of_mem hp
    rwa [map_snd_given, Database.map_entry_filings] at hmem
  obtain ⟨e, he, hsrc⟩ := List.mem_flatMap.1 hsource
  obtain ⟨name, hname, hfold⟩ := exists_origin_insert hs hfit he hsrc
  exact List.mem_map.2 ⟨name, hname, hfold⟩

include hs hfit in
/-- The rows of a table after an insertion. -/
theorem rowsOf_insert (table : String) :
    (s.insert entries).1.working.rowsOf table = s.working.rowsOf table ++
      if table ∈ (s.insert entries).1.origins then linkRows (s.working.filings entries) table
      else [] := by
  have hrows := s.working.rowsOf_ingestAll (firstUnfit_flatMap_eq_none_iff.1 hfit) table
  rw [← working_insert hs hfit] at hrows
  simp only [mem_origins_iff (sound_insert hs entries)]
  exact hrows

include hs hfit in
/-- An insertion adds a row for each source to the tables of origins. -/
theorem length_rows_insert :
    ((s.insert entries).1.origins.flatMap (s.insert entries).1.working.rowsOf).length =
      (s.origins.flatMap s.working.rowsOf).length + (entries.flatMap (·.sources)).length := by
  have hrows : (s.insert entries).1.origins.flatMap (s.insert entries).1.working.rowsOf =
      (s.insert entries).1.origins.flatMap fun table =>
        s.working.rowsOf table ++ linkRows (s.working.filings entries) table := by
    refine List.flatMap_congr fun table htable => ?_
    rw [rowsOf_insert hs hfit, if_pos htable]
  have hgiven : (given (s.working.filings entries)).length = (entries.flatMap (·.sources)).length := by
    rw [← List.length_map (f := (·.2)), map_snd_given, Database.map_entry_filings]
  rw [hrows, ← (List.flatMap_append_perm _ _ _).length_eq, List.length_append,
    flatMap_rowsOf_insert hs hfit, ← hgiven]
  exact congrArg _ (length_flatMap_linkRows (nodup_keys_origins (sound_insert hs entries))
    (originKey_mem_of_mem_given hs hfit))

end

/-- A batch that goes in leaves every row as it is. Its filings say what it adds: behind the papers,
with ascending numbers above all others, the rows of the entries that made a paper; behind the rows
of each origin, in the order of entries and of the sources of each, a row with the number of the
entry's paper for each source of that origin. The tables that it adds are those of origins that were
not known. The report counts the rows of papers, the entries, and the rows in the tables of origins. -/
theorem insert_appends (db : Database) (hdb : db.Numbered) (events : List Event)
    (entries : List Entry) (report : Report)
    (h : (((ofDatabase db).run events).insert entries).2 = .ok report) :
    let s := (ofDatabase db).run events
    let s' := (s.insert entries).1
    ∃ filings : List Filing, filings.map (·.entry) = entries ∧
      (∀ earlier f later, filings = earlier ++ f :: later →
        f.Resolves (s.working.main ++ paperRows earlier)) ∧
      (s'.working.main = s.working.main ++ paperRows filings ∧
        (paperRows filings).Pairwise (fun a b => a.id < b.id) ∧
        ∀ old ∈ s.working.main, ∀ new ∈ paperRows filings, old.id < new.id) ∧
      (∀ table, s'.working.rowsOf table = s.working.rowsOf table ++
        if table ∈ s'.origins then linkRows filings table else []) ∧
      ((∀ name, name ∈ s'.origins ↔ name ∈ s.origins ∨
          (∀ known ∈ s.origins, Text.fold known ≠ Text.fold name) ∧
            spelling? entries (originKey name) = some name) ∧
        ∀ name, name ∈ s'.working.tables.keys ↔
          name ∈ s.working.tables.keys ∨ name ∈ s'.origins) ∧
      report.created = (paperRows filings).length ∧
      report.created + report.matched = entries.length ∧
      report.links = (entries.flatMap (·.sources)).length ∧
      (s'.origins.flatMap s'.working.rowsOf).length =
        (s.origins.flatMap s.working.rowsOf).length + report.links := by
  intro s s'
  have hs : s.Sound := sound_run db events
  have hfit := (isOk_insert hs entries).1 (by rw [h]; rfl)
  have hnumbered : s.working.Numbered := (numbered_run hdb events).2
  have hworking : s'.working = s.working.ingestAll entries := working_insert hs hfit
  have hmain := s.working.main_ingestAll_eq entries
  have hascend := hnumbered.ingestAll entries
  obtain ⟨hcreated, hboth, hlinks⟩ := counts_reportAll s.working entries
  rw [Database.Numbered, hmain, List.pairwise_append] at hascend
  obtain rfl := Except.ok.inj (h.symm.trans (report_insert_of_fit hs hfit))
  refine ⟨s.working.filings entries, s.working.map_entry_filings entries,
    fun _ _ _ => Database.resolves_filings hnumbered, ⟨by rw [hworking, hmain], hascend.2⟩,
    rowsOf_insert hs hfit, ⟨fun _ => mem_origins_insert hs hfit, fun name => ?_⟩,
    hcreated, hboth, hlinks, ?_⟩
  · rw [mem_origins_iff (sound_insert hs entries), hworking]
    exact Database.mem_keys_ingestAll (firstUnfit_flatMap_eq_none_iff.1 hfit)
  · rw [hlinks]
    exact length_rows_insert hs hfit

/-- Contents of another program, an unsaved review, and a batch in which the first entry makes a paper
and names one origin in two spellings, the second one belongs to that paper, and the third one to the
paper that was there. -/
theorem insert_appends_three :
    let db := Database.ofRows [⟨7, none, none, some "Old", none, none, none, none, none⟩]
      [("ieee", [⟨some 7, some "a"⟩, ⟨none, some "b"⟩]), ("sqlite_stat1", [⟨some 1, none⟩])]
    let events : List Event := [.call (.review 7 (.rejected 2) false)]
    let first : Entry := ⟨⟨"10.1/n", "", "New", "", ""⟩,
      [⟨"acm", some "c"⟩, ⟨"IEEE", some "d"⟩, ⟨"Acm", none⟩], ⟨1, true, "seen"⟩⟩
    let batch : List Entry := [first, .new ⟨"", "", "NEW", "", ""⟩ [⟨"ieee", some "d"⟩],
      .new ⟨"10.1/o", "", "old", "", ""⟩ [⟨"ACM", some "e"⟩]]
    let s := (ofDatabase db).run events
    let s' := (s.insert batch).1
    db.Numbered ∧ (s.insert batch).2 = .ok ⟨1, 2, 5⟩ ∧
      s'.working.main = s.working.main ++ [MainRow.ofEntry 8 first] ∧
      s'.working.rowsOf "ieee" = s.working.rowsOf "ieee" ++ [⟨some 8, some "d"⟩, ⟨some 8, some "d"⟩] ∧
      s'.working.rowsOf "acm" = [⟨some 8, some "c"⟩, ⟨some 8, none⟩, ⟨some 7, some "e"⟩] ∧
      (s'.origins.flatMap s'.working.rowsOf).length =
        (s.origins.flatMap s.working.rowsOf).length + 5 := by
  intro db events first batch s s'
  have hdb : db.Numbered := by unfold Database.Numbered; decide +kernel
  have hreport : (s.insert batch).2 = .ok ⟨1, 2, 5⟩ := by decide +kernel
  obtain ⟨filings, -, -, -, -, -, -, -, -, hrows⟩ := insert_appends db hdb events batch _ hreport
  exact ⟨hdb, hreport, by decide +kernel, by decide +kernel, by decide +kernel, hrows⟩

end Store

end PaperTrail
