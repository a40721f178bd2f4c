import PaperTrail.Proofs.Store.Provenance

/-!
# The known origins are the tables that are there

A store learns of origins in two ways, from the tables that it finds when it is opened and from the
ones that it makes during insertions, and forgets those of a batch that fails. Either way it knows
what is in the contents.

* `Database.Apart` : no two tables have names that differ in case only, as in every database whose
  names do not distinguish case; a table is made only for an origin that has none yet, so this is
  kept (`apart_run`);
* `Database.Apart.tableFor?_eq_some_iff` : then the tables of origins are the ones with a fit name;
* `tableFor?_ingestAll`, `mem_origins_insert` : the tables of the origins after a batch, and the
  origins after an insertion;
* `origins_run` : what a store lists as its origins, now and after it is opened again.
-/

namespace PaperTrail

/-! ## Names of tables -/

/-- Tables whose names differ in case only are the same. -/
def Database.Apart (db : Database) : Prop :=
  ∀ a ∈ db.tables.keys, ∀ b ∈ db.tables.keys, Text.fold a = Text.fold b → a = b

namespace Database

theorem keys_withLinks (db : Database) (id : Int) (sources : List Source) :
    (db.withLinks id sources).tables.keys = db.tables.keys := by
  induction sources generalizing db with
  | nil => rfl
  | cons s rest ih =>
    rw [withLinks, List.foldl_cons, ← withLinks, ih, withLink]
    split
    · next table htable => exact Dictionary.keys_insert_of_contains (tableFor?_eq_some htable).2.2 _
    · rfl

theorem mem_keys_addTable {db : Database} {name table : String}
    (h : table ∈ (db.addTable name).tables.keys) : table = name ∨ table ∈ db.tables.keys := by
  unfold addTable Dictionary.insertNew at h
  split at h
  · exact Or.inr h
  · rw [Dictionary.mem_keys, Dictionary.contains_insert, Bool.or_eq_true, decide_eq_true_eq] at h
    exact h.imp_right Dictionary.mem_keys.2

namespace Apart
variable {db : Database}

theorem congr (h : db.Apart) {db' : Database} (hkeys : db'.tables.keys = db.tables.keys) :
    db'.Apart := by
  unfold Apart
  rw [hkeys]
  exact h

theorem withTable (h : db.Apart) {origin : String} (hv : isValidOrigin origin = true) :
    (db.withTable origin).Apart := by
  unfold Database.withTable
  split
  · exact h
  · next hnone =>
    have hother : ∀ table ∈ db.tables.keys, Text.fold table ≠ Text.fold origin := by
      intro table htable hfold
      have hvalid : isValidOrigin table = true := (isValidOrigin_congr hfold).trans hv
      have hnot := List.find?_eq_none.1 hnone table htable
      rw [hvalid, Bool.true_and, beq_iff_eq] at hnot
      exact hnot hfold
    intro a ha b hb hfold
    rcases mem_keys_addTable ha with hnew | hold
    · rcases mem_keys_addTable hb with hnew' | hold'
      · rw [hnew, hnew']
      · rw [hnew] at hfold
        exact absurd hfold.symm (hother b hold')
    · rcases mem_keys_addTable hb with hnew' | hold'
      · rw [hnew'] at hfold
        exact absurd hfold (hother a hold)
      · exact h a hold b hold' hfold

theorem withTables (h : db.Apart) {sources : List Source}
    (hv : ∀ s ∈ sources, isValidOrigin s.origin = true) : (db.withTables sources).Apart := by
  induction sources generalizing db with
  | nil => exact h
  | cons s rest ih =>
    rw [List.forall_mem_cons] at hv
    exact ih (h.withTable hv.1) hv.2

theorem ingest (h : db.Apart) {e : Entry}
    (hv : ∀ s ∈ e.sources, isValidOrigin s.origin = true) : (db.ingest e).Apart := by
  refine (h.withTables hv).congr ?_
  rw [Database.ingest, keys_withLinks, tables_withPaper]

/-- The tables of origins are the ones with a fit name. -/
theorem tableFor?_eq_some_iff (h : db.Apart) {table : String} :
    db.tableFor? (originKey table) = some table ↔
      db.tables.contains table = true ∧ isValidOrigin table = true := by
  constructor
  · intro htable
    exact ⟨(tableFor?_eq_some htable).2.2, (tableFor?_eq_some htable).1⟩
  · rintro ⟨hmem, hv⟩
    rw [← Dictionary.mem_keys] at hmem
    have hsome : (db.tableFor? (originKey table)).isSome = true :=
      List.find?_isSome.2 ⟨table, hmem, by simp [hv]⟩
    obtain ⟨found, hfound⟩ := Option.isSome_iff_exists.1 hsome
    obtain ⟨-, hkey, hcontains⟩ := tableFor?_eq_some hfound
    rw [hfound, h found (Dictionary.mem_keys.2 hcontains) table hmem hkey]

end Apart

end Database

theorem apart_run {db : Database} (h : db.Apart) (events : List Store.Event) :
    ((Store.ofDatabase db).run events).working.Apart :=
  (Store.run_induction (P := fun _ contents => contents.Apart)
    (fun _ _ _ _ h => h) (fun _ _ _ hv h => h.ingest hv) (Store.sound_ofDatabase db)
    (h := []) h h events).2

/-! ## Tables after a batch -/

/-- An origin keeps its table; one without a table gets it under the first name in the batch. -/
theorem tableFor?_ingestAll (db : Database) {entries : List Entry}
    (hv : ∀ e ∈ entries, ∀ s ∈ e.sources, isValidOrigin s.origin = true) (key : String) :
    (db.ingestAll entries).tableFor? key = (db.tableFor? key).or (spelling? entries key) := by
  induction entries using List.reverseRecOn with
  | nil => exact (Option.or_none ..).symm
  | append_singleton entries e ih =>
    rw [List.forall_mem_append, List.forall_mem_singleton] at hv
    rw [Database.ingestAll_concat, Database.tableFor?_ingest, Database.tableFor?_withTables _ hv.2,
      ih hv.1, spelling?_concat, Option.or_assoc]

namespace Store

theorem mem_origins_iff_keys {s : Store} (hs : s.Sound) (h : s.working.Apart) (name : String) :
    name ∈ s.origins ↔ name ∈ s.working.tables.keys ∧ ¬ UnfitName name := by
  rw [mem_origins_iff hs, h.tableFor?_eq_some_iff, Dictionary.mem_keys, isValidOrigin_iff]

theorem fold_ne_of_mem_origins {s : Store} (hs : s.Sound) {table : String}
    (h : s.working.tableFor? (originKey table) = none) :
    ∀ known ∈ s.origins, Text.fold known ≠ Text.fold table := by
  intro known hknown hfold
  have htable := (mem_origins_iff hs).1 hknown
  rw [originKey, hfold, ← originKey, h] at htable
  cases htable

/-! ## The origins after an insertion -/

section
variable {s : Store} (hs : s.Sound) {entries : List Entry}
  (hfit : firstUnfit (entries.flatMap (·.sources)) = none)

include hs in
theorem mem_origins_of_tableFor? {key table : String} (h : s.working.tableFor? key = some table) :
    table ∈ s.origins := by
  rw [mem_origins_iff hs, (tableFor?_eq_some h).2.1, h]

include hs hfit in
theorem working_insert : (s.insert entries).1.working = s.working.ingestAll entries := by
  have hworking := working_call hs (.insert entries)
  rwa [Call.write, if_pos hfit] at hworking

include hs in
theorem sound_insert (entries : List Entry) : (s.insert entries).1.Sound := hs.call (.insert entries)

include hs hfit in
theorem tableFor?_insert (key : String) : (s.insert entries).1.working.tableFor? key =
    (s.working.tableFor? key).or (spelling? entries key) := by
  rw [working_insert hs hfit, tableFor?_ingestAll _ (firstUnfit_flatMap_eq_none_iff.1 hfit)]

include hs hfit in
/-- The origins after an insertion are those from before and the new ones of its sources, each under
the first name that it has there. -/
theorem mem_origins_insert {name : String} :
    name ∈ (s.insert entries).1.origins ↔ name ∈ s.origins ∨
      (∀ known ∈ s.origins, Text.fold known ≠ Text.fold name) ∧
        spelling? entries (originKey name) = some name := by
  rw [mem_origins_iff (sound_insert hs entries), mem_origins_iff hs, tableFor?_insert hs hfit]
  cases hold : s.working.tableFor? (originKey name) with
  | none => simpa using fun _ => fold_ne_of_mem_origins hs hold
  | some table =>
    rw [Option.some_or, or_iff_left]
    rintro ⟨hother, -⟩
    exact hother table (mem_origins_of_tableFor? hs hold) (tableFor?_eq_some hold).2.1

include hs hfit in
/-- Every source of a batch has an origin afterwards. -/
theorem exists_origin_insert {e : Entry} (he : e ∈ entries) {src : Source} (hsrc : src ∈ e.sources) :
    ∃ name ∈ (s.insert entries).1.origins, Text.fold name = Text.fold src.origin := by
  obtain ⟨given, hgiven⟩ := exists_spelling? he hsrc
  obtain ⟨table, htable⟩ : ∃ table,
      (s.insert entries).1.working.tableFor? (originKey src.origin) = some table := by
    rw [← Option.isSome_iff_exists, tableFor?_insert hs hfit, hgiven, Option.isSome_or,
      Option.isSome_some, Bool.or_true]
  exact ⟨table, mem_origins_of_tableFor? (sound_insert hs entries) htable,
    (tableFor?_eq_some htable).2.1⟩

end

theorem mem_origins_of_extends {s : Store} (hs : s.Sound) {db : Database}
    (hext : s.working.Extends db) {name : String} (h : name ∈ s.origins) :
    name ∈ (ofDatabase db).origins :=
  (mem_origins_iff (sound_ofDatabase db)).2 (hext.tables _ _ ((mem_origins_iff hs).1 h))

/-! ## The origins of a store -/

/-- In every state the origins of a store are the tables that have a fit name, in the order of their
names in lower case, in which they differ. Closing the store and opening it again changes neither
them nor any listing. The origin of every source that went in is among them, then and ever since,
under the name that it had already or, when it was new, under the first name in the batch. -/
theorem origins_run (db : Database) (hdb : db.Apart) (events : List Event) :
    let s := (ofDatabase db).run events
    (∀ name, name ∈ s.origins ↔ name ∈ s.working.tables.keys ∧ ¬ UnfitName name) ∧
    (s.origins.Pairwise (fun a b => Text.fold a < Text.fold b) ∧ s.origins.Nodup ∧
      ∀ a ∈ s.origins, ∀ b ∈ s.origins, Text.fold a = Text.fold b → a = b) ∧
    ((ofDatabase s.close).origins = s.origins ∧
      ∀ rejected, (ofDatabase s.close).entries? rejected = s.entries? rejected) ∧
    ∀ before entries after, events = before ++ .call (.insert entries) :: after →
      let s₀ := (ofDatabase db).run before
      (s₀.insert entries).2.isOk = true → ∀ e ∈ entries, ∀ src ∈ e.sources, ∃ name,
        Text.fold name = Text.fold src.origin ∧
        (name ∈ s₀.origins ∨ (∀ known ∈ s₀.origins, Text.fold known ≠ Text.fold src.origin) ∧
          spelling? entries (originKey src.origin) = some name) ∧
        name ∈ (s₀.insert entries).1.origins ∧ name ∈ (ofDatabase s.close).origins ∧
        name ∈ (ofDatabase s.drop).origins := by
  intro s
  have hs : s.Sound := sound_run db events
  have hmem : ∀ name, name ∈ s.origins ↔ name ∈ s.working.tables.keys ∧ ¬ UnfitName name :=
    mem_origins_iff_keys hs (apart_run hdb events)
  have hcase : ∀ a ∈ s.origins, ∀ b ∈ s.origins, Text.fold a = Text.fold b → a = b := by
    intro a ha b hb hfold
    exact apart_run hdb events a ((hmem a).1 ha).1 b ((hmem b).1 hb).1 hfold
  have horigins : (ofDatabase s.close).origins = s.origins := by
    rw [close_eq_working hs, origins_ofDatabase_working hs]
  refine ⟨hmem, ⟨sorted_origins hs, nodup_origins hs, hcase⟩, ⟨horigins, fun rejected => ?_⟩, ?_⟩
  · rw [close_eq_working hs, entries?_ofDatabase_working hs]
  · rintro before entries after rfl s₀ hok e he src hsrc
    have hs₀ : s₀.Sound := sound_run db before
    have hfit := (isOk_insert hs₀ entries).1 hok
    have hne := List.ne_nil_of_mem he
    have hinsert : (s₀.insert entries).1.working = s₀.working.ingestAll entries :=
      working_insert hs₀ hfit
    have hsplit : s = (ofDatabase (s₀.working.ingestAll entries)).run after :=
      run_insert_of_fit (sound_ofDatabase db) before hne hfit after
    obtain ⟨name, hname, hfold⟩ := exists_origin_insert hs₀ hfit he hsrc
    have hkey : originKey name = originKey src.origin := hfold
    have hfound := (mem_origins_insert hs₀ hfit).1 hname
    rw [hkey, hfold] at hfound
    have hext := extends_run (sound_ofDatabase (s₀.working.ingestAll entries)) (.refl _) (.refl _)
      after
    rw [← hsplit, ← hinsert] at hext
    have hkept : ∀ db' : Database, (s₀.insert entries).1.working.Extends db' →
        name ∈ (ofDatabase db').origins :=
      fun db' h => mem_origins_of_extends (sound_insert hs₀ entries) h hname
    refine ⟨name, hfold, hfound, hname, ?_, hkept _ hext.1⟩
    rw [close_eq_working hs]
    exact hkept _ hext.2

/-- Contents with a table of the database itself and one whose name is unfit, then a batch with a
known origin in capitals and new ones in two spellings and with a quote, a batch that fails after a
new origin, and a decision that is not saved. -/
theorem origins_run_two_spellings :
    let db := Database.ofRows [] [("sqlite_stat1", []), ("a\nb", []), ("ieee", []), ("Zoo", [])]
    let batch : List Entry := [
      .new ⟨"", "", "One", "", ""⟩ [⟨"IEEE", some "a"⟩, ⟨"É \"x\"", none⟩],
      .new ⟨"", "", "Two", "", ""⟩ [⟨"é \"X\"", some "b"⟩, ⟨"É \"X\"", some "c"⟩]]
    let after : List Event := [
      .call (.insert [.new ⟨"", "", "Three", "", ""⟩ [⟨"new", none⟩, ⟨"Main", none⟩]]),
      .call (.review 1 (.later true) false)]
    let s := (ofDatabase db).run (.call (.insert batch) :: after)
    db.Apart ∧ ((ofDatabase db).insert batch).2.isOk = true ∧
      s.origins = ["ieee", "Zoo", "É \"x\"", "é \"X\""] ∧ (ofDatabase s.close).origins = s.origins ∧
      ∃ name ∈ (ofDatabase s.drop).origins, Text.fold name = Text.fold "É \"X\"" := by
  intro db batch after s
  have hdb : db.Apart := by unfold Database.Apart; decide +kernel
  have hok : ((ofDatabase db).insert batch).2.isOk = true := by decide +kernel
  obtain ⟨-, -, ⟨hreopened, -⟩, haccepted⟩ := origins_run db hdb (.call (.insert batch) :: after)
  obtain ⟨name, hfold, -, -, -, hdropped⟩ := haccepted [] batch after rfl hok _
    (List.mem_cons_of_mem _ List.mem_cons_self) ⟨"É \"X\"", some "c"⟩ (by decide)
  exact ⟨hdb, hok, by decide +kernel, hreopened, name, hdropped, hfold⟩

end Store

end PaperTrail
