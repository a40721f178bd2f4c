import PaperTrail.Proofs.Store.Growth

/-!
# References between tables

The tables of the origins name papers by their numbers. Nothing but the order of the writes keeps
these numbers meaningful: a row is written behind the paper that it names, in the same unit of work.

* `Database.Refers` : every number in a table is that of a paper;
* `Database.Referential` : the papers have different numbers, and the tables of all origins refer to
  them. Reviews and new entries keep both;
* `Database.Alike` : contents that differ in reviews only, as what a store sees and what is durable
  do in every state (`alike_run`), so that a dropped connection loses neither papers nor links;
* `referential_run` : what holds of both views in every state, and what an event leaves in place.
-/

namespace PaperTrail

/-- Every number in a table is that of a paper. -/
def Database.Refers (db : Database) (table : String) : Prop :=
  ∀ row ∈ db.rowsOf table, ∀ id, row.id? = some id → ∃ paper ∈ db.main, paper.id = id

/-- The papers have different numbers, and every number in the table of an origin is that of a
paper. -/
structure Database.Referential (db : Database) : Prop where
  nodup_ids : (db.main.map (·.id)).Nodup
  refers : ∀ table, ¬ UnfitName table → db.Refers table

namespace Database.Refers
variable {db : Database} {table : String}

theorem of_entries (h : ∀ e ∈ db.tables.entries, ∀ row ∈ e.2, ∀ id, row.id? = some id →
    ∃ paper ∈ db.main, paper.id = id) (table : String) : db.Refers table := by
  intro row hrow
  cases hrows : db.tables.get? table with
  | none =>
    rw [Database.rowsOf, hrows] at hrow
    cases hrow
  | some rows =>
    rw [Database.rowsOf, hrows] at hrow
    exact h (table, rows) (Dictionary.mem_entries_iff.2 hrows) row hrow

theorem update (h : db.Refers table) (id : Int) (d : Store.Decision) :
    (db.update id d.apply).Refers table := by
  intro row hrow id' hid'
  obtain ⟨paper, hpaper, hid⟩ := h row hrow id' hid'
  refine ⟨_, List.mem_map_of_mem hpaper, ?_⟩
  rw [← hid]
  split
  · cases d <;> rfl
  · rfl

/-- The number under which an entry is filed is that of a paper afterwards. -/
theorem exists_paper_ingest (db : Database) (e : Entry) :
    ∃ paper ∈ (db.ingest e).main, paper.id = db.idFor e := by
  rw [Database.main_ingest, Database.idFor]
  cases hfind : db.find? e.resource with
  | some id =>
    rw [Database.find?, Option.map_eq_some_iff] at hfind
    obtain ⟨paper, hpaper, hid⟩ := hfind
    exact ⟨paper, List.mem_of_find?_eq_some hpaper, hid⟩
  | none => exact ⟨_, List.mem_append_right _ (List.mem_singleton_self _), rfl⟩

theorem ingest (h : db.Refers table) (e : Entry) : (db.ingest e).Refers table := by
  intro row hrow id hid
  rw [Database.rowsOf_ingest, List.mem_append, List.mem_map] at hrow
  rcases hrow with hold | ⟨s, -, rfl⟩
  · obtain ⟨paper, hpaper, rfl⟩ := h row hold id hid
    refine ⟨paper, ?_, rfl⟩
    rw [Database.main_ingest]
    split
    · exact hpaper
    · exact List.mem_append_left _ hpaper
  · obtain rfl := Option.some.inj hid
    exact exists_paper_ingest db e

end Database.Refers

/-! ## Contents that differ in reviews only -/

/-- The same papers, reviews aside, and the same tables. -/
structure Database.Alike (a b : Database) : Prop where
  papers : a.main.map MainRow.unreviewed = b.main.map MainRow.unreviewed
  tables : a.tables = b.tables

namespace Database.Alike
variable {a b c : Database}

theorem refl (a : Database) : a.Alike a := ⟨rfl, rfl⟩

theorem symm (h : a.Alike b) : b.Alike a := ⟨h.papers.symm, h.tables.symm⟩

theorem trans (h₁ : a.Alike b) (h₂ : b.Alike c) : a.Alike c :=
  ⟨h₁.papers.trans h₂.papers, h₁.tables.trans h₂.tables⟩

theorem toExtends (h : a.Alike b) : a.Extends b := by
  refine ⟨⟨[], ?_⟩, fun key table htable => ?_, fun table => ?_⟩
  · rw [List.append_nil, h.papers]
  · rw [tableFor?_congr h.tables.symm]
    exact htable
  · exact rowsOf_congr h.tables.symm table ▸ List.prefix_refl _

end Database.Alike

namespace Store

/-- An operation that does not flush changes no more than reviews. -/
theorem alike_write {s : Store} (hs : s.Sound) {c : Call} (hf : c.flushes s = false)
    (db : Database) : db.Alike (c.write db) := by
  refine ⟨?_, (Call.tables_write hs hf db).symm⟩
  cases hd : c.defers with
  | false => rw [Call.write_eq_self hs hf hd]
  | true =>
    cases c with
    | review id d saveNow => exact (map_unreviewed_update db id d).symm
    | insert entries => cases hd
    | save => cases hd
    | list rejected => cases hd

theorem alike_handle {s : Store} (hs : s.Sound) (h : s.committed.Alike s.working) (e : Event) :
    (s.handle e).committed.Alike (s.handle e).working := by
  cases e with
  | call c =>
    cases hf : c.flushes s with
    | true =>
      rw [handle, call_of_flushes hs hf]
      exact .refl _
    | false =>
      rw [handle, call_of_not_flushes hs hf]
      exact h.trans (alike_write hs hf s.working)
  | closeReopen => exact .refl _
  | dropReopen => exact .refl _

/-- What is durable and what the store sees never differ in more than reviews. -/
theorem alike_run {s : Store} (hs : s.Sound) (h : s.committed.Alike s.working)
    (events : List Event) : (s.run events).committed.Alike (s.run events).working := by
  induction events generalizing s with
  | nil => exact h
  | cons e rest ih => exact ih (hs.handle e) (alike_handle hs h e)

theorem refers_run {db : Database} {table : String} (h : db.Refers table) (events : List Event) :
    ((ofDatabase db).run events).committed.Refers table ∧
      ((ofDatabase db).run events).working.Refers table :=
  run_induction (P := fun _ contents => contents.Refers table)
    (fun _ _ id d h => h.update id d) (fun _ _ e _ h => h.ingest e) (sound_ofDatabase db)
    (h := []) h h events

/-! ## References after every run -/

/-- On contents with numbered papers to which the tables of all origins refer, in every state and in
both views of it, the papers have different numbers and every number in the table of an origin is
that of a paper. Whatever happens next, each view still holds every paper and every row of every
table that it held before: only reviews change, and new rows come behind the old ones. -/
theorem referential_run (db : Database) (hdb : db.Numbered)
    (hrefers : ∀ table, ¬ UnfitName table → db.Refers table) (events : List Event) :
    let s := (ofDatabase db).run events
    (s.working.Referential ∧ s.committed.Referential) ∧
    ∀ e, s.working.Extends (s.handle e).working ∧ s.committed.Extends (s.handle e).committed := by
  intro s
  have hs : s.Sound := sound_run db events
  obtain ⟨hcommitted, hworking⟩ := numbered_run hdb events
  have halike : s.committed.Alike s.working := alike_run (sound_ofDatabase db) (.refl db) events
  refine ⟨⟨⟨hworking.nodup_ids, ?_⟩, ⟨hcommitted.nodup_ids, ?_⟩⟩, fun e => ⟨?_, ?_⟩⟩
  · exact fun table hfit => (refers_run (hrefers table hfit) events).2
  · exact fun table hfit => (refers_run (hrefers table hfit) events).1
  · exact (extends_run hs halike.symm.toExtends (.refl s.working) [e]).2
  · exact (extends_run hs (.refl s.committed) halike.toExtends [e]).1

/-- Contents of another program with a row without number, an origin in capitals and a new one, a
batch that fails after a new origin, and an unsaved review that is dropped. -/
theorem referential_run_dropped :
    let db := Database.ofRows [⟨7, none, none, some "Old", none, none, none, none, none⟩]
      [("ieee", [⟨some 7, some "a"⟩, ⟨none, some "b"⟩, ⟨some 7, none⟩])]
    let events : List Event := [
      .call (.insert [.new ⟨"", "", "OLD", "", ""⟩ [⟨"IEEE", some "c"⟩, ⟨"acm", none⟩],
        .new ⟨"", "", "New", "", ""⟩ [⟨"acm", some "d"⟩]]),
      .call (.review 8 (.rejected 1) false),
      .call (.insert [.new ⟨"", "", "Other", "", ""⟩ [⟨"web", none⟩, ⟨"main", none⟩]])]
    let s := (ofDatabase db).run events
    (db.Numbered ∧ ∀ table, ¬ UnfitName table → db.Refers table) ∧
      (s.working.Referential ∧ s.working.main.map (·.id) = [7, 8] ∧
        s.working.rowsOf "acm" = [⟨some 7, none⟩, ⟨some 8, some "d"⟩]) ∧
      s.working ≠ s.committed ∧ s.working.Extends (s.handle .dropReopen).working := by
  intro db events s
  have hdb : db.Numbered := by unfold Database.Numbered; decide +kernel
  have hrefers : ∀ table, ¬ UnfitName table → db.Refers table :=
    fun table _ => .of_entries (by decide +kernel) table
  obtain ⟨⟨hworking, -⟩, hkept⟩ := referential_run db hdb hrefers events
  exact ⟨⟨hdb, hrefers⟩, ⟨hworking, by decide +kernel, by decide +kernel⟩, by decide +kernel,
    (hkept .dropReopen).1⟩

end Store

end PaperTrail
