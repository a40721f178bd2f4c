import PaperTrail.Proofs.Store.Run

/-!
# Contents only grow

* `Database.rowsOf` : the rows of a table, and `rowsOf_ingest` : what an entry adds to them;
* `Database.Numbered` : the numbers of the papers ascend, kept by everything (`numbered_run`);
* `Database.Extends db db'` : `db'` holds all that `db` holds, reviews aside: papers and rows of
  tables come at the end, and an origin keeps its table;
* `extends_ingest`, `extends_update` : entries and reviews extend the contents, hence so does every
  run (`extends_run`), also one that loses unsaved reviews.
-/

namespace PaperTrail

/-- The rows of a table; none for a table that is not there. -/
def Database.rowsOf (db : Database) (table : String) : List LinkRow :=
  (db.tables.get? table).getD []

/-- A row without its review. -/
def MainRow.unreviewed (r : MainRow) : MainRow :=
  { r with rejected? := none, later? := none, notes? := none }

/-! ## Rows of tables -/

theorem rowsOf_congr {db db' : Database} (h : db'.tables = db.tables) (table : String) :
    db'.rowsOf table = db.rowsOf table := by
  rw [Database.rowsOf, h, Database.rowsOf]

theorem rowsOf_of_not_contains {db : Database} {table : String}
    (h : db.tables.contains table = false) : db.rowsOf table = [] := by
  rw [Database.rowsOf, Dictionary.contains_eq_false_iff.1 h, Option.getD_none]

theorem rowsOf_addTable (db : Database) (name table : String) :
    (db.addTable name).rowsOf table = db.rowsOf table := by
  rw [Database.rowsOf, Database.addTable, Dictionary.insertNew, Database.rowsOf]
  by_cases hc : db.tables.contains name = true
  · rw [if_pos hc]
  · rw [if_neg hc, Dictionary.get?_insert]
    by_cases hname : table = name
    · rw [Bool.not_eq_true, Dictionary.contains_eq_false_iff] at hc
      rw [if_pos hname, hname, hc]
      rfl
    · rw [if_neg hname]

theorem rowsOf_addLink (db : Database) (name : String) (row : LinkRow) (table : String) :
    (db.addLink name row).rowsOf table =
      if table = name then db.rowsOf table ++ [row] else db.rowsOf table := by
  rw [Database.rowsOf, Database.addLink, Dictionary.get?_insert]
  by_cases hname : table = name
  · rw [if_pos hname, if_pos hname, hname]
    rfl
  · rw [if_neg hname, if_neg hname, Database.rowsOf]

namespace Database

theorem rowsOf_withTables (db : Database) (sources : List Source) (table : String) :
    (db.withTables sources).rowsOf table = db.rowsOf table := by
  induction sources generalizing db with
  | nil => rfl
  | cons s rest ih =>
    rw [withTables, List.foldl_cons, ← withTables, ih, withTable]
    split
    · rfl
    · exact rowsOf_addTable db s.origin table

theorem rowsOf_withLink (db : Database) (id : Int) (s : Source) (table : String) :
    (db.withLink id s).rowsOf table =
      if db.tableFor? (originKey s.origin) = some table then
        db.rowsOf table ++ [⟨some id, s.link?⟩]
      else db.rowsOf table := by
  unfold withLink
  cases htable : db.tableFor? (originKey s.origin) with
  | none => rfl
  | some name =>
    show (db.addLink name _).rowsOf table = _
    rw [rowsOf_addLink]
    by_cases hname : table = name
    · rw [if_pos hname, if_pos (congrArg some hname.symm)]
    · rw [if_neg hname, if_neg fun h => hname (Option.some.inj h).symm]

theorem tableFor?_withLinks (db : Database) (id : Int) (sources : List Source) (key : String) :
    (db.withLinks id sources).tableFor? key = db.tableFor? key := by
  induction sources generalizing db with
  | nil => rfl
  | cons s rest ih => rw [withLinks, List.foldl_cons, ← withLinks, ih, tableFor?_withLink]

theorem rowsOf_withLinks (db : Database) (id : Int) (sources : List Source) (table : String) :
    (db.withLinks id sources).rowsOf table = db.rowsOf table ++
      (sources.filter fun s => db.tableFor? (originKey s.origin) = some table).map fun s =>
        ⟨some id, s.link?⟩ := by
  induction sources generalizing db with
  | nil => exact (List.append_nil _).symm
  | cons s rest ih =>
    rw [withLinks, List.foldl_cons, ← withLinks, ih, rowsOf_withLink]
    simp only [tableFor?_withLink]
    by_cases htable : db.tableFor? (originKey s.origin) = some table
    · rw [if_pos htable, List.filter_cons_of_pos (by simpa using htable), List.map_cons,
        List.append_assoc, List.singleton_append]
    · rw [if_neg htable, List.filter_cons_of_neg (by simpa using htable)]

theorem tableFor?_ingest (db : Database) (e : Entry) (key : String) :
    (db.ingest e).tableFor? key = (db.withTables e.sources).tableFor? key := by
  rw [ingest, tableFor?_withLinks, tableFor?_congr (tables_withPaper _ e)]

/-- An entry adds a row for each of its sources, at the end of the table of its origin. -/
theorem rowsOf_ingest (db : Database) (e : Entry) (table : String) :
    (db.ingest e).rowsOf table = db.rowsOf table ++
      (e.sources.filter fun s => (db.ingest e).tableFor? (originKey s.origin) = some table).map
        fun s => ⟨some (db.idFor e), s.link?⟩ := by
  have htables := tables_withPaper (db.withTables e.sources) e
  simp only [tableFor?_ingest]
  rw [ingest, rowsOf_withLinks, rowsOf_congr htables, rowsOf_withTables]
  simp only [tableFor?_congr htables]

end Database

/-! ## Numbers of papers -/

/-- The numbers of the papers ascend, so no two papers have the same one. -/
def Database.Numbered (db : Database) : Prop := db.main.Pairwise fun a b => a.id < b.id

namespace Database.Numbered
variable {db : Database}

theorem nodup_ids (h : db.Numbered) : (db.main.map (·.id)).Nodup :=
  List.pairwise_map.2 (h.imp fun hlt => ne_of_lt hlt)

theorem lt_nextId (h : db.Numbered) {row : MainRow} (hrow : row ∈ db.main) : row.id < db.nextId := by
  unfold Numbered at h
  unfold nextId
  rcases List.eq_nil_or_concat db.main with hnil | ⟨rows, last, hmain⟩
  · rw [hnil] at hrow
    cases hrow
  · rw [List.concat_eq_append] at hmain
    rw [hmain, List.pairwise_append] at h
    rw [hmain, List.mem_append, List.mem_singleton] at hrow
    rw [hmain, List.getLast?_append_of_ne_nil _ (List.cons_ne_nil _ _)]
    show row.id < last.id + 1
    rcases hrow with hrow | rfl
    · have := h.2.2 row hrow last (List.mem_singleton_self last)
      omega
    · omega

theorem update (h : db.Numbered) (id : Int) (d : Store.Decision) :
    (db.update id d.apply).Numbered := by
  have hid : ∀ r : MainRow, (if r.id = id then d.apply r else r).id = r.id := by
    intro r
    split
    · cases d <;> rfl
    · rfl
  unfold Numbered Database.update
  simp only [List.pairwise_map, hid]
  exact h

theorem ingest (h : db.Numbered) (e : Entry) : (db.ingest e).Numbered := by
  unfold Numbered
  rw [main_ingest]
  split
  · exact h
  · refine List.pairwise_append.2 ⟨h, List.pairwise_singleton _ _, fun row hrow new hnew => ?_⟩
    rw [List.mem_singleton.1 hnew]
    exact h.lt_nextId hrow

end Database.Numbered

theorem numbered_run {db : Database} (h : db.Numbered) (events : List Store.Event) :
    ((Store.ofDatabase db).run events).committed.Numbered ∧
      ((Store.ofDatabase db).run events).working.Numbered :=
  Store.run_induction (P := fun _ contents => contents.Numbered)
    (fun _ _ id d h => h.update id d) (fun _ _ e _ h => h.ingest e) (Store.sound_ofDatabase db)
    (h := []) h h events

/-! ## Extension -/

/-- The contents `db'` hold all that `db` holds, reviews aside. -/
structure Database.Extends (db db' : Database) : Prop where
  papers : db.main.map MainRow.unreviewed <+: db'.main.map MainRow.unreviewed
  tables : ∀ key table, db.tableFor? key = some table → db'.tableFor? key = some table
  rows : ∀ table, db.rowsOf table <+: db'.rowsOf table

theorem Database.Extends.refl (db : Database) : db.Extends db :=
  ⟨List.prefix_refl _, fun _ _ h => h, fun _ => List.prefix_refl _⟩

theorem Database.Extends.trans {a b c : Database} (h₁ : a.Extends b) (h₂ : b.Extends c) :
    a.Extends c :=
  ⟨h₁.papers.trans h₂.papers, fun key table h => h₂.tables key table (h₁.tables key table h),
    fun table => (h₁.rows table).trans (h₂.rows table)⟩

theorem extends_ingest (db : Database) {e : Entry}
    (hv : ∀ src ∈ e.sources, isValidOrigin src.origin = true) : db.Extends (db.ingest e) := by
  refine ⟨?_, fun key table h => ?_, fun table => ?_⟩
  · rw [Database.main_ingest]
    split
    · exact List.prefix_refl _
    · rw [List.map_append]
      exact List.prefix_append _ _
  · rw [Database.tableFor?_ingest]
    exact Database.tableFor?_withTables_of_eq_some hv h
  · rw [Database.rowsOf_ingest]
    exact List.prefix_append _ _

/-- A review changes no more than reviews. -/
theorem map_unreviewed_update (db : Database) (id : Int) (d : Store.Decision) :
    (db.update id d.apply).main.map MainRow.unreviewed = db.main.map MainRow.unreviewed := by
  rw [Database.update, List.map_map]
  refine List.map_congr_left fun r _ => ?_
  rw [Function.comp_apply]
  split
  · cases d <;> rfl
  · rfl

theorem extends_update (db : Database) (id : Int) (d : Store.Decision) :
    db.Extends (db.update id d.apply) := by
  refine ⟨?_, fun _ _ h => h, fun _ => List.prefix_refl _⟩
  exact ⟨[], by rw [List.append_nil, map_unreviewed_update]⟩

/-- What is durable before a run is held by everything after it. -/
theorem extends_run {s : Store} (hs : s.Sound) {db : Database} (hcommitted : db.Extends s.committed)
    (hworking : db.Extends s.working) (events : List Store.Event) :
    db.Extends (s.run events).committed ∧ db.Extends (s.run events).working :=
  Store.run_induction (P := fun _ contents => db.Extends contents)
    (fun _ contents id d h => h.trans (extends_update contents id d))
    (fun _ contents _ hv h => h.trans (extends_ingest contents hv)) hs
    (h := []) hcommitted hworking events

end PaperTrail
