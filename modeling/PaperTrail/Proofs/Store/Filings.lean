import PaperTrail.Proofs.Store.KnownOrigins

/-!
# What a batch adds to the contents

A batch comes down to its filings: for each entry in turn the number of its paper, and whether the
entry made that paper.

* `Filing.Resolves rows f` : the rule for a filing where the papers `rows` are there already;
* `Database.filings` : the filings of a batch, and `resolves_filings` : each follows the rule, the
  papers made by the filings before it included;
* `paperRows`, `linkRows` : the rows that filings put behind the papers and behind the rows of a
  table; `main_ingestAll_eq`, `rowsOf_ingestAll` : a batch adds these and no others;
* `mem_keys_ingestAll` : the tables that a batch adds;
* `counts_reportAll` : the report counts what is added.
-/

namespace PaperTrail

/-! ## Filings on top of what is there -/

/-- The rule for a filing where the papers `rows` are there: an entry belongs to the paper of the
lowest number with which it shares a field, and makes one with a higher number when there is none. -/
inductive Filing.Resolves (rows : List MainRow) : Filing → Prop where
  | created {id : Int} {e : Entry}
      (hnew : ∀ row ∈ rows, row.sharesAny e.resource.identity = false)
      (habove : ∀ row ∈ rows, row.id < id) : Resolves rows ⟨id, e, true⟩
  | matched {row : MainRow} {e : Entry} (hrow : row ∈ rows)
      (hshares : row.sharesAny e.resource.identity = true)
      (hlowest : ∀ row' ∈ rows, row'.id < row.id → row'.sharesAny e.resource.identity = false) :
      Resolves rows ⟨row.id, e, false⟩

def paperRows (filings : List Filing) : List MainRow :=
  (papers filings).map fun f => MainRow.ofEntry f.id f.entry

def given (filings : List Filing) : List (Int × Source) :=
  filings.flatMap fun f => f.entry.sources.map fun s => (f.id, s)

/-- The rows that filings add to the table of an origin. -/
def linkRows (filings : List Filing) (table : String) : List LinkRow :=
  ((given filings).filter fun p => originKey p.2.origin = originKey table).map fun p =>
    ⟨some p.1, p.2.link?⟩

namespace Database

def filing (db : Database) (e : Entry) : Filing := ⟨db.idFor e, e, (db.find? e.resource).isNone⟩

def filings (db : Database) : List Entry → List Filing
  | [] => []
  | e :: rest => db.filing e :: (db.ingest e).filings rest

theorem map_entry_filings (db : Database) (entries : List Entry) :
    (db.filings entries).map (·.entry) = entries := by
  induction entries generalizing db with
  | nil => rfl
  | cons e rest ih => rw [filings, List.map_cons, ih, filing]

end Database

theorem paperRows_cons (f : Filing) (fs : List Filing) :
    paperRows (f :: fs) = paperRows [f] ++ paperRows fs := by
  unfold paperRows papers
  rw [← List.map_append, ← List.filter_append, List.singleton_append]

theorem given_cons (f : Filing) (fs : List Filing) : given (f :: fs) = given [f] ++ given fs := by
  unfold given
  rw [← List.flatMap_append, List.singleton_append]

theorem linkRows_cons (f : Filing) (fs : List Filing) (table : String) :
    linkRows (f :: fs) table = linkRows [f] table ++ linkRows fs table := by
  rw [linkRows, given_cons, List.filter_append, List.map_append, linkRows, linkRows]

theorem map_snd_given (filings : List Filing) :
    (given filings).map (·.2) = (filings.map (·.entry)).flatMap (·.sources) := by
  unfold given
  rw [List.map_flatMap, List.flatMap_map]
  simp

/-! ## Papers -/

namespace Database

theorem main_ingest_eq (db : Database) (e : Entry) :
    (db.ingest e).main = db.main ++ paperRows [db.filing e] := by
  rw [main_ingest, filing, idFor]
  cases hfind : db.find? e.resource with
  | some id => exact (List.append_nil _).symm
  | none => rfl

/-- A batch puts the papers that it makes behind the others. -/
theorem main_ingestAll_eq (db : Database) (entries : List Entry) :
    (db.ingestAll entries).main = db.main ++ paperRows (db.filings entries) := by
  induction entries generalizing db with
  | nil => exact (List.append_nil _).symm
  | cons e rest ih =>
    rw [filings, paperRows_cons, ← List.append_assoc, ← main_ingest_eq]
    exact ih (db.ingest e)

theorem resolves_filing {db : Database} (h : db.Numbered) (e : Entry) :
    (db.filing e).Resolves db.main := by
  unfold filing idFor
  cases hfind : db.find? e.resource with
  | none =>
    exact .created (find?_eq_none_iff.1 hfind) fun row hrow => h.lt_nextId hrow
  | some id =>
    rw [find?, Option.map_eq_some_iff] at hfind
    obtain ⟨row, hrow, rfl⟩ := hfind
    obtain ⟨hshares, before, after, hmain, hbefore⟩ := List.find?_eq_some_iff_append.1 hrow
    refine .matched (List.mem_of_find?_eq_some hrow) hshares fun row' hrow' hlower => ?_
    unfold Numbered at h
    rw [hmain, List.pairwise_append, List.pairwise_cons] at h
    rw [hmain, List.mem_append, List.mem_cons] at hrow'
    rcases hrow' with hrow' | rfl | hrow'
    · simpa using hbefore row' hrow'
    · omega
    · have := h.2.1.1 row' hrow'
      omega

/-- Every filing of a batch follows the rule, the papers that the batch made before it being there. -/
theorem resolves_filings {db : Database} (h : db.Numbered) {entries : List Entry}
    {earlier later : List Filing} {f : Filing}
    (heq : db.filings entries = earlier ++ f :: later) :
    f.Resolves (db.main ++ paperRows earlier) := by
  induction entries generalizing db earlier with
  | nil => simp [filings] at heq
  | cons e rest ih =>
    rw [filings] at heq
    cases earlier with
    | nil =>
      obtain ⟨rfl, -⟩ := List.cons.inj heq
      show (db.filing e).Resolves (db.main ++ [])
      rw [List.append_nil]
      exact resolves_filing h e
    | cons g earlier =>
      obtain ⟨rfl, hrest⟩ := List.cons.inj heq
      rw [paperRows_cons, ← List.append_assoc, ← main_ingest_eq]
      exact ih (h.ingest e) hrest

theorem Numbered.ingestAll {db : Database} (h : db.Numbered) (entries : List Entry) :
    (db.ingestAll entries).Numbered := by
  induction entries generalizing db with
  | nil => exact h
  | cons e rest ih => exact ih (h.ingest e)

/-! ## Tables and their rows -/

theorem tableFor?_eq_some_iff_key {db : Database} {key table : String} :
    db.tableFor? key = some table ↔
      key = originKey table ∧ db.tableFor? (originKey table) = some table := by
  constructor
  · intro h
    obtain ⟨-, hkey, -⟩ := tableFor?_eq_some h
    exact ⟨hkey.symm, by rw [hkey, h]⟩
  · rintro ⟨rfl, h⟩
    exact h

theorem extends_ingestAll (db : Database) {entries : List Entry}
    (hv : ∀ e ∈ entries, ∀ s ∈ e.sources, isValidOrigin s.origin = true) :
    db.Extends (db.ingestAll entries) := by
  induction entries generalizing db with
  | nil => exact .refl db
  | cons e rest ih =>
    rw [List.forall_mem_cons] at hv
    exact (extends_ingest db hv.1).trans (ih (db.ingest e) hv.2)

theorem isSome_tableFor?_ingest (db : Database) {e : Entry}
    (hv : ∀ s ∈ e.sources, isValidOrigin s.origin = true) :
    ∀ s ∈ e.sources, ((db.ingest e).tableFor? (originKey s.origin)).isSome = true := by
  intro s hs
  rw [tableFor?_ingest]
  exact isSome_tableFor?_withTables db hv s hs

/-- An entry adds its link rows to the tables of origins, the origins of its sources having the
tables that they have in `final`, and nothing to other tables. -/
theorem rowsOf_ingest_eq {db final : Database} {e : Entry}
    (hv : ∀ s ∈ e.sources, isValidOrigin s.origin = true) (hfinal : (db.ingest e).Extends final)
    (table : String) : (db.ingest e).rowsOf table = db.rowsOf table ++
      if final.tableFor? (originKey table) = some table then linkRows [db.filing e] table else [] := by
  -- a link goes into `table` when the source is of its origin and the origin has it for its table
  have hsame : ∀ s ∈ e.sources,
      decide ((db.ingest e).tableFor? (originKey s.origin) = some table) =
        decide (originKey s.origin = originKey table ∧
          final.tableFor? (originKey table) = some table) := by
    intro s hs
    obtain ⟨name, hname⟩ := Option.isSome_iff_exists.1 (isSome_tableFor?_ingest db hv s hs)
    rw [decide_eq_decide, ← tableFor?_eq_some_iff_key, hname, hfinal.tables _ _ hname]
  rw [rowsOf_ingest, List.filter_congr hsame, linkRows, given, List.flatMap_singleton,
    List.filter_map, List.map_map]
  by_cases htable : final.tableFor? (originKey table) = some table
  · simp only [htable, and_true, if_true]
    rfl
  · simp [htable]

/-- A batch adds its link rows to the tables of origins, and nothing to other tables. -/
theorem rowsOf_ingestAll (db : Database) {entries : List Entry}
    (hv : ∀ e ∈ entries, ∀ s ∈ e.sources, isValidOrigin s.origin = true) (table : String) :
    (db.ingestAll entries).rowsOf table = db.rowsOf table ++
      if (db.ingestAll entries).tableFor? (originKey table) = some table then
        linkRows (db.filings entries) table
      else [] := by
  induction entries generalizing db with
  | nil =>
    show db.rowsOf table = db.rowsOf table ++ ite _ [] []
    rw [ite_self, List.append_nil]
  | cons e rest ih =>
    rw [List.forall_mem_cons] at hv
    have hfinal := extends_ingestAll (db.ingest e) hv.2
    have hrest := ih (db.ingest e) hv.2
    have hlinks := linkRows_cons (db.filing e) ((db.ingest e).filings rest) table
    rw [rowsOf_ingest_eq hv.1 hfinal, List.append_assoc] at hrest
    show ((db.ingest e).ingestAll rest).rowsOf table = _
    rw [hrest, filings, hlinks]
    show _ = _ ++ ite (((db.ingest e).ingestAll rest).tableFor? (originKey table) = some table) _ _
    split <;> rfl

theorem mem_keys_withTable {db : Database} {origin : String} (hv : isValidOrigin origin = true)
    {name : String} (h : name ∈ (db.withTable origin).tables.keys) :
    name ∈ db.tables.keys ∨ (db.withTable origin).tableFor? (originKey name) = some name := by
  rw [tableFor?_withTable db hv]
  unfold withTable at h
  split at h
  · exact Or.inl h
  · next hnone =>
    rcases mem_keys_addTable h with rfl | hold
    · exact Or.inr (by rw [hnone, Option.none_or, if_pos rfl])
    · exact Or.inl hold

theorem keys_subset_withTable (db : Database) (origin : String) :
    db.tables.keys ⊆ (db.withTable origin).tables.keys := by
  intro name hname
  rw [Dictionary.mem_keys] at hname ⊢
  unfold withTable addTable Dictionary.insertNew
  split
  · exact hname
  · dsimp only
    split
    · exact hname
    · rw [Dictionary.contains_insert, hname, Bool.or_true]

theorem mem_keys_withTables {db : Database} {sources : List Source}
    (hv : ∀ s ∈ sources, isValidOrigin s.origin = true) {name : String}
    (h : name ∈ (db.withTables sources).tables.keys) :
    name ∈ db.tables.keys ∨ (db.withTables sources).tableFor? (originKey name) = some name := by
  induction sources generalizing db with
  | nil => exact Or.inl h
  | cons s rest ih =>
    rw [List.forall_mem_cons] at hv
    rcases ih hv.2 h with hold | hnew
    · exact (mem_keys_withTable hv.1 hold).imp_right (tableFor?_withTables_of_eq_some hv.2)
    · exact Or.inr hnew

theorem keys_subset_withTables (db : Database) (sources : List Source) :
    db.tables.keys ⊆ (db.withTables sources).tables.keys := by
  induction sources generalizing db with
  | nil => exact List.Subset.refl _
  | cons s rest ih =>
    exact List.Subset.trans (keys_subset_withTable db s.origin) (ih (db.withTable s.origin))

theorem keys_ingest (db : Database) (e : Entry) :
    (db.ingest e).tables.keys = (db.withTables e.sources).tables.keys := by
  rw [ingest, keys_withLinks, tables_withPaper]

theorem mem_keys_ingest {db : Database} {e : Entry}
    (hv : ∀ s ∈ e.sources, isValidOrigin s.origin = true) {name : String}
    (h : name ∈ (db.ingest e).tables.keys) :
    name ∈ db.tables.keys ∨ (db.ingest e).tableFor? (originKey name) = some name := by
  rw [tableFor?_ingest]
  rw [keys_ingest] at h
  exact mem_keys_withTables hv h

theorem keys_subset_ingestAll (db : Database) (entries : List Entry) :
    db.tables.keys ⊆ (db.ingestAll entries).tables.keys := by
  induction entries generalizing db with
  | nil => exact List.Subset.refl _
  | cons e rest ih =>
    have hfirst := keys_subset_withTables db e.sources
    rw [← keys_ingest] at hfirst
    exact List.Subset.trans hfirst (ih (db.ingest e))

/-- The tables after a batch are those from before and those of origins. -/
theorem mem_keys_ingestAll {db : Database} {entries : List Entry}
    (hv : ∀ e ∈ entries, ∀ s ∈ e.sources, isValidOrigin s.origin = true) {name : String} :
    name ∈ (db.ingestAll entries).tables.keys ↔
      name ∈ db.tables.keys ∨ (db.ingestAll entries).tableFor? (originKey name) = some name := by
  constructor
  · intro h
    induction entries generalizing db with
    | nil => exact Or.inl h
    | cons e rest ih =>
      rw [List.forall_mem_cons] at hv
      rcases ih hv.2 h with hold | hnew
      · exact (mem_keys_ingest hv.1 hold).imp_right
          ((extends_ingestAll (db.ingest e) hv.2).tables _ _)
      · exact Or.inr hnew
  · rintro (hold | hnew)
    · exact keys_subset_ingestAll db entries hold
    · exact Dictionary.mem_keys.2 (tableFor?_eq_some hnew).2.2

end Database

/-! ## Counting -/

theorem counts_reportOf (db : Database) (e : Entry) :
    (db.reportOf e).created = (paperRows [db.filing e]).length ∧
      (db.reportOf e).created + (db.reportOf e).matched = 1 ∧
      (db.reportOf e).links = e.sources.length := by
  unfold Database.reportOf Database.filing
  cases db.find? e.resource <;> exact ⟨rfl, rfl, rfl⟩

/-- The report on a batch counts the papers that it makes, the other entries, and all sources. -/
theorem counts_reportAll (db : Database) (entries : List Entry) :
    (db.reportAll entries).created = (paperRows (db.filings entries)).length ∧
      (db.reportAll entries).created + (db.reportAll entries).matched = entries.length ∧
      (db.reportAll entries).links = (entries.flatMap (·.sources)).length := by
  induction entries generalizing db with
  | nil => exact ⟨rfl, rfl, rfl⟩
  | cons e rest ih =>
    obtain ⟨hcreated, hboth, hlinks⟩ := ih (db.ingest e)
    obtain ⟨hcreated₁, hboth₁, hlinks₁⟩ := counts_reportOf db e
    rw [Database.filings, paperRows_cons, List.length_append, List.length_cons, List.flatMap_cons,
      List.length_append, Database.reportAll]
    unfold Report.add
    refine ⟨?_, ?_, ?_⟩ <;> dsimp only <;> omega

end PaperTrail
