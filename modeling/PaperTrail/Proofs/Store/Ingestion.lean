import PaperTrail.Proofs.Store.Origin

/-!
# The effect of an insertion

An insertion goes through its entries step by step and may stop at any source. Its effect is said
here on the contents alone, without units of work, known origins and undo lists:

* `Database.ingest db e` : the contents with one more entry, `Database.ingestAll` with several, and
  `Database.reportAll` the report that goes with them;
* `firstUnfit sources` : the first source whose origin has a name that no origin can have;
* `Batch.Holds` : the invariant of a batch, kept by each of its steps;
* `Store.Sound` : the invariant of a store;
* `Store.insert_of_fit`, `Store.insert_of_unfit` : an insertion into a sound store either leaves it
  on the contents that `ingestAll` gives, with nothing pending, or leaves it as it was.
-/

namespace PaperTrail

/-! ## Contents with more entries -/

namespace Database

/-- The contents with a table for an origin, made under its name when the origin has none. -/
def withTable (db : Database) (origin : String) : Database :=
  match db.tableFor? (originKey origin) with
  | some _ => db
  | none => db.addTable origin

def withTables (db : Database) (sources : List Source) : Database :=
  sources.foldl (fun db s => db.withTable s.origin) db

/-- The number of the paper of an entry: that of the first paper that shares a field with it, or the
next one. -/
def idFor (db : Database) (e : Entry) : Int := (db.find? e.resource).getD db.nextId

/-- The contents with a paper for an entry, added when none shares a field with it. -/
def withPaper (db : Database) (e : Entry) : Database :=
  if (db.find? e.resource).isSome then db else db.addPaper e

def withLink (db : Database) (id : Int) (s : Source) : Database :=
  match db.tableFor? (originKey s.origin) with
  | some table => db.addLink table ⟨some id, s.link?⟩
  | none => db

def withLinks (db : Database) (id : Int) (sources : List Source) : Database :=
  sources.foldl (fun db s => db.withLink id s) db

def ingest (db : Database) (e : Entry) : Database :=
  ((db.withTables e.sources).withPaper e).withLinks (db.idFor e) e.sources

def ingestAll (db : Database) (entries : List Entry) : Database := entries.foldl ingest db

def reportOf (db : Database) (e : Entry) : Report :=
  if (db.find? e.resource).isSome then ⟨0, 1, e.sources.length⟩ else ⟨1, 0, e.sources.length⟩

def reportAll (db : Database) : List Entry → Report
  | [] => Report.empty
  | e :: rest => (db.reportOf e).add ((db.ingest e).reportAll rest)

theorem ingestAll_concat (db : Database) (entries : List Entry) (e : Entry) :
    db.ingestAll (entries ++ [e]) = (db.ingestAll entries).ingest e :=
  List.foldl_append

theorem main_withTable (db : Database) (origin : String) : (db.withTable origin).main = db.main := by
  unfold withTable
  split <;> rfl

theorem main_withTables (db : Database) (sources : List Source) :
    (db.withTables sources).main = db.main := by
  induction sources generalizing db with
  | nil => rfl
  | cons s rest ih => rw [withTables, List.foldl_cons, ← withTables, ih, main_withTable]

theorem main_withLinks (db : Database) (id : Int) (sources : List Source) :
    (db.withLinks id sources).main = db.main := by
  induction sources generalizing db with
  | nil => rfl
  | cons s rest ih =>
    rw [withLinks, List.foldl_cons, ← withLinks, ih, withLink]
    split <;> rfl

theorem find?_congr {db db' : Database} (h : db'.main = db.main) (r : Resource) :
    db'.find? r = db.find? r := by
  rw [find?, h, find?]

theorem nextId_congr {db db' : Database} (h : db'.main = db.main) : db'.nextId = db.nextId := by
  rw [nextId, h, nextId]

theorem idFor_withTables (db : Database) (sources : List Source) (e : Entry) :
    (db.withTables sources).idFor e = db.idFor e := by
  have hmain := db.main_withTables sources
  rw [idFor, find?_congr hmain, nextId_congr hmain, idFor]

theorem tables_withPaper (db : Database) (e : Entry) : (db.withPaper e).tables = db.tables := by
  unfold withPaper
  split <;> rfl

/-- An entry adds its own paper to the papers, or nothing. -/
theorem main_ingest (db : Database) (e : Entry) :
    (db.ingest e).main =
      if (db.find? e.resource).isSome then db.main else db.main ++ [MainRow.ofEntry db.nextId e] := by
  have hmain := db.main_withTables e.sources
  rw [ingest, main_withLinks, withPaper, find?_congr hmain]
  split
  · exact hmain
  · rw [addPaper, hmain, nextId_congr hmain]

/-! ## Tables along the way -/

/-- A table made for an origin is that of the origin if it had none before. -/
theorem tableFor?_withTable (db : Database) {origin : String} (hv : isValidOrigin origin = true)
    (key : String) : (db.withTable origin).tableFor? key =
      (db.tableFor? key).or (if originKey origin = key then some origin else none) := by
  unfold withTable
  split
  · next table htable =>
    by_cases hk : originKey origin = key
    · rw [← hk, htable, Option.some_or]
    · rw [if_neg hk, Option.or_none]
  · next hnone =>
    rw [tableFor?_addTable hv hnone]
    by_cases hk : originKey origin = key
    · rw [if_pos hk, if_pos hk, ← hk, hnone, Option.none_or]
    · rw [if_neg hk, if_neg hk, Option.or_none]

theorem tableFor?_withTables (db : Database) {sources : List Source}
    (hv : ∀ s ∈ sources, isValidOrigin s.origin = true) (key : String) :
    (db.withTables sources).tableFor? key = (db.tableFor? key).or
      ((sources.find? fun s => originKey s.origin = key).map (·.origin)) := by
  induction sources generalizing db with
  | nil => simp [withTables]
  | cons s rest ih =>
    rw [List.forall_mem_cons] at hv
    rw [withTables, List.foldl_cons, ← withTables, ih _ hv.2, tableFor?_withTable db hv.1,
      Option.or_assoc, List.find?_cons]
    by_cases hk : originKey s.origin = key <;> simp [hk]

theorem tableFor?_withTables_of_eq_some {db : Database} {sources : List Source}
    (hv : ∀ s ∈ sources, isValidOrigin s.origin = true) {key table : String}
    (h : db.tableFor? key = some table) : (db.withTables sources).tableFor? key = some table := by
  rw [tableFor?_withTables db hv, h, Option.some_or]

theorem isSome_tableFor?_withTables (db : Database) {sources : List Source}
    (hv : ∀ s ∈ sources, isValidOrigin s.origin = true) :
    ∀ s ∈ sources, ((db.withTables sources).tableFor? (originKey s.origin)).isSome = true := by
  intro s hs
  have hfind : (sources.find? fun s' => originKey s'.origin = originKey s.origin).isSome = true :=
    List.find?_isSome.2 ⟨s, hs, by simp⟩
  rw [tableFor?_withTables db hv, Option.isSome_or, Option.isSome_map, hfind, Bool.or_true]

theorem tableFor?_withLink (db : Database) (id : Int) (s : Source) (key : String) :
    (db.withLink id s).tableFor? key = db.tableFor? key := by
  unfold withLink
  split
  · next htable => rw [tableFor?_addLink (tableFor?_eq_some htable).2.2]
  · rfl

end Database

/-! ## Origins that cannot be -/

/-- The error on the first source whose origin has a name that no origin can have. -/
def firstUnfit (sources : List Source) : Option InvalidOrigin :=
  (sources.find? fun s => !isValidOrigin s.origin).map fun s => ⟨s.origin⟩

theorem firstUnfit_cons (s : Source) (rest : List Source) :
    firstUnfit (s :: rest) =
      if isValidOrigin s.origin = true then firstUnfit rest else some ⟨s.origin⟩ := by
  rw [firstUnfit, List.find?_cons, firstUnfit]
  cases isValidOrigin s.origin <;> rfl

theorem firstUnfit_append (a b : List Source) :
    firstUnfit (a ++ b) = (firstUnfit a).or (firstUnfit b) := by
  rw [firstUnfit, List.find?_append, Option.map_or, firstUnfit, firstUnfit]

theorem firstUnfit_eq_none_iff {sources : List Source} :
    firstUnfit sources = none ↔ ∀ s ∈ sources, isValidOrigin s.origin = true := by
  simp [firstUnfit]

theorem firstUnfit_flatMap_eq_none_iff {entries : List Entry} :
    firstUnfit (entries.flatMap (·.sources)) = none ↔
      ∀ e ∈ entries, ∀ s ∈ e.sources, isValidOrigin s.origin = true := by
  simp only [firstUnfit_eq_none_iff, List.mem_flatMap, forall_exists_index, and_imp]
  exact ⟨fun h e he s hs => h s e he hs, fun h s e he hs => h e he s hs⟩

/-! ## The invariant of a batch -/

namespace Report

theorem add_assoc (a b c : Report) : (a.add b).add c = a.add (b.add c) := by
  simp [add, Nat.add_assoc]

theorem add_empty (a : Report) : a.add empty = a := by simp [add, empty]

theorem empty_add (a : Report) : empty.add a = a := by simp [add, empty]

end Report

namespace Store

/-- The store with other contents and the origins found in them. -/
def holding (s : Store) (db : Database) : Store := { s with working := db, known := originsOf db }

namespace Batch

/-- The state of an insertion into `s` that has made the contents `db` and the report `r`: erasing
the origins that it added gives those of `s` back. -/
structure Holds (b : Batch) (s : Store) (db : Database) (r : Report) : Prop where
  store_eq : b.store = s.holding db
  undo : b.added.foldl Dictionary.erase b.store.known = s.known
  report_eq : b.report = r

variable {b : Batch} {s : Store} {db : Database} {r : Report}

theorem Holds.ensureOrigin (h : b.Holds s db r) {origin : String}
    (hv : isValidOrigin origin = true) :
    ∃ b', b.ensureOrigin origin = .ok b' ∧ b'.Holds s (db.withTable origin) r := by
  obtain ⟨store, added, report⟩ := b
  obtain ⟨rfl, hundo, rfl⟩ := h
  have hcontains : (s.holding db).known.contains (originKey origin) =
      (db.tableFor? (originKey origin)).isSome := contains_originsOf db _
  unfold Batch.ensureOrigin Database.withTable
  simp only [hcontains]
  cases htable : db.tableFor? (originKey origin) with
  | some table => exact ⟨_, rfl, rfl, hundo, rfl⟩
  | none =>
    rw [OriginName.ofString_of_valid hv]
    have hadd := originsOf_addTable (o := ⟨origin, hv⟩) htable
    refine ⟨_, rfl, ?_, ?_, rfl⟩
    · simp only [holding, hadd]
    · have hnew : (originsOf db).contains (originKey origin) = false := by
        rw [contains_originsOf, htable, Option.isSome_none]
      exact (Dictionary.foldl_erase_insert hnew added _).trans hundo

theorem Holds.ensureOrigin_invalid (h : b.Holds s db r) {origin : String}
    (hv : isValidOrigin origin = false) : b.ensureOrigin origin = .error ⟨origin⟩ := by
  obtain ⟨store, added, report⟩ := b
  obtain ⟨rfl, -, rfl⟩ := h
  have hcontains : (s.holding db).known.contains (originKey origin) = false := by
    show (originsOf db).contains (originKey origin) = false
    rw [contains_originsOf, ← Bool.not_eq_true, Option.isSome_iff_exists]
    rintro ⟨table, htable⟩
    obtain ⟨hvalid, hkey, -⟩ := tableFor?_eq_some htable
    rw [isValidOrigin_congr hkey, hv] at hvalid
    cases hvalid
  simp only [Batch.ensureOrigin, hcontains, OriginName.ofString_of_invalid hv]
  rfl

theorem Holds.ensureOrigins (h : b.Holds s db r) (sources : List Source) :
    ∃ b' db', b.ensureOrigins sources = (b', firstUnfit sources) ∧ b'.Holds s db' r ∧
      (firstUnfit sources = none → db' = db.withTables sources) := by
  induction sources generalizing b db with
  | nil => exact ⟨b, db, rfl, h, fun _ => rfl⟩
  | cons src rest ih =>
    rw [firstUnfit_cons, Batch.ensureOrigins]
    cases hv : isValidOrigin src.origin with
    | false => exact ⟨b, db, by rw [h.ensureOrigin_invalid hv]; rfl, h, by simp⟩
    | true =>
      obtain ⟨b₁, hok, h₁⟩ := h.ensureOrigin hv
      obtain ⟨b₂, db₂, heq, h₂, hdb⟩ := ih h₁
      refine ⟨b₂, db₂, ?_, h₂, fun hnone => hdb (by simpa using hnone)⟩
      rw [hok, if_pos rfl]
      exact heq

theorem Holds.resolve (h : b.Holds s db r) (e : Entry) :
    ∃ b', b.resolve e = (db.idFor e, b') ∧
      b'.Holds s (db.withPaper e) (r.add (if (db.find? e.resource).isSome then ⟨0, 1, 0⟩
        else ⟨1, 0, 0⟩)) := by
  obtain ⟨store, added, report⟩ := b
  obtain ⟨rfl, hundo, rfl⟩ := h
  have hworking : (s.holding db).working = db := rfl
  unfold Batch.resolve Database.idFor Database.withPaper
  rw [hworking]
  cases hfind : db.find? e.resource with
  | some id => exact ⟨_, rfl, rfl, hundo, rfl⟩
  | none =>
    have horigins : originsOf (db.addPaper e) = originsOf db := originsOf_congr rfl
    refine ⟨_, rfl, ?_, hundo, rfl⟩
    simp only [holding, Option.isSome_none, Bool.false_eq_true, if_false, horigins]

theorem Holds.addLink (h : b.Holds s db r) (id : Int) {src : Source}
    (htable : (db.tableFor? (originKey src.origin)).isSome = true) :
    ∃ b', b.addLink id src = .ok b' ∧ b'.Holds s (db.withLink id src) (r.add ⟨0, 0, 1⟩) := by
  obtain ⟨store, added, report⟩ := b
  obtain ⟨rfl, hundo, rfl⟩ := h
  have hknown : (s.holding db).known = originsOf db := rfl
  obtain ⟨o, ho⟩ : ∃ o, (originsOf db).get? (originKey src.origin) = some o := by
    rw [← Dictionary.contains_iff, contains_originsOf, htable]
  have hname := get?_originsOf_eq_some_iff.1 ho
  have horigins := originsOf_addLink (tableFor?_eq_some hname).2.2 ⟨some id, src.link?⟩
  rw [Batch.addLink, hknown, ho, Database.withLink, hname]
  refine ⟨_, rfl, ?_, hundo, rfl⟩
  simp only [holding, horigins]

theorem Holds.addLinks (h : b.Holds s db r) (id : Int) {sources : List Source}
    (htables : ∀ src ∈ sources, (db.tableFor? (originKey src.origin)).isSome = true) :
    ∃ b', b.addLinks id sources = (b', none) ∧
      b'.Holds s (db.withLinks id sources) (r.add ⟨0, 0, sources.length⟩) := by
  induction sources generalizing b db r with
  | nil => exact ⟨b, rfl, h.store_eq, h.undo, h.report_eq.trans (Report.add_empty r).symm⟩
  | cons src rest ih =>
    rw [List.forall_mem_cons] at htables
    obtain ⟨b₁, hok, h₁⟩ := h.addLink id htables.1
    have hrest : ∀ src' ∈ rest,
        ((db.withLink id src).tableFor? (originKey src'.origin)).isSome = true := by
      intro src' hmem
      rw [Database.tableFor?_withLink]
      exact htables.2 src' hmem
    obtain ⟨b₂, heq, h₂⟩ := ih h₁ hrest
    refine ⟨b₂, ?_, h₂.store_eq, h₂.undo, h₂.report_eq.trans ?_⟩
    · rw [Batch.addLinks, hok]
      exact heq
    · simp [Report.add, Nat.add_assoc, Nat.add_comm 1]

theorem Holds.addEntry (h : b.Holds s db r) (e : Entry) :
    ∃ b' db' r', b.addEntry e = (b', firstUnfit e.sources) ∧ b'.Holds s db' r' ∧
      (firstUnfit e.sources = none → db' = db.ingest e ∧ r' = r.add (db.reportOf e)) := by
  obtain ⟨b₁, db₁, heq₁, h₁, hdb₁⟩ := h.ensureOrigins e.sources
  rw [Batch.addEntry, heq₁]
  cases hfirst : firstUnfit e.sources with
  | some err => exact ⟨b₁, db₁, r, rfl, h₁, by simp⟩
  | none =>
    obtain rfl := hdb₁ hfirst
    obtain ⟨b₂, heq₂, h₂⟩ := h₁.resolve e
    have htables : ∀ src ∈ e.sources, (((db.withTables e.sources).withPaper e).tableFor?
        (originKey src.origin)).isSome = true := by
      intro src hmem
      rw [tableFor?_congr (Database.tables_withPaper _ e)]
      exact Database.isSome_tableFor?_withTables db (firstUnfit_eq_none_iff.1 hfirst) src hmem
    obtain ⟨b₃, heq₃, h₃⟩ := h₂.addLinks ((db.withTables e.sources).idFor e) htables
    have hmain := db.main_withTables e.sources
    refine ⟨b₃, _, _, ?_, h₃, fun _ => ⟨?_, ?_⟩⟩
    · simp only [heq₂, heq₃]
    · rw [Database.ingest, Database.idFor_withTables]
    · rw [Report.add_assoc, Database.reportOf, Database.find?_congr hmain]
      split <;> simp [Report.add]

theorem Holds.addEntries (h : b.Holds s db r) (entries : List Entry) :
    ∃ b' db' r', b.addEntries entries = (b', firstUnfit (entries.flatMap (·.sources))) ∧
      b'.Holds s db' r' ∧ (firstUnfit (entries.flatMap (·.sources)) = none →
        db' = db.ingestAll entries ∧ r' = r.add (db.reportAll entries)) := by
  induction entries generalizing b db r with
  | nil => exact ⟨b, db, r, rfl, h, fun _ => ⟨rfl, (Report.add_empty r).symm⟩⟩
  | cons e rest ih =>
    obtain ⟨b₁, db₁, r₁, heq₁, h₁, hdb₁⟩ := h.addEntry e
    rw [Batch.addEntries, heq₁, List.flatMap_cons, firstUnfit_append]
    cases hfirst : firstUnfit e.sources with
    | some err => exact ⟨b₁, db₁, r₁, rfl, h₁, by simp⟩
    | none =>
      obtain ⟨rfl, rfl⟩ := hdb₁ hfirst
      obtain ⟨b₂, db₂, r₂, heq₂, h₂, hdb₂⟩ := ih h₁
      refine ⟨b₂, db₂, r₂, heq₂, h₂, fun hnone => ?_⟩
      obtain ⟨hdb, hr⟩ := hdb₂ (by simpa using hnone)
      exact ⟨hdb, by rw [hr, Report.add_assoc, Database.reportAll]⟩

end Batch

/-! ## Insertion into a sound store -/

/-- What holds of a store between operations: the known origins are those found in the contents,
and without a unit of work everything is durable. -/
structure Sound (s : Store) : Prop where
  known_eq : s.known = originsOf s.working
  settled : s.pending = false → s.committed = s.working

theorem sound_ofDatabase (db : Database) : (ofDatabase db).Sound := ⟨rfl, fun _ => rfl⟩

theorem holds_begin {s : Store} (hs : s.Sound) :
    (Batch.mk s.begin [] Report.empty).Holds s.begin s.working Report.empty := by
  refine ⟨?_, rfl, rfl⟩
  rw [holding, ← hs.known_eq]
  rfl

/-- A batch without unfit origins goes into the contents, together with all that was pending. -/
theorem insert_of_fit {s : Store} (hs : s.Sound) {entries : List Entry} (hne : entries ≠ [])
    (hfit : firstUnfit (entries.flatMap (·.sources)) = none) :
    s.insert entries =
      (ofDatabase (s.working.ingestAll entries), .ok (s.working.reportAll entries)) := by
  obtain ⟨b, db, r, heq, h, hdb⟩ := (holds_begin hs).addEntries entries
  obtain ⟨rfl, rfl⟩ := hdb hfit
  rw [insert, if_neg (by simpa using hne), heq, hfit]
  simp only [h.store_eq, h.report_eq, Report.empty_add]
  rfl

/-- A batch with an unfit origin leaves the store as it was, whether or not it opened the unit of
work. -/
theorem insert_of_unfit {s : Store} (hs : s.Sound) {entries : List Entry} {e : InvalidOrigin}
    (hunfit : firstUnfit (entries.flatMap (·.sources)) = some e) :
    s.insert entries = (s, .error e) := by
  have hne : entries ≠ [] := by
    rintro rfl
    cases hunfit
  obtain ⟨b, db, r, heq, h, -⟩ := (holds_begin hs).addEntries entries
  rw [insert, if_neg (by simpa using hne), heq, hunfit]
  have habandon : abandon b s.working (!s.pending) = s := by
    have hundo := h.undo
    have hstore := h.store_eq
    obtain ⟨committed, working, known, pending⟩ := s
    rw [abandon, hundo, hstore]
    cases pending with
    | true => rfl
    | false =>
      obtain rfl : committed = working := hs.settled rfl
      rfl
  simp only [habandon]

end Store

end PaperTrail
