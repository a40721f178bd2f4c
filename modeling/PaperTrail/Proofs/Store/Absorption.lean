import PaperTrail.Proofs.Store.Listing
import PaperTrail.Proofs.Store.Recognition

/-!
# Inserting a batch again

* `Database.Absorbs db e` : the paper of an entry is in the contents, with all its links. It holds
  right after the entry went in (`absorbs_ingest`), unless the entry cannot be recognised, and goes
  on holding while the contents grow (`Database.Absorbs.mono`): new papers come after old ones, so
  the first paper that shares a field with the entry stays the first one.
* `Database.Repeats db db'` : `db'` differs from `db` only in links that repeat others. Absorbed
  entries do no more than that (`repeats_ingest`), and no listing shows it (`listing_of_repeats`).
* `insert_again` : inserting a batch again, whatever happened since, creates nothing and changes
  nothing that the store shows.
-/

namespace PaperTrail

/-! ## Absorbed entries -/

/-- The paper of an entry is there, and so is every link of the entry. -/
def Database.Absorbs (db : Database) (e : Entry) : Prop :=
  ∃ id, db.find? e.resource = some id ∧ ∀ src ∈ e.sources, ∃ table,
    db.tableFor? (originKey src.origin) = some table ∧ ⟨some id, src.link?⟩ ∈ db.rowsOf table

/-- Searching looks at papers without their reviews. -/
theorem find?_eq_unreviewed (db : Database) (r : Resource) :
    db.find? r =
      ((db.main.map MainRow.unreviewed).find? (·.sharesAny r.identity)).map (·.id) := by
  rw [Database.find?, List.find?_map, Option.map_map]
  rfl

theorem find?_of_extends {db db' : Database} (h : db.Extends db') {r : Resource} {id : Int}
    (hfind : db.find? r = some id) : db'.find? r = some id := by
  rw [find?_eq_unreviewed, Option.map_eq_some_iff] at hfind ⊢
  obtain ⟨row, hrow, hid⟩ := hfind
  exact ⟨row, List.IsPrefix.find?_eq_some h.papers hrow, hid⟩

theorem Database.Absorbs.mono {db db' : Database} {e : Entry} (h : db.Absorbs e)
    (hext : db.Extends db') : db'.Absorbs e := by
  obtain ⟨id, hfind, hsources⟩ := h
  refine ⟨id, find?_of_extends hext hfind, fun src hsrc => ?_⟩
  obtain ⟨table, htable, hrow⟩ := hsources src hsrc
  exact ⟨table, hext.tables _ _ htable, (hext.rows table).subset hrow⟩

theorem find?_ingest {db : Database} {e : Entry} {f : IdentityField}
    (h : Text.isBlankText (e.resource.get f) = false) :
    (db.ingest e).find? e.resource = some (db.idFor e) := by
  rw [Database.find?, Database.main_ingest, Database.idFor]
  cases hfind : db.find? e.resource with
  | some id =>
    rw [Option.isSome_some, if_pos rfl, Option.getD_some, ← hfind, Database.find?]
  | none =>
    have hnone : db.main.find? (·.sharesAny e.resource.identity) = none := by
      rwa [Database.find?, Option.map_eq_none_iff] at hfind
    have hnew : (MainRow.ofEntry db.nextId e).sharesAny e.resource.identity = true :=
      sharesAny_ofEntry db.nextId h
    rw [Option.isSome_none, if_neg Bool.false_ne_true, List.find?_append, hnone, Option.none_or,
      List.find?_singleton, if_pos hnew]
    rfl

theorem absorbs_ingest (db : Database) {e : Entry}
    (hv : ∀ src ∈ e.sources, isValidOrigin src.origin = true) {f : IdentityField}
    (h : Text.isBlankText (e.resource.get f) = false) : (db.ingest e).Absorbs e := by
  refine ⟨db.idFor e, find?_ingest h, fun src hsrc => ?_⟩
  obtain ⟨table, htable⟩ :=
    Option.isSome_iff_exists.1 (Database.isSome_tableFor?_withTables db hv src hsrc)
  rw [← Database.tableFor?_ingest] at htable
  refine ⟨table, htable, ?_⟩
  rw [Database.rowsOf_ingest]
  refine List.mem_append_right _ (List.mem_map_of_mem (List.mem_filter.2 ⟨hsrc, ?_⟩))
  simpa using htable

theorem absorbs_ingestAll {db : Database} {entries : List Entry}
    (hv : ∀ e ∈ entries, ∀ src ∈ e.sources, isValidOrigin src.origin = true)
    (h : ∀ e ∈ entries, ∃ f, Text.isBlankText (e.resource.get f) = false) :
    ∀ e ∈ entries, (db.ingestAll entries).Absorbs e := by
  induction entries generalizing db with
  | nil => simp
  | cons e rest ih =>
    rw [List.forall_mem_cons] at hv h
    rw [List.forall_mem_cons]
    refine ⟨?_, ih hv.2 h.2⟩
    obtain ⟨f, hf⟩ := h.1
    refine (absorbs_ingest db hv.1 hf).mono ?_
    exact Store.ingestAll_induction (P := fun _ contents => (db.ingest e).Extends contents)
      (h := []) (fun _ contents _ hv' hext => hext.trans (extends_ingest contents hv')) hv.2
      (Database.Extends.refl _)

/-! ## Repeated links -/

/-- The contents `db'` differ from `db` only in links that repeat others of their table. -/
structure Database.Repeats (db db' : Database) : Prop where
  main_eq : db'.main = db.main
  tableFor?_eq : ∀ key, db'.tableFor? key = db.tableFor? key
  rows : ∀ table, ∃ again, db'.rowsOf table = db.rowsOf table ++ again ∧ again ⊆ db.rowsOf table

theorem Database.Repeats.refl (db : Database) : db.Repeats db :=
  ⟨rfl, fun _ => rfl, fun _ => ⟨[], (List.append_nil _).symm, List.nil_subset _⟩⟩

theorem Database.Repeats.trans {a b c : Database} (h₁ : a.Repeats b) (h₂ : b.Repeats c) :
    a.Repeats c := by
  refine ⟨h₂.main_eq.trans h₁.main_eq, fun key => (h₂.tableFor?_eq key).trans (h₁.tableFor?_eq key),
    fun table => ?_⟩
  obtain ⟨x, hx, hxsub⟩ := h₁.rows table
  obtain ⟨y, hy, hysub⟩ := h₂.rows table
  refine ⟨x ++ y, by rw [hy, hx, List.append_assoc], List.append_subset.2 ⟨hxsub, ?_⟩⟩
  rw [hx] at hysub
  exact List.Subset.trans hysub (List.append_subset.2 ⟨List.Subset.refl _, hxsub⟩)

theorem Database.Repeats.absorbs {db db' : Database} (h : db.Repeats db') {e : Entry}
    (he : db.Absorbs e) : db'.Absorbs e := by
  obtain ⟨id, hfind, hsources⟩ := he
  refine ⟨id, (Database.find?_congr h.main_eq _).trans hfind, fun src hsrc => ?_⟩
  obtain ⟨table, htable, hrow⟩ := hsources src hsrc
  obtain ⟨again, hagain, -⟩ := h.rows table
  exact ⟨table, (h.tableFor?_eq _).trans htable, by
    rw [hagain]; exact List.mem_append_left _ hrow⟩

theorem withTables_eq_self {db : Database} {sources : List Source}
    (h : ∀ src ∈ sources, (db.tableFor? (originKey src.origin)).isSome = true) :
    db.withTables sources = db := by
  induction sources with
  | nil => rfl
  | cons s rest ih =>
    rw [List.forall_mem_cons] at h
    obtain ⟨table, htable⟩ := Option.isSome_iff_exists.1 h.1
    have hfirst : db.withTable s.origin = db := by rw [Database.withTable, htable]
    rw [Database.withTables, List.foldl_cons, ← Database.withTables, hfirst, ih h.2]

/-- An entry that is absorbed already only repeats links, and counts as matched. -/
theorem repeats_ingest {db : Database} {e : Entry} (h : db.Absorbs e) :
    db.Repeats (db.ingest e) ∧ db.reportOf e = ⟨0, 1, e.sources.length⟩ := by
  obtain ⟨id, hfind, hsources⟩ := h
  have htables : db.withTables e.sources = db := by
    refine withTables_eq_self fun src hsrc => ?_
    obtain ⟨table, htable, -⟩ := hsources src hsrc
    rw [htable, Option.isSome_some]
  have hid : db.idFor e = id := by rw [Database.idFor, hfind, Option.getD_some]
  have hsome : (db.find? e.resource).isSome = true := by rw [hfind, Option.isSome_some]
  refine ⟨⟨?_, fun key => ?_, fun table => ?_⟩, ?_⟩
  · rw [Database.main_ingest, if_pos hsome]
  · rw [Database.tableFor?_ingest, htables]
  · refine ⟨_, Database.rowsOf_ingest db e table, fun row hrow => ?_⟩
    obtain ⟨src, hsrc, rfl⟩ := List.mem_map.1 hrow
    rw [List.mem_filter, decide_eq_true_eq, Database.tableFor?_ingest, htables] at hsrc
    obtain ⟨name, hname, hmem⟩ := hsources src hsrc.1
    rw [hsrc.2, Option.some_inj] at hname
    rw [hid, hname]
    exact hmem
  · rw [Database.reportOf, if_pos hsome]

theorem repeats_ingestAll {db : Database} {entries : List Entry}
    (h : ∀ e ∈ entries, db.Absorbs e) :
    db.Repeats (db.ingestAll entries) ∧
      db.reportAll entries = ⟨0, entries.length, (entries.flatMap (·.sources)).length⟩ := by
  induction entries generalizing db with
  | nil => exact ⟨Database.Repeats.refl db, rfl⟩
  | cons e rest ih =>
    rw [List.forall_mem_cons] at h
    obtain ⟨hfirst, hreport⟩ := repeats_ingest h.1
    obtain ⟨hrest, hreports⟩ := ih fun e' he' => hfirst.absorbs (h.2 e' he')
    refine ⟨hfirst.trans hrest, ?_⟩
    rw [Database.reportAll, hreport, hreports, Report.add]
    simp [Nat.add_comm 1]

/-- Repeated links do not show in a listing. -/
theorem listing_of_repeats {db db' : Database} (h : db.Repeats db') (tables : List String)
    (rejected : List Int) : db'.listing tables rejected = db.listing tables rejected := by
  have hlinks : db'.linksOf = db.linksOf := by
    funext id table
    obtain ⟨again, hagain, hsub⟩ := h.rows table
    rw [linksOf_eq, linksOf_eq, hagain, List.filter_append, List.filterMap_append]
    exact distinct_append_of_subset (List.filterMap_subset _ (List.filter_subset _ hsub))
  exact listing_congr h.main_eq hlinks tables rejected

theorem originsOf_of_repeats {db db' : Database} (h : db.Repeats db') :
    Store.originsOf db' = Store.originsOf db := by
  refine Store.known_ext fun key => ?_
  rw [Store.name_get?_originsOf, Store.name_get?_originsOf, h.tableFor?_eq]

namespace Store

/-- A batch of entries that can all be recognised, once inserted with success in a run, is absorbed:
after whatever else has happened, inserting it again matches every entry, and leaves the papers, the
origins and every listing as they are. -/
theorem insert_again (db : Database) (before after : List Event) (entries : List Entry)
    (hknown : ∀ e ∈ entries, ∃ f, Text.trim (e.resource.get f) ≠ "") (report : Report)
    (hok : (((ofDatabase db).run before).insert entries).2 = .ok report) :
    let s := (ofDatabase db).run (before ++ .call (.insert entries) :: after)
    (s.insert entries).2 =
        .ok ⟨0, entries.length, (entries.flatMap (·.sources)).length⟩ ∧
      (s.insert entries).1.working.main = s.working.main ∧
      (s.insert entries).1.origins = s.origins ∧
      ∀ rejected, (s.insert entries).1.entries? rejected = s.entries? rejected := by
  intro s
  have hs : s.Sound := sound_run db _
  have hs₁ := sound_run db before
  have hfit : firstUnfit (entries.flatMap (·.sources)) = none :=
    (isOk_insert hs₁ entries).1 (by rw [hok]; rfl)
  cases hempty : entries.isEmpty with
  | true =>
    obtain rfl := List.isEmpty_iff.1 hempty
    exact ⟨rfl, rfl, rfl, fun _ => rfl⟩
  | false =>
    have hne : entries ≠ [] := by simpa using hempty
    have hv := firstUnfit_flatMap_eq_none_iff.1 hfit
    have hidentity : ∀ e ∈ entries, ∃ f, Text.isBlankText (e.resource.get f) = false := by
      intro e he
      obtain ⟨f, hf⟩ := hknown e he
      exact ⟨f, by rw [← Bool.not_eq_true, Text.isBlankText_iff]; exact hf⟩
    let first := ((ofDatabase db).run before).working.ingestAll entries
    have hsplit : s = (ofDatabase first).run after :=
      run_insert_of_fit (sound_ofDatabase db) before hne hfit after
    have hext : first.Extends s.working := by
      rw [hsplit]
      exact (extends_run (sound_ofDatabase first) (.refl first) (.refl first) after).2
    have habsorbs : ∀ e ∈ entries, s.working.Absorbs e :=
      fun e he => (absorbs_ingestAll hv hidentity e he).mono hext
    obtain ⟨hrepeats, hreport⟩ := repeats_ingestAll habsorbs
    have horigins : (ofDatabase (s.working.ingestAll entries)).origins = s.origins := by
      rw [origins, ofDatabase, originsOf_of_repeats hrepeats, ← hs.known_eq, origins]
    rw [insert_of_fit hs hne hfit, hreport]
    refine ⟨rfl, hrepeats.main_eq, horigins, fun rejected => entries?_congr ?_⟩
    rw [Store.entries, horigins, Store.entries]
    exact listing_of_repeats hrepeats _ _

/-- A batch whose second entry belongs to a paper of the first one and whose third entry belongs to
an older paper, inserted again after another batch, an unsaved review, a batch that failed and a
connection that was dropped. -/
theorem insert_again_after_drop :
    let db : Database := ⟨[⟨3, none, none, some "Old", none, none, none, none, none⟩], .empty⟩
    let batch : List Entry := [
      .new ⟨"10.1/a", "", "New", "", ""⟩ [⟨"ieee", some "http://a"⟩, ⟨"IEEE", none⟩],
      .new ⟨"", "", "new", "", ""⟩ [⟨"acm", some "http://b"⟩],
      .new ⟨"10.1/c", "", "OLD", "", ""⟩ [⟨"Ieee", some "http://c"⟩]]
    let after : List Event := [
      .call (.insert [.new ⟨"10.1/c", "", "New", "Other", ""⟩ [⟨"scopus", none⟩]]),
      .call (.review 4 (.rejected 1) false),
      .call (.insert [.new ⟨"", "", "New", "", ""⟩ [⟨"main", none⟩]]),
      .dropReopen]
    let s := (ofDatabase db).run (.call (.insert batch) :: after)
    ((ofDatabase db).insert batch).2 = .ok ⟨1, 2, 4⟩ ∧ (s.insert batch).2 = .ok ⟨0, 3, 4⟩ ∧
      (s.insert batch).1.entries? [0] = s.entries? [0] := by
  intro db batch after s
  have hok : ((ofDatabase db).insert batch).2 = .ok ⟨1, 2, 4⟩ := by decide +kernel
  have hknown : ∀ e ∈ batch, ∃ f, Text.trim (e.resource.get f) ≠ "" := by
    refine List.forall_mem_cons.2 ⟨⟨.title, by decide +kernel⟩, List.forall_mem_cons.2
      ⟨⟨.title, by decide +kernel⟩, List.forall_mem_singleton.2 ⟨.title, by decide +kernel⟩⟩⟩
  obtain ⟨hagain, -, -, hentries⟩ := insert_again db [] after batch hknown _ hok
  exact ⟨hok, hagain, hentries [0]⟩

end Store

end PaperTrail
