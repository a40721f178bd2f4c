import PaperTrail.Proofs.Store.Absorption
import PaperTrail.Proofs.Store.Ledger

/-!
# Where a paper was found

A store shows for every paper the origins and links of the entries that were filed under it, and
nothing else.

* `spelling?` : the name under which an origin was first accepted;
* `Provides` : the sources that filings give a paper;
* `Database.Records` : what is in the contents after entries have been accepted; kept by reviews and
  by new entries, so it holds after every run (`records_run`);
* `ListsProvenance` : a listing shows for each paper what its filings provide, each source once;
* `listsProvenance_run` : this holds after every run on an empty store.
-/

namespace PaperTrail

/-! ## The names of origins -/

/-- The name under which the origin with this key was first accepted. -/
def spelling? (entries : List Entry) (key : String) : Option String :=
  ((entries.flatMap (·.sources)).find? fun s => originKey s.origin = key).map (·.origin)

theorem spelling?_concat (entries : List Entry) (e : Entry) (key : String) :
    spelling? (entries ++ [e]) key = (spelling? entries key).or
      ((e.sources.find? fun s => originKey s.origin = key).map (·.origin)) := by
  rw [spelling?, List.flatMap_append, List.find?_append, Option.map_or, spelling?]
  simp

theorem originKey_of_spelling? {entries : List Entry} {key name : String}
    (h : spelling? entries key = some name) : originKey name = key := by
  obtain ⟨s, hs, rfl⟩ := Option.map_eq_some_iff.1 h
  simpa using List.find?_some hs

theorem exists_spelling? {entries : List Entry} {e : Entry} {s : Source} (he : e ∈ entries)
    (hs : s ∈ e.sources) : ∃ name, spelling? entries (originKey s.origin) = some name := by
  rw [spelling?, ← Option.isSome_iff_exists, Option.isSome_map, List.find?_isSome]
  exact ⟨s, List.mem_flatMap_of_mem he hs, by simp⟩

theorem spelling?_mono {entries : List Entry} {e : Entry} {key name : String}
    (h : spelling? entries key = some name) : spelling? (entries ++ [e]) key = some name := by
  rw [spelling?_concat, h, Option.some_or]

/-! ## What the contents record -/

/-- The contents after these entries have been accepted, reviews aside: a paper for every filing
that made one, a table for every origin, and in it a row for every source of an entry. -/
structure Database.Records (db : Database) (taken : List Entry) : Prop where
  papers_eq : db.main.map MainRow.unreviewed =
    (papers (ledger sameStored taken)).map fun f => (MainRow.ofEntry f.id f.entry).unreviewed
  tableFor?_eq : ∀ key, db.tableFor? key = spelling? taken key
  mem_rowsOf_iff : ∀ table row, row ∈ db.rowsOf table ↔
    spelling? taken (originKey table) = some table ∧ ∃ f ∈ ledger sameStored taken,
      ∃ s ∈ f.entry.sources, originKey s.origin = originKey table ∧ row = ⟨some f.id, s.link?⟩

namespace Database.Records
variable {db : Database} {taken : List Entry}

theorem empty : Records .empty [] := by
  refine ⟨rfl, fun _ => rfl, fun table row => ?_⟩
  simp [Database.rowsOf, Database.empty, spelling?]

theorem update (h : db.Records taken) (id : Int) (d : Store.Decision) :
    (db.update id d.apply).Records taken :=
  ⟨(map_unreviewed_update db id d).trans h.papers_eq, h.tableFor?_eq, h.mem_rowsOf_iff⟩

theorem sharesAny_unreviewed_ofEntry (id : Int) (e : Entry) (r : Resource) :
    (MainRow.ofEntry id e).unreviewed.sharesAny r.identity = e.resource.shares sameStored r := by
  have hget : ∀ f, (MainRow.ofEntry id e).unreviewed.get? f = some (e.resource.get f) := by
    intro f
    cases f <;> rfl
  rw [Bool.eq_iff_iff, sharesAny_identity_iff, Resource.shares_iff]
  refine exists_congr fun f => ⟨?_, fun hshares => ⟨_, hget f, hshares⟩⟩
  rintro ⟨v, hv, hshares⟩
  obtain rfl := Option.some.inj ((hget f).symm.trans hv)
  exact hshares

/-- The store finds the paper under which the ledger files an entry. -/
theorem find?_eq (h : db.Records taken) (r : Resource) :
    db.find? r = ((papers (ledger sameStored taken)).find?
      (·.entry.resource.shares sameStored r)).map (·.id) := by
  have hshares : (fun row : MainRow => row.sharesAny r.identity) ∘
      (fun f : Filing => (MainRow.ofEntry f.id f.entry).unreviewed) =
        fun f => f.entry.resource.shares sameStored r :=
    funext fun f => sharesAny_unreviewed_ofEntry f.id f.entry r
  rw [find?_eq_unreviewed, h.papers_eq, List.find?_map, Option.map_map, hshares]
  rfl

theorem map_id_main (h : db.Records taken) :
    db.main.map (·.id) = (papers (ledger sameStored taken)).map (·.id) := by
  have hids := congrArg (List.map (·.id)) h.papers_eq
  rwa [List.map_map, List.map_map] at hids

theorem nextId_eq (h : db.Records taken) :
    db.nextId = (papers (ledger sameStored taken)).length + 1 := by
  have hlast : db.main.getLast?.map (·.id) =
      (List.range (papers (ledger sameStored taken)).length).getLast?.map fun i : Nat =>
        (i : Int) + 1 := by
    rw [← List.getLast?_map, h.map_id_main, ids_papers, List.getLast?_map]
  rw [Database.nextId]
  cases hmain : db.main.getLast? with
  | none =>
    rw [hmain, Option.map_none, eq_comm, Option.map_eq_none_iff, List.getLast?_range] at hlast
    split at hlast
    · next hzero => simp [hzero]
    · cases hlast
  | some row =>
    rw [hmain, Option.map_some, eq_comm, Option.map_eq_some_iff] at hlast
    obtain ⟨i, hi, hid⟩ := hlast
    rw [List.getLast?_range] at hi
    split at hi
    · cases hi
    · obtain rfl := Option.some.inj hi
      show row.id + 1 = _
      omega

theorem idFor_eq (h : db.Records taken) (e : Entry) :
    db.idFor e = (file sameStored (ledger sameStored taken) e).id := by
  rw [Database.idFor, h.find?_eq, file]
  cases hfind : (papers (ledger sameStored taken)).find?
      (·.entry.resource.shares sameStored e.resource) with
  | some p => rfl
  | none => exact h.nextId_eq

theorem ingest (h : db.Records taken) {e : Entry}
    (hv : ∀ s ∈ e.sources, isValidOrigin s.origin = true) :
    (db.ingest e).Records (taken ++ [e]) := by
  have htables : ∀ key, (db.ingest e).tableFor? key = spelling? (taken ++ [e]) key := by
    intro key
    rw [Database.tableFor?_ingest, Database.tableFor?_withTables db hv, h.tableFor?_eq,
      spelling?_concat]
  refine ⟨?_, htables, fun table row => ?_⟩
  · rw [Database.main_ingest, ledger_concat, papers_concat, h.find?_eq, Option.isSome_map, file]
    cases hfind : (papers (ledger sameStored taken)).find?
        (·.entry.resource.shares sameStored e.resource) with
    | some p => simpa using h.papers_eq
    | none => simp [h.papers_eq, h.nextId_eq]
  · rw [Database.rowsOf_ingest, List.mem_append, h.mem_rowsOf_iff, List.mem_map, h.idFor_eq,
      ledger_concat]
    simp only [htables, List.mem_filter, decide_eq_true_eq]
    constructor
    · rintro (⟨hname, f, hf, hrow⟩ | ⟨s, ⟨hs, hname⟩, rfl⟩)
      · exact ⟨spelling?_mono hname, f, List.mem_append_left _ hf, hrow⟩
      · have hkey := originKey_of_spelling? hname
        refine ⟨by rw [hkey]; exact hname, _, List.mem_append_right _ (List.mem_singleton_self _), s,
          ?_, hkey.symm, rfl⟩
        rw [entry_file]
        exact hs
    · rintro ⟨hname, f, hf, s, hs, hkey, rfl⟩
      rcases List.mem_append.1 hf with hf | hf
      · obtain ⟨name, hold⟩ := exists_spelling? (entry_mem_of_mem_ledger _ hf) hs
        rw [hkey] at hold
        obtain rfl := Option.some.inj ((spelling?_mono hold).symm.trans hname)
        exact Or.inl ⟨hold, f, hf, s, hs, hkey, rfl⟩
      · obtain rfl := List.mem_singleton.1 hf
        rw [entry_file] at hs
        exact Or.inr ⟨s, ⟨hs, by rw [hkey]; exact hname⟩, rfl⟩

end Database.Records

open Store

/-- What is in the contents after a run on an empty store. -/
theorem records_run (events : List Event) :
    ((ofDatabase .empty).run events).working.Records ((ofDatabase .empty).accepted events) := by
  have hrun := run_induction (P := fun taken db => db.Records taken)
    (fun taken db id d h => h.update id d) (fun taken db e hv h => h.ingest hv)
    (sound_ofDatabase .empty) (h := []) .empty .empty events
  exact hrun.2

/-! ## Listings -/

/-- The filings give a paper a source: an entry filed under the paper has a source with this link,
and with this origin up to the case of letters, the name being the one that was accepted first. -/
structure Provides (filings : List Filing) (id : Int) (src : Source) : Prop where
  link : src.link?.isSome = true
  spelling : spelling? (filings.map (·.entry)) (originKey src.origin) = some src.origin
  filed : ∃ f ∈ filings, f.id = id ∧ ∃ given ∈ f.entry.sources,
    given.link? = src.link? ∧ Text.fold given.origin = Text.fold src.origin

/-- A store shows where its papers were found: the papers are those made by the filings, and in a
listing with the review value of a paper, of no more values than can be asked for at once, the paper
is there once, with every source that the filings give it, each one once, and no other. -/
structure Store.ListsProvenance (s : Store) (filings : List Filing) : Prop where
  papers_eq : s.working.main.map (fun r => (r.id, r.resource)) =
    (papers filings).map fun f => (f.id, f.entry.resource)
  listed : ∀ row ∈ s.working.main, ∀ rejected, row.rejected ∈ rejected →
    rejected.length ≤ maxParameters → ∃ listed entry, s.entries? rejected = some listed ∧
      listed.filter (·.1 = row.id) = [(row.id, entry)] ∧ entry.sources.Nodup ∧
        ∀ src, src ∈ entry.sources ↔ Provides filings row.id src

theorem filter_id_eq {rows : List MainRow} (h : (rows.map (·.id)).Nodup) {row : MainRow}
    (hrow : row ∈ rows) : rows.filter (·.id = row.id) = [row] := by
  obtain ⟨before, after, rfl⟩ := List.append_of_mem hrow
  rw [List.map_append, List.map_cons, List.nodup_middle, List.nodup_cons, ← List.map_append,
    List.mem_map] at h
  have hother : ∀ r ∈ before ++ after, ¬ r.id = row.id := fun r hr hid => h.1 ⟨r, hr, hid⟩
  rw [List.forall_mem_append] at hother
  have hbefore : before.filter (·.id = row.id) = [] :=
    List.filter_eq_nil_iff.2 fun r hr => by simpa using hother.1 r hr
  have hafter : after.filter (·.id = row.id) = [] :=
    List.filter_eq_nil_iff.2 fun r hr => by simpa using hother.2 r hr
  rw [List.filter_append, List.filter_cons_of_pos (by simp), hbefore, hafter]
  rfl

/-- With different numbers, a paper is listed once, when it has one of the review values. -/
theorem filter_listing {db : Database} (h : (db.main.map (·.id)).Nodup) {tables : List String}
    (htables : tables.Nodup) {row : MainRow} (hrow : row ∈ db.main) (rejected : List Int) :
    (db.listing tables rejected).filter (·.1 = row.id) =
      if row.rejected ∈ rejected then [(row.id, db.entryOf tables row)] else [] := by
  have hchosen : (db.chosen rejected).filter (·.id = row.id) =
      [row].filter fun r => rejected.contains r.rejected := by
    rw [Database.chosen, List.filter_comm, filter_id_eq h hrow]
  rw [listing_eq h htables, List.filter_map]
  refine (congrArg (List.map _) hchosen).trans ?_
  by_cases hr : row.rejected ∈ rejected <;> simp [hr]

theorem mem_sources_entryOf {db : Database} {tables : List String} {row : MainRow} {src : Source} :
    src ∈ (db.entryOf tables row).sources ↔ src.origin ∈ tables ∧ src.link?.isSome = true ∧
      ⟨some row.id, src.link?⟩ ∈ db.rowsOf src.origin := by
  rw [Database.entryOf, List.mem_flatMap]
  simp only [mem_linksOf]
  constructor
  · rintro ⟨table, htable, rfl, hrow⟩
    exact ⟨htable, hrow⟩
  · rintro ⟨htable, hrow⟩
    exact ⟨src.origin, htable, rfl, hrow⟩

/-! ## The known origins -/

theorem mem_entries_originsOf {db : Database} {key : String} {o : OriginName} :
    (key, o) ∈ (originsOf db).entries ↔ db.tableFor? key = some o.name := by
  rw [Dictionary.mem_entries_iff, get?_originsOf_eq_some_iff]

theorem mem_origins_iff {s : Store} (hs : s.Sound) {table : String} :
    table ∈ s.origins ↔ s.working.tableFor? (originKey table) = some table := by
  rw [origins, hs.known_eq, Dictionary.values, List.map_map, List.mem_map]
  constructor
  · rintro ⟨⟨key, o⟩, hmem, rfl⟩
    have htable := mem_entries_originsOf.1 hmem
    rwa [← (tableFor?_eq_some htable).2.1] at htable
  · intro htable
    exact ⟨(originKey table, ⟨table, (tableFor?_eq_some htable).1⟩),
      mem_entries_originsOf.2 htable, rfl⟩

/-- The known origins are in the order of their keys. -/
theorem sorted_origins {s : Store} (hs : s.Sound) :
    s.origins.Pairwise fun a b => Text.fold a < Text.fold b := by
  rw [origins, hs.known_eq, Dictionary.values, List.map_map, List.pairwise_map]
  refine List.Pairwise.imp_of_mem ?_ (originsOf s.working).sorted
  rintro ⟨key, o⟩ ⟨key', o'⟩ hmem hmem' hlt
  have hkey : Text.fold o.name = key := (tableFor?_eq_some (mem_entries_originsOf.1 hmem)).2.1
  have hkey' : Text.fold o'.name = key' := (tableFor?_eq_some (mem_entries_originsOf.1 hmem')).2.1
  show Text.fold o.name < Text.fold o'.name
  rwa [hkey, hkey']

theorem nodup_origins {s : Store} (hs : s.Sound) : s.origins.Nodup := by
  refine (sorted_origins hs).imp ?_
  rintro a b hlt rfl
  exact String.lt_irrefl _ hlt

/-! ## Listings after a run -/

/-- Up to so many review values are answered, and a paper is in the answer once, when it has one of
them. -/
theorem exists_entries?_filter {s : Store} (hs : s.Sound) (h : (s.working.main.map (·.id)).Nodup)
    {row : MainRow} (hrow : row ∈ s.working.main) {rejected : List Int}
    (hle : rejected.length ≤ maxParameters) :
    ∃ listed, s.entries? rejected = some listed ∧ listed.filter (·.1 = row.id) =
      if row.rejected ∈ rejected then [(row.id, s.working.entryOf s.origins row)] else [] :=
  ⟨_, s.entries?_of_le hle, filter_listing h (nodup_origins hs) hrow rejected⟩

namespace Database.Records
variable {taken : List Entry}

theorem nodup_ids {db : Database} (h : db.Records taken) : (db.main.map (·.id)).Nodup := by
  rw [h.map_id_main, List.Nodup, List.pairwise_map]
  exact (pairwise_papers sameStored taken).imp fun hlt => ne_of_lt hlt

theorem listsProvenance {s : Store} (hs : s.Sound) (h : s.working.Records taken) :
    s.ListsProvenance (ledger sameStored taken) := by
  constructor
  · have hmap := congrArg (List.map fun r => (r.id, r.resource)) h.papers_eq
    rwa [List.map_map, List.map_map] at hmap
  · intro row hrow rejected hr hle
    obtain ⟨listed, hlisted, hfilter⟩ := exists_entries?_filter hs h.nodup_ids hrow hle
    refine ⟨listed, _, hlisted, hfilter.trans (if_pos hr),
      nodup_sources_entryOf _ (nodup_origins hs) row, fun src => ?_⟩
    rw [mem_sources_entryOf, mem_origins_iff hs, h.tableFor?_eq, h.mem_rowsOf_iff]
    constructor
    · rintro ⟨hname, hlink, -, f, hf, given, hgiven, hkey, hrow⟩
      rw [LinkRow.mk.injEq, Option.some_inj] at hrow
      refine ⟨hlink, ?_, f, hf, hrow.1.symm, given, hgiven, hrow.2.symm, hkey⟩
      rw [map_entry_ledger]
      exact hname
    · rintro ⟨hlink, hname, f, hf, hid, given, hgiven, hlink', hkey⟩
      rw [map_entry_ledger] at hname
      exact ⟨hname, hlink, hname, f, hf, given, hgiven, hkey, by rw [hid, hlink']⟩

end Database.Records

namespace Store

/-- After every run on an empty store, listings show where papers were found, as the entries taken
in were filed; texts count as the same when they are stored so, that is, without zero characters,
when they differ in the case of letters only. The filings follow the rule. -/
theorem listsProvenance_run (events : List Event) :
    let s := (ofDatabase .empty).run events
    let taken := (ofDatabase .empty).accepted events
    s.ListsProvenance (ledger sameStored taken) ∧
    ((∀ e ∈ taken, ∀ f, beforeZero (e.resource.get f) = e.resource.get f) →
      s.ListsProvenance (ledger Text.sameFolded taken)) ∧
    ∀ same earlier f later, ledger same taken = earlier ++ f :: later → f.Follows same earlier := by
  intro s taken
  have hlists := (records_run events).listsProvenance (sound_run .empty events)
  refine ⟨hlists, fun hzero => ?_, fun same _ _ _ => follows_ledger same⟩
  have hledger : ledger sameStored taken = ledger Text.sameFolded taken :=
    ledger_congr fun e he e' he' f => sameStored_eq_sameFolded (hzero e he f) (hzero e' he' f)
  rw [← hledger]
  exact hlists

/-- A paper that is found a second time under another spelling of its title and of the origin, and
a third time in a batch that is refused. -/
theorem listsProvenance_after_refusal :
    let first := Entry.new ⟨"", "", "One", "", ""⟩ [⟨"ieee", some "x"⟩]
    let second := Entry.new ⟨"", "", "ONE", "", ""⟩ [⟨"IEEE", some "y"⟩, ⟨"acm", none⟩]
    let third := Entry.new ⟨"", "", "one", "", ""⟩ [⟨"ieee", some "z"⟩, ⟨"main", none⟩]
    let events : List Event :=
      [.call (.insert [first, second]), .call (.insert [third]), .dropReopen]
    let s := (ofDatabase .empty).run events
    let taken := (ofDatabase .empty).accepted events
    (∀ e ∈ taken, ∀ f, beforeZero (e.resource.get f) = e.resource.get f) ∧
    s.ListsProvenance (ledger Text.sameFolded taken) ∧
    ledger Text.sameFolded taken = [⟨1, first, true⟩] ++ ⟨1, second, false⟩ :: [] ∧
    (Filing.mk 1 second false).Follows Text.sameFolded [⟨1, first, true⟩] ∧
    s.entries? [0] =
      some [(1, .new first.resource [⟨"ieee", some "x"⟩, ⟨"ieee", some "y"⟩])] := by
  intro first second third events s taken
  obtain ⟨-, hlists, hfollows⟩ := listsProvenance_run events
  have hzero : ∀ e ∈ taken, ∀ f, beforeZero (e.resource.get f) = e.resource.get f := by
    have htaken : taken = [first, second] := by decide +kernel
    rw [htaken, List.forall_mem_cons, List.forall_mem_singleton]
    refine ⟨fun f => ?_, fun f => ?_⟩ <;> cases f <;> decide +kernel
  have hledger : ledger Text.sameFolded taken = [⟨1, first, true⟩] ++ ⟨1, second, false⟩ :: [] := by
    decide +kernel
  exact ⟨hzero, hlists hzero, hledger, hfollows _ _ _ _ hledger, by decide +kernel⟩

/-- With zero characters more is the same than texts that differ in the case of letters: a link of
one title is shown with a paper of another one. -/
theorem not_listsProvenance_sameFolded : ¬ ∀ events : List Event,
    ((ofDatabase .empty).run events).ListsProvenance
      (ledger Text.sameFolded ((ofDatabase .empty).accepted events)) := by
  intro h
  let events : List Event := [.call (.insert [
    .new ⟨"", "", "a\x00b", "", ""⟩ [⟨"ieee", some "x"⟩],
    .new ⟨"", "", "a\x00c", "", ""⟩ [⟨"ieee", some "y"⟩]])]
  let row := MainRow.ofEntry 1 (.new ⟨"", "", "a\x00b", "", ""⟩ [])
  have hrow : row ∈ ((ofDatabase .empty).run events).working.main := by decide +kernel
  obtain ⟨listed, entry, hlisted, hentry, -, hsources⟩ :=
    (h events).listed row hrow [0] (by decide) (by decide)
  have hshown : ((ofDatabase .empty).run events).entries? [0] = some
      [(1, .new ⟨"", "", "a\x00b", "", ""⟩ [⟨"ieee", some "x"⟩, ⟨"ieee", some "y"⟩])] := by
    decide +kernel
  obtain rfl := Option.some.inj (hlisted.symm.trans hshown)
  obtain rfl : _ = entry := congrArg Prod.snd (List.singleton_inj.1 hentry)
  obtain ⟨-, -, hfiled⟩ := (hsources ⟨"ieee", some "y"⟩).1 (by decide)
  have hnone : ¬ ∃ f ∈ ledger Text.sameFolded ((ofDatabase .empty).accepted events),
      f.id = row.id ∧ ∃ given ∈ f.entry.sources,
        given.link? = some "y" ∧ Text.fold given.origin = Text.fold "ieee" := by
    decide +kernel
  exact hnone hfiled

end Store

end PaperTrail
