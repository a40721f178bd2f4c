import Mathlib.Data.List.Induction
import PaperTrail.Distinct
import PaperTrail.Proofs.Store.Growth

/-!
# Listings

A listing is gathered: the papers come first, without sources, and then table by table every link goes
to the entry of its paper, unless the entry has it.

* `Database.linksOf`, `Database.entryOf` : the links of one paper in a table, and its entry, looked up
  for this paper alone;
* `getElem?_putSources` : by induction on the links that are gathered, what each entry has got;
* `listing_eq` : where papers have different numbers, a listing shows the entry of every paper;
* `listing_congr` : a listing depends on nothing but the papers and the links of each;
* `Store.entries?_eq` : up to so many review values a store answers with its listing;
* `Store.entries?_ofDatabase_working` : what a store holds, it lists also when it is opened on it.
-/

namespace PaperTrail

namespace Database

/-- The links of a paper in a table, in their order, each one once. -/
def linksOf (db : Database) (id : Int) (table : String) : List Source :=
  distinct ((((db.tables.get? table).getD []).filter fun l => l.id? = some id).filterMap fun l =>
    l.link?.map fun link => ⟨table, some link⟩)

def entryOf (db : Database) (tables : List String) (r : MainRow) : Entry :=
  ⟨r.resource, tables.flatMap (db.linksOf r.id), r.review⟩

end Database

theorem linksOf_eq (db : Database) (id : Int) (table : String) :
    db.linksOf id table = distinct (((db.rowsOf table).filter fun l => l.id? = some id).filterMap
      fun l => l.link?.map fun link => ⟨table, some link⟩) := rfl

theorem mem_linksOf {db : Database} {id : Int} {table : String} {src : Source} :
    src ∈ db.linksOf id table ↔
      src.origin = table ∧ src.link?.isSome = true ∧ ⟨some id, src.link?⟩ ∈ db.rowsOf table := by
  obtain ⟨origin, link?⟩ := src
  rw [linksOf_eq, mem_distinct, List.mem_filterMap]
  simp only [List.mem_filter, decide_eq_true_eq, Option.map_eq_some_iff, Source.mk.injEq,
    Option.isSome_iff_exists]
  constructor
  · rintro ⟨⟨id?, link'?⟩, ⟨hrow, rfl⟩, link, rfl, rfl, rfl⟩
    exact ⟨rfl, ⟨link, rfl⟩, hrow⟩
  · rintro ⟨rfl, ⟨link, rfl⟩, hrow⟩
    exact ⟨_, ⟨hrow, rfl⟩, link, rfl, rfl, rfl⟩

theorem nodup_sources_entryOf (db : Database) {tables : List String} (h : tables.Nodup)
    (row : MainRow) : (db.entryOf tables row).sources.Nodup := by
  rw [Database.entryOf, List.nodup_flatMap]
  refine ⟨fun table _ => nodup_distinct _, h.imp fun {table table'} hne => ?_⟩
  intro src hsrc hsrc'
  exact hne ((mem_linksOf.1 hsrc).1.symm.trans (mem_linksOf.1 hsrc').1)

/-! ## Gathering -/

/-- The sources that go to the entry in a place; `ids` are the numbers of the entries. -/
def sourcesAt (ids : List Int) (i : Nat) (found : List (Int × Source)) : List Source :=
  (found.filter fun f => ids.idxOf? f.1 = some i).map (·.2)

theorem addSource_distinct (e : Entry) (sources : List Source) (src : Source) :
    Entry.addSource { e with sources := distinct sources } src =
      { e with sources := distinct (sources ++ [src]) } := by
  rw [Entry.addSource, distinct_concat]
  by_cases h : src ∈ distinct sources
  · rw [if_pos (List.contains_iff_mem.2 h), if_pos h]
  · rw [if_neg (mt List.contains_iff_mem.1 h), if_neg h]

/-- Every entry gets the sources that go to its place, each one once. -/
theorem getElem?_putSources (ids : List Int) {listed : List (Int × Entry)}
    (h : ∀ row ∈ listed, row.2.sources = []) (found : List (Int × Source)) (i : Nat) :
    (found.foldl (Database.putSource ids) listed)[i]? = listed[i]?.map fun row =>
      (row.1, { row.2 with sources := distinct (sourcesAt ids i found) }) := by
  induction found using List.reverseRecOn with
  | nil =>
    cases hrow : listed[i]? with
    | none => exact hrow
    | some row =>
      rw [List.foldl_nil, hrow, Option.map_some]
      congr 1
      exact Prod.ext rfl (congrArg (Entry.mk _ · _) (h row (List.mem_of_getElem? hrow)))
  | append_singleton found f ih =>
    rw [List.foldl_concat, Database.putSource, sourcesAt, List.filter_append, List.map_append,
      ← sourcesAt]
    cases hslot : ids.idxOf? f.1 with
    | none => simp [ih, hslot]
    | some slot =>
      simp only [List.getElem?_modify, ih]
      by_cases hi : slot = i
      · subst hi
        cases listed[slot]? <;> simp [hslot, addSource_distinct]
      · simp [hi, hslot]

theorem idxOf?_eq_some_iff_of_getElem? {ids : List Int} {i : Nat} {id : Int}
    (h : ids[i]? = some id) (x : Int) :
    ids.idxOf? x = some i ↔ x = id ∧ ids.idxOf? id = some i := by
  constructor
  · intro hx
    obtain ⟨hi, hget, -⟩ := List.idxOf?_eq_some_iff.1 hx
    obtain rfl : x = id := by
      rw [List.getElem?_eq_getElem hi, hget] at h
      exact Option.some.inj h
    exact ⟨rfl, hx⟩
  · rintro ⟨rfl, hx⟩
    exact hx

theorem idxOf?_of_nodup {ids : List Int} (hids : ids.Nodup) {i : Nat} {id : Int}
    (h : ids[i]? = some id) : ids.idxOf? id = some i := by
  obtain ⟨hi, hget⟩ := List.getElem?_eq_some_iff.1 h
  refine List.idxOf?_eq_some_iff.2 ⟨hi, hget, fun j hj heq => ?_⟩
  exact absurd (hids.getElem_inj_iff.1 (heq.trans hget.symm)) (Nat.ne_of_lt hj)

/-- The links of a table to a paper that is listed. -/
theorem sources_linksTo (db : Database) {rejected : List Int} {r : MainRow}
    (hr : r ∈ db.chosen rejected) (table : String) :
    (((db.linksTo rejected table).filter fun f => f.1 = r.id).map (·.2)) =
      ((db.rowsOf table).filter fun l => l.id? = some r.id).filterMap fun l =>
        l.link?.map fun link => ⟨table, some link⟩ := by
  rw [Database.linksTo, ← Database.rowsOf, List.filter_filterMap, List.map_filterMap,
    List.filterMap_filter]
  refine List.filterMap_congr fun l _ => ?_
  obtain ⟨id?, link?⟩ := l
  cases id? with
  | none => simp
  | some id =>
    cases link? with
    | none => simp
    | some link =>
      by_cases hid : id = r.id
      · subst hid
        have hlisted : (db.chosen rejected).any (·.id = r.id) = true :=
          List.any_eq_true.2 ⟨r, hr, decide_eq_true rfl⟩
        simp only [hlisted, if_true]
        simp [Option.filter]
      · simp only [Option.some.injEq, hid, decide_false, Bool.false_eq_true, if_false]
        split <;> simp [Option.filter, hid]

/-- The entry in a place gets the links of its paper, unless there is an earlier one of the same
number. -/
theorem distinct_sourcesAt (db : Database) {rejected : List Int} {i : Nat} {r : MainRow}
    (hr : (db.chosen rejected)[i]? = some r) (tables : List String) :
    let ids := (db.chosen rejected).map (·.id)
    distinct (sourcesAt ids i (tables.flatMap (db.linksTo rejected))) =
      if ids.idxOf? r.id = some i then distinct (tables.flatMap (db.linksOf r.id)) else [] := by
  intro ids
  have hid : ids[i]? = some r.id := by rw [List.getElem?_map, hr, Option.map_some]
  have hsame := idxOf?_eq_some_iff_of_getElem? hid
  by_cases hfirst : ids.idxOf? r.id = some i
  · have hpick : ∀ x, ids.idxOf? x = some i ↔ x = r.id := fun x =>
      (hsame x).trans (and_iff_left hfirst)
    rw [if_pos hfirst, sourcesAt, List.filter_flatMap, List.map_flatMap]
    refine distinct_flatMap_congr fun table _ => ?_
    simp only [hpick]
    rw [sources_linksTo db (List.mem_of_getElem? hr), linksOf_eq,
      distinct_eq_self (nodup_distinct _)]
  · have hnone : ∀ x, ids.idxOf? x ≠ some i := fun x hx => hfirst ((hsame x).1 hx).2
    rw [if_neg hfirst, sourcesAt, List.filter_eq_nil_iff.2 fun f _ => by simpa using hnone f.1]
    rfl

theorem listing_eq_foldl (db : Database) (tables : List String) (rejected : List Int) :
    db.listing tables rejected =
      (tables.flatMap (db.linksTo rejected)).foldl
        (Database.putSource ((db.chosen rejected).map (·.id)))
        ((db.chosen rejected).map fun r => (r.id, r.entry)) := by
  have hids : ((db.chosen rejected).map fun r => (r.id, r.entry)).map (·.1) =
      (db.chosen rejected).map (·.id) := List.map_map
  rw [Database.listing, List.foldl_flatMap, hids]
  cases hchosen : db.chosen rejected with
  | cons r rest => rfl
  | nil =>
    have hnone : ∀ table, db.linksTo rejected table = [] := by
      intro table
      rw [Database.linksTo, hchosen]
      refine List.filterMap_eq_nil_iff.2 fun l _ => ?_
      split <;> rfl
    simp [hnone]

theorem getElem?_listing (db : Database) (tables : List String) (rejected : List Int) (i : Nat) :
    (db.listing tables rejected)[i]? = (db.chosen rejected)[i]?.map fun r =>
      (r.id, ⟨r.resource, if ((db.chosen rejected).map (·.id)).idxOf? r.id = some i then
        distinct (tables.flatMap (db.linksOf r.id)) else [], r.review⟩) := by
  have hempty : ∀ row ∈ (db.chosen rejected).map fun r => (r.id, r.entry), row.2.sources = [] := by
    intro row hrow
    obtain ⟨r, -, rfl⟩ := List.mem_map.1 hrow
    rfl
  rw [listing_eq_foldl, getElem?_putSources _ hempty, List.getElem?_map]
  cases hr : (db.chosen rejected)[i]? with
  | none => rfl
  | some r =>
    rw [Option.map_some, Option.map_some, Option.map_some, distinct_sourcesAt db hr]
    rfl

/-- Whatever is listed is a paper, with its number and its review. -/
theorem exists_row_of_mem_listing {db : Database} {tables : List String} {rejected : List Int}
    {paper : Int × Entry} (h : paper ∈ db.listing tables rejected) :
    ∃ row ∈ db.main, paper.1 = row.id ∧ paper.2.resource = row.resource ∧
      paper.2.review = row.review := by
  obtain ⟨i, hi⟩ := List.mem_iff_getElem?.1 h
  rw [getElem?_listing, Option.map_eq_some_iff] at hi
  obtain ⟨row, hrow, rfl⟩ := hi
  exact ⟨row, (List.mem_filter.1 (List.mem_of_getElem? hrow)).1, rfl, rfl, rfl⟩

/-- A listing depends on the papers and on the links of each. -/
theorem listing_congr {db db' : Database} (hmain : db'.main = db.main)
    (hlinks : db'.linksOf = db.linksOf) (tables : List String) (rejected : List Int) :
    db'.listing tables rejected = db.listing tables rejected := by
  have hchosen : db'.chosen rejected = db.chosen rejected := by
    rw [Database.chosen, hmain, Database.chosen]
  refine List.ext_getElem? fun i => ?_
  rw [getElem?_listing, getElem?_listing, hchosen, hlinks]

/-- Where papers have different numbers, a listing shows every paper with one of the review values as
it is looked up. -/
theorem listing_eq {db : Database} (h : (db.main.map (·.id)).Nodup) {tables : List String}
    (htables : tables.Nodup) (rejected : List Int) :
    db.listing tables rejected =
      (db.chosen rejected).map fun r => (r.id, db.entryOf tables r) := by
  have hids : ((db.chosen rejected).map (·.id)).Nodup :=
    h.sublist (List.filter_sublist.map _)
  refine List.ext_getElem? fun i => ?_
  rw [getElem?_listing, List.getElem?_map]
  cases hr : (db.chosen rejected)[i]? with
  | none => rfl
  | some r =>
    have hid : ((db.chosen rejected).map (·.id))[i]? = some r.id := by
      rw [List.getElem?_map, hr, Option.map_some]
    have hsources : (tables.flatMap (db.linksOf r.id)).Nodup := nodup_sources_entryOf db htables r
    rw [Option.map_some, Option.map_some, if_pos (idxOf?_of_nodup hids hid),
      Database.entryOf, distinct_eq_self hsources]

namespace Store

theorem entries?_eq (s : Store) (rejected : List Int) :
    s.entries? rejected =
      if rejected.length ≤ maxParameters then some (s.entries rejected) else none := by
  rw [entries?]
  cases rejected with
  | nil =>
    have hnone : s.working.chosen [] = [] := List.filter_eq_nil_iff.2 fun r _ => by simp
    rw [List.isEmpty_nil, if_pos rfl, List.length_nil, if_pos (Nat.zero_le _), entries,
      Database.listing, hnone]
    rfl
  | cons value rest =>
    rw [List.isEmpty_cons, if_neg Bool.false_ne_true]
    by_cases hle : (value :: rest).length ≤ maxParameters
    · rw [if_pos hle, if_neg (Nat.not_lt.2 hle)]
    · rw [if_neg hle, if_pos (Nat.not_le.1 hle)]

theorem entries?_of_le (s : Store) {rejected : List Int} (h : rejected.length ≤ maxParameters) :
    s.entries? rejected = some (s.entries rejected) := by
  rw [entries?_eq, if_pos h]

theorem entries?_congr {s s' : Store} {rejected : List Int}
    (h : s.entries rejected = s'.entries rejected) : s.entries? rejected = s'.entries? rejected := by
  rw [entries?, entries?, h]

/-! ## Listings of a store that is opened again -/

theorem origins_ofDatabase_working {s : Store} (hs : s.Sound) :
    (ofDatabase s.working).origins = s.origins := by
  rw [origins, origins, hs.known_eq]
  rfl

theorem entries?_ofDatabase_working {s : Store} (hs : s.Sound) (rejected : List Int) :
    (ofDatabase s.working).entries? rejected = s.entries? rejected := by
  refine entries?_congr ?_
  rw [entries, entries, origins_ofDatabase_working hs]
  rfl

end Store

end PaperTrail
