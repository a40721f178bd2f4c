import PaperTrail.Proofs.Store.KnownOrigins

/-!
# Listings as they are read off the tables

A store gathers a listing table by table. Read off the tables, it is every chosen paper with what the
rows say of it: `Database.plainEntry` and `Database.plainListing` put this in one expression.

* `listing_eq_plain` : where papers have different numbers, both are the same;
* `entries?_run` : what a store lists in every state, whatever rows another program has left in it.
-/

namespace PaperTrail

namespace Database

/-- The entry of a paper: its own row, where a missing text counts as empty, a missing review value as
`0` and a missing mark as not set, and the different links of its rows in the tables of origins. -/
def plainEntry (db : Database) (origins : List String) (r : MainRow) : Entry where
  resource := {
    doi := r.doi?.getD ""
    isbn := r.isbn?.getD ""
    title := r.title?.getD ""
    abstract := r.abstract?.getD ""
    keywords := r.keywords?.getD "" }
  sources := origins.flatMap fun table =>
    (distinct (((db.rowsOf table).filter fun l => l.id? = some r.id).filterMap (·.link?))).map
      fun link => ⟨table, some link⟩
  review := {
    rejected := r.rejected?.getD 0
    saveForLater := r.later?.getD false
    notes := r.notes?.getD "" }

/-- The papers with one of the given review values, with their numbers. -/
def plainListing (db : Database) (origins : List String) (rejected : List Int) :
    List (Int × Entry) :=
  (db.main.filter fun r => r.rejected?.getD 0 ∈ rejected).map fun r => (r.id, db.plainEntry origins r)

end Database

theorem linksOf_eq_map (db : Database) (id : Int) (table : String) :
    db.linksOf id table =
      (distinct (((db.rowsOf table).filter fun l => l.id? = some id).filterMap (·.link?))).map
        fun link => ⟨table, some link⟩ := by
  have hinj : ∀ a b : String, Source.mk table (some a) = ⟨table, some b⟩ → a = b := by
    intro a b h
    rw [Source.mk.injEq, Option.some_inj] at h
    exact h.2
  rw [linksOf_eq, ← distinct_map hinj, List.map_filterMap]

theorem entryOf_eq_plain (db : Database) (origins : List String) (r : MainRow) :
    db.entryOf origins r = db.plainEntry origins r := by
  rw [Database.entryOf, funext (linksOf_eq_map db r.id)]
  rfl

theorem listing_eq_plain {db : Database} (h : db.Numbered) {origins : List String}
    (horigins : origins.Nodup) (rejected : List Int) :
    db.listing origins rejected = db.plainListing origins rejected := by
  rw [listing_eq h.nodup_ids horigins, funext (entryOf_eq_plain db origins), Database.chosen]
  simp only [List.contains_eq_mem]
  rfl

namespace Store

/-- In every state, on whatever rows, up to so many review values are answered by the papers with one
of them, each one once, in the ascending order of their numbers, as they are read off the tables of
the origins; these are the tables with a fit name, in the order of their names in lower case. More
values are refused. -/
theorem entries?_run (db : Database) (hdb : db.Numbered) (hapart : db.Apart) (events : List Event)
    (rejected : List Int) :
    let s := (ofDatabase db).run events
    (rejected.length ≤ maxParameters →
      s.entries? rejected = some (s.working.plainListing s.origins rejected)) ∧
    (maxParameters < rejected.length → s.entries? rejected = none) ∧
    s.entries? [] = some [] ∧
    s.working.main.Pairwise (fun a b => a.id < b.id) ∧
    (∀ name, name ∈ s.origins ↔ name ∈ s.working.tables.keys ∧ ¬ UnfitName name) ∧
    s.origins.Pairwise (fun a b => Text.fold a < Text.fold b) := by
  intro s
  have hs : s.Sound := sound_run db events
  have hnumbered : s.working.Numbered := (numbered_run hdb events).2
  refine ⟨fun hle => ?_, fun hlt => ?_, rfl, hnumbered,
    mem_origins_iff_keys hs (apart_run hapart events), sorted_origins hs⟩
  · rw [entries?_of_le s hle, entries, listing_eq_plain hnumbered (nodup_origins hs)]
  · rw [entries?_eq, if_neg (Nat.not_le.2 hlt)]

/-- Rows of another program in which everything but the number is missing, links without a number, to
a paper that is not there, missing ones and repeated ones, a table that belongs to no origin, and a
decision that is not saved. -/
theorem entries?_run_foreign :
    let db : Database := ⟨[
        ⟨3, none, none, none, none, none, none, none, none⟩,
        ⟨7, some "10.1/x", none, some "Seven", none, none, some 2, some true, none⟩,
        ⟨9, none, none, some "Nine", none, none, some 1, none, none⟩],
      .ofList [("Zoo", [⟨some 7, some "b"⟩, ⟨none, some "x"⟩, ⟨some 8, some "y"⟩, ⟨some 7, none⟩,
        ⟨some 3, some "c"⟩, ⟨some 7, some "a"⟩, ⟨some 7, some "b"⟩, ⟨some 9, some "d"⟩]),
        ("acm", [⟨some 7, some "b"⟩]), ("sqlite_stat1", [⟨some 7, some "z"⟩]), ("web", [])]⟩
    let events : List Event := [.call (.review 9 (.rejected 2) false)]
    let s := (ofDatabase db).run events
    (db.Numbered ∧ db.Apart) ∧ s.origins = ["acm", "web", "Zoo"] ∧
    s.entries? [2, 0, 2] = some [
      (3, ⟨⟨"", "", "", "", ""⟩, [⟨"Zoo", some "c"⟩], ⟨0, false, ""⟩⟩),
      (7, ⟨⟨"10.1/x", "", "Seven", "", ""⟩,
        [⟨"acm", some "b"⟩, ⟨"Zoo", some "b"⟩, ⟨"Zoo", some "a"⟩], ⟨2, true, ""⟩⟩),
      (9, ⟨⟨"", "", "Nine", "", ""⟩, [⟨"Zoo", some "d"⟩], ⟨2, false, ""⟩⟩)] ∧
    s.entries? (List.replicate 32767 0) = none := by
  intro db events s
  have hdb : db.Numbered := by unfold Database.Numbered; decide +kernel
  have hapart : db.Apart := by unfold Database.Apart; decide +kernel
  have hlisted := (entries?_run db hdb hapart events [2, 0, 2]).1 (by decide)
  have hrefused := (entries?_run db hdb hapart events (List.replicate 32767 0)).2.1
    (by rw [List.length_replicate]; decide)
  exact ⟨⟨hdb, hapart⟩, by decide +kernel, hlisted.trans (by decide +kernel), hrefused⟩

/-- More values than can be asked for at once are refused also where no paper has one of them. -/
theorem not_entries?_plain : ¬ ∀ (db : Database), db.Numbered → db.Apart →
    ∀ rejected : List Int, (ofDatabase db).entries? rejected =
      some (db.plainListing (ofDatabase db).origins rejected) := by
  intro h
  have hlisted := h .empty List.Pairwise.nil (fun _ ha => nomatch ha) (List.replicate 32767 0)
  rw [entries?_eq, List.length_replicate, if_neg (by decide)] at hlisted
  cases hlisted

end Store

end PaperTrail
