import PaperTrail.Proofs.Store.Run

/-!
# Insertions in parts

Where a list of entries is cut into batches makes no difference to a store. On the contents alone this
is a fact about two folds, `ingestAll_append` and `reportAll_append`; `insert_append` carries it over
to the store, where every batch has a unit of work of its own and one without entries has none.
-/

namespace PaperTrail

namespace Database

theorem ingestAll_append (db : Database) (xs ys : List Entry) :
    db.ingestAll (xs ++ ys) = (db.ingestAll xs).ingestAll ys :=
  List.foldl_append

theorem reportAll_append (db : Database) (xs ys : List Entry) :
    db.reportAll (xs ++ ys) = db.reportAll xs + (db.ingestAll xs).reportAll ys := by
  induction xs generalizing db with
  | nil => exact (Report.empty_add _).symm
  | cons e rest ih =>
    rw [List.cons_append, reportAll, ih (db.ingest e)]
    exact (Report.add_assoc _ _ _).symm

end Database

namespace Store

/-- On a store that has just been opened a batch without entries is nothing special. -/
theorem insert_ofDatabase (db : Database) {entries : List Entry}
    (hfit : firstUnfit (entries.flatMap (·.sources)) = none) :
    (ofDatabase db).insert entries =
      (ofDatabase (db.ingestAll entries), .ok (db.reportAll entries)) := by
  cases entries with
  | nil => exact insert_of_isEmpty rfl
  | cons e rest => exact insert_of_fit (sound_ofDatabase db) (List.cons_ne_nil e rest) hfit

theorem insert_append {s : Store} (hs : s.Sound) {xs ys : List Entry}
    (hfit : firstUnfit ((xs ++ ys).flatMap (·.sources)) = none) :
    ∃ r₁ r₂, (s.insert xs).2 = .ok r₁ ∧ ((s.insert xs).1.insert ys).2 = .ok r₂ ∧
      s.insert (xs ++ ys) = (((s.insert xs).1.insert ys).1, .ok (r₁ + r₂)) := by
  have hboth := hfit
  rw [List.flatMap_append, firstUnfit_append, Option.or_eq_none_iff] at hboth
  obtain ⟨hxs, hys⟩ := hboth
  cases xs with
  | nil =>
    rw [insert_of_isEmpty rfl, List.nil_append]
    have hr := report_insert_of_fit hs hys
    refine ⟨.empty, _, rfl, hr, ?_⟩
    rw [show Report.empty + _ = _ from Report.empty_add _, ← hr]
  | cons e rest =>
    rw [insert_of_fit hs (List.cons_ne_nil e rest) hxs, insert_ofDatabase _ hys,
      insert_of_fit hs (by simp) hfit, Database.ingestAll_append, Database.reportAll_append]
    exact ⟨_, _, rfl, rfl, rfl⟩

/-- In every state that a run leads to, two batches with valid origins that are inserted one after
the other leave the same store as both in one: the same contents and origins, the same durable
contents, and nothing pending unless both are empty and something was. Their reports add up to the
report on both in one. -/
theorem insert_in_two_batches (db : Database) (events : List Event) (xs ys : List Entry)
    (hfit : ∀ e ∈ xs ++ ys, ∀ src ∈ e.sources, ¬ UnfitName src.origin) :
    let s := (ofDatabase db).run events
    ∃ r₁ r₂, (s.insert xs).2 = .ok r₁ ∧ ((s.insert xs).1.insert ys).2 = .ok r₂ ∧
      s.insert (xs ++ ys) = (((s.insert xs).1.insert ys).1, .ok (r₁ + r₂)) := by
  intro s
  refine insert_append (sound_run db events) (firstUnfit_flatMap_eq_none_iff.2 fun e he src hsrc => ?_)
  exact isValidOrigin_iff.2 (hfit e he src hsrc)

/-- A review that is not saved, and a second batch whose entries belong to papers of the first one and
name its new origin in another spelling. -/
theorem insert_in_two_batches_after_review :
    let events : List Event := [
      .call (.insert [.new ⟨"", "", "One", "", ""⟩ [⟨"ieee", some "a"⟩]]),
      .call (.review 1 (.rejected 2) false)]
    let xs : List Entry := [.new ⟨"10.1/b", "", "Two", "", ""⟩ [⟨"acm", some "b"⟩]]
    let ys : List Entry := [.new ⟨"10.1/b", "", "", "", ""⟩ [⟨"ACM", none⟩, ⟨"IEEE", some "c"⟩],
      .new ⟨"", "", "Three", "", ""⟩ []]
    let s := (ofDatabase .empty).run events
    s.hasPendingWrites = true ∧
      (∀ e ∈ xs ++ ys, ∀ src ∈ e.sources, ¬ UnfitName src.origin) ∧
      s.insert (xs ++ ys) = (((s.insert xs).1.insert ys).1, .ok (⟨1, 0, 1⟩ + ⟨1, 1, 2⟩)) := by
  intro events xs ys s
  have hfit : ∀ e ∈ xs ++ ys, ∀ src ∈ e.sources, ¬ UnfitName src.origin := by
    simp only [← isValidOrigin_iff]
    decide
  obtain ⟨r₁, r₂, h₁, h₂, hjoined⟩ := insert_in_two_batches .empty events xs ys hfit
  have hr₁ : (s.insert xs).2 = .ok ⟨1, 0, 1⟩ := by decide +kernel
  have hr₂ : ((s.insert xs).1.insert ys).2 = .ok ⟨1, 1, 2⟩ := by decide +kernel
  obtain rfl : r₁ = ⟨1, 0, 1⟩ := Except.ok.inj (h₁.symm.trans hr₁)
  obtain rfl : r₂ = ⟨1, 1, 2⟩ := Except.ok.inj (h₂.symm.trans hr₂)
  exact ⟨by decide +kernel, hfit, hjoined⟩

end Store

end PaperTrail
