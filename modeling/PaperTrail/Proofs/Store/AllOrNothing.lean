import PaperTrail.Proofs.Store.Run

/-!
# A batch goes in as a whole or not at all

An insertion fails exactly when some source of some entry has an origin that cannot be, with the
error on the first one (`firstUnfit_eq_some_iff`). The store is then what it was
(`insert_error_iff_unfit`): its papers, its tables and their rows, the known origins, whether a unit
of work is open, and what another connection sees.
-/

namespace PaperTrail

theorem firstUnfit_eq_some_iff {sources : List Source} {e : InvalidOrigin} :
    firstUnfit sources = some e ↔ ∃ before src after, sources = before ++ src :: after ∧
      (∀ x ∈ before, ¬ UnfitName x.origin) ∧ UnfitName src.origin ∧ e = ⟨src.origin⟩ := by
  rw [firstUnfit, Option.map_eq_some_iff]
  constructor
  · rintro ⟨src, hfind, rfl⟩
    obtain ⟨hsrc, before, after, heq, hbefore⟩ := List.find?_eq_some_iff_append.1 hfind
    refine ⟨before, src, after, heq, fun x hx => ?_, ?_, rfl⟩
    · rw [← isValidOrigin_eq_false_iff]
      simpa using hbefore x hx
    · rw [← isValidOrigin_eq_false_iff]
      simpa using hsrc
  · rintro ⟨before, src, after, heq, hbefore, hsrc, rfl⟩
    refine ⟨src, List.find?_eq_some_iff_append.2 ⟨?_, before, after, heq, fun x hx => ?_⟩, rfl⟩
    · simpa using isValidOrigin_eq_false_iff.2 hsrc
    · have hvalid := hbefore x hx
      rw [← isValidOrigin_eq_false_iff] at hvalid
      simpa using hvalid

theorem firstUnfit_ne_none_iff {sources : List Source} :
    firstUnfit sources ≠ none ↔ ∃ src ∈ sources, UnfitName src.origin := by
  rw [ne_eq, firstUnfit_eq_none_iff]
  push Not
  simp only [ne_eq, Bool.not_eq_true, isValidOrigin_eq_false_iff]

namespace Store

theorem insert_eq_error_iff {s : Store} (hs : s.Sound) (entries : List Entry) (e : InvalidOrigin) :
    (s.insert entries).2 = .error e ↔ firstUnfit (entries.flatMap (·.sources)) = some e := by
  cases hfit : firstUnfit (entries.flatMap (·.sources)) with
  | some e' =>
    rw [insert_of_unfit hs hfit]
    simp
  | none =>
    have hok := (isOk_insert hs entries).2 hfit
    refine iff_of_false (fun herror => ?_) (by simp)
    rw [herror] at hok
    cases hok

/-- In every state that a run leads to, an insertion fails if and only if some source of some entry
has an unfit origin. The error is on the first such source, in the order of the entries and of the
sources of each, and the store is left exactly as it was. -/
theorem insert_error_iff_unfit (db : Database) (events : List Event) (entries : List Entry) :
    let s := (ofDatabase db).run events
    let sources := entries.flatMap (·.sources)
    ((∃ e, (s.insert entries).2 = .error e) ↔ ∃ src ∈ sources, UnfitName src.origin) ∧
    ∀ e, (s.insert entries).2 = .error e →
      (∃ before src after, sources = before ++ src :: after ∧
        (∀ x ∈ before, ¬ UnfitName x.origin) ∧ UnfitName src.origin ∧ e = ⟨src.origin⟩) ∧
      (s.insert entries).1 = s := by
  intro s sources
  have hs : s.Sound := sound_run db events
  refine ⟨?_, fun e he => ?_⟩
  · rw [← firstUnfit_ne_none_iff, Option.ne_none_iff_exists']
    exact exists_congr fun e => insert_eq_error_iff hs entries e
  · have hunfit := (insert_eq_error_iff hs entries e).1 he
    refine ⟨firstUnfit_eq_some_iff.1 hunfit, ?_⟩
    rw [insert_of_unfit hs hunfit]

/-- A batch that fails at its second entry, after a known origin in capitals, a new one and a paper,
in a store with an unsaved review. -/
theorem insert_error_keeps_review :
    let s := (ofDatabase .empty).run [
      .call (.insert [.new ⟨"10.1/A", "", "One", "", ""⟩ [⟨"ieee", some "http://a"⟩]]),
      .call (.review 1 (.rejected 2) false)]
    let batch : List Entry := [
      .new ⟨"", "", "Two", "", ""⟩ [⟨"IEEE", none⟩, ⟨"acm", some "http://b"⟩],
      .new ⟨"", "", "Three", "", ""⟩ [⟨"scopus", none⟩, ⟨"Main", none⟩]]
    (s.insert batch).2 = .error ⟨"Main"⟩ ∧ (s.insert batch).1 = s ∧ s.hasPendingWrites = true := by
  intro s batch
  have herror : (s.insert batch).2 = .error ⟨"Main"⟩ := by decide +kernel
  have hkept := (insert_error_iff_unfit .empty _ batch).2 ⟨"Main"⟩ herror
  exact ⟨herror, hkept.2, by decide +kernel⟩

end Store

end PaperTrail
