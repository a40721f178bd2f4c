import Mathlib.Data.List.Induction
import PaperTrail.Proofs.Store.Listing

/-!
# What is durable

The operations on an open store split at the last one that flushes it (`LastFlush`). What was there
right after it is what another connection sees and what remains when the store is dropped
(`committed_eq_working_lastFlush`); the store itself reads as if every operation had been carried
out on the contents at once, and a unit of work is open exactly when a review was deferred since.
-/

namespace PaperTrail.Store

/-- None of some operations flushes the store. -/
def Quiet (s : Store) (cs : List Call) : Prop :=
  ∀ before c after, cs = before ++ c :: after → c.flushes (s.calls before) = false

/-- Operations on a store split at the last one that flushes it: nothing is saved when there is
none. -/
structure LastFlush (s : Store) (saved rest : List Call) : Prop where
  ends : saved = [] ∨ ∃ before c, saved = before ++ [c] ∧ c.flushes (s.calls before) = true
  quiet : Quiet (s.calls saved) rest

/-- The contents after operations, as if there were no units of work. -/
def written (db : Database) (cs : List Call) : Database := cs.foldl Call.write db

/-! ## Splitting at the last flush -/

theorem quiet_nil (s : Store) : Quiet s [] := by
  intro before c after h
  simp at h

theorem quiet_cons {s : Store} {c : Call} {cs : List Call} :
    Quiet s (c :: cs) ↔ c.flushes s = false ∧ Quiet (s.call c) cs := by
  constructor
  · intro h
    refine ⟨h [] c cs rfl, fun before c' after hcs => ?_⟩
    exact h (c :: before) c' after (by rw [hcs, List.cons_append])
  · rintro ⟨hc, hrest⟩ before c' after heq
    cases before with
    | nil =>
      obtain ⟨rfl, -⟩ := List.cons.inj heq
      exact hc
    | cons d before =>
      obtain ⟨rfl, hcs⟩ := List.cons.inj heq
      exact hrest before c' after hcs

theorem Quiet.concat {s : Store} {cs : List Call} (h : Quiet s cs) {c : Call}
    (hc : c.flushes (s.calls cs) = false) : Quiet s (cs ++ [c]) := by
  intro before c' after heq
  rcases List.eq_nil_or_concat after with rfl | ⟨after', last, rfl⟩
  · obtain ⟨rfl, hlast⟩ := List.append_inj' heq rfl
    obtain rfl : c = c' := by simpa using hlast
    exact hc
  · rw [List.concat_eq_append, ← List.cons_append, ← List.append_assoc] at heq
    obtain ⟨hcs, -⟩ := List.append_inj' heq rfl
    exact h before c' after' hcs

theorem exists_lastFlush (s : Store) (cs : List Call) :
    ∃ saved rest, cs = saved ++ rest ∧ LastFlush s saved rest := by
  -- from the end: an operation that flushes leaves nothing after it, any other goes to the rest
  induction cs using List.reverseRecOn with
  | nil => exact ⟨[], [], rfl, Or.inl rfl, quiet_nil s⟩
  | append_singleton cs c ih =>
    cases hf : c.flushes (s.calls cs) with
    | true => exact ⟨cs ++ [c], [], by simp, Or.inr ⟨cs, c, rfl, hf⟩, quiet_nil _⟩
    | false =>
      obtain ⟨saved, rest, rfl, hlast⟩ := ih
      rw [calls_append] at hf
      exact ⟨saved, rest ++ [c], List.append_assoc .., hlast.ends, hlast.quiet.concat hf⟩

/-! ## The two views of the contents -/

theorem working_calls {s : Store} (hs : s.Sound) (cs : List Call) :
    (s.calls cs).working = written s.working cs := by
  induction cs generalizing s with
  | nil => rfl
  | cons c rest ih =>
    rw [calls, List.foldl_cons, ← calls, ih (hs.call c), working_call hs]
    rfl

theorem committed_calls_of_quiet {s : Store} (hs : s.Sound) {cs : List Call} (hq : Quiet s cs) :
    (s.calls cs).committed = s.committed := by
  induction cs generalizing s with
  | nil => rfl
  | cons c rest ih =>
    obtain ⟨hc, hrest⟩ := quiet_cons.1 hq
    rw [calls, List.foldl_cons, ← calls, ih (hs.call c) hrest, call_of_not_flushes hs hc]

theorem pending_calls_of_quiet {s : Store} (hs : s.Sound) {cs : List Call} (hq : Quiet s cs) :
    (s.calls cs).pending = (s.pending || cs.any Call.defers) := by
  induction cs generalizing s with
  | nil => simp [calls]
  | cons c rest ih =>
    obtain ⟨hc, hrest⟩ := quiet_cons.1 hq
    rw [calls, List.foldl_cons, ← calls, ih (hs.call c) hrest, call_of_not_flushes hs hc,
      List.any_cons, Bool.or_assoc]

/-- Right after a flush, and at the beginning, the store is as if it had just been opened. -/
theorem calls_saved {db : Database} {saved rest : List Call}
    (h : LastFlush (ofDatabase db) saved rest) :
    (ofDatabase db).calls saved = ofDatabase ((ofDatabase db).calls saved).working := by
  rcases h.ends with rfl | ⟨before, c, rfl, hf⟩
  · rfl
  · have hs := (sound_ofDatabase db).calls before
    have hlast : (ofDatabase db).calls (before ++ [c]) = ((ofDatabase db).calls before).call c :=
      calls_append _ before [c]
    rw [hlast, call_of_flushes hs hf]
    rfl

/-- After any operations on a store that was opened on some contents there is a last flush, and with
respect to it: another connection sees what the store held right after it; dropping the store and
opening it again gives the store of that moment; the store itself reads as if every operation had
been carried out at once; a unit of work is open if and only if a review was deferred since; and
closing flushes. -/
theorem committed_eq_working_lastFlush (db : Database) (cs : List Call) :
    (∃ saved rest, cs = saved ++ rest ∧ LastFlush (ofDatabase db) saved rest) ∧
    ∀ saved rest, cs = saved ++ rest → LastFlush (ofDatabase db) saved rest →
      let s := (ofDatabase db).calls cs
      let flushed := (ofDatabase db).calls saved
      s.committed = flushed.working ∧
      ofDatabase s.drop = flushed ∧
      (s.working = written db cs ∧ s.origins = (ofDatabase (written db cs)).origins ∧
        ∀ rejected, s.entries? rejected = (ofDatabase (written db cs)).entries? rejected) ∧
      (s.hasPendingWrites = true ↔ ∃ id d, Call.review id d false ∈ rest) ∧
      (ofDatabase s.close = s.call .save ∧ s.close = s.working) := by
  refine ⟨exists_lastFlush _ cs, ?_⟩
  rintro saved rest rfl hlast s flushed
  have hs₀ := sound_ofDatabase db
  have hflushed : flushed.Sound := hs₀.calls saved
  have hs : s.Sound := hs₀.calls (saved ++ rest)
  have hsplit : s = flushed.calls rest := calls_append _ saved rest
  have hopen : flushed = ofDatabase flushed.working := calls_saved hlast
  have hcommitted : s.committed = flushed.working := by
    rw [hsplit, committed_calls_of_quiet hflushed hlast.quiet, hopen]
    rfl
  have hworking : s.working = written db (saved ++ rest) := working_calls hs₀ _
  have horigins : s.origins = (ofDatabase (written db (saved ++ rest))).origins := by
    rw [← hworking, origins_ofDatabase_working hs]
  have hdrop : ofDatabase s.drop = flushed := by
    rw [drop, hcommitted, ← hopen]
  refine ⟨hcommitted, hdrop, ⟨hworking, horigins, fun rejected => ?_⟩, ?_, ?_, close_eq_working hs⟩
  · rw [← hworking, entries?_ofDatabase_working hs]
  · have hpending : flushed.pending = false := by rw [hopen]; rfl
    rw [hasPendingWrites, hsplit, pending_calls_of_quiet hflushed hlast.quiet, hpending,
      Bool.false_or, List.any_eq_true]
    constructor
    · rintro ⟨c, hmem, hd⟩
      cases c with
      | review id d saveNow =>
        obtain rfl : saveNow = false := by simpa [Call.defers] using hd
        exact ⟨id, d, hmem⟩
      | insert entries => cases hd
      | save => cases hd
      | list rejected => cases hd
    · rintro ⟨id, d, hmem⟩
      exact ⟨_, hmem, rfl⟩
  · rw [close_eq_working hs, call, save_eq_ofDatabase hs]

/-- After a batch that went in: an unsaved review, a review of a paper that is not there, a batch
that fails, and a listing. -/
theorem committed_eq_working_before_review :
    let batch : Call := .insert [.new ⟨"10.1/A", "", "One", "", ""⟩ [⟨"ieee", some "http://a"⟩]]
    let rest : List Call := [.review 1 (.rejected 2) false, .review 9 (.later true) false,
      .insert [.new ⟨"", "", "Two", "", ""⟩ [⟨"acm", none⟩, ⟨"sqlite_x", none⟩]], .list [0]]
    let s := (ofDatabase .empty).calls ([batch] ++ rest)
    LastFlush (ofDatabase .empty) [batch] rest ∧
      s.committed = ((ofDatabase .empty).calls [batch]).working ∧ s.hasPendingWrites = true ∧
      s.working ≠ s.committed := by
  intro batch rest s
  have hquiet : Quiet ((ofDatabase .empty).calls [batch]) rest := by
    refine quiet_cons.2 ⟨rfl, quiet_cons.2 ⟨rfl, quiet_cons.2 ⟨by decide +kernel, ?_⟩⟩⟩
    exact quiet_cons.2 ⟨rfl, quiet_nil _⟩
  have hlast : LastFlush (ofDatabase .empty) [batch] rest :=
    ⟨Or.inr ⟨[], batch, rfl, by decide +kernel⟩, hquiet⟩
  obtain ⟨hcommitted, -, -, hpending, -⟩ :=
    (committed_eq_working_lastFlush .empty ([batch] ++ rest)).2 _ _ rfl hlast
  exact ⟨hlast, hcommitted, hpending.2 ⟨1, _, List.mem_cons_self⟩, by decide +kernel⟩

end PaperTrail.Store
