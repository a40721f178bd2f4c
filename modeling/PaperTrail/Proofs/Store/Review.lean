import PaperTrail.Proofs.Store.Filings

/-!
# Reviews survive insertions

Between two openings of a store nothing but the decisions of a reviewer changes a paper that is
there. Connections end by being closed here; one that is dropped loses what was not saved.

* `lastDecision`, `reviewAfter` : the last decision of a kind on a paper among events, and the review
  that results from a first one, each of its values on its own;
* `Event.revise` : the effect of an event on a row, and `main_handle` : an event revises the rows
  that are there and puts those of new papers behind them (`mem_main_run` for a whole run);
* `Begins` : the row with which a paper begins, found at first or made by an insertion;
* `entries_review_run` : what listings show of a paper, and what a decision changes.
-/

namespace PaperTrail.Store

/-! ## The last decisions -/

namespace Decision

def rejected? : Decision → Option Int
  | rejected value => some value
  | _ => none

def later? : Decision → Option Bool
  | later value => some value
  | _ => none

def notes? : Decision → Option String
  | notes value => some value
  | _ => none

end Decision

/-- What the last decision of a kind sets for the paper of a number. -/
def lastDecision {α : Type} (kind : Decision → Option α) (id : Int) (events : List Event) :
    Option α :=
  events.reverse.findSome? fun
    | .call (.review id' d _) => if id' = id then kind d else none
    | _ => none

/-- The review of the paper of a number after events: of each value the last one that was set, or
the one at the start. -/
def reviewAfter (start : Review) (id : Int) (events : List Event) : Review :=
  ⟨(lastDecision Decision.rejected? id events).getD start.rejected,
    (lastDecision Decision.later? id events).getD start.saveForLater,
    (lastDecision Decision.notes? id events).getD start.notes⟩

theorem lastDecision_append {α : Type} (kind : Decision → Option α) (id : Int) (a b : List Event) :
    lastDecision kind id (a ++ b) = (lastDecision kind id b).or (lastDecision kind id a) := by
  rw [lastDecision, List.reverse_append, List.findSome?_append, lastDecision, lastDecision]

theorem reviewAfter_append (start : Review) (id : Int) (a b : List Event) :
    reviewAfter start id (a ++ b) = reviewAfter (reviewAfter start id a) id b := by
  simp only [reviewAfter, lastDecision_append, Option.getD_or]

/-! ## Rows along the way -/

/-- The row of a paper after an event. -/
def Event.revise : Event → MainRow → MainRow
  | .call (.review id d _), r => if r.id = id then d.apply r else r
  | _, r => r

theorem id_revise (e : Event) (r : MainRow) : (e.revise r).id = r.id := by
  unfold Event.revise
  split
  · next id d _ => split <;> cases d <;> rfl
  · rfl

theorem unreviewed_revise (e : Event) (r : MainRow) : (e.revise r).unreviewed = r.unreviewed := by
  unfold Event.revise
  split
  · next id d _ => split <;> cases d <;> rfl
  · rfl

theorem review_revise (e : Event) (r : MainRow) :
    (e.revise r).review = reviewAfter r.review r.id [e] := by
  cases e with
  | call c =>
    cases c with
    | review id d saveNow =>
      by_cases hid : r.id = id
      · subst hid
        cases d <;> simp [Event.revise, reviewAfter, lastDecision, Decision.apply, MainRow.review,
          MainRow.rejected, Decision.rejected?, Decision.later?, Decision.notes?]
      · simp [Event.revise, reviewAfter, lastDecision, hid, Ne.symm hid]
    | insert entries => rfl
    | save => rfl
    | list rejected => rfl
  | closeReopen => rfl
  | dropReopen => rfl

/-- Entries put their papers behind the others. -/
theorem main_ingestAll (db : Database) (entries : List Entry) :
    ∃ new, (db.ingestAll entries).main = db.main ++ new ∧
      ∀ row ∈ new, ∃ e ∈ entries, row = MainRow.ofEntry row.id e := by
  refine ⟨paperRows (db.filings entries), db.main_ingestAll_eq entries, fun row hrow => ?_⟩
  obtain ⟨f, hf, rfl⟩ := List.mem_map.1 hrow
  have he : f.entry ∈ (db.filings entries).map (·.entry) := List.mem_map_of_mem (mem_of_mem_papers hf)
  rw [db.map_entry_filings] at he
  exact ⟨f.entry, he, rfl⟩

/-- What an event does to the papers: it revises the rows that are there, and the rows behind them
are those of entries that went in. -/
theorem main_handle {s : Store} (hs : s.Sound) {e : Event} (he : e ≠ .dropReopen) :
    ∃ new, (s.handle e).working.main = s.working.main.map e.revise ++ new ∧
      ∀ row ∈ new, ∃ entries, e = .call (.insert entries) ∧ (s.insert entries).2.isOk = true ∧
        ∃ entry ∈ entries, row = MainRow.ofEntry row.id entry := by
  have hkeep : ∀ rows : List MainRow, rows = rows.map (fun r => r) ++ [] := by simp
  cases e with
  | call c =>
    rw [handle, working_call hs]
    cases c with
    | insert entries =>
      rw [Call.write]
      by_cases hfit : firstUnfit (entries.flatMap (·.sources)) = none
      · obtain ⟨new, hmain, hnew⟩ := main_ingestAll s.working entries
        rw [if_pos hfit]
        refine ⟨new, hmain.trans (congrArg (· ++ new) (List.map_id _).symm), fun row hrow => ?_⟩
        exact ⟨entries, rfl, (isOk_insert hs entries).2 hfit, hnew row hrow⟩
      · rw [if_neg hfit]
        exact ⟨[], hkeep _, by simp⟩
    | review id d saveNow => exact ⟨[], (List.append_nil _).symm, by simp⟩
    | save => exact ⟨[], hkeep _, by simp⟩
    | list rejected => exact ⟨[], hkeep _, by simp⟩
  | closeReopen =>
    rw [handle, close_eq_working hs]
    exact ⟨[], hkeep _, by simp⟩
  | dropReopen => exact absurd rfl he

/-- What a run without drops leaves of the row of a paper. -/
theorem mem_main_run {s : Store} (hs : s.Sound) {events : List Event}
    (hdrop : .dropReopen ∉ events) {first : MainRow} (hfirst : first ∈ s.working.main) :
    ∃ row ∈ (s.run events).working.main, row.id = first.id ∧ row.unreviewed = first.unreviewed ∧
      row.review = reviewAfter first.review first.id events := by
  induction events generalizing s first with
  | nil => exact ⟨first, hfirst, rfl, rfl, rfl⟩
  | cons e rest ih =>
    rw [List.mem_cons, not_or] at hdrop
    obtain ⟨new, hmain, -⟩ := main_handle hs (Ne.symm hdrop.1)
    have hnext : e.revise first ∈ (s.handle e).working.main := by
      rw [hmain]
      exact List.mem_append_left _ (List.mem_map_of_mem hfirst)
    obtain ⟨row, hrow, hid, hrest, hreview⟩ := ih (hs.handle e) hdrop.2 hnext
    refine ⟨row, hrow, hid.trans (id_revise e first), hrest.trans (unreviewed_revise e first), ?_⟩
    rw [hreview, review_revise, id_revise, ← reviewAfter_append, List.singleton_append]

/-! ## Where a paper begins -/

/-- A paper begins with a row after events on a store: it was found there at first, or the last
event is the insertion that made the paper of this number. -/
inductive Begins (db : Database) : List Event → MainRow → Prop where
  | found {row : MainRow} (hrow : row ∈ db.main) : Begins db [] row
  | created {before : List Event} {entries : List Entry} {e : Entry} {id : Int}
      (hok : (((ofDatabase db).run before).insert entries).2.isOk = true) (he : e ∈ entries)
      (hnew : ∀ row ∈ ((ofDatabase db).run before).working.main, row.id ≠ id)
      (hrow : MainRow.ofEntry id e ∈
        ((ofDatabase db).run (before ++ [.call (.insert entries)])).working.main) :
      Begins db (before ++ [.call (.insert entries)]) (MainRow.ofEntry id e)

theorem Begins.mem {db : Database} {before : List Event} {first : MainRow}
    (h : Begins db before first) : first ∈ ((ofDatabase db).run before).working.main := by
  cases h with
  | found hrow => exact hrow
  | created _ _ _ hrow => exact hrow

theorem exists_begins {db : Database} (hdb : db.Numbered) {events : List Event}
    (hdrop : .dropReopen ∉ events) {row : MainRow}
    (hrow : row ∈ ((ofDatabase db).run events).working.main) :
    ∃ before after first, events = before ++ after ∧ Begins db before first ∧
      first.id = row.id := by
  -- from the end: a row is an older one after the last event, or that event made it
  induction events using List.reverseRecOn generalizing row with
  | nil => exact ⟨[], [], row, rfl, .found hrow, rfl⟩
  | append_singleton events e ih =>
    rw [List.mem_append, not_or, List.mem_singleton] at hdrop
    have hlast : (ofDatabase db).run (events ++ [e]) = ((ofDatabase db).run events).handle e :=
      run_append _ events [e]
    obtain ⟨new, hmain, hnew⟩ := main_handle (sound_run db events) (Ne.symm hdrop.2)
    have hnumbered := (numbered_run hdb (events ++ [e])).2
    rw [Database.Numbered, hlast, hmain, List.pairwise_append] at hnumbered
    have hmem := hrow
    rw [hlast, hmain, List.mem_append, List.mem_map] at hmem
    rcases hmem with ⟨old, hold, rfl⟩ | hmem
    · obtain ⟨before, after, first, rfl, hbegins, hid⟩ := ih hdrop.1 hold
      refine ⟨before, after ++ [e], first, List.append_assoc .., hbegins, ?_⟩
      rw [hid, id_revise]
    · obtain ⟨entries, rfl, hok, entry, hentry, heq⟩ := hnew row hmem
      have hother : ∀ old ∈ ((ofDatabase db).run events).working.main, old.id ≠ row.id := by
        intro old hold
        have hlt := hnumbered.2.2 _ (List.mem_map_of_mem hold) row hmem
        rw [id_revise] at hlt
        exact ne_of_lt hlt
      rw [heq] at hrow
      exact ⟨_, [], _, (List.append_nil _).symm, .created hok hentry hother hrow, rfl⟩

/-! ## What a decision changes -/

theorem origins_call_review {s : Store} (hs : s.Sound) (id : Int) (d : Decision) (saveNow : Bool) :
    (s.call (.review id d saveNow)).origins = s.origins := by
  rw [origins, (hs.call _).known_eq, working_call hs, origins, hs.known_eq]
  rfl

theorem committed_call_review {s : Store} (hs : s.Sound) (id : Int) (d : Decision) (saveNow : Bool) :
    (s.call (.review id d saveNow)).committed =
      if saveNow then (s.call (.review id d saveNow)).working else s.committed := by
  cases saveNow with
  | true =>
    rw [call_of_flushes hs rfl]
    rfl
  | false =>
    rw [call_of_not_flushes hs rfl]
    rfl

/-! ## What listings show of a review -/

/-- In a run without drops on contents with numbered papers, every paper has a beginning. From there
on its fields stay, and a listing shows for it the values that were last set since, and those of the
beginning where nothing was set. A decision changes one value of one row; when there is no paper of
the number, it changes nothing. -/
theorem entries_review_run (db : Database) (hdb : db.Numbered) (events : List Event)
    (hdrop : .dropReopen ∉ events) :
    let s := (ofDatabase db).run events
    (∀ row ∈ s.working.main, ∃ before after first, events = before ++ after ∧
      Begins db before first ∧ first.id = row.id) ∧
    (∀ before after first, events = before ++ after → Begins db before first →
      let review := reviewAfter first.review first.id after
      first.unreviewed ∈ s.working.main.map MainRow.unreviewed ∧
      ∃ sources, ∀ rejected, rejected.length ≤ maxParameters → ∃ listed,
        s.entries? rejected = some listed ∧ listed.filter (·.1 = first.id) =
          if review.rejected ∈ rejected then [(first.id, ⟨first.resource, sources, review⟩)]
          else []) ∧
    ∀ id (d : Decision) saveNow,
      let s' := s.call (.review id d saveNow)
      s'.working.main = (s.working.main.map fun r => if r.id = id then d.apply r else r) ∧
      s'.working.tables = s.working.tables ∧ s'.origins = s.origins ∧
      s'.committed = (if saveNow then s'.working else s.committed) ∧
      ((∀ row ∈ s.working.main, row.id ≠ id) → s'.working = s.working) := by
  intro s
  have hs : s.Sound := sound_run db events
  have hids : (s.working.main.map (·.id)).Nodup := (numbered_run hdb events).2.nodup_ids
  refine ⟨fun row hrow => exists_begins hdb hdrop hrow, ?_, fun id d saveNow => ?_⟩
  · rintro before after first rfl hbegins review
    have hsplit : s = ((ofDatabase db).run before).run after := run_append _ before after
    have hafter : .dropReopen ∉ after := fun h => hdrop (List.mem_append_right _ h)
    obtain ⟨row, hrow, hid, hrest, hreview⟩ :=
      mem_main_run (sound_run db before) hafter hbegins.mem
    rw [← hsplit] at hrow
    have hresource : row.resource = first.resource := by
      show row.unreviewed.resource = first.unreviewed.resource
      rw [hrest]
    refine ⟨hrest ▸ List.mem_map_of_mem hrow, s.origins.flatMap (s.working.linksOf row.id), ?_⟩
    intro rejected hle
    obtain ⟨listed, hlisted, hfilter⟩ := exists_entries?_filter hs hids hrow hle
    have hrejected : row.rejected = review.rejected := congrArg Review.rejected hreview
    refine ⟨listed, hlisted, ?_⟩
    rw [← hid, hfilter, hrejected, Database.entryOf, hresource, hreview]
  · have hworking := working_call hs (.review id d saveNow)
    have htables : (s.call (.review id d saveNow)).working.tables = s.working.tables := by
      rw [hworking]
      rfl
    refine ⟨congrArg Database.main hworking, htables, origins_call_review hs id d saveNow,
      committed_call_review hs id d saveNow, fun hnone => ?_⟩
    have hsame : s.working.main.map (fun r => if r.id = id then d.apply r else r) =
        s.working.main :=
      (List.map_congr_left fun r hr => if_neg (hnone r hr)).trans (List.map_id' _)
    rw [hworking, Call.write, Database.update, hsame]

/-- A decision on paper 8 before there is one, a batch with a new paper and a found one that both
come with reviews of their own, a new connection, and a batch that fails between decisions. -/
theorem entries_review_run_two_papers :
    let db : Database :=
      ⟨[⟨7, none, none, some "Old", none, none, none, some true, none⟩], .empty⟩
    let batch : Call := .insert [
      ⟨⟨"10.1/o", "", "OLD", "", ""⟩, [⟨"ieee", some "a"⟩], ⟨4, false, "matched"⟩⟩,
      ⟨⟨"", "", "New", "", ""⟩, [⟨"acm", none⟩, ⟨"IEEE", some "b"⟩], ⟨1, true, "created"⟩⟩]
    let before : List Event :=
      [.call (.review 8 (.rejected 5) true), .call (.review 7 (.rejected 2) false)]
    let after : List Event := [
      .call (.review 8 (.notes "seen") false), .closeReopen,
      .call (.review 8 (.notes "seen again") false),
      .call (.insert [⟨⟨"", "", "new", "", ""⟩, [⟨"main", none⟩], ⟨3, false, "failed"⟩⟩]),
      .call (.review 7 (.later false) false)]
    let s := (ofDatabase db).run (before ++ [.call batch] ++ after)
    let made : Resource := ⟨"", "", "New", "", ""⟩
    db.Numbered ∧ .dropReopen ∉ before ++ [.call batch] ++ after ∧
      (∃ listed sources, s.entries? [1] = some listed ∧ listed.filter (·.1 = 8) =
        [(8, ⟨made, sources, ⟨1, true, "seen again"⟩⟩)]) ∧
      s.entries? [2] =
        some [(7, ⟨⟨"", "", "Old", "", ""⟩, [⟨"ieee", some "a"⟩], ⟨2, false, ""⟩⟩)] := by
  intro db batch before after s made
  have hdb : db.Numbered := List.pairwise_singleton _ _
  have hdrop : .dropReopen ∉ before ++ [.call batch] ++ after := by decide
  let first := MainRow.ofEntry 8 ⟨made, [⟨"acm", none⟩, ⟨"IEEE", some "b"⟩], ⟨1, true, "created"⟩⟩
  have hbegins : Begins db (before ++ [.call batch]) first :=
    .created (by decide +kernel) (by decide) (by decide +kernel) (by decide +kernel)
  obtain ⟨-, hlisted, -⟩ := entries_review_run db hdb _ hdrop
  obtain ⟨-, sources, hshown⟩ := hlisted _ after first rfl hbegins
  have hreview : reviewAfter first.review first.id after = ⟨1, true, "seen again"⟩ := by
    decide +kernel
  rw [hreview] at hshown
  obtain ⟨listed, hlisted, hfiltered⟩ := hshown [1] (by decide)
  exact ⟨hdb, hdrop, ⟨listed, sources, hlisted, hfiltered⟩, by decide +kernel⟩

end PaperTrail.Store
