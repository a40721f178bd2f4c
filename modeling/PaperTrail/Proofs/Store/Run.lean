import PaperTrail.Proofs.Store.Ingestion

/-!
# Runs of a store

* `Store.Call` : an operation on an open store, `Store.call` its effect;
* `Store.Event` : an operation, or the store being closed or dropped and opened again;
  `Store.run` carries out events in their order, `Store.accepted` lists the entries that they put
  into the store;
* `Call.write` : the effect of an operation on the contents, as if there were no units of work;
* `call_of_flushes`, `call_of_not_flushes` : an operation either makes all its store holds durable,
  or leaves what is durable alone;
* `run_induction` : what reviews and entries keep holds of the contents after every run.
-/

namespace PaperTrail.Store

/-! ## Operations -/

/-- A decision of a reviewer on a paper. -/
inductive Decision where
  | rejected (value : Int)
  | later (value : Bool)
  | notes (value : String)
deriving DecidableEq

def Decision.apply : Decision → MainRow → MainRow
  | .rejected value, r => { r with rejected? := some value }
  | .later value, r => { r with later? := some value }
  | .notes value, r => { r with notes? := some value }

/-- An operation on an open store. -/
inductive Call where
  | insert (entries : List Entry)
  | review (id : Int) (decision : Decision) (saveNow : Bool)
  | save
  | list (rejected : List Int)
deriving DecidableEq

def call (s : Store) : Call → Store
  | .insert entries => (s.insert entries).1
  | .review id (.rejected value) saveNow => s.setRejected id value saveNow
  | .review id (.later value) saveNow => s.setLater id value saveNow
  | .review id (.notes value) saveNow => s.setNotes id value saveNow
  | .save => s.save
  | .list _ => s

def calls (s : Store) (cs : List Call) : Store := cs.foldl call s

/-- An operation, or the end of a connection and the start of the next one. -/
inductive Event where
  | call (c : Call)
  | closeReopen
  | dropReopen
deriving DecidableEq

def handle (s : Store) : Event → Store
  | .call c => s.call c
  | .closeReopen => ofDatabase s.close
  | .dropReopen => ofDatabase s.drop

def run (s : Store) (events : List Event) : Store := events.foldl handle s

def taken (s : Store) : Event → List Entry
  | .call (.insert entries) => if (s.insert entries).2.isOk then entries else []
  | _ => []

/-- The entries that events put into the store, in their order. -/
def accepted (s : Store) : List Event → List Entry
  | [] => []
  | e :: rest => s.taken e ++ (s.handle e).accepted rest

theorem run_append (s : Store) (a b : List Event) : s.run (a ++ b) = (s.run a).run b :=
  List.foldl_append

theorem calls_append (s : Store) (a b : List Call) : s.calls (a ++ b) = (s.calls a).calls b :=
  List.foldl_append

theorem call_review (s : Store) (id : Int) (d : Decision) (saveNow : Bool) :
    s.call (.review id d saveNow) = s.change id d.apply saveNow := by
  cases d <;> rfl

theorem insert_of_isEmpty {s : Store} {entries : List Entry} (h : entries.isEmpty = true) :
    s.insert entries = (s, .ok Report.empty) := by
  rw [insert, if_pos h]

theorem report_insert_of_fit {s : Store} (hs : s.Sound) {entries : List Entry}
    (hfit : firstUnfit (entries.flatMap (·.sources)) = none) :
    (s.insert entries).2 = .ok (s.working.reportAll entries) := by
  cases entries with
  | nil => rfl
  | cons e rest => rw [insert_of_fit hs (List.cons_ne_nil e rest) hfit]

/-- An insertion into a sound store succeeds exactly when every origin has a valid name. -/
theorem isOk_insert {s : Store} (hs : s.Sound) (entries : List Entry) :
    (s.insert entries).2.isOk = true ↔ firstUnfit (entries.flatMap (·.sources)) = none := by
  cases hfit : firstUnfit (entries.flatMap (·.sources)) with
  | some e =>
    rw [insert_of_unfit hs hfit]
    simp [Except.isOk, Except.toBool]
  | none =>
    rw [report_insert_of_fit hs hfit]
    exact iff_of_true rfl rfl

/-! ## Writing and flushing -/

namespace Call

/-- The contents after an operation, as if there were no units of work. -/
def write (db : Database) : Call → Database
  | .insert entries =>
    if firstUnfit (entries.flatMap (·.sources)) = none then db.ingestAll entries else db
  | .review id d _ => db.update id d.apply
  | .save => db
  | .list _ => db

/-- Whether an operation is a point at which the store is flushed: saving, a review that asks for
it, or the insertion of some entries that succeeds. -/
def flushes (s : Store) : Call → Bool
  | .insert entries => !entries.isEmpty && (s.insert entries).2.isOk
  | .review _ _ saveNow => saveNow
  | .save => true
  | .list _ => false

/-- Whether an operation is a review that does not ask for saving. -/
def defers : Call → Bool
  | .review _ _ saveNow => !saveNow
  | _ => false

/-- An operation that neither flushes nor defers writes nothing. -/
theorem write_eq_self {s : Store} (hs : s.Sound) {c : Call} (hf : c.flushes s = false)
    (hd : c.defers = false) (db : Database) : c.write db = db := by
  cases c with
  | insert entries =>
    rw [write]
    split
    · next hfit =>
      have hempty : entries.isEmpty = true := by
        rw [flushes, (isOk_insert hs entries).2 hfit] at hf
        simpa using hf
      rw [List.isEmpty_iff.1 hempty]
      rfl
    · rfl
  | review id d saveNow => cases saveNow <;> simp [flushes, defers] at hf hd
  | save => rfl
  | list rejected => rfl

/-- Only insertions that flush make tables. -/
theorem tables_write {s : Store} (hs : s.Sound) {c : Call} (hf : c.flushes s = false)
    (db : Database) : (c.write db).tables = db.tables := by
  cases hd : c.defers with
  | false => rw [write_eq_self hs hf hd]
  | true =>
    cases c with
    | review id d saveNow => rfl
    | insert entries => cases hd
    | save => cases hd
    | list rejected => cases hd

end Call

theorem save_eq_ofDatabase {s : Store} (hs : s.Sound) : s.save = ofDatabase s.working := by
  have hknown := hs.known_eq
  have hsettled := hs.settled
  obtain ⟨committed, working, known, pending⟩ := s
  obtain rfl : known = originsOf working := hknown
  cases pending with
  | true => rfl
  | false =>
    obtain rfl : committed = working := hsettled rfl
    rfl

theorem sound_begin_working {s : Store} (hs : s.Sound) {db : Database}
    (h : db.tables = s.working.tables) : Sound { s.begin with working := db } :=
  ⟨hs.known_eq.trans (originsOf_congr h).symm, by simp [begin]⟩

/-- An operation that flushes leaves the store as if it had just been opened. -/
theorem call_of_flushes {s : Store} (hs : s.Sound) {c : Call} (hf : c.flushes s = true) :
    s.call c = ofDatabase (c.write s.working) := by
  cases c with
  | insert entries =>
    rw [Call.flushes, Bool.and_eq_true, isOk_insert hs] at hf
    obtain ⟨hne, hfit⟩ := hf
    rw [call, insert_of_fit hs (by simpa using hne) hfit, Call.write, if_pos hfit]
  | review id d saveNow =>
    obtain rfl : saveNow = true := hf
    rw [call_review, change, if_pos rfl]
    exact save_eq_ofDatabase (sound_begin_working hs rfl)
  | save => exact save_eq_ofDatabase hs
  | list rejected => cases hf

/-- An operation that does not flush leaves what is durable alone. -/
theorem call_of_not_flushes {s : Store} (hs : s.Sound) {c : Call} (hf : c.flushes s = false) :
    s.call c =
      { s with working := c.write s.working, pending := s.pending || c.defers } := by
  cases c with
  | insert entries =>
    have hwrite := Call.write_eq_self hs hf rfl s.working
    rw [hwrite]
    have hsame : (s.insert entries).1 = s := by
      cases hempty : entries.isEmpty with
      | true => rw [insert_of_isEmpty hempty]
      | false =>
        rw [Call.flushes, hempty, Bool.not_false, Bool.true_and, ← Bool.not_eq_true,
          isOk_insert hs, ← ne_eq, Option.ne_none_iff_exists'] at hf
        obtain ⟨e, hunfit⟩ := hf
        rw [insert_of_unfit hs hunfit]
    rw [call, hsame]
    simp [Call.defers]
  | review id d saveNow =>
    obtain rfl : saveNow = false := hf
    rw [call_review, change]
    simp [begin, Call.write, Call.defers]
  | save => cases hf
  | list rejected => simp [call, Call.write, Call.defers]

theorem Sound.call {s : Store} (hs : s.Sound) (c : Call) : (s.call c).Sound := by
  cases hf : c.flushes s with
  | true =>
    rw [call_of_flushes hs hf]
    exact sound_ofDatabase _
  | false =>
    rw [call_of_not_flushes hs hf]
    refine ⟨hs.known_eq.trans (originsOf_congr (Call.tables_write hs hf _)).symm, fun hp => ?_⟩
    obtain ⟨hpending, hd⟩ := Bool.or_eq_false_iff.1 hp
    exact (hs.settled hpending).trans (Call.write_eq_self hs hf hd _).symm

theorem Sound.calls {s : Store} (hs : s.Sound) (cs : List Call) : (s.calls cs).Sound := by
  induction cs generalizing s with
  | nil => exact hs
  | cons c rest ih => exact ih (hs.call c)

theorem Sound.handle {s : Store} (hs : s.Sound) (e : Event) : (s.handle e).Sound := by
  cases e with
  | call c => exact hs.call c
  | closeReopen => exact sound_ofDatabase _
  | dropReopen => exact sound_ofDatabase _

theorem Sound.run {s : Store} (hs : s.Sound) (events : List Event) : (s.run events).Sound := by
  induction events generalizing s with
  | nil => exact hs
  | cons e rest ih => exact ih (hs.handle e)

/-- Every store that a run on some contents leads to is sound. -/
theorem sound_run (db : Database) (events : List Event) : ((ofDatabase db).run events).Sound :=
  (sound_ofDatabase db).run events

/-- What is written reaches the contents at once. -/
theorem working_call {s : Store} (hs : s.Sound) (c : Call) :
    (s.call c).working = c.write s.working := by
  cases hf : c.flushes s with
  | true => rw [call_of_flushes hs hf]; rfl
  | false => rw [call_of_not_flushes hs hf]

theorem close_eq_working {s : Store} (hs : s.Sound) : s.close = s.working := by
  rw [close, save_eq_ofDatabase hs]
  rfl

/-- A batch that goes in is a new beginning: everything before it is durable with it. -/
theorem run_insert_of_fit {s : Store} (hs : s.Sound) (before : List Event) {entries : List Entry}
    (hne : entries ≠ []) (hfit : firstUnfit (entries.flatMap (·.sources)) = none)
    (after : List Event) : s.run (before ++ .call (.insert entries) :: after) =
      (ofDatabase ((s.run before).working.ingestAll entries)).run after := by
  rw [run_append, run, List.foldl_cons, ← run, handle, call, insert_of_fit (hs.run before) hne hfit]

/-! ## What holds after every run -/

section Induction
variable {P : List Entry → Database → Prop}
  (hreview : ∀ h db id (d : Decision), P h db → P h (db.update id d.apply))
  (hingest : ∀ h db e, (∀ src ∈ e.sources, isValidOrigin src.origin = true) → P h db →
    P (h ++ [e]) (db.ingest e))

include hingest in
theorem ingestAll_induction {entries : List Entry}
    (hv : ∀ e ∈ entries, ∀ src ∈ e.sources, isValidOrigin src.origin = true) {h : List Entry}
    {db : Database} (hdb : P h db) : P (h ++ entries) (db.ingestAll entries) := by
  induction entries generalizing h db with
  | nil => rwa [List.append_nil]
  | cons e rest ih =>
    rw [List.forall_mem_cons] at hv
    have hrest := ih hv.2 (hingest h db e hv.1 hdb)
    rwa [List.append_assoc, List.singleton_append] at hrest

include hreview hingest in
theorem write_induction {s : Store} (hs : s.Sound) {h : List Entry} {db : Database} (hdb : P h db)
    (c : Call) : P (h ++ s.taken (.call c)) (c.write db) := by
  cases c with
  | insert entries =>
    rw [taken, Call.write]
    by_cases hfit : firstUnfit (entries.flatMap (·.sources)) = none
    · rw [if_pos ((isOk_insert hs entries).2 hfit), if_pos hfit]
      exact ingestAll_induction hingest (firstUnfit_flatMap_eq_none_iff.1 hfit) hdb
    · rw [if_neg (mt (isOk_insert hs entries).1 hfit), if_neg hfit, List.append_nil]
      exact hdb
  | review id d saveNow =>
    show P (h ++ []) _
    rw [List.append_nil]
    exact hreview h db id d hdb
  | save =>
    show P (h ++ []) _
    rwa [List.append_nil]
  | list rejected =>
    show P (h ++ []) _
    rwa [List.append_nil]

/-- Entries that an operation takes in are durable at once. -/
theorem taken_of_not_flushes {s : Store} {c : Call} (hf : c.flushes s = false) :
    s.taken (.call c) = [] := by
  cases c with
  | insert entries =>
    rw [taken]
    split
    · next hok =>
      rw [Call.flushes, hok, Bool.and_true, Bool.not_eq_false'] at hf
      exact List.isEmpty_iff.1 hf
    · rfl
  | review id d saveNow => rfl
  | save => rfl
  | list rejected => rfl

include hreview hingest in
theorem handle_induction {s : Store} (hs : s.Sound) {h : List Entry} (hc : P h s.committed)
    (hw : P h s.working) (e : Event) :
    P (h ++ s.taken e) (s.handle e).committed ∧ P (h ++ s.taken e) (s.handle e).working := by
  cases e with
  | call c =>
    have hwrite := write_induction hreview hingest hs hw c
    cases hf : c.flushes s with
    | true =>
      rw [handle, call_of_flushes hs hf]
      exact ⟨hwrite, hwrite⟩
    | false =>
      rw [handle, call_of_not_flushes hs hf]
      refine ⟨?_, hwrite⟩
      rw [taken_of_not_flushes hf, List.append_nil]
      exact hc
  | closeReopen =>
    show P (h ++ []) _ ∧ P (h ++ []) _
    rw [List.append_nil, handle, close_eq_working hs]
    exact ⟨hw, hw⟩
  | dropReopen =>
    show P (h ++ []) _ ∧ P (h ++ []) _
    rw [List.append_nil]
    exact ⟨hc, hc⟩

include hreview hingest in
/-- What reviews and new entries keep, the entries taken in so far being given, holds after every
run, both of what is durable and of what the store sees. -/
theorem run_induction {s : Store} (hs : s.Sound) {h : List Entry} (hc : P h s.committed)
    (hw : P h s.working) (events : List Event) :
    P (h ++ s.accepted events) (s.run events).committed ∧
      P (h ++ s.accepted events) (s.run events).working := by
  induction events generalizing s h with
  | nil =>
    rw [accepted, List.append_nil]
    exact ⟨hc, hw⟩
  | cons e rest ih =>
    obtain ⟨hc', hw'⟩ := handle_induction hreview hingest hs hc hw e
    rw [accepted, ← List.append_assoc]
    exact ih (hs.handle e) hc' hw'

end Induction

end PaperTrail.Store
