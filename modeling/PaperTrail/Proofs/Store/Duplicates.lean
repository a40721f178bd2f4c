import PaperTrail.Proofs.Store.Recognition
import PaperTrail.Proofs.Store.Run

/-!
# No paper is kept twice

`Database.NoDuplicates` says that no two papers have the same doi, title or abstract, blank ones
aside. Entries without any of these cannot be recognised: `Database.anonymous` lists what is known
of the papers made from them. Both survive every run (`noDuplicates_run`): papers stay apart, and
every anonymous entry that went in has a paper of its own.
-/

namespace PaperTrail

/-- Whether two papers have the same text in a field that is not blank, the case of letters aside. -/
def MainRow.SharesField (a b : MainRow) : Prop :=
  ∃ f v w, a.get? f = some v ∧ b.get? f = some w ∧ Text.trim v ≠ "" ∧ Text.fold v = Text.fold w

/-- No two papers have the same text in a field. -/
def Database.NoDuplicates (db : Database) : Prop :=
  db.main.Pairwise fun a b => ¬ a.SharesField b

/-- Whether nothing is known by which the paper could be recognised. -/
def Resource.isAnonymous (r : Resource) : Bool :=
  IdentityField.all.all fun f => Text.isBlankText (r.get f)

/-- What is known of the papers that cannot be recognised, in the order of the papers. -/
def Database.anonymous (db : Database) : List Resource :=
  (db.main.map (·.resource)).filter Resource.isAnonymous

/-! ## Fields -/

theorem isAnonymous_iff {r : Resource} :
    r.isAnonymous = true ↔ ∀ f, Text.isBlankText (r.get f) = true := by
  rw [Resource.isAnonymous, List.all_eq_true]
  refine ⟨fun h f => h f ?_, fun h f _ => h f⟩
  cases f <;> decide

/-- Nothing is recognised in an anonymous resource. -/
theorem find?_of_isAnonymous {r : Resource} (h : r.isAnonymous = true) (db : Database) :
    db.find? r = none := by
  rw [find?_eq_none_iff]
  intro row _
  rw [← Bool.not_eq_true, sharesAny_identity_iff]
  rintro ⟨f, v, -, hblank, -⟩
  rw [isAnonymous_iff.1 h f] at hblank
  cases hblank

/-- A row that shares a field with the row of an entry is found for the entry. -/
theorem sharesAny_of_sharesField {row : MainRow} {id : Int} {e : Entry}
    (h : row.SharesField (MainRow.ofEntry id e)) : row.sharesAny e.resource.identity = true := by
  obtain ⟨f, v, w, hv, hw, htrim, hfold⟩ := h
  rw [get?_ofEntry] at hw
  obtain rfl := Option.some.inj hw
  have hsame : Text.sameFolded v (e.resource.get f) = true := Text.sameFolded_iff.2 hfold
  refine sharesAny_identity_iff.2 ⟨f, v, hv, ?_, sameStored_of_sameFolded hsame⟩
  rw [← Text.isBlankText_congr hsame, ← Bool.not_eq_true, Text.isBlankText_iff]
  exact htrim

namespace Store

theorem get?_apply (d : Decision) (r : MainRow) (f : IdentityField) :
    (d.apply r).get? f = r.get? f := by
  cases d <;> cases f <;> rfl

theorem resource_apply (d : Decision) (r : MainRow) : (d.apply r).resource = r.resource := by
  cases d <;> rfl

end Store

/-! ## What reviews and entries keep -/

open Store

theorem noDuplicates_update {db : Database} (h : db.NoDuplicates) (id : Int) (d : Decision) :
    (db.update id d.apply).NoDuplicates := by
  have hget : ∀ (r : MainRow) f, (if r.id = id then d.apply r else r).get? f = r.get? f := by
    intro r f
    split
    · exact get?_apply d r f
    · rfl
  rw [Database.NoDuplicates, Database.update, List.pairwise_map]
  refine h.imp fun {a b} hab => ?_
  simp only [MainRow.SharesField, hget]
  exact hab

theorem anonymous_update (db : Database) (id : Int) (d : Decision) :
    (db.update id d.apply).anonymous = db.anonymous := by
  rw [Database.anonymous, Database.update, List.map_map, Database.anonymous]
  congr 1
  refine List.map_congr_left fun r _ => ?_
  rw [Function.comp_apply]
  split
  · exact resource_apply d r
  · rfl

theorem noDuplicates_ingest {db : Database} (h : db.NoDuplicates) (e : Entry) :
    (db.ingest e).NoDuplicates := by
  rw [Database.NoDuplicates, Database.main_ingest]
  cases hfind : db.find? e.resource with
  | some id => exact h
  | none =>
    rw [Option.isSome_none, if_neg Bool.false_ne_true, List.pairwise_append]
    refine ⟨h, List.pairwise_singleton _ _, fun row hrow new hnew hshares => ?_⟩
    obtain rfl := List.mem_singleton.1 hnew
    have hfound := sharesAny_of_sharesField hshares
    rw [find?_eq_none_iff.1 hfind row hrow] at hfound
    cases hfound

theorem anonymous_ingest (db : Database) (e : Entry) :
    (db.ingest e).anonymous = db.anonymous ++ [e.resource].filter Resource.isAnonymous := by
  rw [Database.anonymous, Database.main_ingest]
  cases hfind : db.find? e.resource with
  | some id =>
    have hknown : e.resource.isAnonymous = false := by
      rw [← Bool.not_eq_true]
      intro hanonymous
      rw [find?_of_isAnonymous hanonymous] at hfind
      cases hfind
    rw [Option.isSome_some, if_pos rfl, List.filter_singleton, hknown, Database.anonymous]
    exact (List.append_nil _).symm
  | none =>
    rw [Option.isSome_none, if_neg Bool.false_ne_true, List.map_append, List.filter_append,
      Database.anonymous]
    rfl

/-- Whatever happens to a store on contents without duplicates, no two different papers share a doi,
a title or an abstract, neither in what the store sees nor in what is durable; and the papers that
cannot be recognised are those of the start and one for every such entry taken in, in this order. -/
theorem noDuplicates_run (db : Database) (h : db.NoDuplicates) (events : List Event) :
    let s := (ofDatabase db).run events
    let taken := ((ofDatabase db).accepted events).map (·.resource)
    (s.working.NoDuplicates ∧ s.committed.NoDuplicates) ∧
      s.working.anonymous = db.anonymous ++ taken.filter Resource.isAnonymous ∧
      s.committed.anonymous = db.anonymous ++ taken.filter Resource.isAnonymous := by
  intro s taken
  let P : List Entry → Database → Prop := fun history contents => contents.NoDuplicates ∧
    contents.anonymous = db.anonymous ++ (history.map (·.resource)).filter Resource.isAnonymous
  have hreview : ∀ history contents id (d : Decision), P history contents →
      P history (contents.update id d.apply) := by
    rintro history contents id d ⟨hdup, hanon⟩
    exact ⟨noDuplicates_update hdup id d, by rw [anonymous_update, hanon]⟩
  have hingest : ∀ history contents e, (∀ src ∈ e.sources, isValidOrigin src.origin = true) →
      P history contents → P (history ++ [e]) (contents.ingest e) := by
    rintro history contents e - ⟨hdup, hanon⟩
    refine ⟨noDuplicates_ingest hdup e, ?_⟩
    rw [anonymous_ingest, hanon, List.map_append, List.filter_append, List.append_assoc]
    rfl
  have hstart : P [] db := ⟨h, by simp⟩
  obtain ⟨hcommitted, hworking⟩ :=
    run_induction hreview hingest (sound_ofDatabase db) hstart hstart events
  exact ⟨⟨hworking.1, hcommitted.1⟩, hworking.2, hcommitted.2⟩

/-- A paper that another program has stored without a title, the same paper in capitals, and two
entries that only differ from each other in their keywords. -/
theorem noDuplicates_run_anonymous_twice :
    let db : Database :=
      ⟨[⟨7, some "10.1/a", none, none, some "", none, none, none, none⟩], .empty⟩
    let events : List Event := [
      .call (.insert [.new ⟨"10.1/A", "", "One", "", ""⟩ [⟨"ieee", none⟩],
        .new ⟨"", "", " ", "", "x"⟩ [], .new ⟨"", "", " ", "", "y"⟩ []]),
      .call (.review 8 (.notes "unsaved") false),
      .call (.insert [.new ⟨"10.1/b", "", "", "", ""⟩ [⟨"", none⟩]]),
      .dropReopen]
    let s := (ofDatabase db).run events
    db.NoDuplicates ∧ s.working.NoDuplicates ∧ s.committed.NoDuplicates ∧
      s.working.anonymous = [⟨"", "", " ", "", "x"⟩, ⟨"", "", " ", "", "y"⟩] := by
  intro db events s
  have hdb : db.NoDuplicates := List.pairwise_singleton _ _
  obtain ⟨⟨hworking, hcommitted⟩, hanonymous, -⟩ := noDuplicates_run db hdb events
  refine ⟨hdb, hworking, hcommitted, hanonymous.trans ?_⟩
  decide +kernel

end PaperTrail
