import PaperTrail.Proofs.Load
import PaperTrail.Proofs.Query.Description

/-!
# By which names a load knows its vendors

A load looks a vendor up twice by the name that it is given: the search syntax under any spelling of
the vendor's name, blanks and the case of letters aside (`Vendor.ofName?_eq_some_iff`), and the
connector under exactly the name in the registry. A spelling that only the first of the two knows ends
the load: the query is compiled, and there is no connector for it (`unknownVendor_of_spelling`).
-/

namespace PaperTrail

namespace Vendor

theorem name_injective : Function.Injective name := by
  intro v w h
  cases v <;> cases w <;> first | rfl | exact absurd h (by decide)

theorem ofName?_eq_some_iff {s : String} {v : Vendor} :
    ofName? s = some v ↔ Text.fold (Text.trim s) = v.name := by
  have hfold : ∀ w : Vendor, Text.fold w.name = w.name := by
    intro w
    cases w <;> decide
  unfold ofName? Text.sameFolded
  simp only [hfold]
  refine Description.find?_name_eq_some_iff name_injective fun w => ?_
  cases w <;> decide

theorem ofName?_name (v : Vendor) : ofName? v.name = some v := by
  cases v <;> decide

end Vendor

namespace Registry
variable {σ : Type} {r : Registry σ} {name : String}

theorem build_of_contains (h : r.contains name = true) :
    ∃ f, r.factories.get? name = some f ∧ ∀ c text, r.build name c text = f c text := by
  obtain ⟨f, hf⟩ := Option.isSome_iff_exists.1 h
  refine ⟨f, hf, fun c text => ?_⟩
  unfold build
  rw [hf]

theorem build_of_not_contains (h : r.contains name = false) (c : Config) (text : String) :
    r.build name c text = .error (.config (.unknownVendor name)) := by
  unfold build
  rw [Dictionary.contains_eq_false_iff.1 h]

end Registry

theorem compileFor_of_ofName? {s : String} {v : Vendor} (h : Vendor.ofName? s = some v) (q : Query) :
    compileFor q s = .ok (v.grammar.compile q) := by
  unfold compileFor
  rw [h]

namespace Load
variable {σ : Type} {srv : Server} {r : Registry σ} {c : Config} {q : Query} {s : String} {v : Vendor}

/-- A registry of vendors has no other spelling of their names. -/
theorem contains_iff_eq_name (hv : Vendor.ofName? s = some v) (hr : r.contains v.name = true)
    (hnames : ∀ name ∈ r.names, ∃ w : Vendor, w.name = name) : r.contains s = true ↔ s = v.name := by
  constructor
  · intro h
    obtain ⟨w, rfl⟩ := hnames s (Dictionary.mem_keys.2 h)
    rw [Vendor.ofName?_name, Option.some_inj] at hv
    rw [hv]
  · rintro rfl
    exact hr

theorem fails_of_not_contains (hv : Vendor.ofName? s = some v) (hr : r.contains s = false)
    (store : Store) (sent : List Request) :
    Fails srv r c q s store sent (.connector s (.config (.unknownVendor s))) sent :=
  .fetch (.unbuilt hv (Registry.build_of_not_contains hr c _))

/-- What becomes of a spelling `s` of the name of a vendor that a registry has: of the name, that is,
with blanks around it and letters of any case. Its query is compiled as under the name itself. Under
the name the vendor's connector is built. Under a spelling that the registry does not have the load
ends when it comes to it, whatever is behind: the error is that there is no vendor `s`, nothing is
asked, and the store has what the vendors before brought. Where the registry has vendors' names only,
this is every spelling but the name. -/
theorem unknownVendor_of_spelling (hv : Vendor.ofName? s = some v) (hr : r.contains v.name = true)
    (db : Database) (events : List Store.Event) :
    let store := (Store.ofDatabase db).run events
    Text.fold (Text.trim s) = v.name ∧
    (∀ q, compileFor q s = compileFor q v.name) ∧
    (∃ f, r.factories.get? v.name = some f ∧
      ∀ c q, connectorFor r c q v.name = (f c (v.grammar.compile q)).mapError (.connector v.name)) ∧
    (r.contains s = false → ∀ (srv : Server) (c : Config) (q : Query) (done : List String)
      (batches : List (List Entry)) (reports : List Report) (sent sent' : List Request),
      Stored srv r c q done store sent batches reports sent' → ∀ later : List String,
        Settles (loading srv r c q (done ++ s :: later) store sent)
          (takeIn store batches, .error (.connector s (.config (.unknownVendor s)))) sent') ∧
    ((∀ name ∈ r.names, ∃ w : Vendor, w.name = name) → (r.contains s = true ↔ s = v.name)) := by
  intro store
  obtain ⟨f, hf, hbuild⟩ := Registry.build_of_contains hr
  refine ⟨Vendor.ofName?_eq_some_iff.1 hv, fun q => ?_, ⟨f, hf, fun c q => ?_⟩, ?_,
    contains_iff_eq_name hv hr⟩
  · rw [compileFor_of_ofName? hv, compileFor_of_ofName? v.ofName?_name]
  · rw [connectorFor_of_known v.ofName?_name, hbuild]
  · intro hs srv c q done batches reports sent sent' hstored later
    have hkept := sound_takeIn (Store.sound_run db events) batches
    rw [← foldr_addReport_error reports]
    exact hstored.settles ((fails_of_not_contains hv hs _ _).settles hkept later)

def onePaper : Entry := .new { Resource.empty with title := "A" } [⟨"web", none⟩]

def oneVendor : Registry (List Page) :=
  Registry.empty.register Vendor.ieee.name fun _ _ => .ok (scripted "ieee" [.ok [onePaper]])

/-- The vendor under its name, and then once more in capitals. -/
theorem unknownVendor_of_spelling_capitals :
    let q : Query := ⟨.and, []⟩
    let srv : Server := fun _ _ => .failed
    let store := Store.ofDatabase .empty
    let asked := List.replicate 2 (scripted.request "ieee")
    Vendor.ofName? "IEEE" = some .ieee ∧ oneVendor.contains Vendor.ieee.name = true ∧
      oneVendor.contains "IEEE" = false ∧ compileFor q "IEEE" = compileFor q "ieee" ∧
      Settles (loading srv oneVendor .default q ["ieee"] store [])
        (takeIn store [[onePaper]], .ok ⟨1, 0, 1⟩) asked ∧
      Settles (loading srv oneVendor .default q ["ieee", "IEEE", "scopus"] store [])
        (takeIn store [[onePaper]],
          .error (.connector "IEEE" (.config (.unknownVendor "IEEE")))) asked := by
  intro q srv store asked
  have hv : Vendor.ofName? "IEEE" = some .ieee := by decide
  have hr : oneVendor.contains Vendor.ieee.name = true := by decide
  obtain ⟨-, hcompile, -, hends, hnames⟩ := unknownVendor_of_spelling hv hr .empty []
  have hspelling : oneVendor.contains "IEEE" = false := by
    rw [← Bool.not_eq_true, hnames]
    · decide
    · intro name hname
      exact ⟨.ieee, (List.mem_singleton.1 hname).symm⟩
  have hieee : GoesIn srv oneVendor .default q "ieee" store [] [onePaper] ⟨1, 0, 1⟩ asked := by
    have hfetched : Fetched srv oneVendor .default q "ieee" [] (.ok [[onePaper]].flatten) asked :=
      .complete (by decide : Vendor.ofName? "ieee" = some .ieee) rfl
        (.page rfl (List.cons_ne_nil _ _) (.empty rfl))
    exact ⟨hfetched, by decide +kernel⟩
  have hstored := Stored.cons hieee (.nil _ _)
  have hdone : Settles (loading srv oneVendor .default q [] (takeIn store [[onePaper]]) asked)
      (takeIn store [[onePaper]], .ok Report.empty) asked := settles_const _ _
  exact ⟨hv, hr, hspelling, hcompile q, hieee.settles hdone,
    hends hspelling srv .default q ["ieee"] _ _ _ _ hstored ["scopus"]⟩

/-- The connector of a vendor is not found under every spelling that has a search syntax. -/
theorem not_loads_spelling : ¬ ∀ (σ : Type) (r : Registry σ) (s : String) (v : Vendor),
    Vendor.ofName? s = some v → r.contains v.name = true →
    ∀ (srv : Server) (c : Config) (q : Query) (store : Store) (sent : List Request),
      (∀ store' report sent',
        Settles (loading srv r c q [v.name] store sent) (store', .ok report) sent' →
          Settles (loading srv r c q [s] store sent) (store', .ok report) sent') ∧
      ∀ store' sent', ¬ Settles (loading srv r c q [s] store sent)
        (store', .error (.connector s (.config (.unknownVendor s)))) sent' := by
  intro h
  have hv : Vendor.ofName? "IEEE" = some .ieee := by decide
  have hfails : Fails (fun _ _ => .failed) oneVendor .default ⟨.and, []⟩ "IEEE" (.ofDatabase .empty)
      [] (.connector "IEEE" (.config (.unknownVendor "IEEE"))) [] :=
    fails_of_not_contains hv (by decide) _ _
  exact (h _ oneVendor "IEEE" .ieee hv (by decide) _ _ _ _ _).2 _ _
    (hfails.settles (Store.sound_ofDatabase .empty) [])

end Load

end PaperTrail
