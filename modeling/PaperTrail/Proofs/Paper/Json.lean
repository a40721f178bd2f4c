import PaperTrail.Paper.Json
import PaperTrail.Proofs.Json.RoundTrip

/-!
# Reading entries that were written

* `Number.Fits` : the numbers that reviews and papers can have;
* `namedSlots?_cons_of_not_mem` : further members do not change what the fields of a record are;
* `Entry.ofJson?_members` : an entry is read back from its members, whatever stands before them;
* `Entry.ofText?_text`, `tells_listingLine` : the same on the text of an entry, and on what a listing
  says of a paper, which is one line.
-/

namespace PaperTrail

/-- Whether a number is one of 64 bits with a sign. -/
def Number.Fits (i : Int) : Prop := Number.minInt ≤ i ∧ i ≤ Number.maxInt

instance (i : Int) : Decidable (Number.Fits i) := inferInstanceAs (Decidable (_ ∧ _))

/-! ## Records -/

namespace Json

theorem namedSlots?_cons_of_not_mem {m : String × Json} {names : List String} (h : m.1 ∉ names)
    (members : List (String × Json)) :
    namedSlots? (m :: members) names = namedSlots? members names := by
  induction names with
  | nil => rfl
  | cons name names ih =>
    rw [List.mem_cons, not_or] at h
    have hname : (m.1 == name) = false := beq_eq_false_iff_ne.2 h.1
    rw [namedSlots?, List.filter_cons_of_neg (by simp [hname]), ih h.2, namedSlots?]

theorem list?_ofList {α : Type} {f : α → Json} {read : Json → Option α} {xs : List α}
    (h : ∀ x ∈ xs, read (f x) = some x) : list? read (ofList f xs) = some xs := by
  show (xs.map f).mapM read = some xs
  induction xs with
  | nil => rfl
  | cons x xs ih =>
    rw [List.forall_mem_cons] at h
    rw [List.map_cons, List.mapM_cons, h.1, ih h.2]
    rfl

theorem intBetween?_int {i least greatest : Int} (h : least ≤ i ∧ i ≤ greatest) :
    intBetween? least greatest (.int i) = some i := by
  simp [intBetween?, int, int?, h.1, h.2]

theorem isExact_int {i : Int} (h : Number.Fits i) : (int i).isExact = true := by
  have hbounds : Number.maxInt ≤ Number.maxUnsigned := by decide
  simp only [int, isExact, Bool.and_eq_true, decide_eq_true_eq]
  exact ⟨h.1, Int.le_trans h.2 hbounds⟩

theorem areExact_map {α : Type} {f : α → Json} (h : ∀ x, (f x).isExact = true) (xs : List α) :
    areExact (xs.map f) = true := by
  induction xs with
  | nil => rfl
  | cons x xs ih => rw [List.map_cons, areExact, h x, ih]; rfl

end Json

/-! ## Parts of an entry -/

theorem Resource.ofJson?_toJson (r : Resource) : Resource.ofJson? r.toJson = some r := rfl

theorem Source.ofJson?_toJson (s : Source) : Source.ofJson? s.toJson = some s := by
  obtain ⟨origin, _ | link⟩ := s <;> rfl

theorem Review.ofJson?_toJson {r : Review} (h : Number.Fits r.rejected) :
    Review.ofJson? r.toJson = some r := by
  have hslots : r.toJson.slots? ["rejected", "save_for_later", "notes"] =
      some [.given (.int r.rejected), .given (.bool r.saveForLater), .given (.string r.notes)] := rfl
  have hrejected : Json.intBetween? Number.minInt Number.maxInt (.int r.rejected) = some r.rejected :=
    Json.intBetween?_int h
  simp only [Review.ofJson?, hslots, Option.bind_eq_bind, Option.bind_some, Json.Slot.required,
    hrejected]
  rfl

namespace Entry

/-- An entry is read back from its members, whatever other members stand before them. -/
theorem ofJson?_members {e : Entry} (h : Number.Fits e.review.rejected)
    (before : List (String × Json)) (hbefore : ∀ m ∈ before, m.1 ∉ ["resource", "sources", "state"]) :
    ofJson? (.object (before ++ e.members)) = some e := by
  have hslots : (Json.object (before ++ e.members)).slots? ["resource", "sources", "state"] =
      some [.given e.resource.toJson, .given (Json.ofList Source.toJson e.sources),
        .given e.review.toJson] := by
    induction before with
    | nil => rfl
    | cons m before ih =>
      rw [List.forall_mem_cons] at hbefore
      rw [List.cons_append, Json.slots?, Json.namedSlots?_cons_of_not_mem hbefore.1]
      exact ih hbefore.2
  have hsources : Json.list? Source.ofJson? (Json.ofList Source.toJson e.sources) = some e.sources :=
    Json.list?_ofList fun s _ => Source.ofJson?_toJson s
  simp only [ofJson?, hslots, Option.bind_eq_bind, Option.bind_some, Json.Slot.required,
    Json.Slot.orDefault, Resource.ofJson?_toJson, hsources, Review.ofJson?_toJson h]
  rfl

theorem membersExact_members {e : Entry} (h : Number.Fits e.review.rejected) :
    Json.membersExact e.members = true := by
  have hsources : (Json.ofList Source.toJson e.sources).isExact = true :=
    Json.areExact_map (fun s => by obtain ⟨origin, _ | link⟩ := s <;> rfl) e.sources
  have hreview : e.review.toJson.isExact = true := by
    simp only [Review.toJson, Json.isExact, Json.membersExact, Json.isExact_int h, Bool.and_self]
  simp only [members, Json.membersExact, hsources, hreview, Bool.and_self, Bool.and_true]
  rfl

/-- Reading the text of an entry gives the entry. -/
theorem ofText?_text {e : Entry} (h : Number.Fits e.review.rejected) : ofText? e.text = some e := by
  have hread : Json.ofString? e.text = some e.toJson := Json.ofString?_compact (membersExact_members h)
  rw [ofText?, hread, Option.bind_some]
  exact ofJson?_members h [] nofun

end Entry

/-! ## Lines of a listing -/

/-- A text is one line that tells a paper: read as JSON it has the number of the paper, and it is read
as the entry of the paper. -/
structure Tells (paper : Int × Entry) (line : String) : Prop where
  no_break : '\n' ∉ line.toList
  number : ∃ v, Json.ofString? line = some v ∧ v.get? "id" = some (.int paper.1)
  entry : Entry.ofText? line = some paper.2

theorem tells_listingLine {id : Int} {e : Entry} (hid : Number.Fits id)
    (h : Number.Fits e.review.rejected) : Tells (id, e) (listingLine id e) := by
  have hexact : (Json.object (("id", .int id) :: e.members)).isExact = true := by
    rw [Json.isExact, Json.membersExact, Json.isExact_int hid, Entry.membersExact_members h]
    rfl
  have hread := Json.ofString?_compact hexact
  have hother : "id" ∉ ["resource", "sources", "state"] := by decide
  refine ⟨fun hbreak => ?_, ⟨_, hread, rfl⟩, ?_⟩
  · exact absurd (Json.oneLine_compact _ hexact _ hbreak) (by decide)
  · rw [Entry.ofText?, listingLine, hread, Option.bind_some]
    exact Entry.ofJson?_members h [("id", .int id)] (List.forall_mem_singleton.2 hother)

end PaperTrail
