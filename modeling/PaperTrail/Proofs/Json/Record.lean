import PaperTrail.Json.Record

/-!
# What records hold

* `Json.Holds` : what a record holds for a field, said without the reader of records;
* `Json.slots?_given_iff` : this reader finds what a record holds.
-/

namespace PaperTrail.Json
variable {members : List (String × Json)} {items : List Json} {names : List String}
  {slots : List Slot} {name : String} {i : Nat} {v w : Json}

/-- A record holds a value for the field of a name: as the member of this name, or in an array as
the item with the number of the field. -/
inductive Holds (name : String) (i : Nat) : Json → Json → Prop
  | member {members : List (String × Json)} {w : Json} (h : (name, w) ∈ members) :
      Holds name i (.object members) w
  | item {items : List Json} {w : Json} (h : items[i]? = some w) : Holds name i (.array items) w

theorem holds_object_iff : Holds name i (.object members) w ↔ (name, w) ∈ members :=
  ⟨fun | .member h => h, .member⟩

theorem holds_array_iff : Holds name i (.array items) w ↔ items[i]? = some w :=
  ⟨fun | .item h => h, .item⟩

theorem mem_filter_name_iff :
    (name, w) ∈ members.filter (·.1 == name) ↔ (name, w) ∈ members := by
  rw [List.mem_filter, beq_self_eq_true, and_iff_left rfl]

theorem namedSlots?_given_iff (h : namedSlots? members names = some slots)
    (hname : names[i]? = some name) : slots[i]? = some (.given w) ↔ (name, w) ∈ members := by
  induction names generalizing slots i with
  | nil => cases hname
  | cons first names ih =>
    have hslots : ∃ slot rest, slots = slot :: rest ∧ namedSlots? members names = some rest ∧
        (slot = .given w ↔ (first, w) ∈ members) := by
      simp only [namedSlots?] at h
      split at h
      · next hfilter =>
        obtain ⟨rest, hrest, rfl⟩ := Option.map_eq_some_iff.1 h
        refine ⟨.leftOut, rest, rfl, hrest, iff_of_false nofun ?_⟩
        rw [← mem_filter_name_iff, hfilter]
        exact List.not_mem_nil
      · next m hfilter =>
        obtain ⟨rest, hrest, rfl⟩ := Option.map_eq_some_iff.1 h
        refine ⟨.given m.2, rest, rfl, hrest, ?_⟩
        have hm : m.1 = first := by
          have hmem : m ∈ members.filter (·.1 == first) := by
            rw [hfilter]
            exact List.mem_singleton_self m
          exact eq_of_beq (List.mem_filter.1 hmem).2
        rw [← mem_filter_name_iff, hfilter, List.mem_singleton, Slot.given.injEq, Prod.ext_iff, hm]
        simp only [true_and, eq_comm]
      · cases h
    obtain ⟨slot, rest, rfl, hrest, hslot⟩ := hslots
    cases i with
    | zero =>
      obtain rfl := Option.some.inj hname
      rw [List.getElem?_cons_zero, Option.some.injEq, hslot]
    | succ i =>
      rw [List.getElem?_cons_succ]
      exact ih hrest hname

theorem orderedSlots?_given_iff (h : orderedSlots? items names = some slots)
    (hname : names[i]? = some name) : slots[i]? = some (.given w) ↔ items[i]? = some w := by
  induction names generalizing items slots i with
  | nil => cases hname
  | cons first names ih =>
    cases items with
    | nil =>
      obtain rfl := Option.some.inj h
      rw [List.getElem?_map, hname]
      exact iff_of_false nofun nofun
    | cons item items =>
      obtain ⟨rest, hrest, rfl⟩ := Option.map_eq_some_iff.1 h
      cases i with
      | zero => simp only [List.getElem?_cons_zero, Option.some.injEq, Slot.given.injEq]
      | succ i =>
        rw [List.getElem?_cons_succ, List.getElem?_cons_succ]
        exact ih hrest hname

/-- The reader of records finds what a record holds for a field. -/
theorem slots?_given_iff (h : slots? names v = some slots) (hname : names[i]? = some name) :
    slots[i]? = some (.given w) ↔ Holds name i v w := by
  cases v with
  | object members => rw [holds_object_iff, namedSlots?_given_iff h hname]
  | array items => rw [holds_array_iff, orderedSlots?_given_iff h hname]
  | _ => cases h

end PaperTrail.Json
