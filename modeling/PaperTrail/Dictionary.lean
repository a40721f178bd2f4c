/-!
# Dictionaries

* `Dictionary α` : values under text keys, in ascending order of the keys, each key once;
* `get?`, `insert`, `erase` : the value of a key, and the dictionary with or without one;
* `get?_insert`, `get?_erase` : what a change does to every key;
* `mem_entries_iff` : the entries are the pairs of a key and its value.
-/

namespace PaperTrail

/-- Values under text keys, in ascending order of the keys. -/
structure Dictionary (α : Type) where
  entries : List (String × α)
  sorted : entries.Pairwise fun a b => a.1 < b.1

namespace Dictionary
variable {α : Type}

instance [DecidableEq α] : DecidableEq (Dictionary α) := fun a b =>
  decidable_of_iff (a.entries = b.entries) (by cases a; cases b; simp)

def empty : Dictionary α := ⟨[], List.Pairwise.nil⟩

instance : Inhabited (Dictionary α) := ⟨empty⟩

def lookup (key : String) : List (String × α) → Option α
  | [] => none
  | (k, v) :: rest => if k = key then some v else lookup key rest

def insertEntry (key : String) (value : α) : List (String × α) → List (String × α)
  | [] => [(key, value)]
  | (k, v) :: rest =>
    if key < k then (key, value) :: (k, v) :: rest
    else if k = key then (key, value) :: rest
    else (k, v) :: insertEntry key value rest

theorem mem_insertEntry {key : String} {value : α} {es : List (String × α)} {e : String × α}
    (h : e ∈ insertEntry key value es) : e = (key, value) ∨ e ∈ es := by
  induction es with
  | nil => simpa [insertEntry] using h
  | cons d es ih =>
    obtain ⟨k, v⟩ := d
    simp only [insertEntry] at h
    split at h
    · simpa using h
    · split at h
      · rcases List.mem_cons.1 h with h | h
        · exact Or.inl h
        · exact Or.inr (List.mem_cons_of_mem _ h)
      · rcases List.mem_cons.1 h with h | h
        · exact Or.inr (h ▸ List.mem_cons_self)
        · exact (ih h).imp id (List.mem_cons_of_mem _)

theorem lt_of_not_lt_of_ne {a b : String} (h : ¬ a < b) (hne : b ≠ a) : b < a :=
  Std.lt_of_le_of_ne (String.not_lt.1 h) hne

theorem sorted_insertEntry {key : String} {value : α} {es : List (String × α)}
    (h : es.Pairwise fun a b => a.1 < b.1) :
    (insertEntry key value es).Pairwise fun a b => a.1 < b.1 := by
  induction es with
  | nil => simp [insertEntry]
  | cons d es ih =>
    obtain ⟨k, v⟩ := d
    rw [List.pairwise_cons] at h
    simp only [insertEntry]
    split
    · next hk =>
      rw [List.pairwise_cons, List.pairwise_cons]
      refine ⟨fun e he => ?_, h⟩
      rcases List.mem_cons.1 he with rfl | he
      · exact hk
      · exact String.lt_trans hk (h.1 e he)
    · next hk =>
      split
      · next e =>
        subst e
        exact List.pairwise_cons.2 ⟨h.1, h.2⟩
      · next hne =>
        rw [List.pairwise_cons]
        refine ⟨fun e he => ?_, ih h.2⟩
        rcases mem_insertEntry he with rfl | he
        · exact lt_of_not_lt_of_ne hk hne
        · exact h.1 e he

def get? (d : Dictionary α) (key : String) : Option α := lookup key d.entries

def contains (d : Dictionary α) (key : String) : Bool := (d.get? key).isSome

def insert (d : Dictionary α) (key : String) (value : α) : Dictionary α :=
  ⟨insertEntry key value d.entries, sorted_insertEntry d.sorted⟩

/-- The dictionary with a value under a key that has none yet. -/
def insertNew (d : Dictionary α) (key : String) (value : α) : Dictionary α :=
  if d.contains key then d else d.insert key value

def erase (d : Dictionary α) (key : String) : Dictionary α :=
  ⟨d.entries.filter fun e => e.1 ≠ key, d.sorted.sublist List.filter_sublist⟩

def keys (d : Dictionary α) : List String := d.entries.map (·.1)

def values (d : Dictionary α) : List α := d.entries.map (·.2)

/-- The dictionary of a list of entries, of which the last one of every key counts. -/
def ofList (es : List (String × α)) : Dictionary α := es.foldl (fun d e => d.insert e.1 e.2) empty

/-! ## What a change does to every key -/

@[simp] theorem get?_empty (key : String) : (empty : Dictionary α).get? key = none := rfl

theorem lookup_insertEntry (key k : String) (value : α) (es : List (String × α)) :
    lookup k (insertEntry key value es) = if k = key then some value else lookup k es := by
  induction es with
  | nil =>
    by_cases h : k = key
    · simp [insertEntry, lookup, h]
    · simp [insertEntry, lookup, h, Ne.symm h]
  | cons e es ih =>
    obtain ⟨k', v⟩ := e
    simp only [insertEntry]
    split
    · by_cases h : k = key
      · simp [lookup, h]
      · simp [lookup, h, Ne.symm h]
    · split
      · next e =>
        subst e
        by_cases h : k = k'
        · simp [lookup, h]
        · simp [lookup, h, Ne.symm h]
      · next hne =>
        by_cases h : k' = k
        · subst h; simp [lookup, hne]
        · simp [lookup, h, ih]

theorem get?_insert (d : Dictionary α) (key k : String) (value : α) :
    (d.insert key value).get? k = if k = key then some value else d.get? k :=
  lookup_insertEntry key k value d.entries

theorem lookup_filter_ne (key k : String) (es : List (String × α)) :
    lookup k (es.filter fun e => e.1 ≠ key) = if k = key then none else lookup k es := by
  induction es with
  | nil => simp [lookup]
  | cons e es ih =>
    obtain ⟨k', v⟩ := e
    rw [List.filter_cons]
    by_cases h : k' = key
    · rw [if_neg (by simp [h]), ih]
      by_cases hk : k = key
      · rw [if_pos hk, if_pos hk]
      · rw [if_neg hk, if_neg hk, lookup, if_neg fun e => hk (e.symm.trans h)]
    · rw [if_pos (by simp [h]), lookup, ih, lookup]
      by_cases hk : k = key
      · subst hk
        simp [h]
      · rw [if_neg hk, if_neg hk]

theorem get?_erase (d : Dictionary α) (key k : String) :
    (d.erase key).get? k = if k = key then none else d.get? k :=
  lookup_filter_ne key k d.entries

theorem mem_entries_of_lookup {key : String} {value : α} {es : List (String × α)}
    (h : lookup key es = some value) : (key, value) ∈ es := by
  induction es with
  | nil => cases h
  | cons e es ih =>
    simp only [lookup] at h
    split at h
    · next e' => subst e'; obtain rfl := Option.some.inj h; exact List.mem_cons_self
    · exact List.mem_cons_of_mem _ (ih h)

theorem lookup_of_mem {key : String} {value : α} {es : List (String × α)}
    (hs : es.Pairwise fun a b => a.1 < b.1) (h : (key, value) ∈ es) :
    lookup key es = some value := by
  induction es with
  | nil => cases h
  | cons e es ih =>
    rw [List.pairwise_cons] at hs
    rcases List.mem_cons.1 h with rfl | h
    · simp [lookup]
    · have hne : e.1 ≠ key := fun he =>
        String.lt_irrefl key (by have := hs.1 _ h; rwa [he] at this)
      simp [lookup, hne, ih hs.2 h]

theorem mem_entries_iff {d : Dictionary α} {key : String} {value : α} :
    (key, value) ∈ d.entries ↔ d.get? key = some value :=
  ⟨lookup_of_mem d.sorted, mem_entries_of_lookup⟩

end Dictionary

end PaperTrail
