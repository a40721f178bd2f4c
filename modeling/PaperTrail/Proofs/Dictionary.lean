import Mathlib.Data.List.Sort
import PaperTrail.Dictionary

/-!
# Dictionaries as functions of their keys

* `ext_get?` : a dictionary is determined by the values of its keys;
* `get?_foldl_erase` : what remains when several keys are erased;
* `keys_insert_of_contains`, `exists_keys_insert` : a change of a value keeps the keys, a new key
  goes between two of them.
-/

namespace PaperTrail.Dictionary
variable {α : Type}

theorem ext_get? {d e : Dictionary α} (h : ∀ key, d.get? key = e.get? key) : d = e := by
  have hasymm : Std.Asymm fun a b : String × α => a.1 < b.1 := ⟨fun _ _ => String.lt_asymm⟩
  have hentries : d.entries = e.entries := by
    refine List.Pairwise.eq_of_mem_iff d.sorted e.sorted ?_
    rintro ⟨key, value⟩
    rw [mem_entries_iff, mem_entries_iff, h key]
  cases d
  cases e
  simpa using hentries

theorem contains_iff {d : Dictionary α} {key : String} :
    d.contains key = true ↔ ∃ value, d.get? key = some value := by
  rw [contains, Option.isSome_iff_exists]

theorem contains_eq_false_iff {d : Dictionary α} {key : String} :
    d.contains key = false ↔ d.get? key = none := by
  rw [contains, Option.isSome_eq_false_iff, Option.isNone_iff_eq_none]

theorem get?_foldl_erase (keys : List String) (d : Dictionary α) (key : String) :
    (keys.foldl erase d).get? key = if key ∈ keys then none else d.get? key := by
  induction keys generalizing d with
  | nil => simp
  | cons k keys ih =>
    rw [List.foldl_cons, ih, get?_erase]
    by_cases hmem : key ∈ keys
    · rw [if_pos hmem, if_pos (List.mem_cons_of_mem _ hmem)]
    · by_cases hk : key = k
      · rw [if_neg hmem, if_pos hk, if_pos (by rw [hk]; exact List.mem_cons_self)]
      · rw [if_neg hmem, if_neg hk, if_neg (by simp [hk, hmem])]

/-- Erasing a key that was new undoes its insertion, whatever else is erased before. -/
theorem foldl_erase_insert {d : Dictionary α} {key : String} (h : d.contains key = false)
    (keys : List String) (value : α) :
    (keys ++ [key]).foldl erase (d.insert key value) = keys.foldl erase d := by
  refine ext_get? fun k => ?_
  rw [get?_foldl_erase, get?_foldl_erase, get?_insert]
  by_cases hk : k = key
  · subst hk
    rw [if_pos (by simp), contains_eq_false_iff.1 h, ite_self]
  · rw [if_neg hk]
    simp [hk]

/-! ## Keys -/

theorem mem_keys {d : Dictionary α} {key : String} :
    key ∈ d.keys ↔ d.contains key = true := by
  rw [contains_iff, keys, List.mem_map]
  constructor
  · rintro ⟨⟨k, v⟩, hmem, rfl⟩
    exact ⟨v, mem_entries_iff.1 hmem⟩
  · rintro ⟨v, hv⟩
    exact ⟨(key, v), mem_entries_iff.2 hv, rfl⟩

theorem keys_sorted (d : Dictionary α) : d.keys.Pairwise (· < ·) :=
  List.pairwise_map.2 d.sorted

theorem nodup_keys (d : Dictionary α) : d.keys.Nodup := by
  refine d.keys_sorted.imp ?_
  rintro a b hlt rfl
  exact String.lt_irrefl _ hlt

theorem contains_insert (d : Dictionary α) (key k : String) (value : α) :
    (d.insert key value).contains k = (decide (k = key) || d.contains k) := by
  rw [contains, get?_insert, contains]
  by_cases hk : k = key <;> simp [hk]

theorem keys_insert_of_contains {d : Dictionary α} {key : String} (h : d.contains key = true)
    (value : α) : (d.insert key value).keys = d.keys := by
  refine List.Pairwise.eq_of_mem_iff (keys_sorted _) (keys_sorted _) fun k => ?_
  rw [mem_keys, mem_keys, contains_insert]
  by_cases hk : k = key
  · subst hk
    simp [h]
  · simp [hk]

theorem exists_insertEntry {key : String} (value : α) {es : List (String × α)}
    (h : lookup key es = none) :
    ∃ l₁ l₂, es = l₁ ++ l₂ ∧ insertEntry key value es = l₁ ++ (key, value) :: l₂ := by
  induction es with
  | nil => exact ⟨[], [], rfl, rfl⟩
  | cons e es ih =>
    obtain ⟨k, v⟩ := e
    simp only [lookup] at h
    split at h
    · cases h
    · next hne =>
      simp only [insertEntry]
      split
      · exact ⟨[], (k, v) :: es, rfl, rfl⟩
      · obtain ⟨l₁, l₂, hes, hins⟩ := ih h
        refine ⟨(k, v) :: l₁, l₂, ?_, ?_⟩
        · rw [hes, List.cons_append]
        · rw [hins, List.cons_append]

/-- A new key goes between two of the old ones. -/
theorem exists_keys_insert {d : Dictionary α} {key : String} (h : d.contains key = false)
    (value : α) : ∃ l₁ l₂, d.keys = l₁ ++ l₂ ∧ (d.insert key value).keys = l₁ ++ key :: l₂ := by
  obtain ⟨l₁, l₂, hes, hins⟩ := exists_insertEntry value (contains_eq_false_iff.1 h)
  refine ⟨l₁.map (·.1), l₂.map (·.1), ?_, ?_⟩
  · rw [keys, hes, List.map_append]
  · show (insertEntry key value d.entries).map (·.1) = _
    rw [hins, List.map_append, List.map_cons]

end PaperTrail.Dictionary
