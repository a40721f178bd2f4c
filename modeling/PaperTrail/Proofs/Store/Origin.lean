import PaperTrail.Proofs.Dictionary
import PaperTrail.Proofs.Text.Case
import PaperTrail.Store.Basic

/-!
# The origins of a database

* `UnfitName name` : the ways in which a name fails to be that of an origin;
  `isValidOrigin_eq_false_iff` says that there are no others, `isValidOrigin_congr` that the case of
  letters does not count;
* `Database.tableFor? key` : the table of an origin, and `name_get?_originsOf` : the origins found
  in a database are the ones with a table;
* `tableFor?_addTable`, `tableFor?_addLink` : how the tables of origins come about.
-/

namespace PaperTrail

/-! ## Valid names -/

/-- A name that no origin can have: it is blank, has a control character, or is the name of a table
with another use, the case of letters aside. -/
def UnfitName (name : String) : Prop :=
  Text.trim name = "" ∨ (∃ c ∈ name.toList, isControl c = true) ∨ Text.fold name = "main" ∨
    "sqlite_".toList <+: (Text.fold name).toList

theorem isValidOrigin_eq_false_iff {name : String} :
    isValidOrigin name = false ↔ UnfitName name := by
  have hmain : Text.fold mainTable = "main" := by decide
  rw [UnfitName, ← Text.isBlankText_iff, ← List.any_eq_true, ← List.isPrefixOf_iff_prefix,
    ← hmain, ← Text.sameFolded_iff, isValidOrigin, isOriginTable, reservedStart]
  cases Text.isBlankText name <;> cases name.toList.any isControl <;>
    cases Text.sameFolded name mainTable <;> simp

theorem isValidOrigin_iff {name : String} : isValidOrigin name = true ↔ ¬ UnfitName name := by
  rw [← isValidOrigin_eq_false_iff, Bool.not_eq_false]

theorem isControl_eq_false_of_le {c : Char} (hlo : 65 ≤ c.toNat) (hhi : c.toNat ≤ 122) :
    isControl c = false := by
  simp only [isControl, Bool.or_eq_false_iff, Bool.and_eq_false_iff, decide_eq_false_iff_not]
  omega

theorem isControl_toLower (c : Char) : isControl c.toLower = isControl c := by
  rcases Text.toLower_eq_self_or c with h | ⟨hlo, hhi, hval⟩
  · rw [h]
  · rw [isControl_eq_false_of_le hlo (by omega), isControl_eq_false_of_le (by omega) (by omega)]

theorem isValidOrigin_originKey (name : String) :
    isValidOrigin (originKey name) = isValidOrigin name := by
  have hblank : Text.isBlankText (Text.fold name) = Text.isBlankText name :=
    Text.isBlankText_fold name
  have hcontrol : (Text.fold name).toList.any isControl = name.toList.any isControl := by
    rw [Text.toList_fold, List.any_map]
    congr 1
    funext c
    exact isControl_toLower c
  have htable : isOriginTable (Text.fold name) = isOriginTable name := by
    rw [isOriginTable, isOriginTable, Text.sameFolded, Text.sameFolded, Text.fold_fold]
  rw [originKey, isValidOrigin, isValidOrigin, hblank, hcontrol, htable]

/-- Names that tell the same origin are valid together. -/
theorem isValidOrigin_congr {a b : String} (h : originKey a = originKey b) :
    isValidOrigin a = isValidOrigin b := by
  rw [← isValidOrigin_originKey a, h, isValidOrigin_originKey]

theorem OriginName.ofString_of_valid {name : String} (h : isValidOrigin name = true) :
    OriginName.ofString name = .ok ⟨name, h⟩ :=
  dif_pos h

theorem OriginName.ofString_of_invalid {name : String} (h : isValidOrigin name = false) :
    OriginName.ofString name = .error ⟨name⟩ :=
  dif_neg (by simp [h])

/-! ## The table of an origin -/

/-- The table of the origin with this key: of the tables with a valid name, the first one whose name
has the key. -/
def Database.tableFor? (db : Database) (key : String) : Option String :=
  db.tables.keys.find? fun name => isValidOrigin name && originKey name == key

theorem tableFor?_eq_some {db : Database} {key table : String} (h : db.tableFor? key = some table) :
    isValidOrigin table = true ∧ originKey table = key ∧ db.tables.contains table = true := by
  have hp := List.find?_some h
  rw [Bool.and_eq_true, beq_iff_eq] at hp
  exact ⟨hp.1, hp.2, Dictionary.mem_keys.1 (List.mem_of_find?_eq_some h)⟩

/-- An origin without a table is not the name of a table either. -/
theorem contains_eq_false_of_tableFor? {db : Database} {name : String}
    (hv : isValidOrigin name = true) (h : db.tableFor? (originKey name) = none) :
    db.tables.contains name = false := by
  rw [← Bool.not_eq_true, ← Dictionary.mem_keys]
  intro hmem
  have hname := List.find?_eq_none.1 h name hmem
  simp [hv] at hname

theorem tableFor?_congr {db db' : Database} (h : db'.tables = db.tables) (key : String) :
    db'.tableFor? key = db.tableFor? key := by
  rw [Database.tableFor?, h, Database.tableFor?]

theorem tableFor?_addTable {db : Database} {name : String} (hv : isValidOrigin name = true)
    (h : db.tableFor? (originKey name) = none) (key : String) :
    (db.addTable name).tableFor? key =
      if originKey name = key then some name else db.tableFor? key := by
  have hnew := contains_eq_false_of_tableFor? hv h
  obtain ⟨l₁, l₂, hkeys, hins⟩ := Dictionary.exists_keys_insert hnew ([] : List LinkRow)
  have hadd : (db.addTable name).tables = db.tables.insert name [] := by
    rw [Database.addTable, Dictionary.insertNew, hnew]
    rfl
  rw [Database.tableFor?, hadd, hins, List.find?_append, List.find?_cons]
  by_cases hk : originKey name = key
  · subst hk
    have hl₁ : l₁.find? (fun n => isValidOrigin n && originKey n == originKey name) = none := by
      rw [Database.tableFor?, hkeys, List.find?_append, Option.or_eq_none_iff] at h
      exact h.1
    rw [hl₁, if_pos rfl]
    simp [hv]
  · have hp : (isValidOrigin name && originKey name == key) = false := by simp [hk]
    rw [hp, if_neg hk, Database.tableFor?, hkeys, List.find?_append]

theorem tableFor?_addLink {db : Database} {table : String} (h : db.tables.contains table = true)
    (row : LinkRow) (key : String) :
    (db.addLink table row).tableFor? key = db.tableFor? key := by
  rw [Database.tableFor?, Database.addLink, Dictionary.keys_insert_of_contains h,
    Database.tableFor?]

/-! ## The origins found in a database -/

namespace Store

theorem name_get?_noteTable (known : Dictionary OriginName) (name key : String) :
    ((noteTable known name).get? key).map (·.name) = ((known.get? key).map (·.name)).or
      (if isValidOrigin name && originKey name == key then some name else none) := by
  unfold noteTable
  by_cases hv : isValidOrigin name = true
  · rw [OriginName.ofString_of_valid hv, hv, Bool.true_and]
    show ((known.insertNew (originKey name) ⟨name, hv⟩).get? key).map (·.name) = _
    rw [Dictionary.insertNew]
    by_cases hc : known.contains (originKey name) = true
    · rw [if_pos hc]
      by_cases hk : originKey name = key
      · obtain ⟨o, ho⟩ := Dictionary.contains_iff.1 hc
        rw [← hk, ho]
        rfl
      · simp [hk]
    · rw [if_neg hc, Dictionary.get?_insert]
      by_cases hk : key = originKey name
      · rw [Bool.not_eq_true, Dictionary.contains_eq_false_iff] at hc
        rw [if_pos hk, hk, hc]
        simp
      · simp [hk, Ne.symm hk]
  · rw [Bool.not_eq_true] at hv
    rw [OriginName.ofString_of_invalid hv, hv]
    simp

theorem name_get?_foldl_noteTable (names : List String) (known : Dictionary OriginName)
    (key : String) :
    ((names.foldl noteTable known).get? key).map (·.name) = ((known.get? key).map (·.name)).or
      (names.find? fun name => isValidOrigin name && originKey name == key) := by
  induction names generalizing known with
  | nil => simp
  | cons name names ih =>
    rw [List.foldl_cons, ih, name_get?_noteTable, Option.or_assoc, List.find?_cons]
    cases isValidOrigin name && originKey name == key <;> simp

/-- The origins found in a database are the ones with a table, under its name. -/
theorem name_get?_originsOf (db : Database) (key : String) :
    ((originsOf db).get? key).map (·.name) = db.tableFor? key := by
  rw [originsOf, name_get?_foldl_noteTable, Dictionary.get?_empty]
  rfl

theorem get?_originsOf_eq_some_iff {db : Database} {key : String} {o : OriginName} :
    (originsOf db).get? key = some o ↔ db.tableFor? key = some o.name := by
  rw [← name_get?_originsOf]
  cases h : (originsOf db).get? key with
  | none => simp
  | some o' =>
    cases o
    cases o'
    simp

theorem contains_originsOf (db : Database) (key : String) :
    (originsOf db).contains key = (db.tableFor? key).isSome := by
  rw [Dictionary.contains, ← name_get?_originsOf, Option.isSome_map]

/-- Known origins with the same names are the same. -/
theorem known_ext {d e : Dictionary OriginName}
    (h : ∀ key, (d.get? key).map (·.name) = (e.get? key).map (·.name)) : d = e := by
  refine Dictionary.ext_get? fun key => ?_
  refine Option.map_injective (f := fun o : OriginName => o.name) ?_ (h key)
  rintro ⟨a, ha⟩ ⟨b, hb⟩ hab
  cases hab
  rfl

theorem originsOf_congr {db db' : Database} (h : db'.tables = db.tables) :
    originsOf db' = originsOf db := by
  rw [originsOf, h, originsOf]

theorem originsOf_addTable {db : Database} {o : OriginName} (h : db.tableFor? o.key = none) :
    originsOf (db.addTable o.name) = (originsOf db).insert o.key o := by
  refine known_ext fun key => ?_
  have hkey : originKey o.name = o.key := rfl
  rw [name_get?_originsOf, tableFor?_addTable o.valid h, Dictionary.get?_insert, hkey]
  by_cases hk : key = o.key
  · rw [if_pos hk, if_pos hk.symm]
    rfl
  · rw [if_neg hk, if_neg (Ne.symm hk), name_get?_originsOf]

theorem originsOf_addLink {db : Database} {table : String} (h : db.tables.contains table = true)
    (row : LinkRow) : originsOf (db.addLink table row) = originsOf db := by
  refine known_ext fun key => ?_
  rw [name_get?_originsOf, name_get?_originsOf, tableFor?_addLink h]

end Store

end PaperTrail
