import PaperTrail.Config.Basic
import PaperTrail.Proofs.Dictionary
import PaperTrail.Proofs.Text.Spelling
import PaperTrail.Proofs.Text.Split

/-!
# Overrides

* `Sets` : how a text says that a parameter of a vendor is set to a value;
* `parseOverride?_eq_some_iff` : exactly such texts are accepted;
* `SameButFor` : two configurations that differ in one parameter at most;
* `overridden` : a configuration after an override, accepted or refused, and
  `vendorParam_foldl_overridden` : what a parameter reads as after many of them;
* `overrides_write_one` : an accepted override writes one parameter, a refused one writes nothing.
-/

namespace PaperTrail.Config

/-! ## What is accepted -/

/-- The text `param` sets the parameter `key` of `vendor` to `value`: before its first equals sign is
exactly one point, and the two sides of this point are, but for blanks around them, the names. -/
def Sets (param vendor key value : String) : Prop :=
  ∃ left right : String, param = (left ++ "." ++ right) ++ "=" ++ value ∧
    '=' ∉ (left ++ "." ++ right).toList ∧ '.' ∉ left.toList ∧ '.' ∉ right.toList ∧
    Text.isBlankText left = false ∧ Text.isBlankText right = false ∧
    vendor = Text.trim left ∧ key = Text.trim right

/-- What the program keeps of the two sides of a point. -/
theorem names_eq_some_iff {left right value vendor key value' : String} :
    (if (Text.trim left).isEmpty || (Text.trim right).isEmpty ||
        (Text.trim right).toList.contains '.' then none
      else some (Text.trim left, Text.trim right, value)) = some (vendor, key, value') ↔
    '.' ∉ right.toList ∧ Text.isBlankText left = false ∧ Text.isBlankText right = false ∧
      vendor = Text.trim left ∧ key = Text.trim right ∧ value' = value := by
  have hempty : ∀ s, (Text.trim s).isEmpty = Text.isBlankText s := by
    intro s
    rw [Bool.eq_iff_iff, Text.isBlankText_iff, String.isEmpty_iff]
  have hpoint : (Text.trim right).toList.contains '.' = right.toList.contains '.' := by
    rw [Bool.eq_iff_iff, List.contains_iff_mem, List.contains_iff_mem, Text.toList_trim,
      Text.mem_trimChars (by decide)]
  rw [hempty, hempty, hpoint]
  split
  · next h =>
    simp only [Bool.or_eq_true, List.contains_iff_mem] at h
    refine iff_of_false nofun ?_
    rintro ⟨hright, hl, hr, -⟩
    simp only [hl, hr, Bool.false_eq_true, false_or] at h
    exact hright h
  · next h =>
    simp only [Bool.or_eq_true, List.contains_iff_mem, not_or, Bool.not_eq_true] at h
    simp only [Option.some.injEq, Prod.mk.injEq, h.1.1, h.1.2, h.2, not_false_eq_true, true_and]
    exact and_congr eq_comm (and_congr eq_comm eq_comm)

theorem parseOverride?_eq_some_iff {param vendor key value : String} :
    parseOverride? param = some (vendor, key, value) ↔ Sets param vendor key value := by
  simp only [parseOverride?, Option.bind_eq_bind, Option.bind_eq_some_iff, Prod.exists,
    Text.cut?_eq_some_iff, names_eq_some_iff]
  constructor
  · rintro ⟨path, value', ⟨rfl, hpath⟩, left, right, ⟨rfl, hleft⟩, hright, hl, hr, hv, hk, rfl⟩
    exact ⟨left, right, rfl, hpath, hleft, hright, hl, hr, hv, hk⟩
  · rintro ⟨left, right, rfl, hpath, hleft, hright, hl, hr, hv, hk⟩
    exact ⟨_, value, ⟨rfl, hpath⟩, left, right, ⟨rfl, hleft⟩, hright, hl, hr, hv, hk, rfl⟩

variable {c : Config} {param vendor key value : String}

theorem applyOverride_of_sets (h : Sets param vendor key value) :
    c.applyOverride param = .ok (c.setParam vendor key value) := by
  rw [applyOverride, parseOverride?_eq_some_iff.2 h]

theorem applyOverride_of_not_sets (h : ∀ vendor key value, ¬ Sets param vendor key value) :
    c.applyOverride param = .error (.invalidOverride param) := by
  rw [applyOverride]
  split
  · next hparse => exact absurd (parseOverride?_eq_some_iff.1 hparse) (h _ _ _)
  · rfl

/-! ## What is written -/

/-- The configurations `c` and `c'` are the same, but for the parameter `key` of `vendor`. -/
structure SameButFor (vendor key : String) (c c' : Config) : Prop where
  dataDir : c'.dataDir = c.dataDir
  database? : c'.database? = c.database?
  queryFile? : c'.queryFile? = c.queryFile?
  vendors : ∀ name, c'.vendors.contains name = (decide (name = vendor) || c.vendors.contains name)
  params : ∀ name k, (name, k) ≠ (vendor, key) → c'.rawParam? name k = c.rawParam? name k

theorem rawParam?_setParam (name k : String) :
    (c.setParam vendor key value).rawParam? name k =
      if name = vendor ∧ k = key then some (.string value) else c.rawParam? name k := by
  simp only [rawParam?, setParam, Dictionary.get?_insert]
  by_cases hname : name = vendor
  · subst hname
    rw [if_pos rfl, Option.bind_some, Dictionary.get?_insert]
    by_cases hk : k = key
    · rw [if_pos hk, if_pos ⟨rfl, hk⟩]
    · rw [if_neg hk, if_neg fun h => hk h.2]
      cases c.vendors.get? name <;> rfl
  · rw [if_neg hname, if_neg fun h => hname h.1]

theorem sameButFor_setParam : SameButFor vendor key c (c.setParam vendor key value) where
  dataDir := rfl
  database? := rfl
  queryFile? := rfl
  vendors name := Dictionary.contains_insert ..
  params name k hne := by
    rw [rawParam?_setParam, if_neg]
    rintro ⟨rfl, rfl⟩
    exact hne rfl

/-- The text that a parameter reads as: its value without the blanks around it, if any is left. -/
def readAs (value : String) : Option String :=
  if Text.isBlankText value then none else some (Text.trim value)

theorem vendorParam_of_rawParam? (h : c.rawParam? vendor key = some (.string value)) :
    c.vendorParam vendor key = readAs value := by
  simp only [vendorParam, h, Option.bind_some, Value.scalarText?, readAs, Text.isBlankText_iff,
    String.isEmpty_iff]

theorem vendorParam_setParam_self : (c.setParam vendor key value).vendorParam vendor key =
    readAs value := by
  refine vendorParam_of_rawParam? ?_
  rw [rawParam?_setParam, if_pos ⟨rfl, rfl⟩]

theorem SameButFor.vendorParam {c' : Config} (h : SameButFor vendor key c c') {name k : String}
    (hne : (name, k) ≠ (vendor, key)) : c'.vendorParam name k = c.vendorParam name k := by
  rw [Config.vendorParam, h.params name k hne, Config.vendorParam]

theorem validate_eq_ok_iff :
    c.validate = .ok () ↔ Text.isBlankText c.dataDir = false ∧
      c.database?.any Text.isBlankText = false ∧ c.queryFile?.any Text.isBlankText = false ∧
      ∀ name, c.vendors.contains name = true → Text.isBlankText name = false := by
  have hkeys : c.vendors.keys.any Text.isBlankText = false ↔
      ∀ name, c.vendors.contains name = true → Text.isBlankText name = false := by
    simp only [List.any_eq_false, Dictionary.mem_keys, Bool.not_eq_true]
  rw [← hkeys, validate]
  cases Text.isBlankText c.dataDir <;> cases c.database?.any Text.isBlankText <;>
    cases c.queryFile?.any Text.isBlankText <;> cases c.vendors.keys.any Text.isBlankText <;> simp

theorem SameButFor.validate {c' : Config} (h : SameButFor vendor key c c')
    (hvendor : Text.isBlankText vendor = false) (hc : c.validate = .ok ()) :
    c'.validate = .ok () := by
  obtain ⟨hdir, hdatabase, hquery, hnames⟩ := validate_eq_ok_iff.1 hc
  refine validate_eq_ok_iff.2 ⟨?_, ?_, ?_, fun name hname => ?_⟩
  · rwa [h.dataDir]
  · rwa [h.database?]
  · rwa [h.queryFile?]
  · rw [h.vendors, Bool.or_eq_true, decide_eq_true_eq] at hname
    rcases hname with rfl | hname
    · exact hvendor
    · exact hnames name hname

theorem Sets.isBlankText_vendor (h : Sets param vendor key value) :
    Text.isBlankText vendor = false := by
  obtain ⟨left, right, -, -, -, -, hl, -, rfl, -⟩ := h
  rw [Text.isBlankText_trim, hl]

/-! ## Overrides in turn -/

/-- The configuration after an override; a refused one leaves it as it is. -/
def overridden (c : Config) (param : String) : Config :=
  match c.applyOverride param with
  | .ok c' => c'
  | .error _ => c

theorem overridden_of_sets (h : Sets param vendor key value) :
    c.overridden param = c.setParam vendor key value := by
  rw [overridden, applyOverride_of_sets h]

theorem overridden_of_not_sets (h : ∀ vendor key value, ¬ Sets param vendor key value) :
    c.overridden param = c := by
  rw [overridden, applyOverride_of_not_sets h]

/-- An override of other parameters, or a refused one, does not change how a parameter reads. -/
theorem vendorParam_overridden (h : ∀ value, ¬ Sets param vendor key value) :
    (c.overridden param).vendorParam vendor key = c.vendorParam vendor key := by
  by_cases hsets : ∃ vendor' key' value', Sets param vendor' key' value'
  · obtain ⟨vendor', key', value', hsets⟩ := hsets
    rw [overridden_of_sets hsets]
    refine sameButFor_setParam.vendorParam ?_
    rintro ⟨⟩
    exact h value' hsets
  · simp only [not_exists] at hsets
    rw [overridden_of_not_sets hsets]

theorem vendorParam_foldl_overridden {params : List String}
    (h : ∀ p ∈ params, ∀ value, ¬ Sets p vendor key value) (c : Config) :
    (params.foldl overridden c).vendorParam vendor key = c.vendorParam vendor key := by
  induction params generalizing c with
  | nil => rfl
  | cons p params ih =>
    rw [List.forall_mem_cons] at h
    rw [List.foldl_cons, ih h.2, vendorParam_overridden h.1]

theorem vendorParam_foldl_of_last {later : List String} (h : Sets param vendor key value)
    (hlater : ∀ p ∈ later, ∀ value', ¬ Sets p vendor key value') (before : List String)
    (c : Config) :
    ((before ++ param :: later).foldl overridden c).vendorParam vendor key = readAs value := by
  rw [List.foldl_append, List.foldl_cons, vendorParam_foldl_overridden hlater,
    overridden_of_sets h, vendorParam_setParam_self]

theorem applyOverrides_of_accepted {params : List String}
    (h : ∀ p ∈ params, ∃ vendor key value, Sets p vendor key value) (c : Config) :
    applyOverrides params c = .ok (params.foldl overridden c) := by
  induction params generalizing c with
  | nil => rfl
  | cons p params ih =>
    rw [List.forall_mem_cons] at h
    obtain ⟨⟨vendor, key, value, hp⟩, hparams⟩ := h
    rw [applyOverrides, applyOverride_of_sets hp]
    exact (ih hparams _).trans (by rw [List.foldl_cons, overridden_of_sets hp])

/-- Overrides write one parameter or nothing. An override is accepted exactly when it has an equals
sign, and before its first one exactly one point with text on both sides. A refused one leaves the
configuration as it is. After an accepted one its parameter reads as the value without the blanks
around it, or as missing when there is no more to the value; every other parameter and all other
settings are as they were, and a valid configuration is still valid. After overrides in turn each
parameter reads as the last one that was accepted for it, or as configured when there is none; the
program takes in overrides that are all accepted with this result. -/
theorem overrides_write_one (c : Config) :
    (∀ param, (∃ c', c.applyOverride param = .ok c') ↔
      ∃ vendor key value, Sets param vendor key value) ∧
    (∀ param, (∀ vendor key value, ¬ Sets param vendor key value) →
      c.applyOverride param = .error (.invalidOverride param) ∧ c.overridden param = c) ∧
    (∀ param vendor key value, Sets param vendor key value →
      ∃ c', c.applyOverride param = .ok c' ∧ c.overridden param = c' ∧
        c'.vendorParam vendor key = readAs value ∧
        (∀ name k, (name, k) ≠ (vendor, key) → c'.vendorParam name k = c.vendorParam name k) ∧
        SameButFor vendor key c c' ∧ (c.validate = .ok () → c'.validate = .ok ())) ∧
    (∀ params vendor key,
      ((∀ p ∈ params, ∀ value, ¬ Sets p vendor key value) →
        (params.foldl overridden c).vendorParam vendor key = c.vendorParam vendor key) ∧
      ∀ before param value later, params = before ++ param :: later →
        Sets param vendor key value → (∀ p ∈ later, ∀ value', ¬ Sets p vendor key value') →
        (params.foldl overridden c).vendorParam vendor key = readAs value) ∧
    (∀ params, (∀ p ∈ params, ∃ vendor key value, Sets p vendor key value) →
      applyOverrides params c = .ok (params.foldl overridden c)) := by
  refine ⟨fun param => ⟨?_, ?_⟩, fun param h => ⟨applyOverride_of_not_sets h, overridden_of_not_sets h⟩,
    fun param vendor key value h => ?_, fun params vendor key => ⟨fun h => ?_, ?_⟩,
    fun params h => applyOverrides_of_accepted h c⟩
  · rintro ⟨c', h⟩
    by_contra hsets
    simp only [not_exists] at hsets
    rw [applyOverride_of_not_sets hsets] at h
    cases h
  · rintro ⟨vendor, key, value, h⟩
    exact ⟨_, applyOverride_of_sets h⟩
  · exact ⟨_, applyOverride_of_sets h, overridden_of_sets h, vendorParam_setParam_self,
      fun name k => sameButFor_setParam.vendorParam, sameButFor_setParam,
      sameButFor_setParam.validate h.isBlankText_vendor⟩
  · exact vendorParam_foldl_overridden h c
  · rintro before param value later rfl h hlater
    exact vendorParam_foldl_of_last h hlater before c

/-- A value with an equals sign, a text that is no override, and names with blanks around them. -/
theorem overrides_write_one_in_turn :
    let params := ["ieee.token=a=b", "token=x", " scopus . token = c "]
    Sets "ieee.token=a=b" "ieee" "token" "a=b" ∧
      (∀ p ∈ ["token=x", " scopus . token = c "], ∀ value, ¬ Sets p "ieee" "token" value) ∧
      (params.foldl overridden Config.default).vendorParam "ieee" "token" = some "a=b" ∧
      Sets " scopus . token = c " "scopus" "token" " c " ∧
      (params.foldl overridden Config.default).vendorParam "scopus" "token" = some "c" := by
  intro params
  have hieee : Sets "ieee.token=a=b" "ieee" "token" "a=b" :=
    parseOverride?_eq_some_iff.1 (by decide +kernel)
  have hscopus : Sets " scopus . token = c " "scopus" "token" " c " :=
    parseOverride?_eq_some_iff.1 (by decide +kernel)
  have hlater : ∀ p ∈ ["token=x", " scopus . token = c "],
      ∀ value, ¬ Sets p "ieee" "token" value := by
    simp only [List.forall_mem_cons, ← parseOverride?_eq_some_iff]
    have hnone : parseOverride? "token=x" = none := by decide +kernel
    refine ⟨fun value h => ?_, fun value h => ?_, nofun⟩
    · rw [hnone] at h
      cases h
    · rw [parseOverride?_eq_some_iff.2 hscopus] at h
      exact absurd (Prod.mk.inj (Option.some.inj h)).1 (by decide)
  have hturn := (overrides_write_one Config.default).2.2.2.1 params
  exact ⟨hieee, hlater, (hturn _ _).2 [] _ _ _ rfl hieee hlater, hscopus,
    (hturn _ _).2 ["ieee.token=a=b", "token=x"] _ _ [] rfl hscopus nofun⟩

end PaperTrail.Config
