import Mathlib.Algebra.BigOperators.Fin
import Mathlib.Tactic.Abel
import PaperTrail.Proofs.Store.Provenance

/-!
# The order of a batch

The numbers of papers, and which entries make them, depend on the order in which a batch goes in.
What belongs together does not, where matching is transitive: entries then have the same number just
when they match (`pairwise_ledger`).

* `numberOf` : the number that an insertion finds for the entry at a place of a batch, which is that
  of the ledger (`map_ledger_ofFn`);
* `numberOf_eq_iff` : entries at different places go together just when they match;
* `Database.placesOf` : where a paper was found, as the tables have it, and `placesOf_ingestAll` : the
  sources of the entries filed under it;
* `SameOutcome` : what two orders of a batch have in common, and `insert_reordered` : any two have it.
-/

namespace PaperTrail

open Store

/-! ## Matching -/

/-- Whether matching is transitive on a batch. Entries without any text that is not blank match
nothing. -/
def Consistent (same : String → String → Bool) {n : Nat} (entries : Fin n → Entry) : Prop :=
  ∀ i j k, (entries i).resource.shares same (entries j).resource = true →
    (entries j).resource.shares same (entries k).resource = true →
    (entries i).resource.shares same (entries k).resource = true

theorem shares_sameStored_symm (a b : Resource) (h : a.shares sameStored b = true) :
    b.shares sameStored a = true :=
  Resource.shares_symm sameStored_comm (fun _ _ => isBlankText_of_sameStored) h

/-! ## The numbers that an insertion finds -/

/-- The number of the paper to which the entry at a place of a batch goes in an empty store: the
one that is found for it after everything before it. -/
def numberOf {n : Nat} (entries : Fin n → Entry) (i : Fin n) : Int :=
  let start := Batch.mk (ofDatabase .empty).begin [] Report.empty
  let before := (start.addEntries ((List.ofFn entries).take i)).1
  ((before.ensureOrigins (entries i).sources).1.resolve (entries i)).1

theorem records_ingestAll {entries : List Entry}
    (hv : ∀ e ∈ entries, ∀ src ∈ e.sources, isValidOrigin src.origin = true) :
    (Database.empty.ingestAll entries).Records entries :=
  ingestAll_induction (P := fun taken db => db.Records taken) (h := [])
    (fun _ _ _ hv h => h.ingest hv) hv .empty

section
variable {n : Nat} {entries : Fin n → Entry}
  (hv : ∀ i, ∀ src ∈ (entries i).sources, isValidOrigin src.origin = true)

include hv in
theorem numberOf_eq_file (i : Fin n) : numberOf entries i =
    (file sameStored (ledger sameStored ((List.ofFn entries).take i)) (entries i)).id := by
  have hbefore : ∀ e ∈ (List.ofFn entries).take i, ∀ src ∈ e.sources,
      isValidOrigin src.origin = true := by
    intro e he
    obtain ⟨j, rfl⟩ := List.mem_ofFn.1 (List.mem_of_mem_take he)
    exact hv j
  obtain ⟨b, db, r, hb, h, hdb⟩ :=
    (holds_begin (sound_ofDatabase .empty)).addEntries ((List.ofFn entries).take i)
  obtain ⟨rfl, -⟩ := hdb (firstUnfit_flatMap_eq_none_iff.2 hbefore)
  obtain ⟨b', db', hb', h', hdb'⟩ := h.ensureOrigins (entries i).sources
  obtain rfl := hdb' (firstUnfit_eq_none_iff.2 (hv i))
  obtain ⟨b'', hb'', -⟩ := h'.resolve (entries i)
  unfold numberOf
  simp only [hb, hb', hb'']
  rw [Database.idFor_withTables]
  exact (records_ingestAll hbefore).idFor_eq (entries i)

include hv in
/-- The filings of a batch, place by place. -/
theorem map_ledger_ofFn : (ledger sameStored (List.ofFn entries)).map (fun f => (f.id, f.entry)) =
    List.ofFn fun i => (numberOf entries i, entries i) := by
  have hlength : (ledger sameStored (List.ofFn entries)).length = n := by
    rw [length_ledger, List.length_ofFn]
  refine List.ext_getElem (by simp [hlength]) fun i hi hi' => ?_
  rw [List.length_ofFn] at hi'
  rw [List.getElem_map, List.getElem_ofFn, getElem_ledger sameStored (by simpa using hi') (by omega),
    entry_file, List.getElem_ofFn, numberOf_eq_file hv]

include hv in
/-- Where matching is transitive, the entries at two places have the same number just when they
match, or are one. -/
theorem numberOf_eq_iff (hc : Consistent sameStored entries) (i j : Fin n) :
    numberOf entries i = numberOf entries j ↔
      i = j ∨ (entries i).resource.shares sameStored (entries j).resource = true := by
  have hgrouped : (ledger sameStored (List.ofFn entries)).Pairwise (Grouped sameStored) := by
    refine pairwise_ledger sameStored shares_sameStored_symm ?_
    simp only [List.forall_mem_ofFn_iff]
    exact hc
  have hpairs : (List.ofFn fun i => (numberOf entries i, entries i)).Pairwise fun p q =>
      p.1 = q.1 ↔ p.2.resource.shares sameStored q.2.resource = true := by
    rw [← map_ledger_ofFn hv, List.pairwise_map]
    exact hgrouped
  rw [List.pairwise_ofFn] at hpairs
  rcases lt_trichotomy i j with hlt | rfl | hgt
  · rw [hpairs hlt, or_iff_right (ne_of_lt hlt)]
  · exact iff_of_true rfl (Or.inl rfl)
  · rw [eq_comm, hpairs hgt, or_iff_right (ne_of_gt hgt)]
    exact ⟨shares_sameStored_symm _ _, shares_sameStored_symm _ _⟩

end

/-! ## The rows of a paper -/

/-- Where a paper was found, as the tables have it: the origin, in lower case, and the link of every
row with its number. -/
def Database.placesOf (db : Database) (id : Int) : Multiset (String × Option String) :=
  ↑(db.tables.keys.flatMap fun table =>
    ((db.rowsOf table).filter (·.id? = some id)).map fun row => (originKey table, row.link?))

def Source.place (s : Source) : String × Option String := (originKey s.origin, s.link?)

namespace Database

theorem placesOf_addTable {db : Database} {name : String} (hnew : db.tables.contains name = false)
    (id : Int) : (db.addTable name).placesOf id = db.placesOf id := by
  obtain ⟨l₁, l₂, hkeys, hins⟩ := Dictionary.exists_keys_insert hnew ([] : List LinkRow)
  have htables : (db.addTable name).tables = db.tables.insert name [] := by
    rw [addTable, Dictionary.insertNew, hnew]
    rfl
  have hrows : db.rowsOf name = [] := rowsOf_of_not_contains hnew
  unfold placesOf
  simp only [rowsOf_addTable]
  rw [htables, hins, hkeys, List.flatMap_append, List.flatMap_append, List.flatMap_cons, hrows]
  rfl

theorem placesOf_addLink {db : Database} {name : String} (h : db.tables.contains name = true)
    (row : LinkRow) (id : Int) : (db.addLink name row).placesOf id =
      db.placesOf id + if row.id? = some id then {(originKey name, row.link?)} else 0 := by
  let places (db : Database) (table : String) : List (String × Option String) :=
    ((db.rowsOf table).filter (·.id? = some id)).map fun row => (originKey table, row.link?)
  have hkeys : (db.addLink name row).tables.keys = db.tables.keys :=
    Dictionary.keys_insert_of_contains h _
  obtain ⟨l₁, l₂, hsplit⟩ := List.append_of_mem (Dictionary.mem_keys.2 h)
  have hnodup := Dictionary.nodup_keys db.tables
  rw [hsplit, List.nodup_middle, List.nodup_cons] at hnodup
  have hother : ∀ table ∈ l₁ ++ l₂, places (db.addLink name row) table = places db table := by
    intro table htable
    have hne : table ≠ name := by
      rintro rfl
      exact hnodup.1 htable
    unfold places
    rw [rowsOf_addLink, if_neg hne]
  rw [List.forall_mem_append] at hother
  have hown : places (db.addLink name row) name =
      places db name ++ if row.id? = some id then [(originKey name, row.link?)] else [] := by
    unfold places
    rw [rowsOf_addLink, if_pos rfl, List.filter_append, List.map_append]
    by_cases hid : row.id? = some id <;> simp [hid]
  show (↑((db.addLink name row).tables.keys.flatMap (places (db.addLink name row))) :
    Multiset (String × Option String)) = ↑(db.tables.keys.flatMap (places db)) + _
  rw [hkeys, hsplit, List.flatMap_append, List.flatMap_append, List.flatMap_cons, List.flatMap_cons,
    List.flatMap_congr hother.1, List.flatMap_congr hother.2, hown]
  split
  · simp only [← Multiset.coe_add, Multiset.coe_singleton]
    abel
  · simp

theorem placesOf_withTables (db : Database) {sources : List Source}
    (hv : ∀ s ∈ sources, isValidOrigin s.origin = true) (id : Int) :
    (db.withTables sources).placesOf id = db.placesOf id := by
  induction sources generalizing db with
  | nil => rfl
  | cons s rest ih =>
    rw [List.forall_mem_cons] at hv
    rw [withTables, List.foldl_cons, ← withTables, ih _ hv.2, withTable]
    split
    · rfl
    · next hnone => exact placesOf_addTable (contains_eq_false_of_tableFor? hv.1 hnone) id

theorem placesOf_withLinks {db : Database} {sources : List Source}
    (h : ∀ s ∈ sources, (db.tableFor? (originKey s.origin)).isSome = true) (id id' : Int) :
    (db.withLinks id sources).placesOf id' =
      db.placesOf id' + if id = id' then ↑(sources.map Source.place) else 0 := by
  induction sources generalizing db with
  | nil => simp [withLinks]
  | cons s rest ih =>
    rw [List.forall_mem_cons] at h
    obtain ⟨table, htable⟩ := Option.isSome_iff_exists.1 h.1
    obtain ⟨-, hkey, hcontains⟩ := tableFor?_eq_some htable
    have hfirst : (db.withLink id s).placesOf id' =
        db.placesOf id' + if id = id' then {s.place} else 0 := by
      rw [withLink, htable]
      refine (placesOf_addLink hcontains _ id').trans ?_
      rw [hkey]
      simp only [Option.some_inj]
      rfl
    have hrest : ∀ s' ∈ rest, ((db.withLink id s).tableFor? (originKey s'.origin)).isSome = true := by
      intro s' hs'
      rw [tableFor?_withLink]
      exact h.2 s' hs'
    rw [withLinks, List.foldl_cons, ← withLinks, ih hrest, hfirst]
    split
    · rw [List.map_cons, ← Multiset.cons_coe, ← Multiset.singleton_add, add_assoc]
    · rw [add_zero, add_zero]

/-- An entry adds its sources to the rows of its paper. -/
theorem placesOf_ingest (db : Database) {e : Entry}
    (hv : ∀ s ∈ e.sources, isValidOrigin s.origin = true) (id : Int) :
    (db.ingest e).placesOf id =
      db.placesOf id + if db.idFor e = id then ↑(e.sources.map Source.place) else 0 := by
  have hpaper := tables_withPaper (db.withTables e.sources) e
  have hknown : ∀ s ∈ e.sources,
      (((db.withTables e.sources).withPaper e).tableFor? (originKey s.origin)).isSome = true := by
    intro s hs
    rw [tableFor?_congr hpaper]
    exact isSome_tableFor?_withTables db hv s hs
  rw [ingest, placesOf_withLinks hknown, placesOf, hpaper]
  simp only [rowsOf_congr hpaper]
  exact congrArg (· + _) (placesOf_withTables db hv id)

end Database

/-- After a batch the rows of a paper are the sources of the entries filed under it. -/
theorem placesOf_ingestAll {entries : List Entry}
    (hv : ∀ e ∈ entries, ∀ src ∈ e.sources, isValidOrigin src.origin = true) (id : Int) :
    (Database.empty.ingestAll entries).placesOf id = ((ledger sameStored entries).map fun f =>
      if f.id = id then (↑(f.entry.sources.map Source.place) : Multiset _) else 0).sum := by
  induction entries using List.reverseRecOn with
  | nil => rfl
  | append_singleton entries e ih =>
    rw [List.forall_mem_append, List.forall_mem_singleton] at hv
    rw [Database.ingestAll_concat, Database.placesOf_ingest _ hv.2, ih hv.1,
      (records_ingestAll hv.1).idFor_eq, ledger_concat, List.map_append, List.sum_append,
      List.map_singleton, List.sum_singleton, entry_file]

/-! ## Two orders of a batch -/

/-- An empty store after a batch, and what the insertion returns. -/
def outcome {n : Nat} (entries : Fin n → Entry) : Store × Except InvalidOrigin Report :=
  (ofDatabase .empty).insert (List.ofFn entries)

/-- What a batch has in common with the batch of the same entries in another order, the one at place
`i` being that of place `σ i`: both go in, every paper is that of some entry, there are as many of
them, entries go together in one just when they do in the other, and the papers of an entry were
found at the same places. -/
structure SameOutcome {n : Nat} (entries : Fin n → Entry) (σ : Equiv.Perm (Fin n)) : Prop where
  accepted : (outcome entries).2.isOk = true ∧ (outcome (entries ∘ σ)).2.isOk = true
  filed : (∀ id, id ∈ (outcome entries).1.working.main.map (·.id) ↔
      ∃ i, numberOf entries i = id) ∧
    ∀ id, id ∈ (outcome (entries ∘ σ)).1.working.main.map (·.id) ↔
      ∃ i, numberOf (entries ∘ σ) i = id
  papers : (outcome (entries ∘ σ)).1.working.main.length =
    (outcome entries).1.working.main.length
  grouped : ∀ i j, numberOf (entries ∘ σ) i = numberOf (entries ∘ σ) j ↔
    numberOf entries (σ i) = numberOf entries (σ j)
  places : ∀ i, (outcome (entries ∘ σ)).1.working.placesOf (numberOf (entries ∘ σ) i) =
    (outcome entries).1.working.placesOf (numberOf entries (σ i))

section
variable {n : Nat} {entries : Fin n → Entry}
  (hv : ∀ i, ∀ src ∈ (entries i).sources, isValidOrigin src.origin = true)

include hv in
theorem firstUnfit_ofFn : firstUnfit ((List.ofFn entries).flatMap (·.sources)) = none :=
  firstUnfit_flatMap_eq_none_iff.2 (List.forall_mem_ofFn_iff.2 hv)

include hv in
theorem working_outcome :
    (outcome entries).1.working = Database.empty.ingestAll (List.ofFn entries) := by
  have hcall := working_call (sound_ofDatabase .empty) (.insert (List.ofFn entries))
  rw [Call.write, if_pos (firstUnfit_ofFn hv)] at hcall
  exact hcall

include hv in
/-- The papers are those of the numbers that the insertion finds. -/
theorem mem_ids_outcome {id : Int} :
    id ∈ (outcome entries).1.working.main.map (·.id) ↔ ∃ i, numberOf entries i = id := by
  have hledger := map_ledger_ofFn hv
  rw [working_outcome hv, (records_ingestAll (List.forall_mem_ofFn_iff.2 hv)).map_id_main,
    List.mem_map]
  constructor
  · rintro ⟨p, hp, rfl⟩
    have hmem : (p.id, p.entry) ∈ List.ofFn fun i => (numberOf entries i, entries i) := by
      rw [← hledger]
      exact List.mem_map_of_mem (mem_of_mem_papers hp)
    obtain ⟨i, hi⟩ := List.mem_ofFn.1 hmem
    exact ⟨i, congrArg Prod.fst hi⟩
  · rintro ⟨i, rfl⟩
    have hmem : (numberOf entries i, entries i) ∈
        (ledger sameStored (List.ofFn entries)).map fun f => (f.id, f.entry) := by
      rw [hledger]
      exact List.mem_ofFn.2 ⟨i, rfl⟩
    obtain ⟨f, hf, hpair⟩ := List.mem_map.1 hmem
    obtain ⟨p, hp, hid⟩ := exists_paper sameStored hf
    exact ⟨p, hp, hid.trans (congrArg Prod.fst hpair)⟩

include hv in
theorem length_main_outcome : (outcome entries).1.working.main.length =
    (Finset.univ.image (numberOf entries)).card := by
  have hnodup : ((outcome entries).1.working.main.map (·.id)).Nodup := by
    rw [working_outcome hv]
    exact (records_ingestAll (List.forall_mem_ofFn_iff.2 hv)).nodup_ids
  have hids : ((outcome entries).1.working.main.map (·.id)).toFinset =
      Finset.univ.image (numberOf entries) := by
    ext id
    rw [List.mem_toFinset, mem_ids_outcome hv]
    simp
  rw [← hids, List.toFinset_card_of_nodup hnodup, List.length_map]

include hv in
theorem placesOf_outcome (id : Int) : (outcome entries).1.working.placesOf id =
    ∑ i, if numberOf entries i = id then ↑((entries i).sources.map Source.place) else 0 := by
  let own (p : Int × Entry) : Multiset (String × Option String) :=
    if p.1 = id then ↑(p.2.sources.map Source.place) else 0
  have hmap := congrArg (List.map own) (map_ledger_ofFn hv)
  rw [List.map_map, List.map_ofFn] at hmap
  rw [working_outcome hv, placesOf_ingestAll (List.forall_mem_ofFn_iff.2 hv), ← List.sum_ofFn]
  exact congrArg List.sum hmap

end

/-- A function that tells no more arguments apart than another one has no more values. -/
theorem card_image_le_of_imp {ι : Type} [Fintype ι] {f g : ι → Int}
    (h : ∀ i j, g i = g j → f i = f j) :
    (Finset.univ.image f).card ≤ (Finset.univ.image g).card := by
  have hfactors : Function.FactorsThrough f g := fun i j => h i j
  have himage : Finset.univ.image f = (Finset.univ.image g).image (Function.extend g f id) := by
    rw [Finset.image_image]
    exact Finset.image_congr fun i _ => (hfactors.extend_apply id i).symm
  rw [himage]
  exact Finset.card_image_le

theorem sameOutcome_of_consistent {n : Nat} {entries : Fin n → Entry}
    (hv : ∀ i, ∀ src ∈ (entries i).sources, isValidOrigin src.origin = true)
    (hc : Consistent sameStored entries) (σ : Equiv.Perm (Fin n)) : SameOutcome entries σ := by
  have hv' : ∀ i, ∀ src ∈ ((entries ∘ σ) i).sources, isValidOrigin src.origin = true :=
    fun i => hv (σ i)
  have hc' : Consistent sameStored (entries ∘ σ) := fun i j k => hc (σ i) (σ j) (σ k)
  have hgrouped : ∀ i j, numberOf (entries ∘ σ) i = numberOf (entries ∘ σ) j ↔
      numberOf entries (σ i) = numberOf entries (σ j) := by
    intro i j
    rw [numberOf_eq_iff hv' hc', numberOf_eq_iff hv hc, σ.injective.eq_iff]
    rfl
  refine ⟨⟨?_, ?_⟩, ⟨fun _ => mem_ids_outcome hv, fun _ => mem_ids_outcome hv'⟩, ?_, hgrouped,
    fun i => ?_⟩
  · exact (isOk_insert (sound_ofDatabase .empty) _).2 (firstUnfit_ofFn hv)
  · exact (isOk_insert (sound_ofDatabase .empty) _).2 (firstUnfit_ofFn hv')
  · have himage : Finset.univ.image (numberOf entries ∘ σ) =
        Finset.univ.image (numberOf entries) := by
      rw [← Finset.image_image, Finset.image_univ_equiv]
    rw [length_main_outcome hv, length_main_outcome hv', ← himage]
    exact le_antisymm (card_image_le_of_imp fun i j => (hgrouped i j).2)
      (card_image_le_of_imp fun i j => (hgrouped i j).1)
  · rw [placesOf_outcome hv, placesOf_outcome hv']
    simp only [hgrouped]
    exact Equiv.sum_comp σ fun k =>
      if numberOf entries k = numberOf entries (σ i) then
        (↑((entries k).sources.map Source.place) : Multiset (String × Option String)) else 0

/-- Two orders of a batch with valid origins come to the same in an empty store when matching is
transitive on the batch, where texts match when they are stored as the same ones; without zero
characters in them, when they differ in the case of letters only. -/
theorem insert_reordered {n : Nat} (entries : Fin n → Entry)
    (hfit : ∀ i, ∀ src ∈ (entries i).sources, ¬ UnfitName src.origin) (σ : Equiv.Perm (Fin n)) :
    (Consistent sameStored entries → SameOutcome entries σ) ∧
    ((∀ i f, beforeZero ((entries i).resource.get f) = (entries i).resource.get f) →
      Consistent Text.sameFolded entries → SameOutcome entries σ) := by
  have hv : ∀ i, ∀ src ∈ (entries i).sources, isValidOrigin src.origin = true :=
    fun i src hsrc => isValidOrigin_iff.2 (hfit i src hsrc)
  refine ⟨fun hc => sameOutcome_of_consistent hv hc σ, fun hzero hc => ?_⟩
  have hshares : ∀ i j, (entries i).resource.shares sameStored (entries j).resource =
      (entries i).resource.shares Text.sameFolded (entries j).resource :=
    fun i j => Resource.shares_congr fun f => sameStored_eq_sameFolded (hzero i f) (hzero j f)
  refine sameOutcome_of_consistent hv (fun i j k => ?_) σ
  rw [hshares, hshares, hshares]
  exact hc i j k

/-- Three entries of one paper, recognised by different fields, and two without any text, in another
order. -/
theorem insert_reordered_through_fields :
    let entries : Fin 5 → Entry := ![
      .new ⟨"10.1/A", "", "One", "", ""⟩ [⟨"ieee", some "x"⟩, ⟨"IEEE", none⟩],
      .new ⟨"", "", " ", "", "same"⟩ [⟨"acm", none⟩],
      .new ⟨"10.1/a", "", "ONE", "About", ""⟩ [⟨"Ieee", some "x"⟩],
      .new ⟨"", "", " ", "", "same"⟩ [⟨"acm", none⟩],
      .new ⟨"", "", "one", "ABOUT", ""⟩ []]
    let σ : Equiv.Perm (Fin 5) := Equiv.swap 0 1
    (∀ i, ∀ src ∈ (entries i).sources, ¬ UnfitName src.origin) ∧
      Consistent Text.sameFolded entries ∧ SameOutcome entries σ ∧
      List.ofFn (numberOf entries) = [1, 2, 1, 3, 1] ∧
      List.ofFn (numberOf (entries ∘ σ)) = [1, 2, 2, 3, 2] := by
  intro entries σ
  have hv : ∀ i, ∀ src ∈ (entries i).sources, isValidOrigin src.origin = true := by
    decide +kernel
  have hfit : ∀ i, ∀ src ∈ (entries i).sources, ¬ UnfitName src.origin :=
    fun i src hsrc => isValidOrigin_iff.1 (hv i src hsrc)
  have hzero : ∀ i f, beforeZero ((entries i).resource.get f) = (entries i).resource.get f := by
    intro i f
    cases f <;> revert i <;> decide +kernel
  have hc : Consistent Text.sameFolded entries := by
    unfold Consistent
    decide +kernel
  have hsame := (insert_reordered entries hfit σ).2 hzero hc
  exact ⟨hfit, hc, hsame, by decide +kernel, by decide +kernel⟩

/-- With zero characters, matching up to the case of letters says too little: one of three entries
joins the others when it comes first, and keeps them apart when it comes second. -/
theorem not_sameOutcome_sameFolded : ¬ ∀ (n : Nat) (entries : Fin n → Entry)
    (σ : Equiv.Perm (Fin n)), (∀ i, ∀ src ∈ (entries i).sources, ¬ UnfitName src.origin) →
      Consistent Text.sameFolded entries → SameOutcome entries σ := by
  intro h
  let entries : Fin 3 → Entry := ![
    .new ⟨"", "", "x\x00a", "", ""⟩ [⟨"ieee", some "1"⟩],
    .new ⟨"d", "", "x\x00b", "", ""⟩ [⟨"ieee", some "2"⟩],
    .new ⟨"d", "", "", "", ""⟩ [⟨"ieee", some "3"⟩]]
  have hv : ∀ i, ∀ src ∈ (entries i).sources, isValidOrigin src.origin = true := by
    decide +kernel
  have hfit : ∀ i, ∀ src ∈ (entries i).sources, ¬ UnfitName src.origin :=
    fun i src hsrc => isValidOrigin_iff.1 (hv i src hsrc)
  have hc : Consistent Text.sameFolded entries := by
    unfold Consistent
    decide +kernel
  have hpapers := (h 3 entries (Equiv.swap 0 1) hfit hc).papers
  have hmore : (outcome entries).1.working.main.length = 2 := by decide +kernel
  have hless : (outcome (entries ∘ Equiv.swap 0 1)).1.working.main.length = 1 := by decide +kernel
  omega

end PaperTrail
