import PaperTrail.CommandLine.Run
import PaperTrail.Proofs.Paper.Json
import PaperTrail.Proofs.Store.Lookup
import PaperTrail.Proofs.Text.Split

/-!
# What listing papers prints

* `printed` : the text that is printed for some lines; `split_printed` : where no line has a line
  break in it, the printed text is cut into these lines;
* `Database.Fits` : all numbers of papers and reviews are of 64 bits, as in every database;
* `tells_of_mem_listing` : the line of a paper that is listed tells the paper;
* `Shell.list_tells` : reading back what was written for an entry, and what listing prints.
-/

namespace PaperTrail

/-- What is printed for some lines. -/
def printed (lines : List String) : String := String.join (lines.map (· ++ "\n"))

theorem toList_printed_cons (line : String) (lines : List String) :
    (printed (line :: lines)).toList = line.toList ++ '\n' :: (printed lines).toList := by
  rw [printed, String.toList_join, List.map_cons, List.flatMap_cons, String.toList_append,
    List.append_assoc, ← String.toList_join, ← printed]
  rfl

theorem split_printed {lines : List String} (h : ∀ line ∈ lines, '\n' ∉ line.toList) :
    Text.split '\n' (printed lines) = lines ++ [""] := by
  induction lines with
  | nil => rfl
  | cons line lines ih =>
    rw [List.forall_mem_cons] at h
    rw [Text.split, toList_printed_cons, Text.splitChars_append h.1, List.map_cons, String.ofList_toList,
      ← Text.split, ih h.2, List.cons_append]

/-- All numbers of papers and reviews are of 64 bits. -/
def Database.Fits (db : Database) : Prop :=
  ∀ row ∈ db.main, Number.Fits row.id ∧ ∀ value ∈ row.rejected?, Number.Fits value

theorem fits_rejected {db : Database} (h : db.Fits) {row : MainRow} (hrow : row ∈ db.main) :
    Number.Fits row.rejected := by
  rw [MainRow.rejected]
  cases hvalue : row.rejected? with
  | none => decide
  | some value => exact (h row hrow).2 value hvalue

/-- The line of a paper that is listed tells the paper. -/
theorem tells_of_mem_listing {db : Database} (h : db.Fits) {tables : List String}
    {rejected : List Int} {paper : Int × Entry} (hpaper : paper ∈ db.listing tables rejected) :
    Tells paper (listingLine paper.1 paper.2) := by
  obtain ⟨row, hrow, hid, -, hreview⟩ := exists_row_of_mem_listing hpaper
  refine tells_listingLine (hid ▸ (h row hrow).1) ?_
  rw [hreview]
  exact fits_rejected h hrow

/-- What follows a step that has succeeded. -/
theorem run_bind_of_ok {σ ε α β : Type} {x : ExceptT ε (StateM σ) α} {f : α → ExceptT ε (StateM σ) β}
    {t t' : σ} {a : α} (h : x.run.run t = (.ok a, t')) :
    (x >>= f).run.run t = (f a).run.run t' := by
  rw [ExceptT.run_bind, StateT.run_bind, h]
  rfl

namespace Shell
variable {σ : Type} (sh : Shell (StateM σ)) (env : Environment)

theorem list_run (config : String) (database? : Option String) (rejected : List Int) {t t₁ t₂ : σ}
    {c : Config} {place : StorePlace} {s : Store} {papers : List (Int × Entry)}
    (hconfig : (sh.loadConfig config).run.run t = (.ok c, t₁))
    (hstore : (sh.openStore env c database?).run.run t₁ = (.ok (place, s), t₂))
    (hpapers : s.entries? rejected = some papers) :
    (sh.list env config database? rejected).run.run t =
      (.ok (papers.map fun row => listingLine row.1 row.2), ((sh.keepStore place s.close).run t₂).2) := by
  have hlines : s.lines? rejected = some (papers.map fun row => listingLine row.1 row.2) := by
    rw [Store.lines?, hpapers, Option.map_some]
  rw [list, run_bind_of_ok hconfig, run_bind_of_ok hstore]
  simp only [hlines]
  rfl

/-- Every entry is read back from its text. Listing the papers of a store prints a line for each of
them, in their order, that tells the paper; the printed text is cut into these lines. -/
theorem list_tells :
    (∀ e : Entry, Number.Fits e.review.rejected → Entry.ofText? e.text = some e) ∧
    ∀ {σ : Type} (sh : Shell (StateM σ)) (env : Environment) (config : String)
      (database? : Option String) (rejected : List Int) (t t₁ t₂ : σ) (c : Config)
      (place : StorePlace) (s : Store) (papers : List (Int × Entry)),
      (sh.loadConfig config).run.run t = (.ok c, t₁) →
      (sh.openStore env c database?).run.run t₁ = (.ok (place, s), t₂) →
      s.working.Fits → s.entries? rejected = some papers →
      ∃ lines t₃, (sh.list env config database? rejected).run.run t = (.ok lines, t₃) ∧
        List.Forall₂ Tells papers lines ∧ Text.split '\n' (printed lines) = lines ++ [""] := by
  refine ⟨fun e => Entry.ofText?_text, ?_⟩
  intro σ sh env config database? rejected t t₁ t₂ c place s papers hconfig hstore hfits hpapers
  have hlisted : ∀ paper ∈ papers, Tells paper (listingLine paper.1 paper.2) := by
    rw [Store.entries?_eq] at hpapers
    split at hpapers
    · obtain rfl := Option.some.inj hpapers
      exact fun paper => tells_of_mem_listing hfits
    · cases hpapers
  refine ⟨_, _, list_run sh env config database? rejected hconfig hstore hpapers,
    List.forall₂_map_right_iff.2 (List.forall₂_same.2 hlisted), split_printed fun line hline => ?_⟩
  obtain ⟨paper, hpaper, rfl⟩ := List.mem_map.1 hline
  exact (hlisted paper hpaper).no_break

/-- A directory with a store of two papers, one of them with characters of every kind and a link with
a line break, the other one with the least of all review values. -/
theorem list_tells_special :
    let least := Number.minInt
    let db : Database := ⟨[
      ⟨1, none, none, some "A \"b\" \\ c\n\t\x01é😀", none, none, none, none, none⟩,
      ⟨2, some "10.1/x", none, none, none, none, some least, some true, none⟩],
      .ofList [("ieee", [⟨some 1, some "x\ny"⟩])]⟩
    let t : FileTree := ⟨.ofList [("papers.db", .store db)]⟩
    let sh := FileTree.shell fun _ => pure .failed
    let first : Entry := .new ⟨"", "", "A \"b\" \\ c\n\t\x01é😀", "", ""⟩ [⟨"ieee", some "x\ny"⟩]
    let second : Entry := ⟨⟨"10.1/x", "", "", "", ""⟩, [], ⟨least, true, ""⟩⟩
    Entry.ofText? second.text = some second ∧ db.Fits ∧ ∃ lines t₃,
      (sh.list ⟨none, none⟩ "config.yaml" (some "papers.db") [0, least]).run.run t =
        (.ok lines, t₃) ∧
      List.Forall₂ Tells [(1, first), (2, second)] lines ∧
      Text.split '\n' (printed lines) = lines ++ [""] := by
  intro least db t sh first second
  have hconfig : (sh.loadConfig "config.yaml").run.run t = (.ok Config.default, t) := rfl
  have hdirectory : (StoreAddress.ofText none "papers.db").directory? = none := by decide +kernel
  have hplace : StorePlace.ofText? (StoreAddress.ofText none "papers.db").text =
      some (.file "papers.db" .readWrite) := by decide +kernel
  have hstore : (sh.openStore ⟨none, none⟩ Config.default (some "papers.db")).run.run t =
      (.ok (.file "papers.db" .readWrite, .ofDatabase db), t) := by
    simp only [openStore, storeAddress, openStore?, pure_bind, hdirectory, hplace]
    rfl
  have hfits : db.Fits := by unfold Database.Fits; decide +kernel
  have hpapers : (Store.ofDatabase db).entries? [0, least] = some [(1, first), (2, second)] := by
    decide +kernel
  exact ⟨list_tells.1 second (by decide), hfits,
    list_tells.2 sh ⟨none, none⟩ "config.yaml" (some "papers.db") [0, least] t t t _ _ _ _ hconfig
      hstore hfits hpapers⟩

end Shell

end PaperTrail
