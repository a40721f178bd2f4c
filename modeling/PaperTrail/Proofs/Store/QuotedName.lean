import PaperTrail.Proofs.Store.Origin
import PaperTrail.Text.Split

/-!
# Names inside statements

A database reads a name between double quotes from its opening quote on: two quotes in a row stand for
one, and a quote with no other behind it ends the name.

* `Statement.readName?` : the name behind an opening quote. It is read exactly where `doubleQuotes` has
  written it (`readName?_eq_some_iff`), so that no name ends early;
* `Statement.pieces?` : a statement from left to right, its names and the texts around them;
* `OriginName.pieces?_statements` : the statements of an origin have its name in them, and all else is
  the same for every origin.
-/

namespace PaperTrail

namespace Statement

/-- The name behind an opening quote, and what follows its closing quote: two quotes in a row stand for
one, and one alone ends the name. There is none when the name does not end. -/
def readName? : List Char → Option (List Char × List Char)
  | '"' :: '"' :: cs => (readName? cs).map fun p => ('"' :: p.1, p.2)
  | '"' :: cs => some ([], cs)
  | c :: cs => (readName? cs).map fun p => (c :: p.1, p.2)
  | [] => none

theorem readName?_doubleQuotes (name : List Char) {rest : List Char} (h : rest.head? ≠ some '"') :
    readName? (doubleQuotes name ++ '"' :: rest) = some (name, rest) := by
  induction name with
  | nil =>
    cases rest with
    | nil => rfl
    | cons c rest =>
      have hc : c ≠ '"' := fun hc => h (congrArg some hc)
      rw [doubleQuotes, List.nil_append]
      simp [readName?, hc]
  | cons c name ih =>
    by_cases hc : c = '"'
    · subst hc
      rw [doubleQuotes, if_pos rfl, List.cons_append, List.cons_append, readName?, ih]
      rfl
    · rw [doubleQuotes, if_neg hc, List.cons_append]
      simp [readName?, hc, ih]

theorem eq_doubleQuotes_of_readName? {cs name rest : List Char}
    (h : readName? cs = some (name, rest)) :
    cs = doubleQuotes name ++ '"' :: rest ∧ rest.head? ≠ some '"' := by
  fun_induction readName? cs generalizing name with
  | case1 cs ih =>
    obtain ⟨⟨inner, _⟩, hinner, heq⟩ := Option.map_eq_some_iff.1 h
    obtain ⟨rfl, rfl⟩ := Prod.mk.inj heq
    obtain ⟨hcs, hrest⟩ := ih hinner
    exact ⟨by rw [doubleQuotes, if_pos rfl, hcs]; rfl, hrest⟩
  | case2 cs hne =>
    obtain ⟨rfl, rfl⟩ := Prod.mk.inj (Option.some.inj h)
    refine ⟨rfl, fun hhead => ?_⟩
    obtain ⟨cs', rfl⟩ := List.head?_eq_some_iff.1 hhead
    exact hne cs' rfl
  | case3 c cs _ hc ih =>
    obtain ⟨⟨inner, _⟩, hinner, heq⟩ := Option.map_eq_some_iff.1 h
    obtain ⟨rfl, rfl⟩ := Prod.mk.inj heq
    obtain ⟨hcs, hrest⟩ := ih hinner
    exact ⟨by rw [doubleQuotes, if_neg hc, hcs]; rfl, hrest⟩
  | case4 => cases h

/-- A name is read exactly where its quotes are written twice and one quote alone stands behind it. -/
theorem readName?_eq_some_iff {cs name rest : List Char} :
    readName? cs = some (name, rest) ↔
      cs = doubleQuotes name ++ '"' :: rest ∧ rest.head? ≠ some '"' := by
  refine ⟨eq_doubleQuotes_of_readName?, ?_⟩
  rintro ⟨rfl, h⟩
  exact readName?_doubleQuotes name h

theorem length_of_readName? {cs name rest : List Char} (h : readName? cs = some (name, rest)) :
    rest.length < cs.length := by
  rw [(readName?_eq_some_iff.1 h).1, List.length_append, List.length_cons]
  omega

/-- A part of a statement: a text without quotes, or a name between quotes. -/
inductive Piece where
  | text (s : String)
  | name (s : String)
deriving DecidableEq

def piecesChars? (cs : List Char) : Option (List Piece) :=
  match _hcut : Text.cutChars? '"' cs with
  | none => some [.text (String.ofList cs)]
  | some (front, behind) =>
    match _hname : readName? behind with
    | none => none
    | some (name, rest) =>
      (piecesChars? rest).map fun pieces =>
        .text (String.ofList front) :: .name (String.ofList name) :: pieces
termination_by cs.length
decreasing_by
  have hlength := length_of_readName? _hname
  rw [(Text.cutChars?_eq_some_iff.1 _hcut).1, List.length_append, List.length_cons]
  omega

/-- The parts of a statement in their order. There are none when a name does not end. -/
def pieces? (s : String) : Option (List Piece) := piecesChars? s.toList

def names? (s : String) : Option (List String) :=
  (pieces? s).map fun pieces => pieces.filterMap fun
    | .text _ => none
    | .name name => some name

theorem piecesChars?_of_not_mem {cs : List Char} (h : '"' ∉ cs) :
    piecesChars? cs = some [.text (String.ofList cs)] := by
  have hcut := Text.cutChars?_eq_none_iff.2 h
  rw [piecesChars?]
  split
  · rfl
  · next front behind hsome => cases hcut.symm.trans hsome

theorem piecesChars?_of_readName? {front behind name rest : List Char} (hfront : '"' ∉ front)
    (hname : readName? behind = some (name, rest)) :
    piecesChars? (front ++ '"' :: behind) = (piecesChars? rest).map fun pieces =>
      .text (String.ofList front) :: .name (String.ofList name) :: pieces := by
  have hcut := Text.cutChars?_append hfront behind
  rw [piecesChars?]
  split
  · next hnone => cases hcut.symm.trans hnone
  · next front' behind' hsome =>
    obtain ⟨rfl, rfl⟩ := Prod.mk.inj (Option.some.inj (hcut.symm.trans hsome))
    split
    · next hnone => cases hname.symm.trans hnone
    · next name' rest' hread =>
      obtain ⟨rfl, rfl⟩ := Prod.mk.inj (Option.some.inj (hname.symm.trans hread))
      rfl

/-- Between texts without quotes, a quoted name is read as this name, and nothing else is read as a
name. -/
theorem pieces?_quoteName {front back : String} (name : String) (hfront : '"' ∉ front.toList)
    (hback : '"' ∉ back.toList) :
    pieces? (front ++ quoteName name ++ back) = some [.text front, .name name, .text back] := by
  have hchars : (front ++ quoteName name ++ back).toList =
      front.toList ++ '"' :: (doubleQuotes name.toList ++ '"' :: back.toList) := by
    simp [quoteName]
  have hrest : back.toList.head? ≠ some '"' := fun h => hback (List.mem_of_mem_head? h)
  rw [pieces?, hchars, piecesChars?_of_readName? hfront (readName?_doubleQuotes name.toList hrest),
    piecesChars?_of_not_mem hback, Option.map_some, String.ofList_toList, String.ofList_toList,
    String.ofList_toList]

end Statement

namespace OriginName

open Statement (pieces? names?)

theorem name_of_ofString {name : String} {o : OriginName} (h : ofString name = .ok o) :
    o.name = name := by
  rw [ofString] at h
  split at h
  · obtain rfl := Except.ok.inj h
    rfl
  · cases h

theorem pieces?_createStatement (o : OriginName) :
    pieces? o.createStatement = some [.text "CREATE TABLE IF NOT EXISTS ", .name o.name,
      .text " (id INT UNSIGNED, link TEXT)"] :=
  Statement.pieces?_quoteName o.name (by decide) (by decide)

theorem pieces?_insertStatement (o : OriginName) :
    pieces? o.insertStatement = some [.text "INSERT INTO ", .name o.name,
      .text " (id, link) VALUES (?, ?)"] :=
  Statement.pieces?_quoteName o.name (by decide) (by decide)

theorem names?_of_mem_statements {o : OriginName} {s : String}
    (h : s ∈ [o.createStatement, o.insertStatement]) : names? s = some [o.name] := by
  rw [names?]
  simp only [List.mem_cons, List.not_mem_nil, or_false] at h
  rcases h with rfl | rfl
  · rw [pieces?_createStatement]
    rfl
  · rw [pieces?_insertStatement]
    rfl

/-- A name cannot leave its quotes. Read as the database reads it, each of the two statements of an
origin has one name, at the place of the table, and this is the name of the origin; the texts around it
are the same for all origins. So the statements of origins with different names are about different
names. -/
theorem pieces?_statements {name : String} {o : OriginName} (h : ofString name = .ok o) :
    pieces? o.createStatement = some [.text "CREATE TABLE IF NOT EXISTS ", .name name,
        .text " (id INT UNSIGNED, link TEXT)"] ∧
      pieces? o.insertStatement = some [.text "INSERT INTO ", .name name,
        .text " (id, link) VALUES (?, ?)"] ∧
      ∀ name' o', ofString name' = .ok o' → name' ≠ name →
        ∀ s ∈ [o.createStatement, o.insertStatement],
          ∀ s' ∈ [o'.createStatement, o'.insertStatement], names? s ≠ names? s' := by
  obtain rfl := name_of_ofString h
  refine ⟨o.pieces?_createStatement, o.pieces?_insertStatement, ?_⟩
  intro name' o' h' hne s hs s' hs'
  obtain rfl := name_of_ofString h'
  rw [names?_of_mem_statements hs, names?_of_mem_statements hs']
  intro heq
  exact hne (List.singleton_inj.1 (Option.some.inj heq)).symm

/-- A name that looks like the end of the statement and another one behind it. -/
theorem pieces?_statements_foreign :
    let name := "\"\" (id); DROP TABLE main; --\""
    ∃ o, ofString name = .ok o ∧
      o.insertStatement =
        "INSERT INTO \"\"\"\"\" (id); DROP TABLE main; --\"\"\" (id, link) VALUES (?, ?)" ∧
      pieces? o.insertStatement = some [.text "INSERT INTO ", .name name,
        .text " (id, link) VALUES (?, ?)"] := by
  intro name
  have hvalid : isValidOrigin name = true := by decide +kernel
  have hname := ofString_of_valid hvalid
  have hstatement : "INSERT INTO " ++ quoteName name ++ " (id, link) VALUES (?, ?)" =
      "INSERT INTO \"\"\"\"\" (id); DROP TABLE main; --\"\"\" (id, link) VALUES (?, ?)" := by
    decide +kernel
  exact ⟨_, hname, hstatement, (pieces?_statements hname).2.1⟩

end OriginName

end PaperTrail
