import PaperTrail.Dictionary
import PaperTrail.Paper.Basic
import PaperTrail.Text.Case

/-!
# Contents of a store

* `MainRow`, `LinkRow` : a paper, and a place where it was found; values may be missing in rows that
  another program has written;
* `Database` : the papers in the order of their numbers, and the tables of the origins with their
  rows in the order in which they were added;
* `Database.find?` : the first paper with the same doi, title or abstract as a resource;
* `Database.listing` : the papers with some review values, with the links of given tables.
-/

namespace PaperTrail

/-- A paper. -/
structure MainRow where
  id : Int
  doi? : Option String
  isbn? : Option String
  title? : Option String
  abstract? : Option String
  keywords? : Option String
  rejected? : Option Int
  later? : Option Bool
  notes? : Option String
deriving DecidableEq, Repr

/-- A place where a paper was found. -/
structure LinkRow where
  id? : Option Int
  link? : Option String
deriving DecidableEq, Repr

namespace MainRow

def ofEntry (id : Int) (e : Entry) : MainRow where
  id
  doi? := some e.resource.doi
  isbn? := some e.resource.isbn
  title? := some e.resource.title
  abstract? := some e.resource.abstract
  keywords? := some e.resource.keywords
  rejected? := some e.review.rejected
  later? := some e.review.saveForLater
  notes? := some e.review.notes

def resource (r : MainRow) : Resource :=
  ⟨r.doi?.getD "", r.isbn?.getD "", r.title?.getD "", r.abstract?.getD "", r.keywords?.getD ""⟩

/-- The review value, `0` when it is missing. -/
def rejected (r : MainRow) : Int := r.rejected?.getD 0

def review (r : MainRow) : Review := ⟨r.rejected, r.later?.getD false, r.notes?.getD ""⟩

/-- The entry of the paper, as yet without sources. -/
def entry (r : MainRow) : Entry := ⟨r.resource, [], r.review⟩

def get? (r : MainRow) : IdentityField → Option String
  | .doi => r.doi?
  | .title => r.title?
  | .abstract => r.abstract?

end MainRow

/-! ## Recognising a paper -/

def beforeZero (s : String) : String := String.ofList (s.toList.takeWhile fun c => c.toNat ≠ 0)

/-- Whether two stored texts count as the same: they are equally long and agree, the case of ASCII
letters aside, up to the first zero character. -/
def sameStored (a b : String) : Bool :=
  a.utf8ByteSize == b.utf8ByteSize && Text.sameFolded (beforeZero a) (beforeZero b)

/-- Whether a row has the same text in one of the fields. -/
def MainRow.sharesAny (r : MainRow) (fields : List (IdentityField × String)) : Bool :=
  fields.any fun f => (r.get? f.1).any (sameStored · f.2)

/-- The contents of a store. -/
structure Database where
  /-- The papers in the order of their numbers. -/
  main : List MainRow
  /-- The rows of every other table. -/
  tables : Dictionary (List LinkRow)
deriving DecidableEq

namespace Database

def empty : Database := ⟨[], Dictionary.empty⟩

instance : Inhabited Database := ⟨empty⟩

/-- The contents of papers in any order and of other tables. -/
def ofRows (main : List MainRow) (tables : List (String × List LinkRow)) : Database :=
  ⟨main.mergeSort fun a b => decide (a.id ≤ b.id), Dictionary.ofList tables⟩

/-- The first paper that shares a field with a resource; none for a resource without fields that
are not blank. -/
def find? (db : Database) (r : Resource) : Option Int :=
  (db.main.find? (·.sharesAny r.identity)).map (·.id)

/-- The number of the next paper: one more than the highest, or `1` in an empty store. -/
def nextId (db : Database) : Int :=
  match db.main.getLast? with
  | none => 1
  | some r => r.id + 1

def addPaper (db : Database) (e : Entry) : Database :=
  { db with main := db.main ++ [MainRow.ofEntry db.nextId e] }

/-- The contents with an empty table, unless there is one of this name. -/
def addTable (db : Database) (name : String) : Database :=
  { db with tables := db.tables.insertNew name [] }

def addLink (db : Database) (name : String) (row : LinkRow) : Database :=
  { db with tables := db.tables.insert name ((db.tables.get? name).getD [] ++ [row]) }

/-- The contents with the paper of a number changed; without effect when there is none. -/
def update (db : Database) (id : Int) (change : MainRow → MainRow) : Database :=
  { db with main := db.main.map fun r => if r.id = id then change r else r }

/-! ## Listings -/

/-- The papers with one of the given review values, in the order of their numbers. -/
def chosen (db : Database) (rejected : List Int) : List MainRow :=
  db.main.filter fun r => rejected.contains r.rejected

/-- The links in a table of papers with one of the given review values, in the order of the table,
each with the number of the paper. -/
def linksTo (db : Database) (rejected : List Int) (table : String) : List (Int × Source) :=
  ((db.tables.get? table).getD []).filterMap fun l =>
    match l.id?, l.link? with
    | some id, some link =>
      if (db.chosen rejected).any (·.id = id) then some (id, ⟨table, some link⟩) else none
    | _, _ => none

/-- Puts a source into the entry of its paper; `ids` are the numbers of the entries. -/
def putSource (ids : List Int) (listed : List (Int × Entry)) (found : Int × Source) :
    List (Int × Entry) :=
  match ids.idxOf? found.1 with
  | none => listed
  | some slot => listed.modify slot fun row => (row.1, row.2.addSource found.2)

/-- The papers with one of the given review values, in the order of their numbers, with their links
in some tables. The links are gathered table by table. -/
def listing (db : Database) (tables : List String) (rejected : List Int) : List (Int × Entry) :=
  let listed := (db.chosen rejected).map fun r => (r.id, r.entry)
  if listed.isEmpty then listed
  else
    let ids := listed.map (·.1)
    tables.foldl (fun listed table => (db.linksTo rejected table).foldl (putSource ids) listed) listed

end Database

end PaperTrail
