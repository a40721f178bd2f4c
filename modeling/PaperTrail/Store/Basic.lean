import PaperTrail.Store.Database
import PaperTrail.Store.Origin
import PaperTrail.Text.Quoted

/-!
# Stores

A store keeps papers without duplicates. Writes belong to a unit of work that `save` makes durable:
until then only the store itself sees them, and they are lost when it is dropped.

* `Store` : the durable contents, the contents with all writes so far, the known origins and whether
  a unit of work is open;
* `Store.insert` : merges a batch of entries into the store, all of it or nothing, and saves;
* `Store.setRejected`, `Store.setLater`, `Store.setNotes` : the decisions of a reviewer;
* `Store.save`, `Store.close`, `Store.ofDatabase` : the ends of a unit of work, and opening;
* `Store.entries?`, `Store.origins` : what the store holds.
-/

namespace PaperTrail

/-- What an insertion did. -/
structure Report where
  /-- Entries that made a new paper. -/
  created : Nat
  /-- Entries that belong to a stored paper. -/
  matched : Nat
  /-- Rows added to the tables of the origins. -/
  links : Nat
deriving DecidableEq, Repr, Inhabited

namespace Report

def empty : Report := ⟨0, 0, 0⟩

def add (a b : Report) : Report :=
  ⟨a.created + b.created, a.matched + b.matched, a.links + b.links⟩

instance : Add Report := ⟨add⟩

end Report

/-- A store of papers. -/
structure Store where
  /-- What another connection sees. -/
  committed : Database
  /-- What the store itself sees. -/
  working : Database
  /-- The names of the origins' tables, by the names that tell origins apart. -/
  known : Dictionary OriginName
  /-- Whether a unit of work is open. -/
  pending : Bool

namespace Store

/-- The known origins with the one that a table belongs to, if there is one and it is new. -/
def noteTable (known : Dictionary OriginName) (name : String) : Dictionary OriginName :=
  match OriginName.ofString name with
  | .ok o => known.insertNew o.key o
  | .error _ => known

/-- The origins among the tables of a database. Of names that differ in case only, the first one
counts. -/
def originsOf (db : Database) : Dictionary OriginName :=
  db.tables.keys.foldl noteTable Dictionary.empty

def ofDatabase (db : Database) : Store := ⟨db, db, originsOf db, false⟩

def origins (s : Store) : List String := s.known.values.map (·.name)

def hasPendingWrites (s : Store) : Bool := s.pending

/-! ## Units of work -/

/-- Opens a unit of work, unless one is open. -/
def begin (s : Store) : Store := { s with pending := true }

/-- Makes every write so far durable; without effect when nothing is pending. -/
def save (s : Store) : Store :=
  if s.pending then { s with committed := s.working, pending := false } else s

/-- Undoes every write of the open unit of work. -/
def rollback (s : Store) : Store := { s with working := s.committed, pending := false }

/-- The contents that remain when the store is closed. -/
def close (s : Store) : Database := s.save.committed

/-- The contents that remain when the store is dropped. -/
def drop (s : Store) : Database := s.committed

/-! ## Reviews -/

/-- Changes the paper of a number, and saves when asked to. -/
def change (s : Store) (id : Int) (f : MainRow → MainRow) (saveNow : Bool) : Store :=
  let s := s.begin
  let s := { s with working := s.working.update id f }
  if saveNow then s.save else s

def setRejected (s : Store) (id value : Int) (saveNow : Bool) : Store :=
  s.change id (fun r => { r with rejected? := some value }) saveNow

def setLater (s : Store) (id : Int) (value saveNow : Bool) : Store :=
  s.change id (fun r => { r with later? := some value }) saveNow

def setNotes (s : Store) (id : Int) (notes : String) (saveNow : Bool) : Store :=
  s.change id (fun r => { r with notes? := some notes }) saveNow

/-! ## Insertion -/

/-- The state of an insertion: the store, the keys of the origins that it added, and its report. -/
structure Batch where
  store : Store
  added : List String
  report : Report

namespace Batch

def ensureOrigin (b : Batch) (origin : String) : Except InvalidOrigin Batch :=
  let s := b.store
  if s.known.contains (originKey origin) then .ok b
  else
    match OriginName.ofString origin with
    | .error e => .error e
    | .ok o =>
      let s := { s with
        working := s.working.addTable o.name
        known := s.known.insert o.key o }
      .ok { b with store := s, added := b.added ++ [o.key] }

/-- Makes the origins of all sources known; an error comes with what was done before it. -/
def ensureOrigins (b : Batch) : List Source → Batch × Option InvalidOrigin
  | [] => (b, none)
  | s :: rest =>
    match b.ensureOrigin s.origin with
    | .error e => (b, some e)
    | .ok b => b.ensureOrigins rest

/-- The number of the paper of an entry, which is added when there is none yet. -/
def resolve (b : Batch) (e : Entry) : Int × Batch :=
  match b.store.working.find? e.resource with
  | some id => (id, { b with report := b.report.add ⟨0, 1, 0⟩ })
  | none =>
    let db := b.store.working
    (db.nextId, { b with
      store := { b.store with working := db.addPaper e }
      report := b.report.add ⟨1, 0, 0⟩ })

/-- Adds a link to the table of its origin, which has to be known. -/
def addLink (b : Batch) (id : Int) (s : Source) : Except InvalidOrigin Batch :=
  match b.store.known.get? (originKey s.origin) with
  | none => .error ⟨s.origin⟩
  | some o => .ok { b with
      store := { b.store with working := b.store.working.addLink o.name ⟨some id, s.link?⟩ }
      report := b.report.add ⟨0, 0, 1⟩ }

def addLinks (b : Batch) (id : Int) : List Source → Batch × Option InvalidOrigin
  | [] => (b, none)
  | s :: rest =>
    match b.addLink id s with
    | .error e => (b, some e)
    | .ok b => b.addLinks id rest

/-- Takes in one entry: its origins, its paper, and its links. -/
def addEntry (b : Batch) (e : Entry) : Batch × Option InvalidOrigin :=
  match b.ensureOrigins e.sources with
  | (b, some err) => (b, some err)
  | (b, none) =>
    let (id, b) := b.resolve e
    b.addLinks id e.sources

/-- Takes in entries in their order, up to the first one that fails. -/
def addEntries (b : Batch) : List Entry → Batch × Option InvalidOrigin
  | [] => (b, none)
  | e :: rest =>
    match b.addEntry e with
    | (b, some err) => (b, some err)
    | (b, none) => b.addEntries rest

end Batch

/-- Undoes a failed insertion: the origins that it added are forgotten, and the contents become
those of the savepoint, or those at the start of the unit of work when the insertion opened it. -/
def abandon (b : Batch) (savepoint : Database) (opened : Bool) : Store :=
  let s := { b.store with known := b.added.foldl Dictionary.erase b.store.known }
  if opened then s.rollback else { s with working := savepoint }

/-- Merges entries into the store and saves. An entry belongs to the first stored paper with which
it shares a doi, title or abstract; such a paper keeps what is known of it, and only links are
added. Nothing remains of a batch that fails. -/
def insert (s : Store) (entries : List Entry) : Store × Except InvalidOrigin Report :=
  if entries.isEmpty then (s, .ok Report.empty)
  else
    let opened := !s.pending
    match (Batch.mk s.begin [] Report.empty).addEntries entries with
    | (b, some e) => (abandon b s.working opened, .error e)
    | (b, none) => (b.store.save, .ok b.report)

/-! ## Listings -/

/-- The papers with one of the given review values, in the order of their numbers, with their links
in the order of the origins. -/
def entries (s : Store) (rejected : List Int) : List (Int × Entry) :=
  s.working.listing s.origins rejected

/-- How many values can be asked for at once. -/
def maxParameters : Nat := 32766

/-- The papers with one of the given review values, as `entries` lists them; none when these are more
values than can be asked for at once. -/
def entries? (s : Store) (rejected : List Int) : Option (List (Int × Entry)) :=
  if rejected.isEmpty then some []
  else if maxParameters < rejected.length then none
  else some (s.entries rejected)

/-- A store in one line: the keys of its origins, and whether writes are pending. -/
def outline (s : Store) : String :=
  "Store \x7b origins: [" ++ ", ".intercalate (s.known.keys.map Text.quoted) ++ "], pending: " ++
    (if s.pending then "true" else "false") ++ ", .. \x7d"

end Store

end PaperTrail
