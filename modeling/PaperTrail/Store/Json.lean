import PaperTrail.Json.Printer
import PaperTrail.Json.Reader
import PaperTrail.Json.Record
import PaperTrail.Store.Database

/-!
# Contents of a store as JSON

* `Database.text` : the contents of a store as a JSON text;
* `Database.ofText?` : the contents that such a text holds.

Every row is an array of its values; values that are missing are null.
-/

namespace PaperTrail

def Json.ofOption {α : Type} (f : α → Json) : Option α → Json
  | some a => f a
  | none => .null

namespace MainRow

def toJson (r : MainRow) : Json :=
  .array [.int r.id, Json.ofText? r.doi?, Json.ofText? r.isbn?, Json.ofText? r.title?,
    Json.ofText? r.abstract?, Json.ofText? r.keywords?, Json.ofOption .int r.rejected?,
    Json.ofOption .bool r.later?, Json.ofText? r.notes?]

def ofJson? (v : Json) : Option MainRow := do
  match ← v.array? with
  | [id, doi, isbn, title, abstract, keywords, rejected, later, notes] =>
    let text := Json.Slot.optional Json.string?
    return {
      id := ← id.int?
      doi? := ← text (.given doi)
      isbn? := ← text (.given isbn)
      title? := ← text (.given title)
      abstract? := ← text (.given abstract)
      keywords? := ← text (.given keywords)
      rejected? := ← Json.Slot.optional Json.int? (.given rejected)
      later? := ← Json.Slot.optional Json.bool? (.given later)
      notes? := ← text (.given notes) }
  | _ => none

end MainRow

namespace LinkRow

def toJson (l : LinkRow) : Json := .array [Json.ofOption .int l.id?, Json.ofText? l.link?]

def ofJson? (v : Json) : Option LinkRow := do
  match ← v.array? with
  | [id, link] =>
    return {
      id? := ← Json.Slot.optional Json.int? (.given id)
      link? := ← Json.Slot.optional Json.string? (.given link) }
  | _ => none

end LinkRow

namespace Database

/-- The JSON form of the contents of a store: the papers in the order of their numbers, and the rows
of every other table in their order. -/
def toJson (db : Database) : Json :=
  .object [("main", Json.ofList MainRow.toJson db.main),
    ("tables", .object (db.tables.entries.map fun t => (t.1, Json.ofList LinkRow.toJson t.2)))]

def ofJson? (v : Json) : Option Database := do
  let main ← Json.list? MainRow.ofJson? (← v.get? "main")
  let tables ← (← (← v.get? "tables").object?).mapM fun (t : String × Json) =>
    (Json.list? LinkRow.ofJson? t.2).map fun rows => (t.1, rows)
  return ofRows main tables

def text (db : Database) : String := db.toJson.compact

def ofText? (s : String) : Option Database := (Json.ofString? s).bind ofJson?

end Database

end PaperTrail
