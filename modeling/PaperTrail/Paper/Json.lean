import PaperTrail.Json.Printer
import PaperTrail.Json.Reader
import PaperTrail.Json.Record
import PaperTrail.Paper.Basic

/-!
# Entries as JSON

* `Entry.toJson`, `Entry.ofJson?` : the JSON form of an entry and its reader;
* `Entry.text`, `Entry.ofText?` : the same on texts;
* `listingLine` : a stored entry with its number, as one line of a listing.
-/

namespace PaperTrail

def Resource.toJson (r : Resource) : Json :=
  .object [("doi", .string r.doi), ("isbn", .string r.isbn), ("title", .string r.title),
    ("abstract", .string r.abstract), ("keywords", .string r.keywords)]

def Source.toJson (s : Source) : Json :=
  .object [("origin", .string s.origin), ("link", Json.ofText? s.link?)]

def Review.toJson (r : Review) : Json :=
  .object [("rejected", .int r.rejected), ("save_for_later", .bool r.saveForLater),
    ("notes", .string r.notes)]

namespace Entry

def members (e : Entry) : List (String × Json) :=
  [("resource", e.resource.toJson), ("sources", Json.ofList Source.toJson e.sources),
    ("state", e.review.toJson)]

def toJson (e : Entry) : Json := .object e.members

def text (e : Entry) : String := e.toJson.compact

end Entry

/-- A stored entry with its number, as one line of a listing. -/
def listingLine (id : Int) (e : Entry) : String :=
  (Json.object (("id", .int id) :: e.members)).compact

/-! ## Reading -/

def Resource.ofJson? (v : Json) : Option Resource := do
  match ← v.slots? ["doi", "isbn", "title", "abstract", "keywords"] with
  | [doi, isbn, title, abstract, keywords] =>
    return {
      doi := ← doi.required Json.string?
      isbn := ← isbn.required Json.string?
      title := ← title.required Json.string?
      abstract := ← abstract.required Json.string?
      keywords := ← keywords.required Json.string? }
  | _ => none

def Source.ofJson? (v : Json) : Option Source := do
  match ← v.slots? ["origin", "link"] with
  | [origin, link] =>
    return { origin := ← origin.required Json.string?, link? := ← link.optional Json.string? }
  | _ => none

def Review.ofJson? (v : Json) : Option Review := do
  match ← v.slots? ["rejected", "save_for_later", "notes"] with
  | [rejected, later, notes] =>
    return {
      rejected := ← rejected.required (Json.intBetween? Number.minInt Number.maxInt)
      saveForLater := ← later.required Json.bool?
      notes := ← notes.required Json.string? }
  | _ => none

namespace Entry

/-- The entry of a JSON value. A missing review is a new one. -/
def ofJson? (v : Json) : Option Entry := do
  match ← v.slots? ["resource", "sources", "state"] with
  | [resource, sources, review] =>
    return {
      resource := ← resource.required Resource.ofJson?
      sources := ← sources.required (Json.list? Source.ofJson?)
      review := ← review.orDefault Review.new Review.ofJson? }
  | _ => none

def ofText? (s : String) : Option Entry := (Json.ofString? s).bind ofJson?

end Entry

end PaperTrail
