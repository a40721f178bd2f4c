import PaperTrail.Decimal.Natural
import PaperTrail.Json.Reader
import PaperTrail.Json.Record
import PaperTrail.Search.Connector

/-!
# IEEE Xplore

Pages are addressed by the number of their first record, counted from 1. The next page starts behind
the records received so far; there is none after an empty page, or when the reported total does not
reach it.

* `Ieee.ofConfig` : the connector of a configuration, for a query;
* `Ieee.request` : the request for a page;
* `Ieee.pageOf?` : the reported total and the entries of a reply;
* `Ieee.nextStart` : where the next page starts.
-/

namespace PaperTrail

/-- A search of IEEE Xplore. -/
structure Ieee where
  baseUrl : Url
  token : String
  query : String
  /-- The greatest number of records of a page, at least 1. -/
  maxRecords : Nat
  /-- The first record of the next page; missing when there is none. -/
  next? : Option Nat
deriving DecidableEq

namespace Ieee

def name : String := "ieee"

def defaultBase : Url :=
  ⟨"https", some ⟨"", none, "ieeexploreapi.ieee.org", none⟩, .segments [""], none, none⟩

def searchPath : List String := ["api", "v1", "search", "articles"]

def defaultMaxRecords : Nat := 200

def maxNumber : Nat := 4294967295

def new (baseUrl : Url) (token query : String) : Ieee :=
  ⟨baseUrl, token, query, defaultMaxRecords, none⟩

/-- The search with another size of pages, `1` in place of `0`. -/
def withMaxRecords (c : Ieee) (n : Nat) : Ieee := { c with maxRecords := max n 1 }

def urlError (e : UrlError) : FetchError := .url name e.message

/-- A number of 32 bits: digits, with a plus before them or not. -/
def number? (s : String) : Option Nat :=
  (Decimal.unsigned? s.toList).filter fun n => decide (n ≤ maxNumber)

def configured (c : Ieee) (cfg : Config) : Except FetchError Ieee :=
  match cfg.vendorParam name "max_records" with
  | none => .ok c
  | some raw =>
    match (number? raw).filter (0 < ·) with
    | some n => .ok (c.withMaxRecords n)
    | none => .error (.config (.invalid .maxRecords))

def ofConfig (cfg : Config) (query : String) : Except FetchError Ieee :=
  match cfg.requireVendorParam name "token" with
  | .error e => .error (.config e)
  | .ok token =>
    match cfg.vendorParam name "base_url" with
    | none => (new defaultBase token query).configured cfg
    | some base =>
      match Url.parse base with
      | .error e => .error (urlError e)
      | .ok url => (new url token query).configured cfg

/-! ## Requests -/

def pairs (c : Ieee) (start : Nat) : List (String × String) :=
  [("apikey", c.token), ("querytext", c.query), ("start_record", toString start),
    ("max_records", toString c.maxRecords)]

/-- The request for the page that starts with a record. -/
def request (c : Ieee) (start : Nat) : Except FetchError Request :=
  match c.baseUrl.resolve searchPath with
  | .error e => .error (urlError e)
  | .ok url =>
    match (Request.get url).bind (·.withHeader "accept" "application/json") with
    | none => .error (.transport name)
    | some r => .ok (r.withQuery (c.pairs start))

/-! ## Replies -/

def termsOf? (v : Json) : Option (List String) := do
  match ← v.slots? ["terms"] with
  | [terms] => terms.orDefault [] (Json.list? Json.string?)
  | _ => none

def keywordsOf? (v : Json) : Option (Option (List String)) := do
  match ← v.slots? ["author_terms"] with
  | [terms] => terms.nullable termsOf?
  | _ => none

def entryOf? (v : Json) : Option Entry := do
  match ← v.slots? ["doi", "isbn", "title", "abstract", "html_url", "index_terms"] with
  | [doi, isbn, title, abstract, link, terms] =>
    let text (s : Json.Slot) : Option String := (s.nullable Json.string?).map (·.getD "")
    let resource : Resource := {
      doi := ← text doi
      isbn := ← text isbn
      title := ← text title
      abstract := ← text abstract
      keywords := "" }
    let link ← text link
    let keywords ← terms.nullable keywordsOf?
    return Entry.new { resource with keywords := joinKeywords (keywords.join.getD []) }
      [Source.withLink name link]
  | _ => none

/-- The reported total and the entries of a body. -/
def pageOf? (body : String) : Option (Option Nat × List Entry) := do
  let v ← Json.ofString? body
  match ← v.slots? ["total_records", "articles"] with
  | [total, articles] =>
    let total ← total.nullable (Json.intBetween? 0 Number.maxUnsigned)
    return (total.map Int.toNat, ← articles.orDefault [] (Json.list? entryOf?))
  | _ => none

/-- Where the page starts after one of `received` records; there is none behind the reported
total. Numbers stay within 32 bits. -/
def nextStart (start received : Nat) (total? : Option Nat) : Option Nat :=
  if received = 0 then none
  else
    let next := min (start + min received maxNumber) maxNumber
    match total? with
    | some total => if total < next then none else some next
    | none => some next

/-- Takes in the reply for the page that starts with a record. -/
def receive (c : Ieee) (start : Nat) (e : Exchange) : Ieee × Page :=
  match replyText name e with
  | .error err => (c, .error err)
  | .ok body =>
    match pageOf? body with
    | none => (c, .error (.decode name))
    | some (total?, entries) =>
      ({ c with next? := nextStart start entries.length total? }, .ok entries)

def fetch (c : Ieee) : Call Ieee :=
  match c.next? with
  | none => .done c (.ok [])
  | some start =>
    match c.request start with
    | .error e => .done c (.error e)
    | .ok r => .ask r (c.receive start)

def connector (c : Ieee) : Connector Ieee where
  name := name
  state := c
  first := fun c => { c with next? := some 1 }.fetch
  next := fetch

end Ieee

end PaperTrail
