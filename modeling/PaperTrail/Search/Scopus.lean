import PaperTrail.Json.Printer
import PaperTrail.Json.Reader
import PaperTrail.Json.Record
import PaperTrail.Search.Connector
import PaperTrail.Text.Digit
import PaperTrail.Text.Split

/-!
# Scopus

Every page names the address of the next one.

* `Scopus.ofConfig` : the connector of a configuration, for a query;
* `Scopus.firstRequest`, `Scopus.nextRequest` : the requests for pages;
* `Scopus.pageOf?` : the parts of a reply that are used;
* `Scopus.publicLink` : the page of a paper that everybody can read, from its address in the
  service;
* `Scopus.takePage` : the entries of a page, and the address of the next one.
-/

namespace PaperTrail

/-- A search of Scopus. -/
structure Scopus where
  baseUrl : Url
  token : String
  institutionalToken? : Option String
  /-- With a partner, links lead to public pages. -/
  partnerId? : Option String
  query : String
  /-- The address of the next page; missing when there is none. -/
  next? : Option String
deriving DecidableEq

namespace Scopus

def name : String := "scopus"

def defaultBase : Url :=
  ⟨"https", some ⟨"", none, "api.elsevier.com", none⟩, .segments [""], none, none⟩

def searchPath : List String := ["content", "search", "scopus"]

/-- The address of public pages. -/
def recordUrl : String := "https://www.scopus.com/inward/record.uri"

/-- The names of the fields that are asked for. -/
def fieldNames : List String :=
  ["prism:doi", "prism:isbn", "dc:title", "dc:description", "authkeywords", "prism:url"]

def new (baseUrl : Url) (token query : String) : Scopus :=
  ⟨baseUrl, token, none, none, query, none⟩

def urlError (e : UrlError) : FetchError := .url name e.message

def configured (c : Scopus) (cfg : Config) : Scopus :=
  { c with
    institutionalToken? := cfg.vendorParam name "institutional_token"
    partnerId? := cfg.vendorParam name "partner_id" }

def ofConfig (cfg : Config) (query : String) : Except FetchError Scopus :=
  match cfg.requireVendorParam name "token" with
  | .error e => .error (.config e)
  | .ok token =>
    match cfg.vendorParam name "base_url" with
    | none => .ok ((new defaultBase token query).configured cfg)
    | some base =>
      match Url.parse base with
      | .error e => .error (urlError e)
      | .ok url => .ok ((new url token query).configured cfg)

/-! ## Requests -/

/-- The request for a URL with the tokens of the search. -/
def authorized (c : Scopus) (url : Url) : Except FetchError Request :=
  let r? := do
    let r ← Request.get url
    let r ← r.withHeader "accept" "application/json"
    let r ← r.withHeader "x-els-apikey" c.token
    match c.institutionalToken? with
    | some t => r.withHeader "x-els-insttoken" t
    | none => some r
  match r? with
  | some r => .ok r
  | none => .error (.transport name)

def pairs (c : Scopus) : List (String × String) :=
  [("query", c.query), ("field", ",".intercalate fieldNames), ("view", "COMPLETE"),
    ("cursor", "*")]

def firstRequest (c : Scopus) : Except FetchError Request :=
  match c.baseUrl.resolve searchPath with
  | .error e => .error (urlError e)
  | .ok url => (c.authorized url).map (·.withQuery c.pairs)

def nextRequest (c : Scopus) (link : String) : Except FetchError Request :=
  match Url.parse link with
  | .error e => .error (urlError e)
  | .ok url => c.authorized url

/-! ## Replies -/

/-- A link of a page. -/
structure Link where
  rel : String
  href : String
deriving DecidableEq, Repr

/-- The links and the items of a page. -/
structure Results where
  links : List Link
  items? : Option (List Json)

def linkOf? (v : Json) : Option Link := do
  match ← v.slots? ["@ref", "@href"] with
  | [rel, href] =>
    return ⟨← rel.orDefault "" Json.string?, ← href.orDefault "" Json.string?⟩
  | _ => none

/-- How many arrays and objects surround an item. -/
def itemNesting : Nat := 3

/-- The items of a JSON value: any values that can be read. -/
def itemsOf? (v : Json) : Option (List Json) :=
  v.array?.filter fun items => items.all (Json.fits itemNesting)

def resultsOf? (v : Json) : Option Results := do
  match ← v.slots? ["link", "entry"] with
  | [links, items] =>
    return ⟨← links.orDefault [] (Json.list? linkOf?), ← items.nullable itemsOf?⟩
  | _ => none

/-- The results of a body, which may be missing. -/
def pageOf? (body : String) : Option (Option Results) := do
  let v ← Json.ofString? body
  match ← v.slots? ["search-results"] with
  | [results] => results.optional resultsOf?
  | _ => none

/-- The text of a field of an item: that of a string or a number, or the empty text. -/
def textOf (item : Json) (field : String) : String :=
  match item.get? field with
  | some (.string s) => s
  | some (.number n) => Json.numberText n
  | _ => ""

/-- The text of an ISBN, which may stand in a list of objects with the name `$`. -/
def isbnOf (item : Json) : String :=
  match item.get? "prism:isbn" with
  | some (.string s) => s
  | some (.array (v :: _)) => ((v.get? "$").bind Json.string?).getD ""
  | _ => ""

/-- What comes before the number of a record in its address. -/
def idMark : List Char := "scopus_id/".toList

/-- The digits after the first mark that has digits after it. -/
def markedId? : List Char → Option (List Char)
  | [] => none
  | c :: cs =>
    match Text.dropStartChars? idMark (c :: cs) with
    | some rest =>
      match rest.takeWhile Text.isDigit with
      | [] => markedId? cs
      | ds => some ds
    | none => markedId? cs

/-- The number of a record in its address: the marked one, or what follows the last slash. -/
def recordId (link : String) : String :=
  match markedId? link.toList with
  | some ds => String.ofList ds
  | none => Text.afterLast '/' link

/-- The address of a paper: that of the service, or with a partner that of the public page. -/
def publicLink (partnerId? : Option String) (link : String) : String :=
  match partnerId? with
  | none => link
  | some partner =>
    if link.isEmpty then ""
    else recordUrl ++ "?partnerID=" ++ partner ++ "&scp=" ++ recordId link

def entryOf (c : Scopus) (item : Json) : Entry :=
  let text := textOf item
  Entry.new ⟨text "prism:doi", isbnOf item, text "dc:title", text "dc:description",
      text "authkeywords"⟩
    [Source.withLink name (publicLink c.partnerId? (text "prism:url"))]

/-- Whether items stand for an empty page: there are none, or the first one reports an error. -/
def isEmptyPage : List Json → Bool
  | [] => true
  | item :: _ => (item.get? "error").isSome

def nextLink? (links : List Link) : Option String :=
  (links.find? fun l => l.rel == "next" && !l.href.isEmpty).map (·.href)

def takePage (c : Scopus) (results? : Option Results) : Scopus × List Entry :=
  let ended := ({ c with next? := none }, [])
  match results? with
  | none => ended
  | some r =>
    match r.items? with
    | none => ended
    | some items =>
      if isEmptyPage items then ended
      else ({ c with next? := nextLink? r.links }, items.map c.entryOf)

def receive (c : Scopus) (e : Exchange) : Scopus × Page :=
  match replyText name e with
  | .error err => (c, .error err)
  | .ok body =>
    match pageOf? body with
    | none => (c, .error (.decode name))
    | some results? =>
      let (c, entries) := c.takePage results?
      (c, .ok entries)

def fetchFirst (c : Scopus) : Call Scopus :=
  let c := { c with next? := none }
  match c.firstRequest with
  | .error e => .done c (.error e)
  | .ok r => .ask r c.receive

/-- Fetches the next page. The address of a page is used once. -/
def fetchNext (c : Scopus) : Call Scopus :=
  match c.next? with
  | none => .done c (.ok [])
  | some link =>
    let c := { c with next? := none }
    match c.nextRequest link with
    | .error e => .done c (.error e)
    | .ok r => .ask r c.receive

def connector (c : Scopus) : Connector Scopus where
  name := name
  state := c
  first := fetchFirst
  next := fetchNext

end Scopus

end PaperTrail
