import PaperTrail.Http.Base64
import PaperTrail.Url.Form
import PaperTrail.Url.Parser

/-!
# Requests and replies

* `Request` : what is asked of a server: a URL and headers, their names in lower case;
* `Request.get` : the request for a URL, whose user name and password go into a header;
* `Request.withHeader`, `Request.withQuery` : further headers, and the query of the URL;
* `Exchange` : what comes of a request: a reply, the body of which may break off, or nothing.
-/

namespace PaperTrail

/-- What is asked of a server. -/
structure Request where
  url : Url
  headers : List (String × String)
deriving DecidableEq, Repr

/-- What comes of a request. -/
inductive Exchange where
  /-- There is no reply. -/
  | failed
  /-- A reply with its status code; the body is missing when it breaks off. -/
  | reply (status : Nat) (body? : Option String)
deriving DecidableEq, Repr, Inhabited

namespace Request

def method : String := "GET"

/-- Whether a header can have the value: it has no control characters but tabs. -/
def isHeaderValue (s : String) : Bool :=
  s.toList.all fun c => c == '\t' || (decide (0x20 ≤ c.toNat) && c.toNat != 0x7F)

def basicCredentials (userName : String) (password? : Option String) : String :=
  let plain := userName ++ ":" ++ password?.getD ""
  "Basic " ++ String.ofList (Base64.encode (Percent.utf8Bytes plain.toList))

/-- The user name and password of a URL, read back from their encoded form. -/
def credentials? (u : Url) : Option (String × Option String) := do
  let a ← u.authority?
  let userName ← Percent.decode? a.userName
  let password? := a.password?.bind Percent.decode?
  if userName.isEmpty ∧ password?.isNone then none else some (userName, password?)

/-- The request for a URL, which has to name a host. -/
def get (u : Url) : Option Request :=
  if ¬ u.hasHost then none
  else
    match credentials? u with
    | none => some ⟨u, []⟩
    | some (userName, password?) =>
      some ⟨u.withoutUser, [("authorization", basicCredentials userName password?)]⟩

/-- The request with a further header; none when the header cannot have the value. -/
def withHeader (r : Request) (name value : String) : Option Request :=
  if isHeaderValue value then some { r with headers := r.headers ++ [(name, value)] } else none

def withQuery (r : Request) (pairs : List (String × String)) : Request :=
  let added := Form.encodePairs pairs
  let query := match r.url.query? with
    | none => added
    | some q => if q.isEmpty then added else q ++ "&" ++ added
  { r with url := { r.url with query? := some query } }

end Request

/-- The text of a body: a mark of the byte order at its start is dropped. -/
def bodyText (s : String) : String :=
  match s.toList with
  | c :: cs => if c.toNat = 0xFEFF then String.ofList cs else s
  | [] => s

/-- The answer to every request where there is no network. -/
def offline : Request → Exchange := fun _ => .failed

end PaperTrail
