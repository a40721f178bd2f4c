import PaperTrail.Url.Host

/-!
# Reading URLs

Blanks and controls around a URL and line breaks and tabs in it have no meaning. The web schemes
always have a host, take backslashes for slashes and need no slashes before the host; in other
schemes two slashes announce a host.

* `Url.parse` : the URL of a text, or why it is none;
* `Url.pathSegments` : the segments of a path, with `.` and `..` carried out.
-/

namespace PaperTrail.Url

/-- The web schemes with their usual ports. -/
def webSchemes : List (String × Nat) :=
  [("http", 80), ("https", 443), ("ws", 80), ("wss", 443), ("ftp", 21)]

/-- Whether a scheme is a web scheme or that of files. -/
def isSpecial (scheme : String) : Bool := scheme == "file" || webSchemes.any (·.1 == scheme)

/-- The text without the characters that have no meaning. -/
def cleaned (s : String) : List Char :=
  let isOuter (c : Char) : Bool := decide (c.toNat ≤ 0x20)
  let cs := ((s.toList.dropWhile isOuter).reverse.dropWhile isOuter).reverse
  cs.filter fun c => c ≠ '\t' ∧ c ≠ '\n' ∧ c ≠ '\r'

def isSchemeChar (c : Char) : Bool := c.isAlphanum || c == '+' || c == '-' || c == '.'

/-- The scheme of a text in lower case, and the text after its colon. -/
def scheme? (cs : List Char) : Option (String × List Char) :=
  let name := cs.takeWhile isSchemeChar
  match name.head?, cs.drop name.length with
  | some c, ':' :: rest =>
    if c.isAlpha then some (Text.fold (String.ofList name), rest) else none
  | _, _ => none

/-! ## Authority -/

def endsAuthority (special : Bool) (c : Char) : Bool :=
  c == '/' || c == '?' || c == '#' || (special && c == '\\')

def cutLastAt (cs : List Char) : Option (List Char × List Char) :=
  if cs.contains '@' then
    let host := (cs.reverse.takeWhile (· ≠ '@')).reverse
    some (cs.take (cs.length - host.length - 1), host)
  else none

def userOf (cs : List Char) : String × Option String :=
  let name := cs.takeWhile (· ≠ ':')
  let password := cs.drop (name.length + 1)
  let encode (cs : List Char) : String :=
    String.ofList (Percent.encodeChars Percent.keptUserinfo cs)
  (encode name, if password.isEmpty then none else some (encode password))

/-- The host at the start of a text, up to a colon outside of brackets. -/
def hostPart (inside : Bool) : List Char → List Char × List Char
  | [] => ([], [])
  | c :: cs =>
    if c = ':' ∧ ¬ inside then ([], c :: cs)
    else
      let inside := if c = '[' then true else if c = ']' then false else inside
      let p := hostPart inside cs
      (c :: p.1, p.2)

/-- The port of digits, if it is not the usual one. -/
def port (scheme : String) (cs : List Char) : Except UrlError (Option Nat) :=
  if ¬ cs.all Char.isDigit then .error .invalidPort
  else
    let n := Decimal.natural cs
    if 65535 < n then .error .invalidPort
    else if cs.isEmpty ∨ webSchemes.contains (scheme, n) then .ok none
    else .ok (some n)

/-- The authority of a text; `atEnd` says that nothing follows it. An empty host goes with neither
a user name nor a port. -/
def authority (scheme : String) (atEnd : Bool) (cs : List Char) : Except UrlError Authority := do
  let special := isSpecial scheme
  let (user, rest) := (cutLastAt cs).getD ([], cs)
  let (userName, password?) := userOf user
  let (hostText, afterHost) := hostPart false rest
  let hasUser := !userName.isEmpty || password?.isSome || (cs == ['@'] && !atEnd)
  if hostText.isEmpty ∧ (special ∨ hasUser ∨ ¬ afterHost.isEmpty) then .error .emptyHost
  else
    let host ← if special then Host.parse hostText else Host.parseOpaque hostText
    let port? ← port scheme (afterHost.drop 1)
    return { userName, password?, host, port? }

/-! ## Path, query and fragment -/

def isDoubleDot (cs : List Char) : Bool :=
  ["..", ".%2e", "%2e.", "%2e%2e"].contains (Text.fold (String.ofList cs))

def isSingleDot (cs : List Char) : Bool := [".", "%2e"].contains (Text.fold (String.ofList cs))

/-- The segments of parts between slashes, behind those of `path`. -/
def addSegments (path : List String) : List (List Char) → List String
  | [] => path
  | [p] =>
    if isDoubleDot p then path.dropLast ++ [""]
    else if isSingleDot p then path ++ [""]
    else path ++ [String.ofList (Percent.encodeChars Percent.keptPath p)]
  | p :: q :: rest =>
    if isDoubleDot p then addSegments path.dropLast (q :: rest)
    else if isSingleDot p then addSegments path (q :: rest)
    else addSegments (path ++ [String.ofList (Percent.encodeChars Percent.keptPath p)]) (q :: rest)

/-- The segments of a path. The path of a special scheme is never empty. -/
def pathSegments (special : Bool) (cs : List Char) : List String :=
  let cs := if special then cs.map fun c => if c = '\\' then '/' else c else cs
  match cs with
  | [] => if special then [""] else []
  | '/' :: cs => addSegments [] (Text.splitChars '/' cs)
  | cs => addSegments [] (Text.splitChars '/' cs)

structure Tail where
  path : List Char
  query? : Option (List Char)
  fragment? : Option (List Char)

def tailOf (cs : List Char) : Tail :=
  let beforeFragment := cs.takeWhile (· ≠ '#')
  let fragment? := if cs.contains '#' then some (cs.drop (beforeFragment.length + 1)) else none
  let path := beforeFragment.takeWhile (· ≠ '?')
  let query? :=
    if beforeFragment.contains '?' then some (beforeFragment.drop (path.length + 1)) else none
  ⟨path, query?, fragment?⟩

def assemble (scheme : String) (authority? : Option Authority) (path : UrlPath) (t : Tail) :
    Url where
  scheme
  authority?
  path
  query? := t.query?.map fun q =>
    String.ofList (Percent.encodeChars (Percent.keptQuery (isSpecial scheme)) q)
  fragment? := t.fragment?.map fun f => String.ofList (Percent.encodeChars Percent.keptFragment f)

def withAuthority (scheme : String) (cs : List Char) : Except UrlError Url := do
  let special := isSpecial scheme
  let text := cs.takeWhile fun c => ¬ endsAuthority special c
  let a ← authority scheme (text.length == cs.length) text
  let t := tailOf (cs.drop text.length)
  return assemble scheme (some a) (.segments (pathSegments special t.path)) t

/-- Whether `c` is a slash of a special scheme. -/
def isSlash (c : Char) : Bool := c == '/' || c == '\\'

/-- The URL of a file, whose host may be missing. -/
def fileUrl (cs : List Char) : Except UrlError Url := do
  let slashes := (cs.takeWhile isSlash).length
  if 2 ≤ slashes then
    let cs := cs.drop 2
    let text := cs.takeWhile fun c => ¬ endsAuthority true c
    let host ← if text.isEmpty then .ok "" else Host.parse text
    let host := if host = "localhost" then "" else host
    let t := tailOf (cs.drop text.length)
    let path := UrlPath.segments (pathSegments true t.path)
    return assemble "file" (some ⟨"", none, host, none⟩) path t
  else
    let t := tailOf cs
    return assemble "file" (some ⟨"", none, "", none⟩) (.segments (pathSegments true t.path)) t

/-- The URL of a text, or why it is none. -/
def parse (s : String) : Except UrlError Url :=
  match scheme? (cleaned s) with
  | none => .error .relativeWithoutBase
  | some (scheme, cs) =>
    if scheme = "file" then fileUrl cs
    else if isSpecial scheme then withAuthority scheme (cs.dropWhile isSlash)
    else
      match cs with
      | '/' :: '/' :: cs => withAuthority scheme cs
      | '/' :: _ =>
        let t := tailOf cs
        .ok (assemble scheme none (.segments (pathSegments false t.path)) t)
      | _ =>
        let t := tailOf cs
        .ok (assemble scheme none
          (.opaqueText (String.ofList (Percent.encodeChars Percent.keptOpaque t.path))) t)

end PaperTrail.Url
