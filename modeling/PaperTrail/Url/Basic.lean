import PaperTrail.Url.Percent

/-!
# URLs

* `Url` : scheme, authority, path, query and fragment, each in its encoded form;
* `Url.text` : the URL as a text;
* `Url.resolve` : the URL of a relative path, which takes the place of the last segment of the path;
* `UrlError` : why a text is no URL.
-/

namespace PaperTrail

/-- Why a text is no URL. -/
inductive UrlError where
  | relativeWithoutBase
  | opaqueBase
  | emptyHost
  | invalidPort
  | invalidIpv4
  | invalidIpv6
  | invalidDomain
  | invalidHostCharacter
deriving DecidableEq, Repr

def UrlError.message : UrlError → String
  | relativeWithoutBase => "relative URL without a base"
  | opaqueBase => "relative URL with a cannot-be-a-base base"
  | emptyHost => "empty host"
  | invalidPort => "invalid port number"
  | invalidIpv4 => "invalid IPv4 address"
  | invalidIpv6 => "invalid IPv6 address"
  | invalidDomain => "invalid international domain name"
  | invalidHostCharacter => "invalid domain character"

/-- Who answers under a URL. -/
structure Authority where
  userName : String
  password? : Option String
  /-- The host, empty when there is none. -/
  host : String
  /-- The port, if it is not the usual one of the scheme. -/
  port? : Option Nat
deriving DecidableEq, Repr

/-- The path of a URL: segments, or a text without structure. -/
inductive UrlPath where
  | opaqueText (text : String)
  | segments (segments : List String)
deriving DecidableEq, Repr

structure Url where
  scheme : String
  authority? : Option Authority
  path : UrlPath
  query? : Option String
  fragment? : Option String
deriving DecidableEq, Repr

namespace Authority

def withoutUser (a : Authority) : Authority := { a with userName := "", password? := none }

def text (a : Authority) : String :=
  let user := match a.password? with
    | some p => a.userName ++ ":" ++ p ++ "@"
    | none => if a.userName.isEmpty then "" else a.userName ++ "@"
  user ++ a.host ++ (match a.port? with
    | some p => ":" ++ toString p
    | none => "")

end Authority

def UrlPath.text : UrlPath → String
  | opaqueText s => s
  | segments ss => String.join (ss.map ("/" ++ ·))

namespace Url

/-- The part of a URL that is asked for: path and query. -/
def target (u : Url) : String :=
  u.path.text ++ (match u.query? with
    | some q => "?" ++ q
    | none => "")

def text (u : Url) : String :=
  u.scheme ++ ":" ++ (match u.authority? with
    | some a => "//" ++ a.text
    | none => "") ++ u.target ++ (match u.fragment? with
    | some f => "#" ++ f
    | none => "")

def hasHost (u : Url) : Bool := u.authority?.any fun a => !a.host.isEmpty

/-- The URL of a relative path: its segments take the place of the last segment of the path, query
and fragment are dropped. -/
def resolve (u : Url) (relative : List String) : Except UrlError Url :=
  match u.path with
  | .opaqueText _ => .error .opaqueBase
  | .segments ss =>
    .ok { u with path := .segments (ss.dropLast ++ relative), query? := none, fragment? := none }

def withoutUser (u : Url) : Url := { u with authority? := u.authority?.map Authority.withoutUser }

end Url

end PaperTrail
