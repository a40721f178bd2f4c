import PaperTrail.Decimal.Natural
import PaperTrail.Yaml.Token
import PaperTrail.Yaml.Token.Quoted

/-!
# Tags, anchors and directives

* `name` : the name of an anchor or an alias;
* `tag` : a tag: `!<suffix>`, `!suffix`, `!handle!suffix`, or the mark alone;
* `directive` : a line that starts with a percent sign and gives the version or a tag handle.

The bytes of a tag end at a zero byte.
-/

namespace PaperTrail.Yaml.Tag

/-- The names of anchors end before a blank or one of a few marks. -/
def name (c : Cursor) : Option (String × Cursor) :=
  let c := c.skip 1
  let n := c.rest.takeWhile isNameChar
  let c := c.skip n.length
  let ended := match c.rest with
    | [] => true
    | x :: _ => endsWord c.rest || "?:,]\x7d%@".toList.contains x || x.toNat == 0x60
  if n.isEmpty || !ended then none else some (String.ofList n, c)

/-- Whether `c` may stand in a tag; the marks of flow collections only between angle brackets. -/
def isUriChar (verbatim : Bool) (c : Char) : Bool :=
  isNameChar c || ";/?:@&=+$.%!~*'()".toList.contains c || (verbatim && ",[]".toList.contains c)

/-- The count of bytes of a character that starts with `octet`. -/
def width? (octet : Nat) : Option Nat :=
  if octet < 0x80 then some 1
  else if 0xC0 ≤ octet ∧ octet < 0xE0 then some 2
  else if 0xE0 ≤ octet ∧ octet < 0xF0 then some 3
  else if 0xF0 ≤ octet ∧ octet < 0xF8 then some 4
  else none

def octet? : List Char → Option (Nat × List Char)
  | '%' :: cs => Quoted.hexNumber? 2 0 cs
  | _ => none

/-- The bytes of `n` escapes that go on a character. -/
def trailing? : Nat → List Char → Option (TagBytes × List Char)
  | 0, cs => some ([], cs)
  | n + 1, cs => do
    let (octet, cs) ← octet? cs
    if octet / 0x40 ≠ 2 then none
    else
      let (bytes, cs) ← trailing? n cs
      some (UInt8.ofNat octet :: bytes, cs)

def escaped? (cs : List Char) : Option (TagBytes × List Char) := do
  let (octet, cs) ← octet? cs
  let (bytes, cs) ← trailing? ((← width? octet) - 1) cs
  return (UInt8.ofNat octet :: bytes, cs)

/-- The bytes of a tag, in at most the given steps. -/
def uriBytes (verbatim : Bool) : Nat → List Char → Option (TagBytes × List Char)
  | 0, cs => some ([], cs)
  | _ + 1, [] => some ([], [])
  | n + 1, c :: cs =>
    if ¬ isUriChar verbatim c then some ([], c :: cs)
    else if c = '%' then
      match escaped? (c :: cs) with
      | none => none
      | some (bytes, cs) => (uriBytes verbatim n cs).map fun p => (bytes ++ p.1, p.2)
    else (uriBytes verbatim n cs).map fun p => (UInt8.ofNat c.toNat :: p.1, p.2)

def untilZero (bytes : TagBytes) : TagBytes := bytes.takeWhile (· ≠ 0)

def asciiBytes (cs : List Char) : TagBytes := cs.map fun c => UInt8.ofNat c.toNat

/-- Reads the bytes at a cursor behind `head`; none when there is neither a head nor a byte. -/
def uri (verbatim : Bool) (head : List Char) (c : Cursor) : Option (TagBytes × Cursor) := do
  let (bytes, r) ← uriBytes verbatim c.bound c.rest
  if head.isEmpty ∧ r.length = c.rest.length then none
  else some (untilZero (asciiBytes (head.drop 1) ++ bytes), c.moveTo r)

/-- Reads a handle: a mark, a name, and a second mark, which may be missing. -/
def handle (c : Cursor) : Option (List Char × Cursor) :=
  match c.rest with
  | '!' :: cs =>
    let n := cs.takeWhile isNameChar
    let c := c.skip (n.length + 1)
    if c.rest.head? = some '!' then some ('!' :: (n ++ ['!']), c.skip 1) else some ('!' :: n, c)
  | _ => none

/-- Whether a handle has its second mark. -/
def isClosed (h : List Char) : Bool := decide (1 < h.length) && h.getLast? == some '!'

def tag (flow : Bool) (c : Cursor) : Option (Token × Cursor) := do
  let (t, c) ←
    if c.rest.drop 1 |>.head? |> (· == some '<') then do
      let (suffix, c) ← uri true [] (c.skip 2)
      if c.rest.head? = some '>' then some (Token.tag "" suffix, c.skip 1) else none
    else do
      let (h, c) ← handle c
      if isClosed h then do
        let (suffix, c) ← uri false [] c
        some (Token.tag (String.ofList h) suffix, c)
      else do
        let (suffix, c) ← uri false h c
        some (if suffix.isEmpty then Token.tag "" (asciiBytes ['!']) else Token.tag "!" suffix, c)
  if (flow && c.rest.head? == some ',') || endsWord c.rest then some (t, c) else none

/-! ## Directives -/

/-- Reads a number of at most nine digits. -/
def versionNumber (c : Cursor) : Option (Nat × Cursor) :=
  let ds := c.rest.takeWhile Char.isDigit
  if ds.isEmpty || decide (9 < ds.length) then none
  else some (Decimal.natural ds, c.skip ds.length)

def version (c : Cursor) : Option (Token × Cursor) := do
  let (major, c) ← versionNumber (c.skipWhile isBlank)
  if c.rest.head? ≠ some '.' then none
  else
    let (minor, c) ← versionNumber (c.skip 1)
    some (.versionDirective major minor, c)

/-- Reads a handle and what it stands for. -/
def handleMeaning (c : Cursor) : Option (Token × Cursor) := do
  let (h, c) ← handle (c.skipWhile isBlank)
  if !(isClosed h || h.length == 1) then none
  else if (c.rest.head?.map isBlank).getD false then
    let (start, c) ← uri true [] (c.skipWhile isBlank)
    if endsWord c.rest then some (.tagDirective (String.ofList h) start, c) else none
  else none

/-- Reads a directive to the end of its line. -/
def directive (c : Cursor) : Option (Token × Cursor) := do
  let c := c.skip 1
  let n := c.rest.takeWhile isNameChar
  let c := c.skip n.length
  if n.isEmpty || !endsWord c.rest then none
  else
    let (t, c) ←
      if n = "YAML".toList then version c else if n = "TAG".toList then handleMeaning c else none
    let c := c.skipWhile isBlank
    let c := if c.rest.head? = some '#' then c.skipWhile fun x => ¬ isBreak x else c
    if endsLine c.rest then some (t, c.takeBreak.2) else none

end PaperTrail.Yaml.Tag
