import PaperTrail.Url.Percent
import PaperTrail.Text.Split

/-!
# Form encoding

Pairs of a name and a value as one text: `name=value`, joined by ampersands. A space is written as a
plus; letters, digits and `*-._` stay, all other bytes are escaped.

* `encodePairs` : the text of pairs;
* `decodePairs?` : the pairs of a text.
-/

namespace PaperTrail.Form

def isKept (c : Char) : Bool := c.isAlphanum || c == '*' || c == '-' || c == '.' || c == '_'

def encodeChar (c : Char) : List Char :=
  if c = ' ' then ['+']
  else if isKept c then [c]
  else (String.utf8EncodeChar c).flatMap Percent.escape

/-- The written form of a name or a value. -/
def encode (s : String) : String := String.ofList (s.toList.flatMap encodeChar)

def encodePairs (pairs : List (String × String)) : String :=
  "&".intercalate (pairs.map fun p => encode p.1 ++ "=" ++ encode p.2)

/-- The name or value of a written form; bytes that are no UTF-8 make none. -/
def decode? (s : String) : Option String :=
  Percent.textOfBytes? (Percent.decodeBytes (s.toList.map fun c => if c = '+' then ' ' else c))

/-- The pair of a part between ampersands; without an equals sign the value is empty. -/
def decodePair? (part : String) : Option (String × String) := do
  let (name, value) := (Text.cut? '=' part).getD (part, "")
  return (← decode? name, ← decode? value)

/-- The pairs of a text; empty parts have no meaning. -/
def decodePairs? (s : String) : Option (List (String × String)) :=
  ((Text.split '&' s).filter fun p => !p.isEmpty).mapM decodePair?

end PaperTrail.Form
