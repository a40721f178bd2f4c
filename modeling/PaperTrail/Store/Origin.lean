import PaperTrail.Text.Blank
import PaperTrail.Text.Case

/-!
# Origins

Every origin has a table of its own, named after it. Table names are compared without regard to the
case of ASCII letters.

* `quoteName` : a name between double quotes, in which a quote is written twice;
* `isOriginTable` : whether an existing table can belong to an origin at all;
* `originKey` : the name by which origins are told apart;
* `isValidOrigin` : the names that an origin can have;
* `OriginName` : a valid name, with the statements that create its table and add to it.
-/

namespace PaperTrail

/-- The table of the papers. -/
def mainTable : String := "main"

/-- How the names of the tables start that belong to the database itself. -/
def reservedStart : String := "sqlite_"

def doubleQuotes : List Char → List Char
  | [] => []
  | c :: cs => if c = '"' then '"' :: '"' :: doubleQuotes cs else c :: doubleQuotes cs

/-- A name between double quotes. -/
def quoteName (name : String) : String :=
  String.ofList ('"' :: (doubleQuotes name.toList ++ ['"']))

/-- Whether a table is neither that of the papers nor one of the database itself. -/
def isOriginTable (name : String) : Bool :=
  !Text.sameFolded name mainTable && !reservedStart.toList.isPrefixOf (Text.fold name).toList

/-- The name by which origins are told apart. -/
def originKey (origin : String) : String := Text.fold origin

def isControl (c : Char) : Bool :=
  decide (c.toNat < 0x20) || (decide (0x7F ≤ c.toNat) && decide (c.toNat < 0xA0))

/-- Whether an origin can have the name: it is not blank, has no control character, and the table
of this name can belong to an origin. -/
def isValidOrigin (name : String) : Bool :=
  !Text.isBlankText name && !name.toList.any isControl && isOriginTable name

/-- A name that no origin can have. -/
structure InvalidOrigin where
  name : String
deriving DecidableEq, Repr

def InvalidOrigin.message (e : InvalidOrigin) : String := s!"invalid origin name '{e.name}'"

/-- The name of an origin. -/
structure OriginName where
  name : String
  valid : isValidOrigin name = true
deriving DecidableEq

namespace OriginName

def ofString (name : String) : Except InvalidOrigin OriginName :=
  if h : isValidOrigin name = true then .ok ⟨name, h⟩ else .error ⟨name⟩

def key (o : OriginName) : String := originKey o.name

def createStatement (o : OriginName) : String :=
  "CREATE TABLE IF NOT EXISTS " ++ quoteName o.name ++ " (id INT UNSIGNED, link TEXT)"

def insertStatement (o : OriginName) : String :=
  "INSERT INTO " ++ quoteName o.name ++ " (id, link) VALUES (?, ?)"

end OriginName

end PaperTrail
