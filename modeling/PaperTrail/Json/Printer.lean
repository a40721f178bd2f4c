import PaperTrail.Json.Basic

/-!
# Compact JSON texts

* `quoted s` : a text literal; only quotes, backslashes and the controls below the space are
  escaped;
* `compact v` : the value without any space between its parts, members in their order.
-/

namespace PaperTrail.Json
open Decimal

def hexChar (n : Nat) : Char := Nat.digitChar n

def escape (c : Char) : List Char :=
  if c = '"' then ['\\', '"']
  else if c = '\\' then ['\\', '\\']
  else if c = '\x08' then ['\\', 'b']
  else if c = '\x0c' then ['\\', 'f']
  else if c = '\n' then ['\\', 'n']
  else if c = '\r' then ['\\', 'r']
  else if c = '\t' then ['\\', 't']
  else if c.toNat < 0x20 then
    ['\\', 'u', '0', '0', hexChar (c.toNat / 16), hexChar (c.toNat % 16)]
  else [c]

def quoted (s : String) : String := String.ofList ('"' :: (s.toList.flatMap escape ++ ['"']))

/-- A power of ten that is not negative has a plus; infinities and what is no number are null. -/
def layout : Layout := ⟨"e+", "null", "null", "null"⟩

def numberText : Number → String
  | .int i => toString i
  | .float x => layout.write x

mutual

/-- The value as a text without spaces. -/
def compact : Json → String
  | null => "null"
  | bool true => "true"
  | bool false => "false"
  | number n => numberText n
  | string s => quoted s
  | array items => "[" ++ ",".intercalate (compactItems items) ++ "]"
  | object members => "\x7b" ++ ",".intercalate (compactMembers members) ++ "\x7d"
  | unreadable => "null"

def compactItems : List Json → List String
  | [] => []
  | v :: rest => v.compact :: compactItems rest

def compactMembers : List (String × Json) → List String
  | [] => []
  | (name, v) :: rest => (quoted name ++ ":" ++ v.compact) :: compactMembers rest

end

end PaperTrail.Json
