/-!
# Percent encoding

* `utf8Bytes`, `textOfBytes?` : the UTF-8 bytes of a text, and the text of bytes;
* `encodeChars keep cs` : `cs` with every byte of a character outside `keep` written as a percent sign
  and two digits;
* `decodeBytes` : the bytes of a text in which such triples are read back; a percent sign that does
  not start one stands for itself.
-/

namespace PaperTrail.Percent

def utf8Bytes (cs : List Char) : List UInt8 := cs.flatMap String.utf8EncodeChar

def textOfBytes? (bytes : List UInt8) : Option String := String.fromUTF8? ⟨bytes.toArray⟩

def hexDigit (n : Nat) : Char := (Nat.digitChar n).toUpper

def escape (b : UInt8) : List Char := ['%', hexDigit (b.toNat / 16), hexDigit (b.toNat % 16)]

/-- The characters of a text, those outside `keep` escaped. -/
def encodeChars (keep : Char → Bool) (cs : List Char) : List Char :=
  cs.flatMap fun c => if keep c then [c] else (String.utf8EncodeChar c).flatMap escape

def digitValue? (c : Char) : Option Nat :=
  if '0' ≤ c ∧ c ≤ '9' then some (c.toNat - '0'.toNat)
  else if 'a' ≤ c ∧ c ≤ 'f' then some (c.toNat - 'a'.toNat + 10)
  else if 'A' ≤ c ∧ c ≤ 'F' then some (c.toNat - 'A'.toNat + 10)
  else none

/-- The bytes of a text, escapes read back. -/
def decodeBytes : List Char → List UInt8
  | [] => []
  | [a] => String.utf8EncodeChar a
  | [a, b] => String.utf8EncodeChar a ++ String.utf8EncodeChar b
  | a :: b :: c :: rest =>
    if a = '%' then
      match digitValue? b, digitValue? c with
      | some x, some y => UInt8.ofNat (x * 16 + y) :: decodeBytes rest
      | _, _ => 0x25 :: decodeBytes (b :: c :: rest)
    else String.utf8EncodeChar a ++ decodeBytes (b :: c :: rest)

/-- The text that an escaped text stands for; none when its bytes are no UTF-8. -/
def decode? (s : String) : Option String := textOfBytes? (decodeBytes s.toList)

/-! ## Sets of characters -/

def isPrintableAscii (c : Char) : Bool := decide (0x20 ≤ c.toNat) && decide (c.toNat < 0x7F)

def keptOpaque (c : Char) : Bool := isPrintableAscii c

def keptFragment (c : Char) : Bool :=
  isPrintableAscii c && !(" \"<>".toList.contains c) && c.toNat != 0x60

def keptPath (c : Char) : Bool := keptFragment c && !"#?\x7b\x7d".toList.contains c

def keptUserinfo (c : Char) : Bool := keptPath c && !"/:;=@[\\]^|".toList.contains c

def keptQuery (special : Bool) (c : Char) : Bool :=
  isPrintableAscii c && !(" \"#<>".toList.contains c) && !(special && c == '\'')

end PaperTrail.Percent
