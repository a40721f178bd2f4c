import PaperTrail.Text.Printable

/-!
# Quoted texts

`quoted s` is `s` between double quotes, on one line and with every character made visible: the
quote and the backslash take a backslash, the usual controls their letter, and any other character
that is not printable its code point in braces.
-/

namespace PaperTrail.Text

/-- The lower case hexadecimal digits of `n`, without leading zeros. -/
def hexDigits (n : Nat) : String := String.ofList (Nat.toDigits 16 n)

def visible (c : Char) : String :=
  if c = '"' then "\\\""
  else if c = '\\' then "\\\\"
  else if c = '\n' then "\\n"
  else if c = '\r' then "\\r"
  else if c = '\t' then "\\t"
  else if c.toNat = 0 then "\\0"
  else if isPrintable c then String.singleton c
  else "\\u\x7b" ++ hexDigits c.toNat ++ "\x7d"

/-- `s` between double quotes, with every character made visible. -/
def quoted (s : String) : String := "\"" ++ String.join (s.toList.map visible) ++ "\""

end PaperTrail.Text
