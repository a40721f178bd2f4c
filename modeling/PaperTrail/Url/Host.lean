import PaperTrail.Decimal.Natural
import PaperTrail.Text.Case
import PaperTrail.Url.Basic
import PaperTrail.Url.Domain

/-!
# Hosts

* `parseDomain` : a domain name in lower case, or an IPv4 address written as numbers;
* `parseIpv6` : an IPv6 address between brackets, in its shortest form;
* `parseOpaque` : any other host, kept as it is written.
-/

namespace PaperTrail.Host

/-! ## IPv4 -/

/-- A number below `2 ^ 32`. -/
inductive Ipv4Number where
  | value (n : Nat)
  | tooGreat
  | noNumber

def numberOf (base : Nat) (cs : List Char) : Ipv4Number :=
  let digits := cs.mapM fun c => (Percent.digitValue? c).filter (· < base)
  match digits with
  | none => .noNumber
  | some ds =>
    let n := ds.foldl (fun n d => n * base + d) 0
    if n < Nat.pow 2 32 then .value n else .tooGreat

/-- The number of a part: hexadecimal behind `0x`, octal behind another zero. -/
def ipv4Number : List Char → Ipv4Number
  | [] => .noNumber
  | '0' :: 'x' :: cs => numberOf 16 cs
  | '0' :: 'X' :: cs => numberOf 16 cs
  | '0' :: c :: cs => numberOf 8 (c :: cs)
  | cs => numberOf 10 cs

/-- The parts of a domain name without an empty last one. -/
def partsOf (cs : List Char) : List (List Char) :=
  let ps := Text.splitChars '.' cs
  if 1 < ps.length ∧ ps.getLast? = some [] then ps.dropLast else ps

def endsInNumber (cs : List Char) : Bool :=
  match (partsOf cs).getLast? with
  | none => false
  | some last =>
    (!last.isEmpty && last.all Char.isDigit) ||
      (match ipv4Number last with
      | .noNumber => false
      | _ => true)

def ipv4Values (parts : List (List Char)) : Option (List Nat) :=
  parts.mapM fun p =>
    match ipv4Number p with
    | .value n => some n
    | _ => none

def ipv4Text (n : Nat) : String :=
  ".".intercalate ([n / 16777216, n / 65536 % 256, n / 256 % 256, n % 256].map toString)

/-- An address of up to four numbers, the last of which fills the bytes that are left. -/
def parseIpv4 (cs : List Char) : Except UrlError String :=
  let parts := partsOf cs
  if 4 < parts.length then .error .invalidIpv4
  else
    match ipv4Values parts with
    | none => .error .invalidIpv4
    | some vs =>
      let firsts := vs.dropLast
      let last := vs.getLast?.getD 0
      if firsts.any (255 < ·) ∨ Nat.pow 256 (4 - firsts.length) ≤ last then .error .invalidIpv4
      else
        let high := firsts.zipIdx.foldl (fun n p => n + p.1 * Nat.pow 256 (3 - p.2)) 0
        .ok (ipv4Text (high + last))

/-! ## IPv6 -/

def cutDouble : List Char → Option (List Char × List Char)
  | ':' :: ':' :: cs => some ([], cs)
  | c :: cs => (cutDouble cs).map fun p => (c :: p.1, p.2)
  | [] => none

/-- A group of at most four hexadecimal digits. -/
def group? (cs : List Char) : Option Nat :=
  if cs.isEmpty ∨ 4 < cs.length then none
  else (cs.mapM Percent.digitValue?).map fun ds => ds.foldl (fun n d => n * 16 + d) 0

/-- A decimal number below 256 without leading zeros. -/
def byte? (cs : List Char) : Option Nat :=
  if 3 < cs.length ∨ (1 < cs.length ∧ cs.head? = some '0') then none
  else (Decimal.natural? cs).filter fun n => decide (n < 256)

def tail? (cs : List Char) : Option (List Nat) :=
  match (Text.splitChars '.' cs).mapM byte? with
  | some [a, b, c, d] => some [a * 256 + b, c * 256 + d]
  | _ => none

/-- The groups of a text between colons; the last one may be an IPv4 address. -/
def groups? (last : Bool) (cs : List Char) : Option (List Nat) :=
  if cs.isEmpty then some []
  else
    let parts := Text.splitChars ':' cs
    let final := parts.getLast?.getD []
    if last ∧ final.contains '.' then do
      let init ← parts.dropLast.mapM group?
      return init ++ (← tail? final)
    else parts.mapM group?

/-- The eight groups of an address. A double colon stands for the groups that are missing. -/
def ipv6Groups? (cs : List Char) : Option (List Nat) :=
  match cutDouble cs with
  | none => (groups? true cs).filter (·.length == 8)
  | some (a, b) => do
    let left ← groups? false a
    let right ← groups? true b
    if 7 < left.length + right.length then none
    else some (left ++ List.replicate (8 - left.length - right.length) 0 ++ right)

def zeroRun (gs : List Nat) : Nat := (gs.takeWhile (· = 0)).length

/-- The first place of the longest run of zeros, and its length. -/
def longestRun (gs : List Nat) : Nat × Nat :=
  (List.range gs.length).foldl (fun best i =>
    let n := zeroRun (gs.drop i)
    if best.2 < n then (i, n) else best) (0, 0)

def groupsText (gs : List Nat) : String :=
  ":".intercalate (gs.map fun g => String.ofList (Nat.toDigits 16 g))

/-- The shortest form of an address: its longest run of zeros is left out. -/
def ipv6Text (gs : List Nat) : String :=
  let (i, n) := longestRun gs
  if n < 2 then groupsText gs else groupsText (gs.take i) ++ "::" ++ groupsText (gs.drop (i + n))

def parseIpv6 (cs : List Char) : Except UrlError String :=
  if cs.getLast? ≠ some ']' then .error .invalidIpv6
  else
    match ipv6Groups? cs.dropLast with
    | some gs => .ok ("[" ++ ipv6Text gs ++ "]")
    | none => .error .invalidIpv6

/-! ## Names -/

def isForbidden (c : Char) : Bool :=
  decide (c.toNat ≤ 0x20) || c.toNat == 0x7F || "%#/:<>?@[\\]^|".toList.contains c

def isForbiddenOpaque (c : Char) : Bool :=
  "\x00\t\n\r #/:<>?@[\\]^|".toList.contains c

/-- The domain name or IPv4 address of a host of a web scheme. -/
def parseDomain (cs : List Char) : Except UrlError String :=
  match (Percent.decode? (String.ofList cs)).bind Domain.toAscii? with
  | none => .error .invalidDomain
  | some s =>
    let name := s.toList
    if name.any isForbidden then .error .invalidDomain
    else if name.isEmpty then .error .emptyHost
    else if endsInNumber name then parseIpv4 name
    else .ok s

def parse : List Char → Except UrlError String
  | '[' :: cs => parseIpv6 cs
  | cs => parseDomain cs

def parseOpaque : List Char → Except UrlError String
  | '[' :: cs => parseIpv6 cs
  | cs =>
    if cs.any isForbiddenOpaque then .error .invalidHostCharacter
    else .ok (String.ofList (Percent.encodeChars Percent.keptOpaque cs))

end PaperTrail.Host
