import BookCatalog.Text.Fields
import BookCatalog.Text.Source
import BookCatalog.Url.DomainCharacters
import BookCatalog.Url.Percent
import BookCatalog.Url.Punycode

/-!
# Hosts of URLs

A host is a domain name, an address of the Internet Protocol, or, in a scheme without rules of its
own, an opaque text. `Host.parse?` reads the host of a special scheme and `Host.parseOpaque?` that of
any other; both fail on a host that holds a forbidden character.
-/

namespace BookCatalog.Url

open BookCatalog.Text

/-- The host of a URL. -/
inductive Host where
  | domain (name : String)
  | ipv4 (address : Nat)
  | ipv6 (pieces : List Nat)
  | opaqueName (name : String)
  deriving DecidableEq, Repr

namespace Host

/-! ## Addresses -/

/-- A part of an IPv4 address: decimal, octal after a zero, or hexadecimal after `0x`. -/
def ipv4Number? : List Char → Option Nat
  | [] => none
  | '0' :: 'x' :: digits => Text.number? 16 digits
  | '0' :: 'X' :: digits => Text.number? 16 digits
  | '0' :: c :: digits => Text.number? 8 (c :: digits)
  | digits => Text.number? 10 digits

/-- The parts of a name between dots, without the empty part after a last dot. -/
def dottedParts (name : List Char) : List (List Char) :=
  let parts := name.splitOnP (· == '.')
  if parts.getLast? == some [] then parts.dropLast else parts

/-- Whether a name has to be an IPv4 address: its last part is a number. -/
def endsInNumber (name : List Char) : Bool :=
  match (dottedParts name).getLast? with
  | none => false
  | some last =>
    (!last.isEmpty && last.all fun c => '0' ≤ c && c ≤ '9') || (ipv4Number? last).isSome

/-- The address of up to four parts; the last part fills the places that are left. -/
def ipv4? (name : List Char) : Option Nat := do
  let numbers ← (dottedParts name).mapM ipv4Number?
  let last ← numbers.getLast?
  let leading := numbers.dropLast
  if numbers.length > 4 || leading.any (255 < ·) || Nat.pow 256 (4 - leading.length) ≤ last then none
  else some (leading.foldl (fun n part => n * 256 + part) 0 * Nat.pow 256 (4 - leading.length) + last)

/-- The two pieces of an IPv4 address that ends an IPv6 address: four decimal parts up to 255, none
with a leading zero. -/
def ipv4Pieces? (cs : List Char) : Option (List Nat) := do
  let parts := cs.splitOnP (· == '.')
  let numbers ← parts.mapM fun part =>
    if part.isEmpty || (part.length > 1 && part.head? == some '0') then none
    else (Text.number? 10 part).filter (· ≤ 255)
  match numbers with
  | [a, b, c, d] => some [a * 256 + b, c * 256 + d]
  | _ => none

/-- The pieces between colons: up to four hexadecimal digits each, the last one possibly an IPv4
address. -/
def ipv6Pieces? : List (List Char) → Option (List Nat)
  | [] => some []
  | [last] =>
    if last.contains '.' then ipv4Pieces? last
    else if last.isEmpty || 4 < last.length then none
    else (Text.number? 16 last).map ([·])
  | piece :: more =>
    if piece.isEmpty || 4 < piece.length then none
    else do return (← Text.number? 16 piece) :: (← ipv6Pieces? more)

/-- The part before the first double colon and the part after it. -/
def splitDoubleColon? : List Char → Option (List Char × List Char)
  | ':' :: ':' :: rest => some ([], rest)
  | c :: rest => (splitDoubleColon? rest).map fun (before, after) => (c :: before, after)
  | [] => none

/-- The pieces of a side of a double colon; nothing has no pieces. -/
def sidePieces? (cs : List Char) : Option (List Nat) :=
  if cs.isEmpty then some [] else ipv6Pieces? (cs.splitOnP (· == ':'))

/-- The eight pieces of an IPv6 address; a double colon stands for the zeros that are missing. -/
def ipv6? (cs : List Char) : Option (List Nat) :=
  match splitDoubleColon? cs with
  | none => (sidePieces? cs).filter (·.length = 8)
  | some (before, after) => do
    if before.contains '.' then none
    else
      let left ← sidePieces? before
      let right ← sidePieces? after
      if left.length + right.length ≤ 7 then
        some (left ++ List.replicate (8 - left.length - right.length) 0 ++ right)
      else none

/-- An IPv6 address between brackets. -/
def bracketed? (cs : List Char) : Option Host :=
  if cs.getLast? = some ']' then (ipv6? (cs.drop 1).dropLast).map .ipv6 else none

/-! ## Domains -/

/-- An ASCII character that no host can hold. -/
def isForbidden (c : Char) : Bool :=
  c == '\x00' || c == '\t' || c == '\n' || c == '\r' || c == ' ' || c == '#' || c == '/' ||
    c == ':' || c == '<' || c == '>' || c == '?' || c == '@' || c == '[' || c == '\\' ||
    c == ']' || c == '^' || c == '|'

/-- An ASCII character that no domain name can hold. -/
def isForbiddenInDomain (c : Char) : Bool :=
  isForbidden c || Percent.isControl c || c == '%'

/-- A character that is left out of a domain name: the soft hyphen, joiners of zero width and
variation selectors. -/
def isIgnored (c : Char) : Bool :=
  let n := c.toNat
  n == 0xAD || n == 0x34F || (0x180B ≤ n && n ≤ 0x180D) || n == 0x180F || n == 0x200B ||
    n == 0x2060 || n == 0x2064 || (0xFE00 ≤ n && n ≤ 0xFE0F) || n == 0xFEFF

/-- A character as it counts in a domain name: ASCII letters in lower case, full-width characters as
their ASCII forms, and ideographic full stops as dots. -/
def mappedChar (c : Char) : Char :=
  let n := c.toNat
  if n == 0x3002 || n == 0xFF0E || n == 0xFF61 then '.'
  else if 0xFF01 ≤ n && n ≤ 0xFF5E then (Char.ofNat (n - 0xFEE0)).toLower
  else c.toLower

/-- Whether a label that claims to be encoded decodes to a label outside ASCII. -/
def isValidLabel (label : List Char) : Bool :=
  match label with
  | 'x' :: 'n' :: '-' :: '-' :: code =>
    match Punycode.decode? code with
    | some points =>
      points.any (0x80 ≤ ·) &&
        points.all fun n => n < 0x80 || !isForeignToDomains (Char.ofNat n)
    | none => false
  | _ => true

/-- The name of a domain, from the bytes that it is written with. -/
def domainName? (bytes : List UInt8) : Option (List Char) := do
  let cs ← Utf8.decode? bytes
  let name := (cs.filter (!isIgnored ·)).map mappedChar
  if name.any fun c => isForbiddenInDomain c || (0x80 ≤ c.toNat && isForeignToDomains c) then none
  else if (name.splitOnP (· == '.')).all isValidLabel then some name
  else none

/-- The host of a special scheme. -/
def parse? (cs : List Char) : Option Host :=
  if cs.head? = some '[' then bracketed? cs
  else do
    let name ← domainName? (Percent.decode cs)
    if name.isEmpty then none
    else if endsInNumber name then (ipv4? name).map .ipv4
    else some (.domain (String.ofList name))

/-- The host of a scheme that is not special. -/
def parseOpaque? (cs : List Char) : Option Host :=
  if cs.head? = some '[' then bracketed? cs
  else if cs.any isForbidden then none
  else some (.opaqueName (String.ofList (Percent.encode Percent.isControl cs)))

end Host

end BookCatalog.Url
