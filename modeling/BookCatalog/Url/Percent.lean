import BookCatalog.Text.Source

/-!
# Percent escapes

`decode` undoes escapes; what is no escape stands for itself. `encode` escapes the characters of a
set, and every character outside ASCII, as the escapes of their UTF-8 bytes.
-/

namespace BookCatalog.Url.Percent

open BookCatalog.Text

/-- The value of a hexadecimal digit. -/
def hexValue? (b : UInt8) : Option UInt8 :=
  if 48 ≤ b && b ≤ 57 then some (b - 48)
  else if 65 ≤ b && b ≤ 70 then some (b - 55)
  else if 97 ≤ b && b ≤ 102 then some (b - 87)
  else none

/-- The byte whose two digits the text begins with. -/
def escaped? : List UInt8 → Option UInt8
  | h :: l :: _ => do return (← hexValue? h) * 16 + (← hexValue? l)
  | _ => none

/-- The bytes with each escape replaced by the byte it stands for; `skip` digits of an escape are
still to be passed over. -/
def decodeFrom (skip : Nat) : List UInt8 → List UInt8
  | [] => []
  | b :: rest =>
    match skip with
    | skip + 1 => decodeFrom skip rest
    | 0 =>
      match if b = 37 then escaped? rest else none with
      | some byte => byte :: decodeFrom 2 rest
      | none => b :: decodeFrom 0 rest

/-- The bytes that a text stands for. -/
def decode (cs : List Char) : List UInt8 := decodeFrom 0 (Utf8.encode cs)

/-- The text that a text stands for, with replacement characters for ill-formed parts. -/
def decodeText (cs : List Char) : List Char := Utf8.decodeLossy (decode cs)

/-- A hexadecimal digit in upper case. -/
def hexDigit (n : Nat) : Char := if n < 10 then Char.ofNat (n + 48) else Char.ofNat (n + 55)

/-- The escape of a byte. -/
def escapeByte (b : UInt8) : List Char := ['%', hexDigit (b.toNat / 16), hexDigit (b.toNat % 16)]

/-- A character, escaped when it is in the set or outside ASCII. -/
def encodeChar (inSet : Char → Bool) (c : Char) : List Char :=
  if inSet c || 0x80 ≤ c.toNat then (String.utf8EncodeChar c).flatMap escapeByte else [c]

/-- A text with the characters of the set, and those outside ASCII, escaped. -/
def encode (inSet : Char → Bool) (cs : List Char) : List Char := cs.flatMap (encodeChar inSet)

/-- A control character of ASCII. -/
def isControl (c : Char) : Bool := c.toNat < 0x20 || c.toNat == 0x7F

/-- What is escaped in a fragment: control characters, the space, quotes, angle brackets and
back-ticks. -/
def inFragmentSet (c : Char) : Bool :=
  isControl c || c == ' ' || c == '"' || c == '<' || c == '>' || c == '\x60'

end BookCatalog.Url.Percent
