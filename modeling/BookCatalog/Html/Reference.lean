import BookCatalog.Html.ReferenceNames
import BookCatalog.Text.Source

/-!
# Character references

What follows an ampersand: the number of a character, its name, or neither. `readReference` gives the
characters that a reference stands for and how many characters it takes up after the ampersand; what
is no reference stands for the ampersand alone and takes up nothing.
-/

namespace BookCatalog.Html

/-- An ASCII letter. -/
def isLetter (c : Char) : Bool := ('a' ≤ c && c ≤ 'z') || ('A' ≤ c && c ≤ 'Z')

/-- A decimal digit. -/
def isDigit (c : Char) : Bool := '0' ≤ c && c ≤ '9'

/-- A letter or a digit. -/
def isAlphanumeric (c : Char) : Bool := isLetter c || isDigit c

/-- What the numbers from 128 to 159 stand for: the characters of an old code page, and 0 where it
has none. -/
def oldCodePage : Array Nat := #[
  0x20AC, 0, 0x201A, 0x0192, 0x201E, 0x2026, 0x2020, 0x2021, 0x02C6, 0x2030, 0x0160, 0x2039,
  0x0152, 0, 0x017D, 0, 0, 0x2018, 0x2019, 0x201C, 0x201D, 0x2022, 0x2013, 0x2014, 0x02DC,
  0x2122, 0x0161, 0x203A, 0x0153, 0, 0x017E, 0x0178]

/-- The character of a number. Zero, surrogates and numbers that are too large stand for the
replacement character. -/
def numberedChar (n : Nat) : Char :=
  if n = 0 || 0x10FFFF < n || (0xD800 ≤ n && n ≤ 0xDFFF) then '\uFFFD'
  else
    match oldCodePage[n - 0x80]? with
    | some code => if 0x80 ≤ n && code ≠ 0 then Char.ofNat code else Char.ofNat n
    | none => Char.ofNat n

/-- A reference by number, from what follows its `#`. -/
def readNumber (cs : List Char) : Option (List Char × Nat) :=
  let (base, mark, digits) : Nat × Nat × List Char :=
    match cs with
    | 'x' :: rest => (16, 1, rest.takeWhile (Text.isDigitOf 16))
    | 'X' :: rest => (16, 1, rest.takeWhile (Text.isDigitOf 16))
    | _ => (10, 0, cs.takeWhile (Text.isDigitOf 10))
  if digits.isEmpty then none
  else
    let n := (Text.number? base digits).getD 0
    let length := mark + digits.length
    let length := if (cs.drop length).head? = some ';' then length + 1 else length
    some ([numberedChar n], length)

/-- The longest name without a semicolon that `cs` begins with, at most `n` characters long. -/
def readShortName (cs : List Char) : Nat → Option (List Char × Nat)
  | 0 => none
  | n + 1 =>
    match if n < cs.length then shortReferenceNames[String.ofList (cs.take (n + 1))]? else none with
    | some chars => some (chars, n + 1)
    | none => readShortName cs n

/-- A reference by name. In an attribute a name without a semicolon does not count when an equals
sign, a letter or a digit follows. -/
def readName (inAttribute : Bool) (cs : List Char) : Option (List Char × Nat) :=
  let name := cs.takeWhile isAlphanumeric
  let full :=
    if (cs.drop name.length).head? = some ';' then
      (referenceNames[String.ofList name]?).map fun chars => (chars, name.length + 1)
    else none
  match full with
  | some found => some found
  | none =>
    match readShortName name longestShortName with
    | some (chars, length) =>
      let followed := (cs.drop length).head?.any fun c => c == '=' || isAlphanumeric c
      if inAttribute && followed then none else some (chars, length)
    | none => none

/-- What an ampersand and the text after it stand for, and how much of that text is used. -/
def readReference (inAttribute : Bool) (cs : List Char) : List Char × Nat :=
  let found : Option (List Char × Nat) :=
    match cs with
    | '#' :: rest => (readNumber rest).map fun (chars, n) => (chars, n + 1)
    | _ => readName inAttribute cs
  found.getD (['&'], 0)

end BookCatalog.Html
