/-!
# JSON text

JSON values whose objects keep the order of their members, and their two written forms: `compact`
without any space, and `pretty` with one member or element on a line, indented by two spaces a
level. In a string the quote, the backslash and the control characters below U+0020 are escaped and
every other character stands for itself.
-/

namespace BookCatalog

/-- A JSON value. Numbers are natural numbers. -/
inductive Json where
  | null
  | bool (b : Bool)
  | number (n : Nat)
  | string (s : String)
  | array (elements : List Json)
  | object (members : List (String × Json))
  deriving Inhabited, Repr

namespace Json

/-- The hexadecimal digit of a number below 16, in lower case. -/
def hexDigit (n : Nat) : Char :=
  if n < 10 then Char.ofNat (n + 48) else Char.ofNat (n + 87)

/-- A character as it stands inside a JSON string. -/
def escapeChar (c : Char) : List Char :=
  if c = '"' then ['\\', '"']
  else if c = '\\' then ['\\', '\\']
  else if c = '\n' then ['\\', 'n']
  else if c = '\r' then ['\\', 'r']
  else if c = '\t' then ['\\', 't']
  else if c = '\x08' then ['\\', 'b']
  else if c = '\x0c' then ['\\', 'f']
  else if c.toNat < 0x20 then
    ['\\', 'u', '0', '0', hexDigit (c.toNat / 16), hexDigit (c.toNat % 16)]
  else [c]

/-- A string in quotes. -/
def quote (s : String) : List Char := '"' :: (s.toList.flatMap escapeChar ++ ['"'])

/-- The decimal digits of a number. -/
def digits (n : Nat) : List Char := Nat.toDigits 10 n

/-- The break before a member, an element or a closing bracket at the given depth: a new line with
two spaces a level, or nothing when everything stands on one line. -/
def lineBreak : Option Nat → List Char
  | none => []
  | some depth => '\n' :: List.replicate (2 * depth) ' '

/-- One level further in. -/
def deeper (depth : Option Nat) : Option Nat := depth.map (· + 1)

/-- What stands between a name and its value. -/
def colon (depth : Option Nat) : List Char := if depth.isSome then [':', ' '] else [':']

mutual

/-- The written form at the given depth; `none` writes everything on one line. -/
def write (depth : Option Nat) : Json → List Char
  | .null => "null".toList
  | .bool b => if b then "true".toList else "false".toList
  | .number n => digits n
  | .string s => quote s
  | .array [] => ['[', ']']
  | .array (e :: es) =>
    '[' :: lineBreak (deeper depth) ++ write (deeper depth) e ++ writeElements (deeper depth) es ++
      lineBreak depth ++ [']']
  | .object [] => ['\x7b', '\x7d']
  | .object ((k, v) :: ms) =>
    '\x7b' :: lineBreak (deeper depth) ++ quote k ++ colon depth ++ write (deeper depth) v ++
      writeMembers (deeper depth) ms ++ lineBreak depth ++ ['\x7d']

/-- The elements after the first, each after its comma. -/
def writeElements (depth : Option Nat) : List Json → List Char
  | [] => []
  | e :: es => ',' :: lineBreak depth ++ write depth e ++ writeElements depth es

/-- The members after the first, each after its comma. -/
def writeMembers (depth : Option Nat) : List (String × Json) → List Char
  | [] => []
  | (k, v) :: ms =>
    ',' :: lineBreak depth ++ quote k ++ colon depth ++ write depth v ++ writeMembers depth ms

end

/-- The value on one line, without spaces. -/
def compact (j : Json) : String := String.ofList (write none j)

/-- The value with one member or element a line, indented by two spaces a level. -/
def pretty (j : Json) : String := String.ofList (write (some 0) j)

end Json

end BookCatalog
