import BookCatalog.Text.Source

/-!
# Cutting TOML into tokens

`tokens?` cuts the text of a document into quoted strings, marks, line ends, blanks and words. What a
word means depends on where it stands: it may be part of a key, a number, a date or the name of a truth
value. Comments are left out. A text is no document when a string does not end, holds an escape that
is none, or when a string or a comment holds a control character.
-/

namespace BookCatalog.Toml

/-- A piece of a document. -/
inductive Token where
  /-- A run of characters that are none of the others. -/
  | word (cs : List Char)
  /-- A quoted string; `long` tells that it was written between three quotes. -/
  | string (s : String) (long : Bool)
  | blanks (cs : List Char)
  | newline
  | equals
  | comma
  | openBracket
  | closeBracket
  | openBrace
  | closeBrace
  deriving DecidableEq, Repr

/-- A blank within a line. -/
def isBlank (c : Char) : Bool := c == ' ' || c == '\t'

/-- A character that may stand in a comment and, if it is no quote, in a string on one line. -/
def isPlain (c : Char) : Bool := c == '\t' || (0x20 ≤ c.toNat && c.toNat ≠ 0x7F)

/-- A character that ends a word. -/
def endsWord (c : Char) : Bool := isBlank c || "\n#\"'=,[]\x7b\x7d".toList.contains c

/-- A carriage return and a line feed count as a line feed alone. -/
def plainLineEnds : List Char → List Char
  | '\r' :: '\n' :: rest => '\n' :: plainLineEnds rest
  | c :: rest => c :: plainLineEnds rest
  | [] => []

/-! ## Strings -/

/-- The character of a code point written in hexadecimal digits. -/
def codePoint? (digits : List Char) : Option Char := do
  let n ← Text.number? 16 digits
  if n < 0xD800 || (0xDFFF < n && n ≤ 0x10FFFF) then return Char.ofNat n else none

/-- The character of an escape, from what follows the backslash, and how much of that is used. -/
def escape? : List Char → Option (Char × Nat)
  | 'b' :: _ => some ('\x08', 1)
  | 't' :: _ => some ('\t', 1)
  | 'n' :: _ => some ('\n', 1)
  | 'f' :: _ => some ('\x0c', 1)
  | 'r' :: _ => some ('\r', 1)
  | '"' :: _ => some ('"', 1)
  | '\\' :: _ => some ('\\', 1)
  | 'u' :: rest => if 4 ≤ rest.length then (codePoint? (rest.take 4)).map (·, 5) else none
  | 'U' :: rest => if 8 ≤ rest.length then (codePoint? (rest.take 8)).map (·, 9) else none
  | _ => none

/-- The text of a string on one line, from what follows its opening quote, and what follows its closing
quote. `skip` characters of an escape are still to be passed over. Only double quotes admit
escapes. -/
def shortString? (quote : Char) (skip : Nat) : List Char → Option (List Char × List Char)
  | [] => none
  | c :: rest =>
    match skip with
    | skip + 1 => shortString? quote skip rest
    | 0 =>
      if c = quote then some ([], rest)
      else if c = '\\' && quote = '"' then do
        let (char, used) ← escape? rest
        let (text, after) ← shortString? quote used rest
        return (char :: text, after)
      else if isPlain c then (shortString? quote 0 rest).map fun (text, after) => (c :: text, after)
      else none

/-- The quotes that still belong to a string, when it ends here: three quotes close it, and up to two
more may stand in front of them. -/
def closing? (quote : Char) (cs : List Char) : Option (Nat × List Char) :=
  let quotes := (cs.takeWhile (· == quote)).length
  if 3 ≤ quotes then some (min quotes 5 - 3, cs.drop (min quotes 5)) else none

/-- What a backslash at the end of a line takes away, from what follows it: all blanks and line ends
up to the next other character. -/
def lineJoin? (cs : List Char) : Option Nat :=
  if (cs.dropWhile isBlank).head? = some '\n' then
    some (cs.takeWhile fun c => isBlank c || c == '\n').length
  else none

/-- The text of a string between three quotes, from what follows the opening ones, and what follows the
closing ones. -/
def longString? (quote : Char) (skip : Nat) : List Char → Option (List Char × List Char)
  | [] => none
  | c :: rest =>
    match skip with
    | skip + 1 => longString? quote skip rest
    | 0 =>
      match closing? quote (c :: rest) with
      | some (extra, after) => some (List.replicate extra quote, after)
      | none =>
        if c = '\\' && quote = '"' then
          match lineJoin? rest with
          | some used => longString? quote used rest
          | none => do
            let (char, used) ← escape? rest
            let (text, after) ← longString? quote used rest
            return (char :: text, after)
        else if isPlain c || c = '\n' then
          (longString? quote 0 rest).map fun (text, after) => (c :: text, after)
        else none

/-- A text without a line end in front. -/
def withoutFirstLineEnd : List Char → List Char
  | '\n' :: rest => rest
  | cs => cs

/-- A string, from what follows its first quote, and what follows it. -/
def string? (quote : Char) (cs : List Char) : Option (Token × List Char) :=
  if [quote, quote].isPrefixOf cs then
    (longString? quote 0 (withoutFirstLineEnd (cs.drop 2))).map fun (text, after) =>
      (.string (String.ofList text) true, after)
  else
    (shortString? quote 0 cs).map fun (text, after) => (.string (String.ofList text) false, after)

/-! ## Tokens -/

/-- What follows a comment, from what follows its mark. -/
def afterComment? (cs : List Char) : Option (List Char) :=
  let rest := cs.dropWhile isPlain
  if rest.head?.all (· == '\n') then some rest else none

/-- The token that begins with `c`, if it counts, and what follows it. -/
def token? (c : Char) (rest : List Char) : Option (Option Token × List Char) :=
  match c with
  | '\n' => some (some .newline, rest)
  | '=' => some (some .equals, rest)
  | ',' => some (some .comma, rest)
  | '[' => some (some .openBracket, rest)
  | ']' => some (some .closeBracket, rest)
  | '\x7b' => some (some .openBrace, rest)
  | '\x7d' => some (some .closeBrace, rest)
  | '#' => (afterComment? rest).map (none, ·)
  | '"' => (string? '"' rest).map fun (token, after) => (some token, after)
  | '\'' => (string? '\'' rest).map fun (token, after) => (some token, after)
  | _ =>
    if isBlank c then some (some (.blanks (c :: rest.takeWhile isBlank)), rest.dropWhile isBlank)
    else some (some (.word (c :: rest.takeWhile (!endsWord ·))), rest.dropWhile (!endsWord ·))

/-- The tokens of a text; `skip` characters of the last one are still to be passed over. -/
def tokensFrom? (skip : Nat) : List Char → Option (List Token)
  | [] => some []
  | c :: rest =>
    match skip with
    | skip + 1 => tokensFrom? skip rest
    | 0 => do
      let (token, after) ← token? c rest
      let more ← tokensFrom? (rest.length - after.length) rest
      return token.toList ++ more

/-- The tokens of a text. -/
def tokens? (cs : List Char) : Option (List Token) := tokensFrom? 0 (plainLineEnds cs)

end BookCatalog.Toml
