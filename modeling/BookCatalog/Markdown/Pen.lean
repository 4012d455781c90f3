/-!
# The pen

The state that CommonMark text is written with, and the one operation `Pen.put` that writes. Breaks
between blocks are not written when a block ends: they are noted with `Pen.endLine` and `Pen.endBlock`
and carried out by the next `put`, so no break is left at the end of the text. Every line begins with
the prefix of the quotes and items around it.
-/

namespace BookCatalog.Markdown

/-- How the characters of a text are protected. -/
inductive Escaping where
  /-- As they stand. -/
  | literal
  /-- Characters that could be read as markup are escaped. -/
  | prose
  /-- Characters that could end a link destination are escaped. -/
  | destination
  deriving DecidableEq, Repr

/-- The text written so far and what the next character depends on. -/
structure Pen where
  /-- The text, its last character first. -/
  reversed : List Char := []
  /-- What every line begins with. -/
  margin : List Char := []
  /-- Line breaks to make before the next text: one ends a line, two leave a blank line. -/
  breaks : Nat := 0
  /-- Nothing stands on the line yet, not even the margin. -/
  lineStart : Bool := true
  /-- The line holds at most digits after its margin and markers. -/
  contentStart : Bool := true
  /-- Blocks of the list item at hand stand on adjacent lines. -/
  tight : Bool := false
  /-- The next numbers of the ordered lists around, innermost first. -/
  counters : List Nat := []
  /-- Inside a table cell, where a pipe has to be escaped. -/
  inCell : Bool := false
  deriving Repr

namespace Pen

/-- An ASCII digit. -/
def isDigit (c : Char) : Bool := '0' ≤ c && c ≤ '9'

/-- An ASCII letter. -/
def isLetter (c : Char) : Bool := ('a' ≤ c && c ≤ 'z') || ('A' ≤ c && c ≤ 'Z')

/-- A space, a tab or a line end. -/
def isSpace (c : Char) : Bool := c == ' ' || c == '\t' || c == '\n' || c == '\r'

/-- A printable ASCII character that is no letter, digit or blank. -/
def isMark (c : Char) : Bool :=
  '!' ≤ c && c ≤ '~' && !isDigit c && !isLetter c

/-- Ends the line before the next text. -/
def endLine (p : Pen) : Pen := { p with breaks := max p.breaks 1 }

/-- Leaves a blank line before the next text. -/
def endBlock (p : Pen) : Pen := { p with breaks := max p.breaks 2 }

/-- Makes `n` breaks. A line end that the text already ends with counts as one of them; `seen` is the
text before the ends that have been counted. The blank line that a break makes carries the margin. -/
def makeBreaks : Nat → List Char → Pen → Pen
  | 0, _, p => p
  | n + 1, seen, p =>
    let p := { p with lineStart := true, contentStart := true }
    match seen with
    | [] => makeBreaks n [] p
    | c :: before =>
      if c = '\n' then makeBreaks n before p
      else
        makeBreaks n seen
          { p with reversed := (if n = 0 then [] else p.margin.reverse) ++ '\n' :: p.reversed }

/-- Makes the breaks that were noted; in a tight item no blank line is left. -/
def settle (p : Pen) : Pen :=
  let n := if p.tight then min p.breaks 1 else p.breaks
  { makeBreaks n p.reversed p with breaks := 0 }

/-- Whether `c`, before `next`, has to be escaped in running text. A sign that could start a list or
underline a heading counts only at the start of a line, and a full stop or parenthesis only after the
digits that start a line and before a blank, U+0000 or the end. -/
def breaksProse (p : Pen) (c : Char) (next : Option Char) : Bool :=
  let afterDigit := match p.reversed with
    | d :: _ => isDigit d
    | [] => false
  c.toNat < 0x20 || c == '*' || c == '_' || c == '[' || c == ']' || c == '#' || c == '<' ||
    c == '>' || c == '\\' || c == '\x60' || c == '!' || (c == '&' && next.any isLetter) ||
    (p.contentStart && (c == '-' || c == '+' || c == '=') && !afterDigit) ||
    (p.contentStart && (c == '.' || c == ')') && afterDigit &&
      next.all fun n => isSpace n || n == '\x00')

/-- Whether `c` has to be escaped in a link destination. -/
def breaksDestination (c : Char) : Bool :=
  c == '\x60' || c == '<' || c == '>' || isSpace c || c == '\\' || c == '(' || c == ')'

/-- The margin, when nothing stands on the line. -/
def startLine (p : Pen) : Pen :=
  if p.lineStart then { p with reversed := p.margin.reverse ++ p.reversed } else p

/-- Adds characters to the text. -/
def add (p : Pen) (cs : List Char) : Pen := { p with reversed := cs.reverse ++ p.reversed }

/-- The numeric character reference of `c`. -/
def reference (c : Char) : List Char := ['&', '#'] ++ Nat.toDigits 10 c.toNat ++ [';']

/-- The percent escape of a blank: two places, padded with a space on the left. -/
def percentEscape (c : Char) : List Char :=
  if c = ' ' then ['%', '2', '0']
  else ['%', ' '] ++ (Nat.toDigits 16 c.toNat).map Char.toUpper

/-- Writes `c` with a backslash, as a reference or as a percent escape. A reference is written as
text of its own, so at the start of a line it brings the margin a second time. -/
def putEscaped (mode : Escaping) (c : Char) (p : Pen) : Pen :=
  if mode = .destination && isSpace c then p.add (percentEscape c)
  else if isMark c then p.add ['\\', c]
  else p.startLine.add (reference c)

/-- Writes one character that stands before `next`. -/
def putChar (mode : Escaping) (c : Char) (next : Option Char) (p : Pen) : Pen :=
  let p := p.startLine
  let p := if p.inCell && c == '|' then p.add ['\\'] else p
  let q := match mode with
    | .literal => p.add [c]
    | .prose => if p.breaksProse c next then p.putEscaped mode c else p.add [c]
    | .destination => if breaksDestination c then p.putEscaped mode c else p.add [c]
  if mode = .literal && c = '\n' then { q with lineStart := true, contentStart := true }
  else { q with lineStart := false, contentStart := p.contentStart && isDigit c }

/-- Writes characters, the breaks being made. -/
def putChars (mode : Escaping) : List Char → Pen → Pen
  | [], p => p
  | c :: rest, p => putChars mode rest (p.putChar mode c rest.head?)

/-- Makes the breaks that were noted and writes a text. -/
def put (p : Pen) (mode : Escaping) (s : String) : Pen := p.settle.putChars mode s.toList

/-- Writes a text as it stands; without any text the noted breaks stay noted. -/
def literal (p : Pen) (s : String) : Pen := if s = "" then p else p.put .literal s

/-- Adds to the margin of the lines to come. -/
def indent (p : Pen) (s : String) : Pen := { p with margin := p.margin ++ s.toList }

/-- Takes the last `n` characters from the margin, or all of them where it has fewer: such a text cannot be
written, but lists of less than 99 items never come to it. -/
def outdent (p : Pen) (n : Nat) : Pen := { p with margin := p.margin.take (p.margin.length - n) }

/-- The text written. -/
def text (p : Pen) : List Char := p.reversed.reverse

end Pen

end BookCatalog.Markdown
