import BookCatalog.Markdown.Tree
import BookCatalog.Markdown.Pen

/-!
# Writing CommonMark

`writeChunks` writes a CommonMark tree with a pen: blocks separated by blank lines, tight lists,
fenced or indented code, pipe tables. A list that is followed by another list or by a code block is
closed by a comment, because the text would run on otherwise.
-/

namespace BookCatalog.Markdown

/-! ## Code -/

/-- The lengths of the maximal runs of `c`; `current` is the length of the run at hand. -/
def runLengths (c : Char) (current : Nat) : List Char → List Nat
  | [] => if current = 0 then [] else [current]
  | d :: rest =>
    if d = c then runLengths c (current + 1) rest
    else if current = 0 then runLengths c 0 rest
    else current :: runLengths c 0 rest

/-- The length of the longest run of `c`. -/
def longestRun (c : Char) (cs : List Char) : Nat := (runLengths c 0 cs).foldl max 0

/-- The least number from `n` on that is not in `used`, looking at `fuel` candidates. -/
def leastUnused (used : List Nat) : (fuel n : Nat) → Nat
  | 0, n => n
  | fuel + 1, n => if n ∈ used then leastUnused used fuel (n + 1) else n

/-- The length of the shortest run of back-ticks that does not occur in a text. -/
def tickCount (cs : List Char) : Nat :=
  let used := runLengths '\x60' 0 cs
  leastUnused used used.length 1

/-- Whether a code span needs a space on both sides: it begins or ends with a back-tick, or it begins
or ends with a space and is not blank altogether. -/
def needsPadding (cs : List Char) : Bool :=
  let edges := [cs.head?, cs.getLast?]
  edges.contains (some '\x60') ||
    (edges.contains (some ' ') && !cs.all fun c => c == ' ' || c == '\r' || c == '\n')

/-- `n` back-ticks or tildes. -/
def fence (c : Char) (n : Nat) : String := String.ofList (List.replicate n c)

/-- Writes a code span. -/
def writeCode (literal : String) (p : Pen) : Pen :=
  let cs := literal.toList
  let ticks := fence '\x60' (tickCount cs)
  let pad := if needsPadding cs then " " else ""
  (((p.literal ticks).literal pad).literal literal).literal pad |>.literal ticks

/-- Whether a code block is written by indentation: it has no language, is not the first in its item,
has more than two bytes, does not begin with a blank and does not end with two. -/
def isIndented (info literal : String) (firstInItem : Bool) : Bool :=
  let cs := literal.toList
  info = "" && !firstInItem && literal.utf8ByteSize > 2 && !cs.head?.any Pen.isSpace &&
    !(cs.reverse.take 2).all Pen.isSpace

/-- Writes a code block, indented by four spaces or between fences. A fence is longer than every run
of its character in the code. -/
def writeCodeBlock (info literal : String) (firstInItem : Bool) (p : Pen) : Pen :=
  let p := if firstInItem then p else p.endBlock
  let q :=
    if isIndented info literal firstInItem then
      ((p.literal "    ").indent "    ").literal literal |>.outdent 4
    else
      let mark := if '\x60' ∈ info.toList then '~' else '\x60'
      let bar := fence mark (max 3 (longestRun mark literal.toList + 1))
      let opened := p.literal bar
      let named := if info = "" then opened else (opened.literal " ").literal info
      (named.endLine.literal literal).endLine.literal bar
  q.endBlock

/-! ## Spans -/

/-- What a span stands in, as far as its delimiters depend on it. -/
inductive Surrounding where
  | emphasis (alone : Bool)
  | strong
  | other
  deriving DecidableEq, Repr

/-- A character that may follow the first letter of a URL scheme. -/
def isSchemeChar (c : Char) : Bool :=
  Pen.isLetter c || Pen.isDigit c || c == '+' || c == '.' || c == '-'

/-- Whether a URL begins with a scheme of two to thirty-two characters and a colon. -/
def hasScheme (url : String) : Bool :=
  match url.toList with
  | [] => false
  | c :: rest =>
    let more := rest.takeWhile isSchemeChar
    Pen.isLetter c && 1 ≤ more.length && more.length ≤ 31 &&
      (rest.dropWhile isSchemeChar).head? == some ':'

/-- A mail address is shown without its scheme. -/
def shownUrl (url : String) : String :=
  let mail := "mailto:".toList
  if mail.isPrefixOf url.toList then String.ofList (url.toList.drop mail.length) else url

/-- Whether a link is written between angle brackets: it has a scheme, and its label begins with a
text that is the address itself. -/
def isAutolink (url : String) (content : List Span) : Bool :=
  hasScheme url &&
    match content with
    | .text label :: _ => shownUrl url == label
    | _ => false

mutual

/-- Writes a span. -/
def writeSpan (around : Surrounding) : Span → Pen → Pen
  | .text literal, p => p.put .prose literal
  | .code literal, p => writeCode literal p
  | .html literal, p => p.literal literal
  | .emphasis content, p =>
    let mark := if around = .emphasis true then "_" else "*"
    (writeSpans (.emphasis (content.length = 1)) content (p.literal mark)).literal mark
  | .strong content, p =>
    let mark := if around = .strong then "" else "**"
    (writeSpans .strong content (p.literal mark)).literal mark
  | .link url content, p =>
    if isAutolink url content then ((p.literal "<").literal (shownUrl url)).literal ">"
    else
      (((writeSpans .other content (p.literal "[")).literal "](").put .destination url).literal ")"
  | .image url, p => (((p.literal "![").literal "](").put .destination url).literal ")"

/-- Writes spans one after the other. -/
def writeSpans (around : Surrounding) : List Span → Pen → Pen
  | [], p => p
  | s :: rest, p => writeSpans around rest (writeSpan around s p)

end

/-! ## Tables -/

/-- The delimiter under a header cell. -/
def Alignment.mark : Alignment → String
  | .unset => "---"

/-- Writes a cell and the pipe after it. -/
def writeCell (cell : List Span) (p : Pen) : Pen :=
  let q := writeSpans .other cell { p.literal " " with inCell := true }
  { q with inCell := false }.literal " |"

/-- Writes the line under the header. -/
def writeDelimiters (alignments : List Alignment) (p : Pen) : Pen :=
  (alignments.foldl (fun p a => ((p.literal " ").literal a.mark).literal " |")
    (p.endLine.literal "|")).endLine

/-- Writes a row on a line of its own, and after the header the line under it. -/
def writeRow (alignments : List Alignment) (row : TableRow) (p : Pen) : Pen :=
  let q := row.cells.foldl (fun p cell => writeCell cell p) (p.endLine.literal "|")
  if row.isHeader && !row.cells.isEmpty then writeDelimiters alignments q else q

/-- Writes a table. -/
def writeTable (t : Table) (p : Pen) : Pen :=
  (t.rows.foldl (fun p row => writeRow t.alignments row p) p.endBlock).endBlock

/-! ## Blocks -/

/-- Whether a list before this block would run on into it. -/
def Chunk.joinsList : Chunk → Bool
  | .list .. => true
  | .codeBlock .. => true
  | _ => false

/-- The comment that closes a list. -/
def endOfList : String := "<!-- end list -->"

/-- The marker of an item with number `n`, padded to four places. -/
def itemMarker (n : Nat) : String := toString n ++ (if n < 10 then ".  " else ". ")

/-- The number of the next item of the innermost ordered list. -/
def Pen.itemNumber (p : Pen) : Nat := p.counters.headD 1

/-- The marker of the next item. -/
def Pen.nextMarker (ordered : Bool) (p : Pen) : String :=
  if ordered then itemMarker p.itemNumber else "- "

/-- Begins an item: its marker is written, and its lines are indented by as much. -/
def openItem (ordered : Bool) (p : Pen) : Pen :=
  let marker := p.nextMarker ordered
  let q := p.literal marker
  { q with
    contentStart := true
    margin := q.margin ++ List.replicate marker.length ' '
    counters := if ordered then (q.itemNumber + 1) :: q.counters.tail else q.counters }

/-- Ends an item. The indentation that is taken back is that of the next item's marker. -/
def closeItem (ordered : Bool) (p : Pen) : Pen :=
  (p.outdent (p.nextMarker ordered).length).endLine

mutual

/-- Writes a block. `inItem` tells that it stands directly in a list item, `first` that nothing stands
before it there, and `next` is the block after it. -/
def writeChunk (inItem first : Bool) (next : Option Chunk) : Chunk → Pen → Pen
  | .heading level content, p =>
    let p := { p with tight := p.tight || inItem }
    let p := p.literal (fence '#' level) |>.literal " "
    (writeSpans .other content { p with contentStart := true }).endBlock
  | .paragraph content, p =>
    (writeSpans .other content { p with tight := p.tight || inItem }).endBlock
  | .list ordered items, p =>
    let p := { p with tight := p.tight || inItem }
    let p := if ordered then { p with counters := 1 :: p.counters } else p
    let p := { writeItems ordered items p with tight := inItem }
    let p := if ordered then { p with counters := p.counters.tail } else p
    if next.any Chunk.joinsList then (p.endLine.literal endOfList).endBlock else p
  | .blockQuote children, p =>
    let p := { p with tight := p.tight || inItem }
    let p := { p.literal "> " with contentStart := true }
    ((writeChunks false true children (p.indent "> ")).outdent 2).endBlock
  | .codeBlock info literal, p =>
    writeCodeBlock info literal (inItem && first) { p with tight := p.tight || inItem }
  | .htmlBlock literal, p =>
    ({ p with tight := p.tight || inItem }.endBlock.literal literal).endBlock
  | .table t, p => writeTable t { p with tight := p.tight || inItem }

/-- Writes blocks one after the other. -/
def writeChunks (inItem first : Bool) : List Chunk → Pen → Pen
  | [], p => p
  | c :: rest, p => writeChunks inItem false rest (writeChunk inItem first rest.head? c p)

/-- Writes the items of a list. -/
def writeItems (ordered : Bool) : List (List Chunk) → Pen → Pen
  | [], p => p
  | item :: rest, p =>
    writeItems ordered rest (closeItem ordered (writeChunks true true item (openItem ordered p)))

end

/-! ## Trees that cannot be written -/

mutual

/-- Whether writing a span comes to an empty code span, which has no CommonMark form. The label of a
link between angle brackets is not written. -/
def Span.hasEmptyCode : Span → Bool
  | .code literal => literal = ""
  | .emphasis content => Span.anyEmptyCode content
  | .strong content => Span.anyEmptyCode content
  | .link url content => !isAutolink url content && Span.anyEmptyCode content
  | _ => false

/-- Whether writing one of the spans comes to an empty code span. -/
def Span.anyEmptyCode : List Span → Bool
  | [] => false
  | s :: rest => s.hasEmptyCode || Span.anyEmptyCode rest

end

/-- Whether writing a table comes to an empty code span. -/
def Table.hasEmptyCode (t : Table) : Bool := t.rows.any fun row => row.cells.any Span.anyEmptyCode

mutual

/-- Whether writing a block comes to an empty code span. -/
def Chunk.hasEmptyCode : Chunk → Bool
  | .heading _ content => Span.anyEmptyCode content
  | .paragraph content => Span.anyEmptyCode content
  | .list _ items => Chunk.anyItemEmptyCode items
  | .blockQuote children => Chunk.anyEmptyCode children
  | .table t => t.hasEmptyCode
  | _ => false

/-- Whether writing one of the blocks comes to an empty code span. -/
def Chunk.anyEmptyCode : List Chunk → Bool
  | [] => false
  | c :: rest => c.hasEmptyCode || Chunk.anyEmptyCode rest

/-- Whether writing one of the items comes to an empty code span. -/
def Chunk.anyItemEmptyCode : List (List Chunk) → Bool
  | [] => false
  | item :: rest => Chunk.anyEmptyCode item || Chunk.anyItemEmptyCode rest

end

/-- The text of a tree, with a line end after its last line. -/
def renderText (chunks : List Chunk) : List Char :=
  let written := (writeChunks false true chunks {}).reversed
  match written with
  | [] => []
  | c :: _ => if c = '\n' then written.reverse else ('\n' :: written).reverse

end BookCatalog.Markdown
