import BookCatalog.Markup

/-!
# CommonMark trees

The tree that CommonMark text is written from, and the tree of a document. The two differ in tables,
which are rectangles here, in the range of heading levels, in symbol references, which are raw text
here, and in the line ends inside a text run, which are spaces here.
-/

namespace BookCatalog.Markdown

/-- Inline content of CommonMark. -/
inductive Span where
  | text (literal : String)
  | code (literal : String)
  | html (literal : String)
  | emphasis (content : List Span)
  | strong (content : List Span)
  | link (url : String) (content : List Span)
  | image (url : String)
  deriving Inhabited, Repr, BEq

/-- How a table column is aligned. -/
inductive Alignment where
  | unset
  deriving Repr, DecidableEq

/-- A table row, and whether it is the header. -/
structure TableRow where
  isHeader : Bool
  cells : List (List Span)
  deriving Repr, BEq

/-- A table with its declared shape. -/
structure Table where
  columns : Nat
  rowCount : Nat
  alignments : List Alignment
  rows : List TableRow
  deriving Repr, BEq

/-- Block content of CommonMark. -/
inductive Chunk where
  | heading (level : Nat) (content : List Span)
  | paragraph (content : List Span)
  | list (ordered : Bool) (items : List (List Chunk))
  | blockQuote (children : List Chunk)
  | codeBlock (info : String) (literal : String)
  | htmlBlock (literal : String)
  | table (table : Table)
  deriving Repr, BEq

/-! ## The tree of a document -/

/-- A line end in a text run would end the construct it stands in, so it becomes a space. -/
def singleLine (s : String) : String :=
  String.ofList (s.toList.map fun c => if c == '\n' then ' ' else c)

/-- Two back-ticks, which enclose a symbol reference. -/
def symbolFence : String := "\x60\x60"

mutual

/-- The CommonMark form of an inline. -/
def spanOf : Inline → Span
  | .text s => .text (singleLine s)
  | .emphasis content => .emphasis (spansOf content)
  | .strong content => .strong (spansOf content)
  | .code s => .code s
  | .html s => .html s
  | .link destination content => .link destination (spansOf content)
  | .image source => .image (source.getD "")
  | .symbolLink s => .html (symbolFence ++ s ++ symbolFence)

/-- The CommonMark forms of the inlines of a list, in order. -/
def spansOf : List Inline → List Span
  | [] => []
  | i :: rest => spanOf i :: spansOf rest

end

/-- The number of columns of a table: the length of its longest row, the header included. -/
def columnCount (header : List Cell) (rows : List (List Cell)) : Nat :=
  rows.foldl (fun most row => max most row.length) header.length

/-- A row of exactly `columns` cells; cells that the source row does not have are empty. -/
def paddedCells (columns : Nat) (row : List Cell) : List (List Span) :=
  (List.range columns).map fun index => spansOf (row.getD index [])

/-- The rectangular form of a table, or none when it has no cell at all. -/
def tableOf (header : List Cell) (rows : List (List Cell)) : Option Table :=
  let columns := columnCount header rows
  if columns = 0 then none
  else
    some {
      columns
      rowCount := rows.length + 1
      alignments := List.replicate columns .unset
      rows := ⟨true, paddedCells columns header⟩ ::
        rows.map fun row => ⟨false, paddedCells columns row⟩ }

/-- Raw markup ends its last line. -/
def closedLine (literal : String) : String :=
  if literal.toList.getLast? = some '\n' then literal else literal ++ "\n"

mutual

/-- The CommonMark form of a block; a table without cells has none. -/
def chunksOfBlock : Block → List Chunk
  | .heading level content => [.heading (min (max level 1) 6) (spansOf content)]
  | .paragraph content => [.paragraph (spansOf content)]
  | .list ordered items => [.list ordered (itemsOf items)]
  | .table header rows => (tableOf header rows).toList.map .table
  | .blockQuote children => [.blockQuote (chunksOf children)]
  | .codeBlock language literal => [.codeBlock (language.getD "") literal]
  | .htmlBlock literal => [.htmlBlock (closedLine literal)]

/-- The CommonMark forms of the blocks of a list, in order. -/
def chunksOf : List Block → List Chunk
  | [] => []
  | b :: rest => chunksOfBlock b ++ chunksOf rest

/-- The CommonMark forms of the items of a list, in order. -/
def itemsOf : List (List Block) → List (List Chunk)
  | [] => []
  | item :: rest => chunksOf item :: itemsOf rest

end

end BookCatalog.Markdown
