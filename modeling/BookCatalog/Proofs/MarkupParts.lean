import BookCatalog.Markup

/-!
# The parts of a markup tree

Blocks stand in blocks, and inlines stand in inlines. Here a tree is seen as the list of all its blocks and
as the list of all its inlines, at every depth and in reading order, so that a statement about every node
of a document is a statement about the members of a list.
-/

namespace BookCatalog

mutual

/-- An inline and the inlines inside it. -/
def Inline.parts : Inline → List Inline
  | .emphasis content => .emphasis content :: Inline.partsOf content
  | .strong content => .strong content :: Inline.partsOf content
  | .link destination content => .link destination content :: Inline.partsOf content
  | .text literal => [.text literal]
  | .code literal => [.code literal]
  | .html literal => [.html literal]
  | .image source => [.image source]
  | .symbolLink symbol => [.symbolLink symbol]

/-- The inlines of a line and the inlines inside them. -/
def Inline.partsOf : List Inline → List Inline
  | [] => []
  | i :: rest => i.parts ++ Inline.partsOf rest

end

mutual

/-- A block and the blocks inside it. -/
def Block.parts : Block → List Block
  | .list ordered items => .list ordered items :: Block.partsOfItems items
  | .blockQuote children => .blockQuote children :: Block.partsOf children
  | .heading level content => [.heading level content]
  | .paragraph content => [.paragraph content]
  | .table header rows => [.table header rows]
  | .codeBlock language literal => [.codeBlock language literal]
  | .htmlBlock literal => [.htmlBlock literal]

/-- Some blocks and the blocks inside them. -/
def Block.partsOf : List Block → List Block
  | [] => []
  | b :: rest => b.parts ++ Block.partsOf rest

/-- The blocks in the items of a list and the blocks inside them. -/
def Block.partsOfItems : List (List Block) → List Block
  | [] => []
  | item :: rest => Block.partsOf item ++ Block.partsOfItems rest

end

namespace Inline

/-- The text that an inline is. -/
def text? : Inline → Option String
  | .text literal => some literal
  | _ => none

/-- The code that an inline is. -/
def code? : Inline → Option String
  | .code literal => some literal
  | _ => none

/-- The inlines that stand directly in an inline. -/
def inner : Inline → List Inline
  | .emphasis content => content
  | .strong content => content
  | .link _ content => content
  | _ => []

theorem parts_eq (i : Inline) : i.parts = i :: partsOf i.inner := by
  cases i <;> rfl

@[simp] theorem partsOf_nil : partsOf [] = [] := rfl

@[simp] theorem partsOf_cons (i : Inline) (rest : List Inline) :
    partsOf (i :: rest) = i.parts ++ partsOf rest := rfl

@[simp] theorem partsOf_append (content more : List Inline) :
    partsOf (content ++ more) = partsOf content ++ partsOf more := by
  induction content with
  | nil => rfl
  | cons i rest ih => simp [ih]

/-! ## Pieces of a line -/

/-- What is read in a line: text, or markup that is passed through. -/
inductive Piece where
  | said (s : String)
  | passed (markup : String)

/-- The text that a piece is. -/
def Piece.said? : Piece → Option String
  | .said s => some s
  | .passed _ => none

/-- The markup that a piece is. -/
def Piece.passed? : Piece → Option String
  | .said _ => none
  | .passed markup => some markup

/-- The piece that an inline is, the inlines inside it apart. -/
def piece? : Inline → Option Piece
  | .text s | .code s => some (.said s)
  | .html markup => some (.passed markup)
  | .emphasis _ | .strong _ | .link _ _ | .image _ | .symbolLink _ => none

/-- The pieces of a line from left to right, at every depth. -/
def pieces (line : List Inline) : List Piece := (partsOf line).filterMap piece?

/-- The text of a line, without the markup that is passed through. -/
def said (line : List Inline) : String := String.join ((pieces line).filterMap Piece.said?)

/-- The markup that is passed through in a line. -/
def passed (line : List Inline) : List String := (pieces line).filterMap Piece.passed?

/-- The texts of some pieces, with the texts `sources` in place of the markup, one after the other. -/
def textsWith : List String → List Piece → List String
  | _, [] => []
  | sources, .said s :: rest => s :: textsWith sources rest
  | source :: sources, .passed _ :: rest => source :: textsWith sources rest
  | [], .passed _ :: rest => textsWith [] rest

/-- The text of a line, with the texts `sources` in place of the markup, one after the other. -/
def saidWith (sources : List String) (line : List Inline) : String :=
  String.join (textsWith sources (pieces line))

theorem pieces_cons (i : Inline) (rest : List Inline) : pieces (i :: rest) = pieces [i] ++ pieces rest := by
  simp [pieces]

/-- An inline that is no piece itself is read as the inlines inside it. -/
theorem pieces_of_inner {i : Inline} (h : i.piece? = none) : pieces [i] = pieces i.inner := by
  rw [pieces, partsOf_cons, partsOf_nil, List.append_nil, parts_eq, List.filterMap_cons_none h, pieces]

end Inline

namespace Block

/-- The lines of inlines that stand in a block itself. -/
def lines : Block → List (List Inline)
  | .heading _ content => [content]
  | .paragraph content => [content]
  | .table header rows => header ++ rows.flatten
  | _ => []

/-- The blocks that stand directly in a block. -/
def inner : Block → List Block
  | .list _ items => items.flatten
  | .blockQuote children => children
  | _ => []

/-- The inlines in a block, those of the blocks inside it apart. -/
def ownInlines (b : Block) : List Inline := b.lines.flatMap Inline.partsOf

/-- All inlines in some blocks, at every depth. -/
def inlinesOf (blocks : List Block) : List Inline := (partsOf blocks).flatMap ownInlines

@[simp] theorem partsOf_nil : partsOf [] = [] := rfl

@[simp] theorem partsOf_cons (b : Block) (rest : List Block) :
    partsOf (b :: rest) = b.parts ++ partsOf rest := rfl

@[simp] theorem partsOf_append (blocks more : List Block) :
    partsOf (blocks ++ more) = partsOf blocks ++ partsOf more := by
  induction blocks with
  | nil => rfl
  | cons b rest ih => simp [ih]

@[simp] theorem partsOfItems_nil : partsOfItems [] = [] := rfl

@[simp] theorem partsOfItems_cons (item : List Block) (rest : List (List Block)) :
    partsOfItems (item :: rest) = partsOf item ++ partsOfItems rest := rfl

theorem partsOfItems_eq (items : List (List Block)) : partsOfItems items = partsOf items.flatten := by
  induction items with
  | nil => rfl
  | cons item rest ih => rw [partsOfItems_cons, ih, List.flatten_cons, partsOf_append]

theorem parts_eq (b : Block) : b.parts = b :: partsOf b.inner := by
  cases b with
  | list ordered items => rw [parts, partsOfItems_eq, inner]
  | _ => rfl

end Block

namespace Document

/-- All blocks of a document, at every depth. -/
def allBlocks (d : Document) : List Block := Block.partsOf d.children

/-- All inlines of a document, at every depth. -/
def allInlines (d : Document) : List Inline := Block.inlinesOf d.children

/-- All code in the lines of a document, at every depth. -/
def allCode (d : Document) : List String := d.allInlines.filterMap Inline.code?

theorem mem_allCode_iff {d : Document} {literal : String} :
    literal ∈ d.allCode ↔ .code literal ∈ d.allInlines := by
  rw [allCode, List.mem_filterMap]
  refine ⟨?_, fun h => ⟨_, h, rfl⟩⟩
  rintro ⟨i, hi, hcode⟩
  cases i with
  | code s =>
    cases hcode
    exact hi
  | _ => cases hcode

end Document

end BookCatalog
