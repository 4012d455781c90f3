import BookCatalog.Chapter.InlineContent
import BookCatalog.Html.Selector

/-!
# Blocks of a chapter

The elements that a chapter consists of. Most become one block each. A division of class `section` or
`body` is no block of its own: its elements stand where it stood. Text that stands directly in a
division, a list item or a description does not count.
-/

namespace BookCatalog.Chapter

open BookCatalog.Html

/-! ## Code listings

The lines of a listing are the list items inside an ordered list of class `code-lines`. A listing may
itself stand inside such a list. -/

/-- Whether an element is the list that holds the lines of a listing. -/
def isCodeLines (e : Element) : Bool := e.name = "ol" && e.isOfClass "code-lines"

mutual

/-- The lines below an element; `inLines` tells that a list of lines stands around it. -/
def linesBelow (inLines : Bool) : Element → List Element
  | .mk space name attrs contents =>
    linesIn (inLines || isCodeLines (.mk space name attrs contents)) contents

/-- The lines among some nodes and below them. -/
def linesIn (inLines : Bool) : List Node → List Element
  | [] => []
  | .element e :: rest =>
    (if inLines && e.name = "li" then [e] else []) ++ linesBelow inLines e ++ linesIn inLines rest
  | .fragment contents :: rest => linesIn false contents ++ linesIn inLines rest
  | _ :: rest => linesIn inLines rest

end

/-- The text of the listing in an element: its lines, one after the other, as they stand. -/
def listingText (inLines : Bool) (e : Element) : String :=
  String.join ((linesBelow inLines e).map Element.wholeText)

/-! ## Kinds of blocks -/

/-- What an element stands for among the blocks of a chapter. -/
inductive BlockKind where
  | heading (level : Nat)
  | list (ordered : Bool)
  | paragraph
  | table
  | definitions
  | division
  /-- Inline content that gets a paragraph of its own. -/
  | other
  deriving DecidableEq, Repr

/-- What an element of the given name stands for. -/
def BlockKind.ofName : String → BlockKind
  | "h1" => .heading 1
  | "h2" => .heading 2
  | "h3" => .heading 3
  | "h4" => .heading 4
  | "h5" => .heading 5
  | "h6" => .heading 6
  | "ul" => .list false
  | "ol" => .list true
  | "p" => .paragraph
  | "table" => .table
  | "dl" => .definitions
  | "div" => .division
  | _ => .other

/-- What a division stands for. -/
inductive DivisionKind where
  /-- Its elements stand in its place. -/
  | container
  /-- A code listing. -/
  | listing
  /-- A note or a warning with the given title. -/
  | admonition (title : String)
  /-- Markup that is kept. -/
  | kept
  deriving DecidableEq, Repr

/-- What a division stands for. -/
def DivisionKind.of (e : Element) : DivisionKind :=
  if e.hasClass "section" || e.hasClass "body" then .container
  else if e.hasClass "highlight-swift" then .listing
  else
    match e.firstChild? with
    | some title => if title.hasClass "admonition-title" then .admonition title.ownText else .kept
    | none => .kept

/-- The language of the listings. -/
def listingLanguage : String := "swift"

/-- The blocks of an admonition: its title stands in front of the text that the first paragraph or
heading begins with, or in a paragraph of its own. -/
def withTitle (title : String) : List Block → List Block
  | .paragraph (.text s :: content) :: rest => .paragraph (.text (title ++ s) :: content) :: rest
  | .heading level (.text s :: content) :: rest =>
    .heading level (.text (title ++ s) :: content) :: rest
  | blocks => .paragraph [.text title] :: blocks

/-- The line that a description begins with. -/
def termLine (term : List Inline) : List Inline := [.text "term "] ++ term ++ [.text ": "]

/-- The blocks of a definition: the line of the term stands in front of the first paragraph, or in a
paragraph of its own. -/
def withTerm (term : List Inline) : List Block → List Block
  | .paragraph content :: rest => .paragraph (termLine term ++ content) :: rest
  | blocks => .paragraph (termLine term) :: blocks

/-- The cells of a row of a table. -/
def cells (anchors : AnchorTable) : List Node → Except ConversionError (List Cell)
  | [] => .ok []
  | .element e :: rest => do
    if e.name ≠ "td" && e.name ≠ "th" then throw (.unexpected e.name .tableRow)
    let first ← unwrappedInlines anchors e.contents
    return first :: (← cells anchors rest)
  | _ :: rest => cells anchors rest

/-- A row of a table. -/
def row (anchors : AnchorTable) (e : Element) : Except ConversionError (List Cell) :=
  if e.name = "tr" then cells anchors e.contents else .error (.unexpected e.name .tableSection)

/-- The rows of a section of a table. -/
def rows (anchors : AnchorTable) : List Node → Except ConversionError (List (List Cell))
  | [] => .ok []
  | .element e :: rest => do
    let first ← row anchors e
    return first :: (← rows anchors rest)
  | _ :: rest => rows anchors rest

/-- The first row of a section of a table. -/
def firstRow? (anchors : AnchorTable) : List Node → Except ConversionError (Option (List Cell))
  | [] => .ok none
  | .element e :: _ => return some (← row anchors e)
  | _ :: rest => firstRow? anchors rest

/-- The header and the rows of a table. The last head that has a row gives the header, and only its
first row counts; all rows of all bodies count. -/
def tableParts (anchors : AnchorTable) :
    List Node → Except ConversionError (Option (List Cell) × List (List Cell))
  | [] => .ok (none, [])
  | .element e :: rest => do
    if e.name = "thead" then
      let header ← firstRow? anchors e.contents
      let (later, more) ← tableParts anchors rest
      return (later <|> header, more)
    else if e.name = "tbody" then
      let first ← rows anchors e.contents
      let (header, more) ← tableParts anchors rest
      return (header, first ++ more)
    else tableParts anchors rest
  | _ :: rest => tableParts anchors rest

/-- A table. -/
def tableOf (anchors : AnchorTable) (nodes : List Node) : Except ConversionError Block := do
  let (header, rows) ← tableParts anchors nodes
  return .table (header.getD []) rows

mutual

/-- The blocks that an element stands for; `inLines` tells that a list of code lines stands around
it. -/
def block (anchors : AnchorTable) (inLines : Bool) : Element → Except ConversionError (List Block)
  | .mk space name attrs contents =>
    let e := Element.mk space name attrs contents
    match BlockKind.ofName name with
    | .heading level => return [.heading level (← inlines anchors contents)]
    | .list ordered => return [.list ordered (← items anchors (inLines || isCodeLines e) name contents)]
    | .paragraph => return [.paragraph (← inlines anchors contents)]
    | .table => return [← tableOf anchors contents]
    | .definitions => return [.list false (← terms anchors inLines contents)]
    | .division =>
      match DivisionKind.of e with
      | .container => blocks anchors inLines contents
      | .listing => return [.codeBlock (some listingLanguage) (listingText inLines e)]
      | .admonition title =>
        return [.blockQuote (withTitle (title ++ ": ") (← blocksAfterFirst anchors inLines contents))]
      | .kept => return [.htmlBlock e.innerMarkup]
    | .other => return [.paragraph [← inline anchors e]]

/-- The blocks that the elements among some nodes stand for. -/
def blocks (anchors : AnchorTable) (inLines : Bool) :
    List Node → Except ConversionError (List Block)
  | [] => .ok []
  | .element e :: rest => do
    let first ← block anchors inLines e
    return first ++ (← blocks anchors inLines rest)
  | _ :: rest => blocks anchors inLines rest

/-- The blocks that the elements among some nodes stand for, the first element apart. -/
def blocksAfterFirst (anchors : AnchorTable) (inLines : Bool) :
    List Node → Except ConversionError (List Block)
  | [] => .ok []
  | .element _ :: rest => blocks anchors inLines rest
  | _ :: rest => blocksAfterFirst anchors inLines rest

/-- The items of a list whose element is named `list`. -/
def items (anchors : AnchorTable) (inLines : Bool) (list : String) :
    List Node → Except ConversionError (List (List Block))
  | [] => .ok []
  | .element (.mk _ name _ contents) :: rest => do
    if name ≠ "li" then throw (.unexpected name (.list list))
    let first ← blocks anchors inLines contents
    return first :: (← items anchors inLines list rest)
  | _ :: rest => items anchors inLines list rest

/-- The definitions of a list of definitions, from where a term has to come. -/
def terms (anchors : AnchorTable) (inLines : Bool) :
    List Node → Except ConversionError (List (List Block))
  | [] => .ok []
  | .element e :: rest => do
    if e.name ≠ "dt" then throw (.unexpected e.name .definitionList)
    let term ← unwrappedInlines anchors e.contents
    descriptions anchors inLines term e.text rest
  | _ :: rest => terms anchors inLines rest

/-- The definitions of a list of definitions, from where the description of a term has to come. -/
def descriptions (anchors : AnchorTable) (inLines : Bool) (term : List Inline) (label : String) :
    List Node → Except ConversionError (List (List Block))
  | [] => .error (.missing (.description label))
  | .element (.mk _ name _ contents) :: rest => do
    if name ≠ "dd" then throw (.unexpected name (.afterTerm label))
    let description ← blocks anchors inLines contents
    return withTerm term description :: (← terms anchors inLines rest)
  | _ :: rest => descriptions anchors inLines term label rest

end

end BookCatalog.Chapter
