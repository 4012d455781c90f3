import BookCatalog.ConversionError
import BookCatalog.Html.Page
import BookCatalog.Html.Selector
import BookCatalog.Json
import BookCatalog.Link
import BookCatalog.Markup
import BookCatalog.Text.Fields

/-!
# The table of contents

The table of contents is a page with a list of the parts of the book, each a link with the name of the
part and a list of links to its chapters. It becomes the landing page of the catalog.
-/

namespace BookCatalog

open BookCatalog.Html

/-- A chapter in the table of contents: its name and the id of its document. -/
structure ContentsEntry where
  name : String
  target : String
  deriving DecidableEq, Repr, Inhabited

/-- A part of the book with its chapters. -/
structure ContentsPart where
  name : String
  entries : List ContentsEntry
  deriving DecidableEq, Repr, Inhabited

namespace TableOfContents

/-- The id of the document that a link of the table leads to: the text after the last slash, up to the
last dot. -/
def targetOf (href : String) : String :=
  let file := match Text.splitLast? (· == '/') href.toList with
    | some (_, file) => file
    | none => href.toList
  match Text.splitLast? (· == '.') file with
  | some (stem, _) => String.ofList stem
  | none => String.ofList file

/-- The entry that a link stands for. -/
def entryOf (link : Element) : ContentsEntry :=
  ⟨link.ownText, targetOf ((link.attr? "href").getD "")⟩

/-- The entries of a part: the links in the items of its lists. -/
def entriesOf (part : Element) : List ContentsEntry :=
  (((part.childrenNamed "ol").flatMap (·.childrenNamed "li")).flatMap
    (·.childrenNamed "a")).map entryOf

/-- The part that an item of the list stands for. Its first link has its name. -/
def partOf (item : Element) : Except ConversionError ContentsPart :=
  match (item.childrenNamed "a").head? with
  | some link => .ok ⟨link.text, entriesOf item⟩
  | none => .error (.missing .partLink)

/-- Whether an element is a list inside an element of navigation. -/
def isContentsList (p : Position) : Bool :=
  p.element.name = "ol" && p.around.any (·.element.name = "nav")

/-- The list of the parts of the book in a page. -/
def contentsList? (page : Page) : Option Element := (page.made.find? isContentsList).map (·.element)

/-- The parts of the book in a page. -/
def partsOf (page : Page) : Except ConversionError (List ContentsPart) :=
  match contentsList? page with
  | some list => (list.childrenNamed "li").mapM partOf
  | none => .error (.missing .contentsList)

/-- The parts of the book in the page written in `source`. -/
def parts (source : String) : Except ConversionError (List ContentsPart) := partsOf (.ofText source)

/-- An entry on the landing page: an item of a list with a link to the chapter. -/
def entryItem (e : ContentsEntry) : List Block :=
  [.paragraph [.link (Link.catalogScheme ++ e.target) [.text e.name]]]

/-- A part on the landing page: a heading and a list of the chapters. -/
def partBlocks (p : ContentsPart) : List Block :=
  [.heading 3 [.text p.name], .list false (p.entries.map entryItem)]

/-- The landing page of the catalog of a module. -/
def landingPage (parts : List ContentsPart) (moduleName : String) : Document :=
  ⟨.heading 1 [.symbolLink moduleName] :: .heading 2 [.text "Topics"] :: parts.flatMap partBlocks⟩

/-- The parts as a JSON value. -/
def json (parts : List ContentsPart) : Json :=
  .array (parts.map fun p => .object [("name", .string p.name),
    ("items", .array (p.entries.map fun e =>
      .object [("name", .string e.name), ("target_id", .string e.target)]))])

end TableOfContents

end BookCatalog
