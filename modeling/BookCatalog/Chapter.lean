import BookCatalog.Chapter.Anchors
import BookCatalog.Chapter.BlockContent

/-!
# Chapters

A chapter is a page whose body holds a division of class `body` with the content of the chapter.
Chapters are converted in two phases: first the anchors of all chapters are put into one table, then
each chapter becomes a document whose links are resolved against that table.
-/

namespace BookCatalog.Chapter

open BookCatalog.Html

/-- The body of a page. -/
def body (page : Page) : Except ConversionError Element :=
  match page.body? with
  | some body => .ok body
  | none => .error (.missing .body)

/-- The division that holds the content of a chapter, where it stands in the body. -/
def mainContent? (body : Element) : Option Position :=
  (Position.below ⟨⟨body, []⟩, []⟩).find? fun p =>
    p.element.name = "div" && p.element.isOfClass "body"

/-- Whether an element stands in a list of code lines. -/
def standsInLines (p : Position) : Bool := p.around.any fun spot => isCodeLines spot.element

/-- The anchors that a chapter defines. -/
def pageAnchors (page : Page) : Except ConversionError AnchorTable :=
  return anchorsBelow (← body page)

/-- The document of a chapter, its links resolved against `anchors`. -/
def pageDocument (page : Page) (anchors : AnchorTable) : Except ConversionError Document := do
  match mainContent? (← body page) with
  | some content => return ⟨← blocks anchors (standsInLines content) content.element.contents⟩
  | none => throw (.missing .mainContent)

/-- The anchors that the chapter written in `source` defines. -/
def anchors (source : String) : Except ConversionError AnchorTable := pageAnchors (.ofText source)

/-- The document of the chapter written in `source`. -/
def document (source : String) (anchors : AnchorTable) : Except ConversionError Document :=
  pageDocument (.ofText source) anchors

end BookCatalog.Chapter
