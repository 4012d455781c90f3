import BookCatalog.AnchorTable
import BookCatalog.Html.Page
import BookCatalog.Html.Selector
import BookCatalog.Slug

/-!
# Anchors of a chapter

A section can be linked to when it has an id and begins with a heading of the second or third level.
Its anchor is the slug of the text that stands directly in the heading, so that marks inside the
heading do not count.
-/

namespace BookCatalog.Chapter

open BookCatalog.Html

/-- The id and the slug of a section that can be linked to. -/
def anchor? (section_ : Element) : Option (String × String) := do
  let id ← section_.attr? "id"
  let heading ← section_.firstChild?
  if heading.name = "h2" || heading.name = "h3" then return (id, Slug.ofText heading.ownText)
  else none

/-- The anchors of the sections below an element, in document order. -/
def anchorList (e : Element) : List (String × String) :=
  (e.descendants.filter (·.isOfClass "section")).filterMap anchor?

/-- The anchors of the sections below an element. -/
def anchorsBelow (e : Element) : AnchorTable := AnchorTable.ofList (anchorList e)

end BookCatalog.Chapter
