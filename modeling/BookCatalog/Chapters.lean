import BookCatalog.Chapter

/-!
# The chapters of a book together

Chapters refer to sections of one another, earlier and later ones alike. So the anchors of all of them
are collected before the first one becomes a document.
-/

namespace BookCatalog.Chapters

open BookCatalog.Html

/-- The anchors of several pages in one table. An id that several pages define keeps the slug of the
first one. -/
def anchorsFrom (table : AnchorTable) : List Page → Except ConversionError AnchorTable
  | [] => .ok table
  | page :: rest => do anchorsFrom (table.merge (← Chapter.pageAnchors page)) rest

/-- The anchors of several chapters in one table. -/
def anchors (pages : List Page) : Except ConversionError AnchorTable := anchorsFrom ∅ pages

/-- The documents of named chapters, with the table that their links are resolved against. -/
def transcode (chapters : List (String × String)) :
    Except ConversionError (AnchorTable × List (String × Document)) := do
  let pages := chapters.map fun (name, source) => (name, Page.ofText source)
  let table ← anchors (pages.map (·.2))
  let documents ← pages.mapM fun (name, page) => return (name, ← Chapter.pageDocument page table)
  return (table, documents)

/-- The documents of named chapters, in order. -/
def documents (chapters : List (String × String)) :
    Except ConversionError (List (String × Document)) :=
  return (← transcode chapters).2

end BookCatalog.Chapters
