import BookCatalog.Html.Construction
import BookCatalog.Html.Position

/-!
# Pages

A page is the tree that a text is read as. A search through a whole page meets the elements in the order
in which they were made, which is not always their order in the tree: a repaired page may have moved
them.
-/

namespace BookCatalog.Html

/-- A page. -/
structure Page where
  /-- The outermost element. -/
  root : Element
  /-- The elements in the order in which they were made, each with its position. An element that was
  taken out of the page is none of them, those below it are. -/
  made : List Position
  deriving Inhabited

namespace Page

/-- The elements of one tree of a store, numbered. -/
def numbered (s : Store) (root : NodeId) : List (NodeId × Position) :=
  let positions := Node.positionsIn [] [] (s.freeze s.depth root)
  let all := (s.elementIds s.depth root).zip positions
  if root = Store.documentId then all else all.drop 1

/-- The page in a store. -/
def ofStore (s : Store) : Page :=
  let contents := s.freeze s.depth Store.documentId
  { root := (contents.findSome? Node.element?).getD default
    made := ((s.roots.flatMap (numbered s)).mergeSort fun a b => a.1 ≤ b.1).map (·.2) }

/-- The page that a text is read as. -/
def ofText (text : String) : Page := ofStore (Store.ofText text)

/-- The body of a page. -/
def body? (p : Page) : Option Element := (p.root.childrenNamed "body").head?

end Page

end BookCatalog.Html
