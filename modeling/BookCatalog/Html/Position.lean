import BookCatalog.Html.Element

/-!
# Where elements stand

A position is an element together with the elements around it and before it. What stands in a template
has nothing around it but the elements of that template.
-/

namespace BookCatalog.Html

/-- An element and the elements before it in the same place, nearest first. -/
structure Spot where
  element : Element
  before : List Element
  deriving Inhabited

/-- An element in its place, and the elements around it, innermost first. -/
structure Position where
  spot : Spot
  around : List Spot
  deriving Inhabited

/-- The element at a position. -/
def Position.element (p : Position) : Element := p.spot.element

mutual

/-- An element with the given elements before and around it, and all elements below it, in document
order. -/
def Element.positionsFrom (before : List Element) (around : List Spot) : Element → List Position
  | .mk space name attrs contents =>
    let spot : Spot := ⟨.mk space name attrs contents, before⟩
    ⟨spot, around⟩ :: Node.positionsIn [] (spot :: around) contents

/-- The elements of a list of nodes and all elements below them, in document order. -/
def Node.positionsIn (before : List Element) (around : List Spot) : List Node → List Position
  | [] => []
  | .element e :: rest =>
    e.positionsFrom before around ++ Node.positionsIn (e :: before) around rest
  | .fragment contents :: rest =>
    Node.positionsIn [] [] contents ++ Node.positionsIn before around rest
  | _ :: rest => Node.positionsIn before around rest

end

/-- The elements below a position, in document order. -/
def Position.below (p : Position) : List Position :=
  Node.positionsIn [] (p.spot :: p.around) p.element.contents

mutual

/-- The elements below an element, in document order. Those in templates count. -/
def Element.descendants : Element → List Element
  | .mk _ _ _ contents => Node.elementsIn contents

/-- The elements of a list of nodes and all elements below them, in document order. -/
def Node.elementsIn : List Node → List Element
  | [] => []
  | .element e :: rest => e :: (e.descendants ++ Node.elementsIn rest)
  | .fragment contents :: rest => Node.elementsIn contents ++ Node.elementsIn rest
  | _ :: rest => Node.elementsIn rest

end

end BookCatalog.Html
