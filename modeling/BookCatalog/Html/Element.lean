import BookCatalog.Html.Token
import BookCatalog.Text.Blank

/-!
# The tree of a page

An element has a name, attributes and contents. The contents are elements, runs of text and comments;
the contents of a template stand in a fragment of their own, which selectors and markup look into and
all else does not.

The views of an element that transcoders use: its children, its child elements, its own text and the
whole text below it.
-/

namespace BookCatalog.Html

/-- Which vocabulary an element belongs to. -/
inductive Space where
  | html
  | svg
  | mathml
  deriving DecidableEq, Repr, Inhabited

mutual

/-- An element: its vocabulary, its name, its attributes in the order of their names, and its
contents. -/
inductive Element where
  | mk (space : Space) (name : String) (attrs : List Attr) (contents : List Node)

/-- A part of an element's contents. -/
inductive Node where
  | element (e : Element)
  | text (s : String)
  | comment (s : String)
  /-- The contents of a template. -/
  | fragment (contents : List Node)

end

instance : Inhabited Element := ⟨.mk .html "" [] []⟩
instance : Inhabited Node := ⟨.text ""⟩

namespace Element

/-- The vocabulary of an element. -/
def space : Element → Space | .mk s _ _ _ => s

/-- The name of an element. -/
def name : Element → String | .mk _ n _ _ => n

/-- The attributes of an element. -/
def attrs : Element → List Attr | .mk _ _ a _ => a

/-- What stands in an element. -/
def contents : Element → List Node | .mk _ _ _ c => c

/-- The value of a plain attribute. -/
def attr? (e : Element) (name : String) : Option String :=
  (e.attrs.find? fun a => a.space = .plain && a.name = name).map (·.value)

/-- The words of the attribute `class`. -/
def classes (e : Element) : List String :=
  match e.attr? "class" with
  | some value => ((value.toList.splitOnP Text.isBlank).filter (!·.isEmpty)).map String.ofList
  | none => []

/-- Whether an element has a class. -/
def hasClass (e : Element) (cls : String) : Bool := e.classes.contains cls

end Element

/-- The element that a node is. -/
def Node.element? : Node → Option Element
  | .element e => some e
  | _ => none

/-- The text that a node is. -/
def Node.text? : Node → Option String
  | .text s => some s
  | _ => none

namespace Element

/-- The elements directly in an element, in order. -/
def childElements (e : Element) : List Element := e.contents.filterMap Node.element?

/-- The first element directly in an element. -/
def firstChild? (e : Element) : Option Element := e.contents.findSome? Node.element?

/-- The elements of a name directly in an element. -/
def childrenNamed (e : Element) (name : String) : List Element :=
  e.childElements.filter (·.name = name)

/-- The text directly in an element, its blanks collapsed and trimmed. -/
def ownText (e : Element) : String :=
  Text.tidy (String.join (e.contents.filterMap Node.text?))

end Element

mutual

/-- The runs of text below an element, in document order. -/
def Element.textRuns : Element → List String
  | .mk _ _ _ contents => Node.textRunsOf contents

/-- The runs of text in a list of nodes and below its elements, in document order. -/
def Node.textRunsOf : List Node → List String
  | [] => []
  | .text s :: rest => s :: Node.textRunsOf rest
  | .element e :: rest => e.textRuns ++ Node.textRunsOf rest
  | _ :: rest => Node.textRunsOf rest

end

/-- All text below an element, as it stands. -/
def Element.wholeText (e : Element) : String := String.join e.textRuns

/-- All text below an element, its blanks collapsed and trimmed. -/
def Element.text (e : Element) : String := Text.tidy e.wholeText

end BookCatalog.Html
