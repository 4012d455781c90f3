import BookCatalog.ConversionError
import BookCatalog.Html.Markup
import BookCatalog.Link
import BookCatalog.Markup

/-!
# Inline content of a chapter

The elements inside a line of text. Links, images, emphasis and code are understood, superscripts and
spans are passed through as markup, and every other element is an error.
-/

namespace BookCatalog.Chapter

open BookCatalog.Html

/-- What an element stands for inside a line of text. -/
inductive InlineKind where
  | link
  | image
  | emphasis
  | strong
  | code
  /-- Kept as markup. -/
  | kept
  | unknown
  deriving DecidableEq, Repr

/-- What an element of the given name stands for. -/
def InlineKind.ofName : String → InlineKind
  | "a" => .link
  | "img" => .image
  | "em" => .emphasis
  | "strong" => .strong
  | "code" => .code
  | "sup" => .kept
  | "span" => .kept
  | _ => .unknown

/-- A run of text in a line: its blanks are collapsed. -/
def textRun (s : String) : Inline := .text (Text.collapseBlanks s)

/-- A link. Its label is the text below it, without any formatting. -/
def linkOf (anchors : AnchorTable) (e : Element) : Inline :=
  .link (Link.destination ((e.attr? "href").getD "") anchors) (e.textRuns.map textRun)

/-- An image, by the logical name of its source. -/
def imageOf (e : Element) : Inline := .image (Link.imageSource? ((e.attr? "src").getD ""))

mutual

/-- The content that an element stands for inside a line of text. -/
def inline (anchors : AnchorTable) : Element → Except ConversionError Inline
  | .mk space name attrs contents =>
    let e := Element.mk space name attrs contents
    match InlineKind.ofName name with
    | .link => .ok (linkOf anchors e)
    | .image => .ok (imageOf e)
    | .emphasis => return .emphasis (← inlines anchors contents)
    | .strong => return .strong (← inlines anchors contents)
    | .code => .ok (.code e.text)
    | .kept => .ok (.html e.outerMarkup)
    | .unknown => .error (.unexpected name .inlineContent)

/-- The content that a list of nodes stands for inside a line of text. -/
def inlines (anchors : AnchorTable) : List Node → Except ConversionError (List Inline)
  | [] => .ok []
  | .text s :: rest => return textRun s :: (← inlines anchors rest)
  | .element e :: rest => do
    let first ← inline anchors e
    return first :: (← inlines anchors rest)
  | _ :: rest => inlines anchors rest

end

/-- The content of an element inside a line of text. -/
def inlineChildren (anchors : AnchorTable) (e : Element) : Except ConversionError (List Inline) :=
  inlines anchors e.contents

/-- Whether the only element among some nodes is a paragraph. -/
def isSoleParagraph (nodes : List Node) : Bool :=
  match nodes.filterMap Node.element? with
  | [only] => only.name = "p"
  | _ => false

/-- The inline content of the first element among some nodes. -/
def firstElementInlines (anchors : AnchorTable) : List Node → Except ConversionError (List Inline)
  | [] => .ok []
  | .element e :: _ => inlineChildren anchors e
  | _ :: rest => firstElementInlines anchors rest

/-- The inline content of some nodes, or of the paragraph that is the only element among them. -/
def unwrappedInlines (anchors : AnchorTable) (nodes : List Node) :
    Except ConversionError (List Inline) :=
  if isSoleParagraph nodes then firstElementInlines anchors nodes else inlines anchors nodes

end BookCatalog.Chapter
