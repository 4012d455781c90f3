/-!
# Tokens of HTML

The pieces that the text of a page is cut into before its tree is built: tags, runs of text,
comments and the document type.
-/

namespace BookCatalog.Html

/-- Where an attribute's name belongs. Only attributes of foreign elements belong elsewhere than to
their element. -/
inductive AttrSpace where
  | plain
  | xmlns
  | xlink
  | xml
  deriving DecidableEq, Repr, Inhabited

/-- An attribute. -/
structure Attr where
  space : AttrSpace
  name : String
  value : String
  deriving DecidableEq, Repr, Inhabited

/-- A tag as it is written, its name in lower case. -/
structure Tag where
  name : String
  attrs : List Attr
  selfClosing : Bool
  deriving DecidableEq, Repr, Inhabited

namespace Tag

/-- A tag without attributes. -/
def plain (name : String) : Tag := ⟨name, [], false⟩

/-- The value of a plain attribute. -/
def attr? (t : Tag) (name : String) : Option String :=
  (t.attrs.find? fun a => a.space = .plain && a.name = name).map (·.value)

end Tag

/-- A piece of a page. -/
inductive Token where
  /-- The document type; `quirky` tells that it asks for the layout of old pages. -/
  | doctype (name : String) (quirky : Bool)
  | startTag (tag : Tag)
  | endTag (tag : Tag)
  | comment (text : String)
  /-- A run of blanks. -/
  | blanks (text : List Char)
  /-- A run of characters that are no blanks. -/
  | text (text : List Char)
  /-- A character U+0000. -/
  | null
  | eof
  deriving Repr, Inhabited

/-- A blank of HTML: a space, a tab, a line end, a form feed. -/
def isHtmlBlank (c : Char) : Bool :=
  c == ' ' || c == '\t' || c == '\n' || c == '\x0c' || c == '\r'

/-- How the text of an element is read. -/
inductive TextModel where
  /-- Tags and references count. -/
  | markup
  /-- References count, and the end tag. -/
  | escapable
  /-- Only the end tag counts. -/
  | raw
  /-- Only the end tag counts, and not inside a comment that holds another script. -/
  | script
  /-- Nothing counts any more. -/
  | plain
  deriving DecidableEq, Repr

end BookCatalog.Html
