import BookCatalog.Html.Element

/-!
# Elements as markup

The text of an element as HTML. Attributes stand in the order of their names, ampersands and no-break
spaces are escaped everywhere, angle brackets in text and quotes in attributes. Elements that never
have contents are written without an end tag, and the text of a script or a style sheet stands as it
is.
-/

namespace BookCatalog.Html

/-- Elements that never have contents. -/
def voidNames : List String :=
  ["area", "base", "basefont", "bgsound", "br", "col", "embed", "frame", "hr", "img", "input",
    "keygen", "link", "meta", "param", "source", "track", "wbr"]

/-- Elements whose text is not escaped. -/
def rawTextNames : List String :=
  ["style", "script", "xmp", "iframe", "noembed", "noframes", "plaintext"]

/-- A character of text. -/
def escapeTextChar (c : Char) : String :=
  if c = '&' then "&amp;" else if c = '\u00A0' then "&nbsp;"
  else if c = '<' then "&lt;" else if c = '>' then "&gt;" else String.singleton c

/-- A character of an attribute's value. -/
def escapeValueChar (c : Char) : String :=
  if c = '&' then "&amp;" else if c = '\u00A0' then "&nbsp;"
  else if c = '"' then "&quot;" else String.singleton c

/-- A text in which no character is read as markup. -/
def escapeText (s : String) : String := String.join (s.toList.map escapeTextChar)

/-- A value between double quotes. -/
def escapeValue (s : String) : String := String.join (s.toList.map escapeValueChar)

/-- What an attribute's name begins with. -/
def Attr.lead (a : Attr) : String :=
  match a.space with
  | .plain => ""
  | .xmlns => if a.name = "xmlns" then "" else "xmlns:"
  | .xlink => "xlink:"
  | .xml => "xml:"

/-- An attribute as it stands in a tag. -/
def Attr.markup (a : Attr) : String := " " ++ a.lead ++ a.name ++ "=\"" ++ escapeValue a.value ++ "\""

/-- The start tag of an element. -/
def startTagMarkup (name : String) (attrs : List Attr) : String :=
  "<" ++ name ++ String.join (attrs.map Attr.markup) ++ ">"

mutual

/-- An element with its own tags. -/
def Element.outerMarkup : Element → String
  | .mk space name attrs contents =>
    let start := startTagMarkup name attrs
    if space = .html && voidNames.contains name then start
    else
      let raw := space = .html && rawTextNames.contains name
      start ++ Node.markupOf raw contents ++ "</" ++ name ++ ">"

/-- The nodes of a list one after the other; `raw` tells that text is not escaped. -/
def Node.markupOf (raw : Bool) : List Node → String
  | [] => ""
  | .element e :: rest => e.outerMarkup ++ Node.markupOf raw rest
  | .text s :: rest => (if raw then s else escapeText s) ++ Node.markupOf raw rest
  | .comment s :: rest => "<!--" ++ s ++ "-->" ++ Node.markupOf raw rest
  | .fragment contents :: rest => Node.markupOf raw contents ++ Node.markupOf raw rest

end

/-- The contents of an element. Its own text is escaped whatever the element is. -/
def Element.innerMarkup (e : Element) : String := Node.markupOf false e.contents

end BookCatalog.Html
