import BookCatalog.Html.Element

/-!
# Kinds of elements

The sets of names that the construction of a tree goes by: elements that end a search for an open
element, elements whose end is implied, and elements that formatting does not reach across.
-/

namespace BookCatalog.Html

/-- Headings. -/
def headingNames : List String := ["h1", "h2", "h3", "h4", "h5", "h6"]

/-- Elements that end when an element around them ends. -/
def impliedEndNames : List String :=
  ["dd", "dt", "li", "option", "optgroup", "p", "rb", "rp", "rt", "rtc"]

/-- Elements that end when a template around them ends. -/
def templateImpliedEndNames : List String :=
  impliedEndNames ++ ["caption", "colgroup", "tbody", "td", "tfoot", "th", "thead", "tr"]

/-- Elements of HTML with rules of their own. -/
def specialNames : List String :=
  ["address", "applet", "area", "article", "aside", "base", "basefont", "bgsound", "blockquote",
    "body", "br", "button", "caption", "center", "col", "colgroup", "dd", "details", "dir", "div",
    "dl", "dt", "embed", "fieldset", "figcaption", "figure", "footer", "form", "frame", "frameset",
    "h1", "h2", "h3", "h4", "h5", "h6", "head", "header", "hgroup", "hr", "html", "iframe", "img",
    "input", "isindex", "li", "link", "listing", "main", "marquee", "menu", "meta", "nav",
    "noembed", "noframes", "noscript", "object", "ol", "p", "param", "plaintext", "pre", "script",
    "search", "section", "select", "source", "style", "summary", "table", "tbody", "td", "template",
    "textarea", "tfoot", "th", "thead", "title", "tr", "track", "ul", "wbr", "xmp"]

/-- Elements of MathML whose contents may be text of HTML. -/
def mathTextNames : List String := ["mi", "mo", "mn", "ms", "mtext"]

/-- Elements of SVG whose contents may be HTML. -/
def svgContainerNames : List String := ["foreignObject", "desc", "title"]

/-- An element of MathML whose text belongs to HTML. -/
def isMathText (n : Space × String) : Bool := n.1 = .mathml && mathTextNames.contains n.2

/-- An element of SVG whose contents belong to HTML. -/
def isSvgContainer (n : Space × String) : Bool := n.1 = .svg && svgContainerNames.contains n.2

/-- An element of HTML with one of the names. -/
def isHtmlIn (names : List String) (n : Space × String) : Bool := n.1 = .html && names.contains n.2

/-- What a search for an open element does not look beyond. -/
inductive Scope where
  | general
  | listItem
  | button
  | table
  | select
  deriving DecidableEq

/-- Whether an element ends a search. -/
def Scope.stops (scope : Scope) (n : Space × String) : Bool :=
  let general := isMathText n || isSvgContainer n ||
    isHtmlIn ["applet", "caption", "html", "table", "td", "th", "marquee", "object", "template"] n
  match scope with
  | .general => general
  | .listItem => general || isHtmlIn ["ol", "ul"] n
  | .button => general || isHtmlIn ["button"] n
  | .table => isHtmlIn ["html", "table", "template"] n
  | .select => !isHtmlIn ["optgroup", "option"] n

/-! ## Names in foreign elements -/

/-- Elements of SVG whose names have capital letters. -/
def svgElementNames : List String :=
  ["altGlyph", "altGlyphDef", "altGlyphItem", "animateColor", "animateMotion", "animateTransform",
    "clipPath", "feBlend", "feColorMatrix", "feComponentTransfer", "feComposite",
    "feConvolveMatrix", "feDiffuseLighting", "feDisplacementMap", "feDistantLight", "feDropShadow",
    "feFlood", "feFuncA", "feFuncB", "feFuncG", "feFuncR", "feGaussianBlur", "feImage", "feMerge",
    "feMergeNode", "feMorphology", "feOffset", "fePointLight", "feSpecularLighting", "feSpotLight",
    "feTile", "feTurbulence", "foreignObject", "glyphRef", "linearGradient", "radialGradient",
    "textPath"]

/-- Attributes of SVG whose names have capital letters. -/
def svgAttrNames : List String :=
  ["attributeName", "attributeType", "baseFrequency", "baseProfile", "calcMode", "clipPathUnits",
    "diffuseConstant", "edgeMode", "filterUnits", "glyphRef", "gradientTransform", "gradientUnits",
    "kernelMatrix", "kernelUnitLength", "keyPoints", "keySplines", "keyTimes", "lengthAdjust",
    "limitingConeAngle", "markerHeight", "markerUnits", "markerWidth", "maskContentUnits",
    "maskUnits", "numOctaves", "pathLength", "patternContentUnits", "patternTransform",
    "patternUnits", "pointsAtX", "pointsAtY", "pointsAtZ", "preserveAlpha", "preserveAspectRatio",
    "primitiveUnits", "refX", "refY", "repeatCount", "repeatDur", "requiredExtensions",
    "requiredFeatures", "specularConstant", "specularExponent", "spreadMethod", "startOffset",
    "stdDeviation", "stitchTiles", "surfaceScale", "systemLanguage", "tableValues", "targetX",
    "targetY", "textLength", "viewBox", "viewTarget", "xChannelSelector", "yChannelSelector",
    "zoomAndPan"]

/-- The name of a list that equals `name` in lower case, or `name` itself. -/
def restoreCase (names : List String) (name : String) : String :=
  (names.find? fun n => n.toLower = name).getD name

/-- An attribute of a foreign element, with its name put where it belongs. -/
def foreignAttr (a : Attr) : Attr :=
  let linked := ["actuate", "arcrole", "href", "role", "show", "title", "type"]
  match linked.find? fun n => a.name = "xlink:" ++ n with
  | some n => { a with space := .xlink, name := n }
  | none =>
    if a.name = "xml:lang" then { a with space := .xml, name := "lang" }
    else if a.name = "xml:space" then { a with space := .xml, name := "space" }
    else if a.name = "xmlns" then { a with space := .xmlns }
    else if a.name = "xmlns:xlink" then { a with space := .xmlns, name := "xlink" }
    else a

/-- The attributes of a tag as those of an element of the vocabulary. -/
def adjustedAttrs (space : Space) (attrs : List Attr) : List Attr :=
  match space with
  | .html => attrs
  | .svg => attrs.map fun a => foreignAttr { a with name := restoreCase svgAttrNames a.name }
  | .mathml => attrs.map fun a =>
    foreignAttr { a with name := restoreCase ["definitionURL"] a.name }

/-- Tags that end the foreign elements they stand in. -/
def breakoutNames : List String :=
  ["b", "big", "blockquote", "body", "br", "center", "code", "dd", "div", "dl", "dt", "em", "embed",
    "h1", "h2", "h3", "h4", "h5", "h6", "head", "hr", "i", "img", "li", "listing", "menu", "meta",
    "nobr", "ol", "p", "pre", "ruby", "s", "small", "span", "strong", "strike", "sub", "sup",
    "table", "tt", "u", "ul", "var"]

end BookCatalog.Html
