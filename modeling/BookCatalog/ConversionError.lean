import BookCatalog.FileError

/-!
# Why a conversion fails

The causes that make the conversion of a chapter, of the table of contents or of a whole book fail,
and the message of each.
-/

namespace BookCatalog

/-- An element that a page has to have. -/
inductive Required where
  | body
  /-- The element with the content of a chapter. -/
  | mainContent
  /-- The list of the parts of the book. -/
  | contentsList
  /-- The link that names a part of the book. -/
  | partLink
  /-- The description of a term. -/
  | description (term : String)
  deriving DecidableEq, Repr

namespace Required

/-- The name of a required element. -/
def name : Required → String
  | .body => "body"
  | .mainContent => "div.body"
  | .contentsList => "nav ol"
  | .partLink => "nav section <a>"
  | .description term => "<dd> for term '" ++ term ++ "'"

end Required

/-- A place that only certain elements may stand in. -/
inductive Context where
  | inlineContent
  /-- A list whose element has the given name. -/
  | list (name : String)
  | tableSection
  | tableRow
  | definitionList
  | afterTerm (term : String)
  deriving DecidableEq, Repr

namespace Context

/-- The name of a place. -/
def name : Context → String
  | .inlineContent => "inline content"
  | .list name => "<" ++ name ++ "> list"
  | .tableSection => "table section"
  | .tableRow => "table row"
  | .definitionList => "definition list"
  | .afterTerm term => "definition list after term '" ++ term ++ "'"

end Context

/-- What is wrong with a package document. -/
inductive PackageFault where
  | malformed
  | noManifest
  | noSpine
  deriving DecidableEq, Repr

namespace PackageFault

/-- What a package document lacks. -/
def message : PackageFault → String
  | .malformed => "XML parsing error"
  | .noManifest => "no <manifest> in package"
  | .noSpine => "no <spine> in package"

end PackageFault

/-- Why a conversion fails. -/
inductive ConversionError where
  | missing (element : Required)
  /-- An element that may not stand where it stands. -/
  | unexpected (tag : String) (place : Context)
  | package (fault : PackageFault)
  /-- A file that could not be read or written. -/
  | file (path : String) (fault : FileError)
  /-- An empty code span, which has no Markdown. The conversion breaks off. -/
  | emptyCodeSpan
  deriving DecidableEq, Repr

namespace ConversionError

/-- The message of an error. -/
def message : ConversionError → String
  | .missing element => "Required element not found: " ++ element.name
  | .unexpected tag place => "Unexpected tag <" ++ tag ++ "> in " ++ place.name
  | .package fault => "Manifest error: " ++ fault.message
  | .file path fault => "I/O error on '" ++ path ++ "': " ++ fault.message
  | .emptyCodeSpan => "empty code span"

end ConversionError

end BookCatalog
