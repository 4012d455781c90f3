import BookCatalog.Text.Blank
import BookCatalog.Text.CodePoints
import BookCatalog.Text.Fields

/-!
# Slugs of headings

A heading is addressed by a slug that can stand in a URL fragment without being escaped. The text is
cut into its pieces at blanks and dashes, the pieces are joined by single hyphens, and back-ticks and
punctuation are dropped, the joining hyphens apart: "Simple Values" becomes "Simple-Values".
-/

namespace BookCatalog.Slug

open BookCatalog.Text

/-- What separates two pieces of a heading: a blank, a hyphen, an en dash or an em dash. -/
def isSeparator (c : Char) : Bool :=
  isBlank c || c == '-' || c == '\u2013' || c == '\u2014'

/-- What is dropped from a piece: a back-tick or punctuation. -/
def isDropped (c : Char) : Bool := c == '\x60' || isPunctuation c

/-- The pieces of a text: its maximal runs of characters that are no separators. -/
def pieces (t : List Char) : List (List Char) := runs isSeparator t

/-- The slug of a text, over its characters. -/
def ofChars (t : List Char) : List Char :=
  (List.intercalate ['-'] (pieces t)).filter fun c => c == '-' || !isDropped c

/-- The slug of a heading's text. -/
def ofText (t : String) : String := String.ofList (ofChars t.toList)

end BookCatalog.Slug
