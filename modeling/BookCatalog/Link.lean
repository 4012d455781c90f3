import BookCatalog.AnchorTable
import BookCatalog.AssetName
import BookCatalog.FilePath
import BookCatalog.Text.Blank
import BookCatalog.Url

/-!
# Links and image sources

A link inside the book becomes a reference of the catalog: `doc:` and the id of the target document,
followed by `#` and the slug of the section when the fragment is a known anchor. The id is the file
name of the target without directory and extension, or `/` for the book itself. A link with a host,
or one that cannot be read, stays as it is. An image becomes the logical name of its asset.
-/

namespace BookCatalog.Link

/-- The place that references of the book are read from. Only their last path segment and their
fragment count. -/
def bookSite : Url.Site := { scheme := "https", host := .domain "book.invalid", path := [""] }

/-- The id of the book itself. -/
def rootId : String := "/"

/-- What a reference of the catalog begins with. -/
def catalogScheme : String := "doc:"

/-- Whether a link leads out of the book: it is a URL of its own with a host. -/
def isExternal (href : String) : Bool := (Url.parse? href).any (·.host.isSome)

/-- The id of the document that a URL leads to. -/
def documentId (url : Url) : String :=
  match FilePath.stem? url.lastSegment with
  | some stem => if stem = "." then rootId else stem
  | none => rootId

/-- The slug that the fragment of a URL is known under. -/
def knownSlug (url : Url) (anchors : AnchorTable) : Option String := url.fragment.bind anchors.get?

/-- The reference of the catalog for a URL inside the book. -/
def reference (url : Url) (anchors : AnchorTable) : String :=
  match knownSlug url anchors with
  | some slug => catalogScheme ++ documentId url ++ "#" ++ slug
  | none => catalogScheme ++ documentId url

/-- The destination of a link. -/
def destination (href : String) (anchors : AnchorTable) : String :=
  if isExternal href then href
  else
    match Url.resolve? bookSite href with
    | some url => reference url anchors
    | none => href

/-- The logical name of an image, or none when its source names no file. -/
def imageSource? (src : String) : Option String :=
  if (Text.trimBlanks src).isEmpty then none
  else do
    let url ← Url.resolve? bookSite src
    let stem ← FilePath.stem? url.lastSegment
    return (AssetName.ofStem stem).name

end BookCatalog.Link
