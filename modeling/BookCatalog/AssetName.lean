import BookCatalog.Text.Fields

/-!
# Names of assets

An image comes in a standard and a high-resolution form, `closure_syntax.png` and
`closure_syntax_2x.png`. Chapters refer to both by the logical name `closure_syntax`; the file in the
catalog carries `@2x` when it is the high-resolution form.
-/

namespace BookCatalog

/-- A logical asset name, and whether the file that had it is the high-resolution form. -/
structure AssetName where
  name : String
  hiRes : Bool
  deriving DecidableEq, Repr, Inhabited

namespace AssetName

open BookCatalog.Text

/-- The parts of a file stem between underscores, empty parts left out. -/
def segments (stem : String) : List (List Char) := runs (· == '_') stem.toList

/-- The last segment of a high-resolution image. -/
def hiResMark : List Char := ['2', 'x']

/-- The logical name of the image whose file name without extension is `stem`: the segments joined by
single underscores, less a last segment that marks the high resolution. -/
def ofStem (stem : String) : AssetName :=
  let parts := segments stem
  let hiRes := parts.getLast? == some hiResMark
  let kept := if hiRes then parts.dropLast else parts
  ⟨String.ofList (List.intercalate ['_'] kept), hiRes⟩

/-- The mark that a high-resolution file carries after its name. -/
def resolutionSuffix (hiRes : Bool) : String := if hiRes then "@2x" else ""

/-- The dot and the extension, or nothing when there is no extension or an empty one. -/
def extensionSuffix : Option String → String
  | none => ""
  | some ext => if ext = "" then "" else "." ++ ext

/-- The name of the copied file: the logical name, the resolution mark and the extension. -/
def fileName (a : AssetName) (extension : Option String) : String :=
  a.name ++ resolutionSuffix a.hiRes ++ extensionSuffix extension

end AssetName

end BookCatalog
