import BookCatalog.Text.Fields
import BookCatalog.Text.Source

/-!
# File paths and file names

The parts of a path and the joining of paths, on the text of the path alone. A slash separates
components, and empty components and `.` do not count. `..` is a component, but it is not a file name.

A path is a text. The names that a directory lists need not be: any bytes without a slash can be the
name of a file (`FileName`).
-/

namespace BookCatalog

namespace FilePath

open BookCatalog.Text

/-- The components of a path, without empty ones and without `.`. -/
def components (path : String) : List String :=
  ((runs (· == '/') path.toList).map String.ofList).filter (· != ".")

/-- Whether a path starts at the root. -/
def isAbsolute (path : String) : Bool := path.toList.head? == some '/'

/-- The last component, unless there is none or it is `..`. -/
def fileName? (path : String) : Option String :=
  match (components path).getLast? with
  | some name => if name = ".." then none else some name
  | none => none

/-- A file name cut at its last dot. The dot has to have something before it, so a name such as
`.hidden` is all stem and has no extension. -/
def splitName (name : String) : String × Option String :=
  match splitLast? (· == '.') name.toList with
  | some (before, after) =>
    if before.isEmpty then (name, none) else (String.ofList before, some (String.ofList after))
  | none => (name, none)

/-- The file name without its extension. -/
def stem? (path : String) : Option String := (fileName? path).map fun name => (splitName name).1

/-- What follows the last dot of the file name. -/
def extension? (path : String) : Option String := (fileName? path).bind fun name => (splitName name).2

/-- The path without its last component. -/
def parent (path : String) : String :=
  (if isAbsolute path then "/" else "") ++ String.intercalate "/" (components path).dropLast

/-- `path` seen from `base`: after it and a slash, or alone when it is absolute. -/
def join (base path : String) : String :=
  if isAbsolute path || base = "" then path
  else if base.toList.getLast? = some '/' then base ++ path
  else base ++ "/" ++ path

end FilePath

/-! ## Names in directories -/

/-- A name that is no text: bytes without a slash that are not well-formed. -/
structure RawName where
  bytes : List UInt8
  no_slash : 0x2F ∉ bytes
  not_text : Text.Utf8.decode? bytes = none
  deriving DecidableEq, Repr

/-- The name of an entry of a directory. -/
inductive FileName where
  | text (name : String)
  | raw (name : RawName)
  deriving DecidableEq, Repr

namespace FileName

instance : Coe String FileName := ⟨text⟩

/-- The bytes of a name. -/
def bytes : FileName → List UInt8
  | text name => Text.Utf8.encode name.toList
  | raw name => name.bytes

/-- Names stand in the order of their bytes. -/
instance : LE FileName := ⟨fun a b => a.bytes ≤ b.bytes⟩

instance (a b : FileName) : Decidable (a ≤ b) := inferInstanceAs (Decidable (a.bytes ≤ b.bytes))

/-- The stem and the extension of a name, as far as they are text. A stem that is no text counts as an
empty one, and such an extension as none. -/
def split : FileName → String × Option String
  | text name => FilePath.splitName name
  | raw name =>
    match Text.splitLast? (· == 0x2E) name.bytes with
    | some (before, after) =>
      if before.isEmpty then ("", none)
      else ((Text.Utf8.text? before).getD "", Text.Utf8.text? after)
    | none => ("", none)

end FileName

end BookCatalog
