import BookCatalog.Chapter
import BookCatalog.Format
import BookCatalog.TableOfContents

/-!
# Transforms of a single file

A transform shows what becomes of one page of a book: the document of a chapter in some format, the
anchors that a chapter defines, or the parts in the table of contents.
-/

namespace BookCatalog

/-- What is shown of a page. -/
inductive Transform where
  /-- The document of a chapter in a format. Links are resolved against the anchors of the chapter
  itself. -/
  | document (format : String)
  | anchors
  | parts
  | landingPage
  deriving DecidableEq, Repr

/-- Why a transform fails. -/
inductive TransformError where
  | unknown (name : String)
  | conversion (e : ConversionError)
  | rendering (e : FormatError)
  deriving DecidableEq, Repr

namespace TransformError

/-- The message of an error. -/
def message : TransformError → String
  | .unknown name => "Unknown transform: " ++ name
  | .conversion e => "Transform failed: " ++ e.message
  | .rendering e => "Serialization failed: " ++ e.message

/-- Whether an error is the crash of the renderer, which gives no message. -/
def isCrash : TransformError → Bool
  | .conversion e => e = .emptyCodeSpan
  | .rendering e => e = .emptyCodeSpan
  | .unknown _ => false

end TransformError

namespace Transform

/-- The names of the transforms. -/
def available : List String :=
  ["ast-json", "ast-markdown", "anchors-json", "nav-json", "nav-markdown"]

/-- The name of the transform that is used when none is asked for. -/
def defaultName : String := "ast-markdown"

/-- The transform of a name: a stage, a hyphen and a format. -/
def ofName? (name : String) : Option Transform :=
  match Text.splitFirst? (· == '-') name.toList with
  | none => none
  | some (stage, format) =>
    let format := String.ofList format
    match String.ofList stage with
    | "ast" => if FormatRegistry.builtIn.has format then some (.document format) else none
    | "anchors" => if format = "json" then some .anchors else none
    | "nav" =>
      if format = "json" then some .parts
      else if format = "markdown" then some .landingPage
      else none
    | _ => none

/-- The name of the transform for an output file: the document of a chapter in the format that claims
the extension of the file. -/
def nameForOutput? (fileName : String) (registry : FormatRegistry) : Option String :=
  (registry.detect fileName).map ("ast-" ++ ·)

/-- A conversion as a step of a transform. -/
def converted (result : Except ConversionError α) : Except TransformError α :=
  result.mapError .conversion

/-- A document in a format as a step of a transform. -/
def rendered (d : Document) (format : String) : Except TransformError String :=
  (FormatRegistry.builtIn.render d format).mapError .rendering

/-- What a transform shows of the page written in `source`; the module's name is the title of a landing
page. -/
def run (t : Transform) (source moduleName : String) : Except TransformError String := do
  match t with
  | .document format =>
    let anchors ← converted (Chapter.anchors source)
    rendered (← converted (Chapter.document source anchors)) format
  | .anchors =>
    let anchors ← converted (Chapter.anchors source)
    return (Json.object (anchors.entries.map fun (id, slug) => (id, .string slug))).pretty
  | .parts => return (TableOfContents.json (← converted (TableOfContents.parts source))).pretty
  | .landingPage =>
    let parts ← converted (TableOfContents.parts source)
    rendered (TableOfContents.landingPage parts moduleName) "markdown"

/-- The result of the transform of a name. -/
def runNamed (source name moduleName : String) : Except TransformError String :=
  match ofName? name with
  | some t => t.run source moduleName
  | none => .error (.unknown name)

end Transform

end BookCatalog
