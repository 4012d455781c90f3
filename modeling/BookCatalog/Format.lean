import BookCatalog.FilePath
import BookCatalog.Markdown
import BookCatalog.Markup.Json

/-!
# Output formats

A format renders documents as text. A registry holds formats by name; a format that is registered
under a name takes the place of the one that had it.
-/

namespace BookCatalog

/-- Why a document cannot be rendered. -/
inductive FormatError where
  | notFound (name : String)
  /-- The format refuses the document for the given reason. -/
  | refused (reason : String)
  /-- An empty code span, which has no Markdown. The rendering breaks off. -/
  | emptyCodeSpan
  deriving DecidableEq, Repr

namespace FormatError

/-- The message of an error. -/
def message : FormatError → String
  | .notFound name => "Format '" ++ name ++ "' not found"
  | .refused reason => "Serialization error: " ++ reason
  | .emptyCodeSpan => "empty code span"

end FormatError

/-- A format: its name, what it is, the extensions of its files, and how it renders a document. -/
structure Format where
  name : String
  description : String := ""
  extensions : List String := []
  render : Document → Except FormatError String

namespace Format

/-- Markdown for a catalog. -/
def markdown : Format where
  name := "markdown"
  description := "CommonMark Markdown with catalog links"
  extensions := ["md", "markdown"]
  render d := match Markdown.render? d with
    | some text => .ok text
    | none => .error .emptyCodeSpan

/-- The markup tree itself. -/
def json : Format where
  name := "json"
  description := "Markup tree as pretty-printed JSON"
  extensions := ["json"]
  render d := .ok d.jsonText

/-- Whether a format claims an extension. -/
def claims (f : Format) (extension : String) : Bool := f.extensions.contains extension

end Format

/-- The formats known by name, no two of one name. -/
structure FormatRegistry where
  formats : List Format
  distinct : (formats.map Format.name).Nodup

namespace FormatRegistry

/-- No formats. -/
def empty : FormatRegistry := ⟨[], List.nodup_nil⟩

instance : EmptyCollection FormatRegistry := ⟨empty⟩
instance : Inhabited FormatRegistry := ⟨empty⟩

/-- The formats with `f` in place of the one of its name. -/
def replaceIn (f : Format) (formats : List Format) : List Format :=
  f :: formats.filter fun g => g.name ≠ f.name

theorem nodup_replaceIn (f : Format) {formats : List Format}
    (h : (formats.map Format.name).Nodup) : ((replaceIn f formats).map Format.name).Nodup := by
  refine List.nodup_cons.2 ⟨fun hmem => ?_, ?_⟩
  · obtain ⟨g, hg, hname⟩ := List.mem_map.1 hmem
    simp [hname] at hg
  · exact h.sublist (List.filter_sublist.map _)

/-- The registry with a format registered. -/
def register (r : FormatRegistry) (f : Format) : FormatRegistry :=
  ⟨replaceIn f r.formats, nodup_replaceIn f r.distinct⟩

/-- The format of a name. -/
def get? (r : FormatRegistry) (name : String) : Option Format := r.formats.find? (·.name = name)

/-- The format of a name, or the error that there is none. -/
def get (r : FormatRegistry) (name : String) : Except FormatError Format :=
  match r.get? name with
  | some f => .ok f
  | none => .error (.notFound name)

/-- Whether a name is registered. -/
def has (r : FormatRegistry) (name : String) : Bool := (r.get? name).isSome

/-- The registered names in order. -/
def names (r : FormatRegistry) : List String := (r.formats.map (·.name)).mergeSort (· ≤ ·)

/-- The name of the first of some formats that claims the extension of a file. -/
def detectAmong (formats : List Format) (fileName : String) : Option String := do
  let extension ← FilePath.extension? fileName
  return (← formats.find? (·.claims extension)).name

/-- The name of a registered format that claims the extension of a file. -/
def detect (r : FormatRegistry) (fileName : String) : Option String :=
  detectAmong r.formats fileName

/-- A document in the format of a name. -/
def render (r : FormatRegistry) (d : Document) (name : String) : Except FormatError String := do
  (← r.get name).render d

/-- The registry of the formats that come with the catalog. -/
def builtIn : FormatRegistry := (empty.register Format.markdown).register Format.json

end FormatRegistry

end BookCatalog
