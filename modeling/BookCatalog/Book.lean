import BookCatalog.AssetName
import BookCatalog.Chapters
import BookCatalog.FileTree
import BookCatalog.Markdown
import BookCatalog.Spine
import BookCatalog.TableOfContents

/-!
# Converting a book

A book is a directory with a package document, a table of contents, chapters and images. It becomes a
documentation catalog: a landing page, a Markdown file for each chapter, the images under their
logical names, and two files that make the catalog the documentation of a module.

All chapters are read, converted and rendered before the file of the first one is written, so a fault
in any chapter leaves no chapter written.
-/

namespace BookCatalog

/-- The names of files and directories in a book and in its catalog. -/
structure BookOptions where
  /-- The package document, seen from the book. -/
  manifest : String := "content.opf"
  /-- The table of contents, seen from the book. -/
  contents : String := "nav.xhtml"
  /-- The directory of the images, seen from the book. -/
  images : String := "_images"
  /-- The module that the catalog documents. -/
  moduleName : String := "Swift"
  /-- The directory of the assets, seen from the catalog. -/
  assets : String := "Assets"
  /-- The landing page, seen from the catalog. -/
  landingPage : String := "SwiftBook.md"
  /-- Whether the files that do not depend on the book are written. -/
  writeStaticFiles : Bool := true
  deriving DecidableEq, Repr, Inhabited

/-- What a conversion did. -/
structure BookReport where
  /-- The files of the chapters, in reading order. -/
  chapters : List String
  assetsCopied : Nat
  anchorsCollected : Nat
  deriving DecidableEq, Repr, Inhabited

namespace Book

/-- A conversion at work on a tree of files. What was written before an error stays written. -/
abbrev Work := ExceptT ConversionError (StateM FileTree)

/-- A step that touches no file. -/
def step {α : Type} (result : Except ConversionError α) : Work α := ExceptT.mk (pure result)

/-- The text of a file. -/
def read (path : String) : Work String := do
  match (← get).readText path with
  | .ok text => return text
  | .error e => throw (.file path e)

/-- Writes a text to a file. -/
def write (path text : String) : Work Unit := do
  match (← get).write path (.text text) with
  | .ok t => set t
  | .error e => throw (.file path e)

/-- Makes a directory, and those that lead to it. -/
def makeDirectory (path : String) : Work Unit := do
  let (result, t) := (← get).makeDirectories path
  set t
  match result with
  | .ok () => return ()
  | .error e => throw (.file path e)

/-- Copies a file of a directory. -/
def copy (directory : String) (name : FileName) (destination : String) : Work Unit := do
  let (result, t) := (← get).copy directory name destination
  set t
  match result with
  | .ok () => return ()
  | .error e => throw (.file destination e)

/-! ## Files that do not depend on the book -/

/-- The property list of a catalog. -/
def propertyList : String := "<?xml version=\"1.0\" encoding=\"UTF-8\"?>
<!DOCTYPE plist PUBLIC \"-//Apple//DTD PLIST 1.0//EN\" \"http://www.apple.com/DTDs/PropertyList-1.0.dtd\">
<plist version=\"1.0\">
<dict>
    <key>CDDefaultModuleKind</key>
    <string>Programming Language</string>
</dict>
</plist>
"

/-- A graph without symbols, which makes the catalog the documentation of a module. -/
def symbolGraph (moduleName : String) : Json :=
  .object [
    ("metadata", .object [
      ("formatVersion", .object [("major", .number 0), ("minor", .number 5), ("patch", .number 3)]),
      ("generator", .string "xbook 0.1.0")]),
    ("module", .object [
      ("name", .string moduleName),
      ("platform", .object [("architecture", .string "arm64"), ("vendor", .string "apple")])]),
    ("relationships", .array []),
    ("symbols", .array [])]

/-- The files that do not depend on the book, with their texts. -/
def staticFiles (output : String) (options : BookOptions) : List (String × String) :=
  if options.writeStaticFiles then
    [(FilePath.join output "Info.plist", propertyList),
      (FilePath.join output "Documentation.symbols.json", (symbolGraph options.moduleName).compact)]
  else []

/-- Writes texts to files, in order. -/
def writeTexts (texts : List (String × String)) : Work Unit :=
  texts.forM fun (path, text) => write path text

/-- Makes the directories of a catalog and the files in it that do not depend on the book. -/
def setUp (output : String) (options : BookOptions) : Work Unit := do
  makeDirectory output
  makeDirectory (FilePath.join output options.assets)
  writeTexts (staticFiles output options)

/-! ## Images -/

/-- Where the image of the given file name goes. -/
def assetPath (assets : String) (name : FileName) : String :=
  let (stem, extension) := name.split
  FilePath.join assets ((AssetName.ofStem stem).fileName extension)

/-- The names of the files in a directory. -/
def fileNames (directory : String) : Work (List FileName) := do
  let t ← get
  match t.names directory with
  | .ok names => return names.filter fun name => t.isFileIn directory name
  | .error e => throw (.file directory e)

/-- Copies the images of the given file names under their logical names. -/
def copyFiles (images assets : String) (names : List FileName) : Work Unit :=
  names.forM fun name => copy images name (assetPath assets name)

/-- Copies all images, and gives their number. A book need not have a directory of images. -/
def copyImages (images assets : String) : Work Nat := do
  if (← get).isDirectory images then
    let names ← fileNames images
    copyFiles images assets names
    return names.length
  else return 0

/-! ## Pages -/

/-- The Markdown text of a document. -/
def render (d : Document) : Except ConversionError String :=
  match Markdown.render? d with
  | some text => .ok text
  | none => .error .emptyCodeSpan

/-- Writes the landing page. -/
def writeLandingPage (source output moduleName : String) : Work Unit := do
  let parts ← step (TableOfContents.parts (← read source))
  write output (← step (render (TableOfContents.landingPage parts moduleName)))

/-- The file of a chapter in a catalog: the file name of the chapter with another extension. -/
def chapterPath (output chapter : String) : String :=
  FilePath.join output ((FilePath.stem? chapter).getD chapter ++ ".md")

/-- The texts of named chapters with the files they go to, and the number of their anchors. -/
def renderChapters (output : String) (sources : List (String × String)) :
    Except ConversionError (List (String × String) × Nat) := do
  let (anchors, documents) ← Chapters.transcode sources
  let rendered ← documents.mapM fun (chapter, d) => return (chapterPath output chapter, ← render d)
  return (rendered, anchors.size)

/-- The paths of the chapters of a book, in reading order. -/
def readSpine (root : String) (options : BookOptions) : Work (List String) := do
  step (Spine.ofText (← read (FilePath.join root options.manifest)))

/-- The texts of chapters with their paths. -/
def readChapters (root : String) (paths : List String) : Work (List (String × String)) :=
  paths.mapM fun path => return (path, ← read (FilePath.join root path))

/-- What a catalog has besides the chapters. Gives the number of images. -/
def layOut (root output : String) (options : BookOptions) : Work Nat := do
  setUp output options
  let assetsCopied ← copyImages (FilePath.join root options.images)
    (FilePath.join output options.assets)
  writeLandingPage (FilePath.join root options.contents) (FilePath.join output options.landingPage)
    options.moduleName
  return assetsCopied

/-- A catalog that lacks only the files of the chapters. -/
structure Prepared where
  /-- The texts of the chapters with the files they go to, in reading order. -/
  chapters : List (String × String)
  assetsCopied : Nat
  anchorsCollected : Nat

/-- What is reported of a catalog when its chapters have been written. -/
def Prepared.report (p : Prepared) : BookReport :=
  { chapters := p.chapters.map (·.1)
    assetsCopied := p.assetsCopied
    anchorsCollected := p.anchorsCollected }

/-- Everything that can fail before the first chapter is written. -/
def prepare (root output : String) (options : BookOptions) : Work Prepared := do
  let assetsCopied ← layOut root output options
  let sources ← readChapters root (← readSpine root options)
  let (chapters, anchorsCollected) ← step (renderChapters output sources)
  return { chapters, assetsCopied, anchorsCollected }

/-- Converts the book in `root` into a catalog in `output`. -/
def convert (root output : String) (options : BookOptions) : Work BookReport := do
  let prepared ← prepare root output options
  writeTexts prepared.chapters
  return prepared.report

/-- The result of a conversion and the files after it. -/
def run (root output : String) (options : BookOptions) (files : FileTree) :
    Except ConversionError BookReport × FileTree :=
  (convert root output options).run.run files

end Book

end BookCatalog
