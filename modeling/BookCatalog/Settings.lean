import BookCatalog.Book
import BookCatalog.Settings.Reading
import BookCatalog.Toml

/-!
# Settings

The settings of a conversion, in two groups, and how they are loaded. There are defaults for all of
them. Files in TOML are laid over the defaults in the order in which they are given, and single settings
over the files, wherever they stand between them. `Settings.load` gives the settings or why there are
none; `Settings.options` are the options of the conversion.
-/

namespace BookCatalog

/-- Where things are in a book. -/
structure BookSettings where
  manifest : String := "content.opf"
  nav : String := "nav.xhtml"
  imagesDir : String := "_images"
  moduleName : String := "Swift"
  deriving DecidableEq, Repr, Inhabited

/-- How a catalog is laid out. -/
structure OutputSettings where
  assetsDir : String := "Assets"
  navFile : String := "SwiftBook.md"
  staticFiles : Bool := true
  deriving DecidableEq, Repr, Inhabited

/-- The settings of a conversion. -/
structure Settings where
  book : BookSettings := {}
  output : OutputSettings := {}
  deriving DecidableEq, Repr, Inhabited

namespace Settings

/-- The options of the conversion. -/
def options (s : Settings) : BookOptions where
  manifest := s.book.manifest
  contents := s.book.nav
  images := s.book.imagesDir
  moduleName := s.book.moduleName
  assets := s.output.assetsDir
  landingPage := s.output.navFile
  writeStaticFiles := s.output.staticFiles

/-! ## Settings as values -/

/-- A setting that is a text. -/
def textValue (s : String) : Value := .scalar none (.string s)

/-- The settings as a table that gives all of them. -/
def toValue (s : Settings) : Value :=
  .table none [
    ("book", .table none [
      ("manifest", textValue s.book.manifest),
      ("nav", textValue s.book.nav),
      ("images_dir", textValue s.book.imagesDir),
      ("module_name", textValue s.book.moduleName)]),
    ("output", .table none [
      ("assets_dir", textValue s.output.assetsDir),
      ("nav_file", textValue s.output.navFile),
      ("static_files", .scalar none (.bool s.output.staticFiles))])]

/-- The settings of a book in a value. -/
def readBook (key : String) (v : Value) : Except SettingsError BookSettings := do
  let sought ← v.group key ["manifest", "nav", "images_dir", "module_name"]
  match ← sought.mapM (Sought.read? Value.asText) with
  | [manifest, nav, imagesDir, moduleName] =>
    return {
      manifest := ← require "manifest" manifest
      nav := ← require "nav" nav
      imagesDir := ← require "images_dir" imagesDir
      moduleName := ← require "module_name" moduleName }
  | _ => throw (.notAGroup key)

/-- The settings of a catalog in a value. -/
def readOutput (key : String) (v : Value) : Except SettingsError OutputSettings := do
  match ← v.group key ["assets_dir", "nav_file", "static_files"] with
  | [assetsDir, navFile, staticFiles] =>
    let assetsDir ← assetsDir.read? Value.asText
    let navFile ← navFile.read? Value.asText
    let staticFiles ← staticFiles.read? Value.asBool
    return {
      assetsDir := ← require "assets_dir" assetsDir
      navFile := ← require "nav_file" navFile
      staticFiles := ← require "static_files" staticFiles }
  | _ => throw (.notAGroup key)

/-- The settings in a value. -/
def ofValue (v : Value) : Except SettingsError Settings := do
  let book ← (v.member? "book").mapM (readBook "book")
  let output ← (v.member? "output").mapM (readOutput "output")
  return { book := ← require "book" book, output := ← require "output" output }

/-! ## Sources -/

/-- A source of settings. -/
inductive Source where
  /-- A file that has to be there. -/
  | file (path : String)
  | optionalFile (path : String)
  /-- A value for one setting, whatever the files say. -/
  | override (key : String) (value : Scalar)
  deriving DecidableEq, Repr

/-- The path at which the file of settings is, if it is there. The extension may be left out. -/
def locate? (files : FileTree) (path : String) : Option String :=
  if files.isFile path then some path
  else do
    let name ← FilePath.fileName? path
    let other := FilePath.join (FilePath.parent path) (name ++ ".toml")
    if files.isFile other then return other else none

/-- The text of a file. Bytes that are no text count as replacement characters. -/
def textOf? (files : FileTree) (path : String) : Option String :=
  match files.read path with
  | .ok (.text s) => some s
  | .ok (.bytes bs) => some (String.ofList (Text.Utf8.decodeLossy bs))
  | .error _ => none

/-- The members that a file gives. -/
def membersOf (files : FileTree) (path : String) (required : Bool) :
    Except SettingsError (List (String × Value)) :=
  match locate? files path with
  | none => if required then .error (.fileNotFound path) else .ok []
  | some found =>
    match textOf? files found with
    | none => if required then .error (.fileNotFound path) else .ok []
    | some text =>
      let origin := String.intercalate "/" (FilePath.components found)
      match Toml.read? (String.ofList (Text.withoutByteOrderMark text.toList)) with
      | some members => .ok (Value.ofTomlMembers origin members)
      | none => .error (.malformedFile origin)

/-- Lays the members of a file over a value. -/
def layFile (v : Value) (members : List (String × Value)) : Except SettingsError Value :=
  match members.foldlM (fun v (name, m) => v.putNamed? name m) v with
  | some v => .ok v
  | none => .error .indexOutOfRange

/-- Lays a source over a value. Single settings are left for later. -/
def laySource (files : FileTree) (v : Value) : Source → Except SettingsError Value
  | .file path => do layFile v (← membersOf files path true)
  | .optionalFile path => do layFile v (← membersOf files path false)
  | .override _ _ => .ok v

/-- The path and the value of a source that gives a single setting. -/
def override? : Source → Except SettingsError (Option (KeyPath × Scalar))
  | .override key value =>
    match KeyPath.ofText? key with
    | some path => .ok (some (path, value))
    | none => .error (.malformedKey key)
  | _ => .ok none

/-- Lays a single setting over a value. -/
def layOverride (v : Value) (path : KeyPath) (value : Scalar) : Except SettingsError Value :=
  match v.put? path (.scalar none value) with
  | some v => .ok v
  | none => .error .indexOutOfRange

/-- The settings that sources give. The names of single settings are looked at before any file is. -/
def load (sources : List Source) (files : FileTree) : Except SettingsError Settings := do
  let overrides := (← sources.mapM override?).filterMap id
  let v ← sources.foldlM (laySource files) (toValue {})
  let v ← overrides.foldlM (fun v (path, value) => layOverride v path value) v
  ofValue v

end Settings

end BookCatalog
