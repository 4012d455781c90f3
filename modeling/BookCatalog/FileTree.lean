import BookCatalog.FileError
import BookCatalog.FilePath

/-!
# Files and directories

A file tree holds the files and directories of a system, from its root on, and has a working directory.
Paths are read the way a Unix system reads them: one that begins with a slash is followed from the root
and any other from the working directory, every component but the last one has to be a directory, `.` and
`..` stand for the directory itself and the one around it, and the root is around itself. Symbolic links
and permissions are left out.

A path is a text, so no path leads to what stands under a name that is no text, or further. Such a file is
met where its directory is listed, and it can be read and copied from there; nothing can be put at such a
name.

Reading and writing give back what they did or why they failed. A write either takes place as a whole
or leaves the tree as it was.
-/

namespace BookCatalog

/-- What a file holds: text, or bytes that are no text. -/
inductive FileContent where
  | text (s : String)
  | bytes (bs : List UInt8)
  deriving DecidableEq, Repr, Inhabited

/-- The content that some bytes are. -/
def FileContent.ofBytes (bs : List UInt8) : FileContent :=
  match Text.Utf8.text? bs with
  | some s => .text s
  | none => .bytes bs

/-- What stands in a directory under a name. -/
inductive Entry where
  | directory
  | file (content : FileContent)
  deriving DecidableEq, Repr, Inhabited

/-- The names that lead from the root to an entry, outermost first. -/
abbrev Location := List String

/-- What no request changes. -/
structure Surroundings where
  /-- The directory that relative paths are seen from. -/
  workingDirectory : Location := []
  /-- What stands in directories under names that are no text. -/
  unspelled : List ((Location × RawName) × Entry) := []
  deriving DecidableEq, Repr, Inhabited

/-- The files and directories of a system. -/
structure FileTree extends Surroundings where
  entries : List (Location × Entry)
  deriving DecidableEq, Repr, Inhabited

namespace FileTree

/-- A system with nothing in it, and its root as the working directory. -/
def empty : FileTree := { entries := [] }

instance : EmptyCollection FileTree := ⟨empty⟩

/-- What stands at a location. -/
def get? (t : FileTree) (loc : Location) : Option Entry :=
  if loc = [] then some .directory else t.entries.lookup loc

/-- The tree with an entry at a location, in place of the one that stood there. -/
def put (t : FileTree) (loc : Location) (e : Entry) : FileTree :=
  { t with entries := (loc, e) :: t.entries.filter fun old => old.1 ≠ loc }

/-- The tree with the directories that lead to a location. -/
def putParents (t : FileTree) (loc : Location) : FileTree :=
  (List.range loc.length).foldl (fun t n =>
    if (t.get? (loc.take n)).isNone then t.put (loc.take n) .directory else t) t

/-- The tree with an entry at a location and the directories that lead to it. A directory that is there
stays. -/
def place (t : FileTree) (loc : Location) (e : Entry) : FileTree :=
  let t := t.putParents loc
  if e = .directory && (t.get? loc).isSome then t else t.put loc e

/-- The tree of a working directory, the entries that stand at some locations seen from it, and the
directories that lead to all of them. -/
def ofList (entries : List (Location × Entry)) (workingDirectory : Location := ["home"]) : FileTree :=
  entries.foldl (fun t e => t.place (workingDirectory ++ e.1) e.2)
    (place { workingDirectory, entries := [] } workingDirectory .directory)

/-- The entries below a directory that a tree does not share with an earlier one, at their locations seen
from the directory. -/
def changesFrom (t before : FileTree) (directory : Location := t.workingDirectory) :
    List (Location × Entry) :=
  t.entries.filterMap fun e =>
    if directory.isPrefixOf e.1 && before.get? e.1 ≠ some e.2 then some (e.1.drop directory.length, e.2)
    else none

/-! ## Paths -/

/-- The most bytes that a name may have. -/
def longestName : Nat := 255

/-- The most bytes that a path may have. -/
def longestPath : Nat := 4095

/-- What stands under a name in a directory: its location and the entry, if there is one. -/
def lookUp (t : FileTree) (dir : Location) (name : String) :
    Except FileError (Location × Option Entry) :=
  if longestName < name.utf8ByteSize then .error .nameTooLong
  else .ok (dir ++ [name], t.get? (dir ++ [name]))

/-- Enters a directory. -/
def enter (t : FileTree) (dir : Location) (name : String) : Except FileError Location :=
  if name = "." then .ok dir
  else if name = ".." then .ok dir.dropLast
  else
    match t.lookUp dir name with
    | .error e => .error e
    | .ok (loc, some .directory) => .ok loc
    | .ok (_, some (.file _)) => .error .notADirectory
    | .ok (_, none) => .error .notFound

/-- Where the names of a path are followed from. -/
def start (t : FileTree) (path : String) : Location :=
  if FilePath.isAbsolute path then [] else t.workingDirectory

/-- What a path leads to. -/
inductive Target where
  | directory (loc : Location)
  | file (loc : Location) (content : FileContent)
  /-- Nothing stands there, though something may be put there. -/
  | nothing (loc : Location)
  deriving Repr

/-- Follows a path. -/
def find (t : FileTree) (path : String) : Except FileError Target :=
  if path.toList.contains '\x00' then .error .nulInName
  else if path = "" then .error .notFound
  else if longestPath < path.utf8ByteSize then .error .nameTooLong
  else
    let names := (Text.runs (· == '/') path.toList).map String.ofList
    match names.getLast? with
    | none => .ok (.directory (t.start path))
    | some last => do
      let dir ← names.dropLast.foldlM t.enter (t.start path)
      if last = "." || last = ".." then return .directory (← t.enter dir last)
      else
        match ← t.lookUp dir last with
        | (loc, some .directory) => return .directory loc
        | (loc, some (.file content)) => return .file loc content
        | (loc, none) => return .nothing loc

/-- Whether a path ends with a slash, and so names a directory. -/
def endsInSlash (path : String) : Bool := path.toList.getLast? = some '/'

/-! ## Requests -/

/-- Whether a path leads to a directory. -/
def isDirectory (t : FileTree) (path : String) : Bool :=
  match t.find path with
  | .ok (.directory _) => true
  | _ => false

/-- Whether a path leads to a file. -/
def isFile (t : FileTree) (path : String) : Bool :=
  match t.find path with
  | .ok (.file _ _) => !endsInSlash path
  | _ => false

/-- The content of the file that a path leads to. -/
def read (t : FileTree) (path : String) : Except FileError FileContent := do
  match ← t.find path with
  | .directory _ => throw .isADirectory
  | .nothing _ => throw .notFound
  | .file _ content => if endsInSlash path then throw .notADirectory else return content

/-- The text of the file that a path leads to. -/
def readText (t : FileTree) (path : String) : Except FileError String := do
  match ← t.read path with
  | .text s => return s
  | .bytes _ => throw .notText

/-- The tree with a file at a path, made or replaced. -/
def write (t : FileTree) (path : String) (content : FileContent) : Except FileError FileTree := do
  match ← t.find path with
  | .directory _ => throw .isADirectory
  | .file loc _ => if endsInSlash path then throw .isADirectory else return t.put loc (.file content)
  | .nothing loc => if endsInSlash path then throw .isADirectory else return t.put loc (.file content)

/-- The tree with a new directory at a path. -/
def makeDirectory (t : FileTree) (path : String) : Except FileError FileTree := do
  match ← t.find path with
  | .directory _ => throw .alreadyExists
  | .file _ _ => throw .alreadyExists
  | .nothing loc => return t.put loc .directory

/-- The tree with the directory at a path and all directories that lead to it, those that are missing
being made from the outermost inwards. The tree keeps what was made before an error. At most `depth`
directories are gone up. -/
def makeDirectoriesFrom (depth : Nat) (t : FileTree) (path : String) :
    Except FileError Unit × FileTree :=
  if path = "" then (.ok (), t)
  else
    match t.makeDirectory path with
    | .ok t => (.ok (), t)
    | .error e =>
      if e ≠ .notFound then (if t.isDirectory path then .ok () else .error e, t)
      else
        match depth with
        | 0 => (.error e, t)
        | depth + 1 =>
          match makeDirectoriesFrom depth t (FilePath.parent path) with
          | (.error e, t) => (.error e, t)
          | (.ok (), t) =>
            match t.makeDirectory path with
            | .ok t => (.ok (), t)
            | .error e => (if t.isDirectory path then .ok () else .error e, t)

/-- The tree with the directory at a path and all directories that lead to it. -/
def makeDirectories (t : FileTree) (path : String) : Except FileError Unit × FileTree :=
  makeDirectoriesFrom (FilePath.components path).length t path

/-! ## The entries of a directory -/

/-- The name of a location in a directory. -/
def nameIn? (dir loc : Location) : Option String := if loc.dropLast = dir then loc.getLast? else none

/-- The names that stand in a directory, in no order. -/
def namesAt (t : FileTree) (dir : Location) : List FileName :=
  (t.entries.filterMap fun e => (nameIn? dir e.1).map .text) ++
    t.unspelled.filterMap fun e => if e.1.1 = dir then some (.raw e.1.2) else none

/-- The names in the directory that a path leads to, in order. -/
def names (t : FileTree) (path : String) : Except FileError (List FileName) := do
  match ← t.find path with
  | .directory loc => return (t.namesAt loc).mergeSort (· ≤ ·)
  | .file _ _ => throw .notADirectory
  | .nothing _ => throw .notFound

/-- The content of the file that has a name that is no text in the directory that a path leads to. -/
def readRaw (t : FileTree) (directory : String) (name : RawName) : Except FileError FileContent :=
  if longestPath < (FilePath.join directory "").utf8ByteSize + name.bytes.length ||
      longestName < name.bytes.length then
    .error .nameTooLong
  else do
    match ← t.find directory with
    | .directory loc =>
      match t.unspelled.lookup (loc, name) with
      | some (.file content) => return content
      | some .directory => throw .isADirectory
      | none => throw .notFound
    | .file _ _ => throw .notADirectory
    | .nothing _ => throw .notFound

/-- The content of the file that has a name in the directory that a path leads to. -/
def readIn (t : FileTree) (directory : String) : FileName → Except FileError FileContent
  | .text name => t.read (FilePath.join directory name)
  | .raw name => t.readRaw directory name

/-- Whether a name in the directory that a path leads to is that of a file. -/
def isFileIn (t : FileTree) (directory : String) : FileName → Bool
  | .text name => t.isFile (FilePath.join directory name)
  | .raw name => (t.readRaw directory name).isOk

/-- The tree with a file of a directory copied to a path. The file that is written is emptied before the
other one is read. -/
def copy (t : FileTree) (directory : String) (name : FileName) (destination : String) :
    Except FileError Unit × FileTree :=
  match t.readIn directory name, t.write destination (.text "") with
  | .error e, _ => (.error e, t)
  | _, .error e => (.error e, t)
  | .ok _, .ok emptied =>
    match emptied.readIn directory name with
    | .error e => (.error e, emptied)
    | .ok content =>
      match emptied.write destination content with
      | .error e => (.error e, emptied)
      | .ok t => (.ok (), t)

end FileTree

end BookCatalog
