import BookCatalog.CommandLine

/-!
# The program

Takes in the files below the working directory and below the paths among the arguments, does what the
arguments ask for, and writes back the entries that are new or have changed. Files elsewhere count as
missing, and so do files whose names are no text.
-/

namespace BookCatalog.Program

/-- The entry at a path, with its location, if it can be read. -/
def entryAt? (path : String) : IO (Option (Location × Entry)) := do
  try
    let path ← IO.FS.realPath path
    let location := FilePath.components path.toString
    if ← path.isDir then return some (location, .directory)
    return some (location, .file (.ofBytes (← IO.FS.readBinFile path).toList))
  catch _ => return none

/-- What stands at a path and below it, and the directory around it. -/
def entriesAt (path : String) : IO (List (Location × Entry)) := do
  let paths ← try
      let below ← (← IO.FS.realPath path).walkDir
      pure (below.toList.map toString)
    catch _ => pure []
  (FilePath.join "." (FilePath.parent path) :: path :: paths).filterMapM entryAt?

/-- The files and directories below the working directory and below some paths. -/
def snapshot (paths : List String) : IO FileTree := do
  let directory ← IO.currentDir
  let entries ← ("." :: paths).mapM entriesAt
  return { FileTree.ofList entries.flatten [] with
    workingDirectory := FilePath.components directory.toString }

/-- Writes the entries that a tree does not share with an earlier one. -/
def commit (before after : FileTree) : IO Unit := do
  for (location, entry) in after.changesFrom before [] do
    let path := "/" ++ String.intercalate "/" location
    match entry with
    | .directory => IO.FS.createDirAll path
    | .file content =>
      IO.FS.createDirAll (FilePath.parent path)
      match content with
      | .text s => IO.FS.writeFile path s
      | .bytes bs => IO.FS.writeBinFile path ⟨bs.toArray⟩

end BookCatalog.Program

open BookCatalog in
/-- Runs the program on its arguments. -/
def main (arguments : List String) : IO UInt32 := do
  let before ← Program.snapshot arguments
  let (outcome, after) := CommandLine.run arguments before
  Program.commit before after
  IO.print outcome.output
  IO.eprint outcome.errors
  return UInt32.ofNat outcome.status
