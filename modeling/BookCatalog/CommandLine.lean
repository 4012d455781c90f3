import BookCatalog.CommandLine.Arguments
import BookCatalog.Settings

/-!
# The command line

What the program does with its arguments and with the files below its working directory: it converts a
book, shows what becomes of a single page, or lists what it can show. `CommandLine.run` gives what is
printed, the exit status and the files afterwards.

The status is 0 for success, 1 for an error, 2 for arguments that make no sense, and 101 for a fault
that breaks off the program.
-/

namespace BookCatalog.CommandLine

/-- What the program prints, and its exit status. -/
structure Outcome where
  status : Nat
  output : String := ""
  errors : String := ""
  deriving DecidableEq, Repr, Inhabited

namespace Outcome

/-- An outcome that prints a text. -/
def success (output : String) : Outcome := { status := 0, output }

/-- An outcome that tells of an error. -/
def failure (text : String) : Outcome := { status := 1, errors := text ++ "\n" }

/-- An outcome that tells of a fault. -/
def crash (text : String) : Outcome := { status := 101, errors := text ++ "\n" }

end Outcome

/-! ## Texts -/

/-- How the program is used. -/
def usage : String := "Usage: xbook [OPTIONS] <ROOT> [-o <DIR>]
       xbook [OPTIONS] convert <ROOT> [-o <DIR>]
       xbook [OPTIONS] inspect <PATH> [TRANSFORM] [-o <FILE>]
       xbook --list-transforms

Options:
      --list-transforms
      --config <PATH>
      --module-name <NAME>
  -h, --help
  -V, --version
"

/-- The name and the version of the program. -/
def version : String := "xbook 0.1.0\n"

/-- Lines with an indent. -/
def indented (lines : List String) : String := String.join (lines.map fun l => "  " ++ l ++ "\n")

/-- What the program can show. -/
def transformList : String :=
  "Available transforms:\n\nStages:\n" ++
    indented [
      "ast         - Chapter markup tree",
      "anchors     - Section anchors defined by a chapter",
      "nav         - Navigation page sections"] ++
    "\nAvailable transform combinations:\n" ++ indented Transform.available ++
    "\nOutput formats:\n" ++ indented FormatRegistry.builtIn.names

/-- The outcome of arguments that ask for no command. -/
def refuse : Refusal → Outcome
  | .help => .success usage
  | .version => .success version
  | .usage => { status := 2, errors := usage }

/-! ## Commands -/

/-- The sources of the settings: the file `xbook.toml` if it is there, then what the arguments give. -/
def sources (r : Request) : List Settings.Source :=
  .optionalFile "xbook.toml" ::
    (r.config.toList.map .file ++ r.moduleName.toList.map fun name =>
      .override "book.module_name" (.string name))

/-- Converts a book. -/
def convert (root output : String) (settings : Settings) (files : FileTree) : Outcome × FileTree :=
  match Book.run root output settings.options files with
  | (.ok _, files) => (.success "", files)
  | (.error .emptyCodeSpan, files) => (.crash ConversionError.emptyCodeSpan.message, files)
  | (.error e, files) => (.failure ("Error: " ++ e.message), files)

/-- The name of the transform that is asked for, or else of the one that fits the output file. -/
def transformName (transform output : Option String) : String :=
  (transform.or (output.bind (Transform.nameForOutput? · FormatRegistry.builtIn))).getD
    Transform.defaultName

/-- Shows what becomes of a page, or writes it to a file. -/
def inspect (path : String) (transform output : Option String) (settings : Settings)
    (files : FileTree) : Outcome × FileTree :=
  match files.readText path with
  | .error e => (.failure ("Error reading file '" ++ path ++ "': " ++ e.message), files)
  | .ok source =>
    match Transform.runNamed source (transformName transform output) settings.book.moduleName with
    | .error e =>
      if e.isCrash then (.crash e.message, files)
      else (.failure ("Execution error: " ++ e.message), files)
    | .ok text =>
      match output with
      | none => (.success text, files)
      | some file =>
        match files.write file (.text text) with
        | .ok files => (.success "", files)
        | .error e => (.failure ("Error writing file '" ++ file ++ "': " ++ e.message), files)

/-- Does what the program is asked for. -/
def perform (r : Request) (files : FileTree) : Outcome × FileTree :=
  if r.listTransforms then (.success transformList, files)
  else
    match Settings.load (sources r) files with
    | .error .indexOutOfRange => (.crash SettingsError.indexOutOfRange.message, files)
    | .error e => (.failure ("Failed to load configuration: " ++ e.message), files)
    | .ok settings =>
      match r.command with
      | some (.convert root output) => convert root output settings files
      | some (.inspect path transform output) => inspect path transform output settings files
      | none => (.failure "Unknown subcommand. Use --help for usage information.", files)

/-- What the program does with its arguments. -/
def run (arguments : List String) (files : FileTree) : Outcome × FileTree :=
  match Request.ofArguments arguments with
  | .ok r => perform r files
  | .error e => (refuse e, files)

end BookCatalog.CommandLine
