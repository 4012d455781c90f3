/-!
# Why a file cannot be used

The causes that make a file system refuse a request, with the texts it gives for them.
-/

namespace BookCatalog

/-- Why a file or a directory cannot be read, written or made. -/
inductive FileError where
  | notFound
  | alreadyExists
  | notADirectory
  | isADirectory
  | invalidArgument
  | nameTooLong
  /-- The file is not text. -/
  | notText
  /-- A name cannot hold the character U+0000. -/
  | nulInName
  deriving DecidableEq, Repr

namespace FileError

/-- The text of an error. -/
def message : FileError → String
  | .notFound => "No such file or directory (os error 2)"
  | .alreadyExists => "File exists (os error 17)"
  | .notADirectory => "Not a directory (os error 20)"
  | .isADirectory => "Is a directory (os error 21)"
  | .invalidArgument => "Invalid argument (os error 22)"
  | .nameTooLong => "File name too long (os error 36)"
  | .notText => "stream did not contain valid UTF-8"
  | .nulInName => "file name contained an unexpected NUL byte"

end FileError

end BookCatalog
