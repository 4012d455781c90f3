/-!
# Why settings cannot be loaded

The causes that make settings unusable, with the message of each.
-/

namespace BookCatalog

/-- A value where another kind of value is expected. -/
structure TypeMismatch where
  found : String
  expected : String
  /-- The setting. -/
  key : String
  /-- The file that the value comes from. -/
  origin : Option String
  deriving DecidableEq, Repr

namespace TypeMismatch

/-- The text of a mismatch. -/
def message (m : TypeMismatch) : String :=
  "invalid type: " ++ m.found ++ ", expected " ++ m.expected ++ " for key \x60" ++ m.key ++ "\x60" ++
    match m.origin with
    | some file => " in " ++ file
    | none => ""

end TypeMismatch

/-- Why settings cannot be loaded. -/
inductive SettingsError where
  /-- A setting is named in a way that leads nowhere. -/
  | malformedKey (key : String)
  | fileNotFound (path : String)
  | malformedFile (file : String)
  | wrongType (m : TypeMismatch)
  /-- A group of settings is given as a single value. -/
  | notAGroup (key : String)
  | missing (key : String)
  /-- An index goes back beyond the start of an array. Loading breaks off. -/
  | indexOutOfRange
  deriving DecidableEq, Repr

namespace SettingsError

/-- The message of an error. -/
def message : SettingsError → String
  | .malformedKey key => "malformed key \x60" ++ key ++ "\x60"
  | .fileNotFound path => "configuration file \"" ++ path ++ "\" not found"
  | .malformedFile file => "malformed TOML in " ++ file
  | .wrongType m => m.message
  | .notAGroup key => "expected a table for key \x60" ++ key ++ "\x60"
  | .missing key => "missing field \x60" ++ key ++ "\x60"
  | .indexOutOfRange => "index out of range"

end SettingsError

end BookCatalog
