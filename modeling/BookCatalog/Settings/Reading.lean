import BookCatalog.Settings.Error
import BookCatalog.Settings.Value
import BookCatalog.Text.CodePoints

/-!
# Reading settings from values

A setting that is a text may be given as a number or a truth value, and one that is a truth value as a
number or as a word such as `on`. A group of settings is a table; an array gives its settings in order.
-/

namespace BookCatalog.Settings

/-- A setting that is sought: the path to it, for messages, and its value if there is one. -/
structure Sought where
  key : String
  value : Option Value

/-- The words for true, in lower case. -/
def wordsForTrue : List String := ["1", "true", "on", "yes"]

/-- The words for false, in lower case. -/
def wordsForFalse : List String := ["0", "false", "off", "no"]

namespace Value

/-- The decimal text of an integer. -/
def integerText : Int → String
  | .ofNat n => String.ofList (Nat.toDigits 10 n)
  | .negSucc n => String.ofList ('-' :: Nat.toDigits 10 (n + 1))

/-- How a value is called in messages. -/
def kind : Value → String
  | .scalar _ .nothing => "unit value"
  | .scalar _ (.bool b) => if b then "boolean true" else "boolean false"
  | .scalar _ (.integer n) => "integer " ++ integerText n
  | .scalar _ (.float x) => "floating point " ++ x.text
  | .scalar _ (.string s) => "string " ++ Text.quoted s
  | .array _ _ => "sequence"
  | .table _ _ => "map"

/-- A value that is not of the kind that its setting has to be. -/
def mismatch (v : Value) (found expected key : String) : Except SettingsError α :=
  .error (.wrongType { found, expected, key, origin := v.origin })

/-- The value of a setting that is a text. -/
def asText (key : String) (v : Value) : Except SettingsError String :=
  match v with
  | .scalar _ (.bool b) => .ok (if b then "true" else "false")
  | .scalar _ (.integer n) => .ok (integerText n)
  | .scalar _ (.float x) => .ok x.text
  | .scalar _ (.string s) => .ok s
  | _ => v.mismatch v.kind "a string" key

/-- The value of a setting that is a truth value. -/
def asBool (key : String) (v : Value) : Except SettingsError Bool :=
  match v with
  | .scalar _ (.bool b) => .ok b
  | .scalar _ (.integer n) => .ok (n ≠ 0)
  | .scalar _ (.float x) => .ok (!x.isZero)
  | .scalar o (.string s) =>
    let word := Text.lowerCase s
    if word ∈ wordsForTrue then .ok true
    else if word ∈ wordsForFalse then .ok false
    else v.mismatch (kind (.scalar o (.string word))) "a boolean" key
  | _ => v.mismatch v.kind "a boolean" key

/-- The settings of a group, under their names in a table or in the order of an array. -/
def group (key : String) (names : List String) (v : Value) : Except SettingsError (List Sought) :=
  match v with
  | .table _ _ => .ok (names.map fun name => ⟨key ++ "." ++ name, v.member? name⟩)
  | .array _ es =>
    .ok ((List.range names.length).map fun i => ⟨key ++ "[" ++ toString i ++ "]", es[i]?⟩)
  | .scalar _ _ => .error (.notAGroup key)

end Value

namespace Sought

/-- Reads the value of a setting if there is one. -/
def read? (f : String → Value → Except SettingsError α) (s : Sought) :
    Except SettingsError (Option α) :=
  match s.value with
  | some v => (f s.key v).map some
  | none => .ok none

end Sought

/-- What a setting has to have. -/
def require (key : String) : Option α → Except SettingsError α
  | some a => .ok a
  | none => .error (.missing key)

end BookCatalog.Settings
