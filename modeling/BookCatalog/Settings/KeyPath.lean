import BookCatalog.Text.Fields
import BookCatalog.Text.Source

/-!
# Paths to settings

A path such as `book.nav` or `parts[2].name` leads from the settings as a whole to one of them. Names
are made of ASCII letters, digits, spaces, `_` and `-`, and their case does not count. A negative index
counts from the end.
-/

namespace BookCatalog.Settings

/-- A step from a setting to one of its parts. -/
inductive Step where
  | member (name : String)
  | element (index : Int)
  deriving DecidableEq, Repr

/-- A path: the name that it begins with, and the steps from there. -/
structure KeyPath where
  first : String
  steps : List Step
  deriving DecidableEq, Repr

namespace KeyPath

/-- A character of a name. -/
def isNameChar (c : Char) : Bool :=
  ('a' ≤ c && c ≤ 'z') || ('A' ≤ c && c ≤ 'Z') || ('0' ≤ c && c ≤ '9') || " _-".toList.contains c

/-- The name in lower case that a text is. -/
def name? (cs : List Char) : Option String :=
  if !cs.isEmpty && cs.all isNameChar then some (String.ofList (cs.map Char.toLower)) else none

/-- A blank around an index. -/
def isIndexBlank (c : Char) : Bool := c == ' ' || c == '\t'

/-- The index that a text is. It fits in 64 bits. -/
def index? (cs : List Char) : Option Int := do
  let cs := ((cs.dropWhile isIndexBlank).reverse.dropWhile isIndexBlank).reverse
  match cs with
  | '-' :: digits =>
    let n ← Text.number? 10 digits
    if digits.isEmpty || 0x8000000000000000 < n then none else return -n
  | _ =>
    let n ← Text.number? 10 cs
    if cs.isEmpty || 0x8000000000000000 ≤ n then none else return n

/-- The indices in what follows an opening bracket: each ends with a closing bracket, and another
opening bracket stands between two of them. -/
def indices? (cs : List Char) : Option (List Step) :=
  (cs.splitOnP (· == '[')).mapM fun part =>
    match part.reverse with
    | ']' :: index => (index? index.reverse).map .element
    | _ => none

/-- The steps in a part of a path between two dots: a name, and indices in brackets. -/
def part? (cs : List Char) : Option (String × List Step) :=
  match Text.splitFirst? (· == '[') cs with
  | none => (name? cs).map (·, [])
  | some (name, rest) => do return (← name? name, ← indices? rest)

/-- The path that a text is. -/
def ofText? (text : String) : Option KeyPath := do
  let parts ← (text.toList.splitOnP (· == '.')).mapM part?
  match parts with
  | [] => none
  | (first, indices) :: rest =>
    return ⟨first, indices ++ rest.flatMap fun (name, indices) => .member name :: indices⟩

end KeyPath

end BookCatalog.Settings
