import BookCatalog.Text.Fields
import BookCatalog.Text.Source
import BookCatalog.Toml.Draft
import BookCatalog.Toml.Group

/-!
# TOML documents

A document is a table. Its lines give values to keys and declare the tables that later keys belong to.
`Toml.read?` gives the members of the table, and fails when the text is no document.
-/

namespace BookCatalog.Toml

/-- The most parts of a key, and the most brackets and braces around a value. -/
def deepest : Nat := 79

/-! ## Keys -/

/-- A part of a key. -/
inductive KeyPart where
  | name (s : String)
  | dot
  deriving DecidableEq, Repr

/-- A character of a name without quotes. -/
def isKeyChar (c : Char) : Bool := (c.isAlphanum && c.toNat < 0x80) || c == '_' || c == '-'

/-- The parts of a key in a word. -/
def wordParts? (cs : List Char) : Option (List KeyPart) :=
  let runs := cs.splitOnP (· == '.')
  if runs.all (·.all isKeyChar) then
    let names := runs.map fun run => if run.isEmpty then [] else [KeyPart.name (String.ofList run)]
    some (names.intersperse [.dot]).flatten
  else none

/-- The parts of a key in a group. -/
def keyParts? : Group → Option (List KeyPart)
  | .token (.word cs) => wordParts? cs
  | .token (.string s false) => some [.name s]
  | .token (.blanks _) => some []
  | _ => none

/-- The names that have dots between them. -/
def namesBetweenDots? : List KeyPart → Option (List String)
  | [.name s] => some [s]
  | .name s :: .dot :: rest => (namesBetweenDots? rest).map (s :: ·)
  | _ => none

/-- The key that groups stand for. -/
def Key.ofGroups? (gs : List Group) : Option Key := do
  let names ← namesBetweenDots? (← gs.mapM keyParts?).flatten
  let name ← names.getLast?
  if names.length ≤ deepest then return ⟨names.dropLast, name⟩ else none

/-! ## Values -/

/-- A key and its value, from the groups before and after the first equals sign. -/
def assignment? (value? : List Group → Option Value) (gs : List Group) : Option (Key × Value) := do
  let (left, right) ← Text.splitFirst? Group.isEquals gs
  return (← Key.ofGroups? left, ← value? (trimGroups Group.isBlank right))

/-- The pieces of an array. Nothing need follow the last comma. -/
def elementsOfPieces (pieces : List (List Group)) : List (List Group) :=
  let trimmed := pieces.map (trimGroups Group.isSpace)
  if trimmed.getLast?.any (·.isEmpty) then trimmed.dropLast else trimmed

/-- The pieces of a table in braces. -/
def membersOfPieces (pieces : List (List Group)) : List (List Group) :=
  match pieces with
  | [piece] => if piece.all Group.isBlank then [] else [piece]
  | _ => pieces

/-- The value that groups stand for, with at most `depth` brackets and braces around each part. -/
def valueWithin? (depth : Nat) (gs : List Group) : Option Value :=
  match depth, gs with
  | _, [.token (.string s _)] => some (.string s)
  | _, [.token (.word cs)] => Value.ofWord? cs
  | _, [.token (.word day), .token (.blanks [' ']), .token (.word time)] =>
    (DateTime.ofWord? (day ++ ' ' :: time)).map .dateTime
  | depth + 1, [.brackets pieces] => do
    return .array (← (elementsOfPieces pieces).mapM (valueWithin? depth))
  | depth + 1, [.braces pieces] => do
    let assignments ← (membersOfPieces pieces).mapM (assignment? (valueWithin? depth))
    let members ← assignments.foldlM (fun ms (key, v) => Draft.assign [] key v ms) []
    return .table (Draft.toValues members)
  | _, _ => none

/-! ## Documents -/

/-- What a line does. -/
inductive Line where
  | nothing
  | table (key : Key)
  | element (key : Key)
  | assignment (key : Key) (v : Value)

/-- What groups on a line stand for. A header stands alone on its line. -/
def Line.ofGroups? (gs : List Group) : Option Line :=
  match trimGroups Group.isBlank gs with
  | [] => some .nothing
  | [.brackets [[.brackets [name]]]] => (Key.ofGroups? name).map .element
  | [.brackets [name]] => (Key.ofGroups? name).map .table
  | gs => (assignment? (valueWithin? deepest) gs).map fun (key, v) => .assignment key v

/-- A document of which some lines are read: its members, and the path to the table that keys belong
to. -/
structure Reading where
  members : Draft.Members := []
  path : List String := []

/-- Reads a line. -/
def Reading.step? (r : Reading) : Line → Option Reading
  | .nothing => some r
  | .table key => (Draft.declareTable key r.members).map (⟨·, key.path ++ [key.name]⟩)
  | .element key => (Draft.declareElement key r.members).map (⟨·, key.path ++ [key.name]⟩)
  | .assignment key v => (Draft.assign r.path key v r.members).map (⟨·, r.path⟩)

/-- The members of the table that a document is. -/
def read? (text : String) : Option (List (String × Value)) := do
  let tokens ← tokens? (Text.withoutByteOrderMark text.toList)
  let lines ← (← lines? tokens).mapM Line.ofGroups?
  let r ← lines.foldlM Reading.step? ⟨[], []⟩
  return Draft.toValues r.members

end BookCatalog.Toml
