import BookCatalog.Toml.Value

/-!
# Tables under construction

The lines of a document fill its tables one after another. A table may be named before it is declared,
and it may be declared once; a key may be given a value once. What a line may still add to a table
depends on how the table came about, so a draft of a document keeps that.
-/

namespace BookCatalog.Toml

/-- How a table came about. -/
inductive Declared where
  /-- By a header of its own. The document itself, and a table in braces, count as declared. -/
  | header
  /-- As a part of the name of another table. -/
  | implied
  /-- As a part of a key. -/
  | dotted
  deriving DecidableEq, Repr

/-- A value, or tables that may still change. -/
inductive Draft where
  | value (v : Value)
  | table (declared : Declared) (members : List (String × Draft))
  /-- An array of tables, each with a header of its own. -/
  | tables (elements : List (List (String × Draft)))
  deriving Inhabited

/-- A key: the names before the last dot, and the last name. -/
structure Key where
  path : List String
  name : String
  deriving DecidableEq, Repr

namespace Draft

/-- The members of a table. -/
abbrev Members := List (String × Draft)

/-- The members with another draft for a name that is among them. -/
def replace (ms : Members) (name : String) (d : Draft) : Members :=
  ms.map fun m => if m.1 = name then (name, d) else m

/-- Changes the table that a path leads to. The path goes through the last element of an array of
tables. Tables that are missing are made; how they come about is `made`. A path that is part of a key
does not enter a table with a header. -/
def change (made : Declared) (f : Declared → Members → Option Members) :
    List String → Declared → Members → Option Members
  | [], declared, ms => f declared ms
  | name :: path, _, ms =>
    match ms.lookup name with
    | none => do
      let inner ← change made f path made []
      return ms ++ [(name, .table made inner)]
    | some (.value _) => none
    | some (.tables elements) => do
      let inner ← change made f path .header (← elements.getLast?)
      return replace ms name (.tables (elements.dropLast ++ [inner]))
    | some (.table declared inner) =>
      if made = .dotted && declared = .header then none
      else do
        let inner ← change made f path declared inner
        return replace ms name (.table declared inner)

/-- Gives a value to a name that has none. A key with a dot adds to tables that came about by such
keys, and to no others. -/
def add (dotted : Bool) (name : String) (v : Value) (declared : Declared) (ms : Members) :
    Option Members :=
  if (declared = .dotted) = dotted && (ms.lookup name).isNone then some (ms ++ [(name, .value v)])
  else none

/-- Gives a value to a key, seen from the table that `path` leads to. -/
def assign (path : List String) (key : Key) (v : Value) (ms : Members) : Option Members :=
  change .implied (change .dotted (add (!key.path.isEmpty) key.name v) key.path) path .header ms

/-- Declares a table. -/
def declareTable (key : Key) (ms : Members) : Option Members :=
  let declare (_ : Declared) (ms : Members) : Option Members :=
    match ms.lookup key.name with
    | none => some (ms ++ [(key.name, .table .header [])])
    | some (.table .implied inner) => some (replace ms key.name (.table .header inner))
    | _ => none
  change .implied declare key.path .header ms

/-- Declares the next table of an array. -/
def declareElement (key : Key) (ms : Members) : Option Members :=
  let declare (_ : Declared) (ms : Members) : Option Members :=
    match ms.lookup key.name with
    | none => some (ms ++ [(key.name, .tables [[]])])
    | some (.tables elements) => some (replace ms key.name (.tables (elements ++ [[]])))
    | _ => none
  change .implied declare key.path .header ms

/-! ## Values -/

mutual

/-- The value that a draft has become. -/
def toValue : Draft → Value
  | .value v => v
  | .table _ ms => .table (toValues ms)
  | .tables elements => .array (toTables elements)

/-- The members of a table that is finished. -/
def toValues : Members → List (String × Value)
  | [] => []
  | (name, d) :: rest => (name, d.toValue) :: toValues rest

/-- The elements of an array of tables that is finished. -/
def toTables : List Members → List Value
  | [] => []
  | ms :: rest => .table (toValues ms) :: toTables rest

end

end Draft

end BookCatalog.Toml
