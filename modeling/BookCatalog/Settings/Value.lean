import BookCatalog.Binary64.Shortest
import BookCatalog.Settings.KeyPath
import BookCatalog.Text.LowerCase
import BookCatalog.Toml.Value

/-!
# Values of settings

Settings come from several sources, one laid over the other. A source that gives a table adds to the
table that is there: it changes the members that it names and leaves the others alone. Any other value
takes the place of the one that is there. A value knows the file that it comes from, for the sake of
messages about it.
-/

namespace BookCatalog.Settings

/-- A value without parts. -/
inductive Scalar where
  /-- What an array holds where no source gives an element. -/
  | nothing
  | bool (b : Bool)
  | integer (n : Int)
  | float (x : Binary64)
  | string (s : String)
  deriving DecidableEq, Repr, Inhabited

/-- A value, with the file that it comes from. The members of a table have different names. -/
inductive Value where
  | scalar (origin : Option String) (s : Scalar)
  | array (origin : Option String) (elements : List Value)
  | table (origin : Option String) (members : List (String × Value))
  deriving Repr, Inhabited

namespace Value

/-- The file that a value comes from. -/
def origin : Value → Option String
  | .scalar o _ => o
  | .array o _ => o
  | .table o _ => o

/-- No value. -/
def nothing : Value := .scalar none .nothing

/-- A table without members. -/
def empty : Value := .table none []

mutual

/-- A value of a file. -/
def ofToml (file : String) : Toml.Value → Value
  | .bool b => .scalar (some file) (.bool b)
  | .integer n => .scalar (some file) (.integer n)
  | .float x => .scalar (some file) (.float x)
  | .string s => .scalar (some file) (.string s)
  | .dateTime t => .scalar (some file) (.string t.text)
  | .array elements => .array (some file) (ofTomlElements file elements)
  | .table members => .table (some file) (ofTomlMembers file members)

/-- The elements of an array of a file. -/
def ofTomlElements (file : String) : List Toml.Value → List Value
  | [] => []
  | v :: rest => ofToml file v :: ofTomlElements file rest

/-- The members of a table of a file. -/
def ofTomlMembers (file : String) : List (String × Toml.Value) → List (String × Value)
  | [] => []
  | (name, v) :: rest => (name, ofToml file v) :: ofTomlMembers file rest

end

/-! ## Tables -/

/-- The members of a table; other values have none. -/
def members : Value → List (String × Value)
  | .table _ ms => ms
  | _ => []

/-- The member of a name. -/
def member? (v : Value) (name : String) : Option Value := v.members.lookup name

/-- The members with a value for a name, in place of the one that it has or after the others. -/
def putMember (name : String) (v : Value) : List (String × Value) → List (String × Value)
  | [] => [(name, v)]
  | (other, old) :: rest =>
    if other = name then (name, v) :: rest else (other, old) :: putMember name v rest

/-- A table with a value for a name. What is no table becomes one. -/
def withMember (target : Value) (name : String) (v : Value) : Value :=
  match target with
  | .table o ms => .table o (putMember name v ms)
  | _ => .table none [(name, v)]

mutual

/-- Lays a value over the member of a name. -/
def layOver (target : Value) (name : String) : Value → Value
  | .table _ ms => target.withMember name (layAllOver ((target.member? name).getD empty) ms)
  | v => target.withMember name v

/-- Lays members over those of a table. Their names are taken in lower case. -/
def layAllOver (target : Value) : List (String × Value) → Value
  | [] => target
  | (name, v) :: rest => layAllOver (layOver target (Text.lowerCase name) v) rest

end

/-! ## Paths -/

/-- The elements of an array; other values have none. -/
def elements : Value → List Value
  | .array _ es => es
  | _ => []

/-- The position of an index in an array. There is none when the index goes back beyond the start. -/
def position? (index : Int) (size : Nat) : Option Nat :=
  if 0 ≤ index then some index.toNat
  else if index.natAbs ≤ size then some (size - index.natAbs)
  else none

/-- An array with a value at a position. It is made long enough, and what is no array becomes one. -/
def withElement (target : Value) (position : Nat) (v : Value) : Value :=
  let es := target.elements
  let long := es ++ List.replicate (position + 1 - es.length) nothing
  .array (match target with | .array o _ => o | _ => none) (long.set position v)

/-- Changes the part that a step leads to. -/
def change? (step : Step) (f : Value → Option Value) (target : Value) : Option Value :=
  match step with
  | .member name => (f ((target.member? name).getD nothing)).map (target.withMember name)
  | .element index => do
    let position ← position? index target.elements.length
    return target.withElement position (← f (target.elements[position]?.getD nothing))

/-- Lays a value over the part that a step, and further steps, lead to. An element is replaced. -/
def putAt? (v : Value) : Step → List Step → Value → Option Value
  | .member name, [] => fun target => some (target.layOver name v)
  | .element index, [] => change? (.element index) fun _ => some v
  | step, next :: rest => change? step (putAt? v next rest)

/-- Lays a value over the part that a path leads to. It fails when an index goes back beyond the start
of an array. -/
def put? (target : Value) (path : KeyPath) (v : Value) : Option Value :=
  putAt? v (.member path.first) path.steps target

/-- Lays a member of a file over a value. A name that is a path is followed; any other is the name of a
member. -/
def putNamed? (target : Value) (name : String) (v : Value) : Option Value :=
  match KeyPath.ofText? name with
  | some path => target.put? path v
  | none => some (target.layOver (Text.lowerCase name) v)

end Value

end BookCatalog.Settings
