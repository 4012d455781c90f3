import BookCatalog.Text.Fields
import BookCatalog.Transform

/-!
# Arguments

What the arguments of the program ask for. There are two commands, each with options of its own, and
options that may stand before the name of the command or after it. Converting is the usual command:
when the arguments make no sense and begin with no command and no option, they are read once more as
arguments of `convert`.
-/

namespace BookCatalog.CommandLine

/-- An option. -/
inductive Switch where
  | listTransforms
  | config
  | moduleName
  | output
  | help
  | version
  deriving DecidableEq, Repr

namespace Switch

/-- Whether an option takes a value. -/
def takesValue : Switch → Bool
  | .config => true
  | .moduleName => true
  | .output => true
  | _ => false

/-- The name of an option after two hyphens. -/
def longName : Switch → String
  | .listTransforms => "list-transforms"
  | .config => "config"
  | .moduleName => "module-name"
  | .output => "output"
  | .help => "help"
  | .version => "version"

/-- The name of an option after one hyphen. -/
def shortName? : Switch → Option Char
  | .output => some 'o'
  | .help => some 'h'
  | .version => some 'V'
  | _ => none

end Switch

/-- Why no command is carried out. -/
inductive Refusal where
  | help
  | version
  /-- The arguments make no sense. -/
  | usage
  deriving DecidableEq, Repr

/-- What may stand among some arguments. -/
structure Grammar where
  switches : List Switch
  /-- The names of the commands. What follows one is not looked at. -/
  commands : List String := []
  /-- What each argument without a hyphen has to be, in order. -/
  places : List (String → Bool) := []

/-- What some arguments give. -/
structure Given where
  values : List (Switch × String) := []
  /-- The options without a value. -/
  flags : List Switch := []
  /-- The arguments without a hyphen, in order. -/
  plain : List String := []
  /-- The command and the arguments after it. -/
  command : Option (String × List String) := none
  deriving DecidableEq, Repr, Inhabited

namespace Given

/-- The value of an option. -/
def value? (g : Given) (s : Switch) : Option String := g.values.lookup s

/-- Whether nothing is given. -/
def isEmpty (g : Given) : Bool :=
  g.values.isEmpty && g.flags.isEmpty && g.plain.isEmpty && g.command.isNone

/-- Adds the value of an option, which may be given once. -/
def addValue (g : Given) (s : Switch) (value : String) : Except Refusal Given :=
  if (g.value? s).isSome then .error .usage else .ok { g with values := g.values ++ [(s, value)] }

/-- Adds an option without a value, which may be given once. Help and the version are given at once. -/
def addFlag (g : Given) (s : Switch) : Except Refusal Given :=
  match s with
  | .help => .error .help
  | .version => .error .version
  | _ => if s ∈ g.flags then .error .usage else .ok { g with flags := g.flags ++ [s] }

/-- Adds an argument without a hyphen. -/
def addPlain (g : Given) (grammar : Grammar) (argument : String) : Except Refusal Given :=
  match grammar.places[g.plain.length]? with
  | some fits => if fits argument then .ok { g with plain := g.plain ++ [argument] } else .error .usage
  | none => .error .usage

end Given

namespace Grammar

/-- The option of a name after two hyphens. -/
def long? (g : Grammar) (name : String) : Option Switch := g.switches.find? (·.longName = name)

/-- The option of a name after one hyphen. -/
def short? (g : Grammar) (name : Char) : Option Switch :=
  g.switches.find? (·.shortName? = some name)

/-- What an argument with two hyphens in front gives, from what follows them. An option that takes a
value finds it after an equals sign; otherwise the option is given back, and its value is the next
argument. -/
def readLong (grammar : Grammar) (given : Given) (cs : List Char) :
    Except Refusal (Given × Option Switch) :=
  let (name, value) : List Char × Option (List Char) :=
    match Text.splitFirst? (· == '=') cs with
    | some (name, value) => (name, some value)
    | none => (cs, none)
  match grammar.long? (String.ofList name), value with
  | none, _ => .error .usage
  | some s, some value =>
    if s.takesValue then (given.addValue s (String.ofList value)).map (·, none) else .error .usage
  | some s, none =>
    if s.takesValue then .ok (given, some s) else (given.addFlag s).map (·, none)

/-- What an argument with one hyphen in front gives, from what follows it. The value of an option
follows it at once, or after an equals sign; otherwise it is the next argument. -/
def readShort (grammar : Grammar) (given : Given) : List Char → Except Refusal (Given × Option Switch)
  | [] => .ok (given, none)
  | c :: rest =>
    match grammar.short? c with
    | none => .error .usage
    | some s =>
      if s.takesValue then
        match rest with
        | [] => .ok (given, some s)
        | '=' :: value => (given.addValue s (String.ofList value)).map (·, none)
        | value => (given.addValue s (String.ofList value)).map (·, none)
      else
        match given.addFlag s with
        | .ok given => readShort grammar given rest
        | .error e => .error e

/-- Whether an argument is taken for options. A hyphen alone is not. -/
def looksLikeOption (argument : String) : Bool :=
  argument.toList.head? = some '-' && argument ≠ "-"

/-- What arguments give, after what is given already. `pending` is the option whose value comes next;
`plainOnly` tells that two hyphens alone went before, after which nothing is an option or a command. -/
def readFrom (grammar : Grammar) (given : Given) (pending : Option Switch) (plainOnly : Bool) :
    List String → Except Refusal Given
  | [] => if pending.isSome then .error .usage else .ok given
  | argument :: rest =>
    match pending with
    | some s =>
      if looksLikeOption argument then .error .usage
      else
        match given.addValue s argument with
        | .ok given => readFrom grammar given none false rest
        | .error e => .error e
    | none =>
      if plainOnly || !looksLikeOption argument then
        if !plainOnly && argument ∈ grammar.commands then
          .ok { given with command := some (argument, rest) }
        else
          match given.addPlain grammar argument with
          | .ok given => readFrom grammar given none plainOnly rest
          | .error e => .error e
      else if argument = "--" then readFrom grammar given none true rest
      else
        let step := match argument.toList with
          | '-' :: '-' :: cs => grammar.readLong given cs
          | cs => grammar.readShort given (cs.drop 1)
        match step with
        | .ok (given, pending) => readFrom grammar given pending false rest
        | .error e => .error e

/-- What arguments give. -/
def read (grammar : Grammar) (arguments : List String) : Except Refusal Given :=
  grammar.readFrom {} none false arguments

end Grammar

/-! ## Commands -/

/-- A command with its arguments. -/
inductive Command where
  | convert (root output : String)
  | inspect (path : String) (transform output : Option String)
  deriving DecidableEq, Repr

/-- What the program is asked for. -/
structure Request where
  listTransforms : Bool
  /-- A file of settings. -/
  config : Option String
  moduleName : Option String
  command : Option Command
  deriving DecidableEq, Repr

/-- The options that may stand before and after the name of a command. -/
def sharedSwitches : List Switch := [.listTransforms, .config, .moduleName]

/-- The arguments as a whole. -/
def Grammar.whole : Grammar where
  switches := sharedSwitches ++ [.help, .version]
  commands := ["convert", "inspect", "help"]

/-- The arguments of `convert`: the directory of the book. -/
def Grammar.convert : Grammar where
  switches := sharedSwitches ++ [.output, .help]
  places := [fun _ => true]

/-- The arguments of `inspect`: a page, and what is shown of it. -/
def Grammar.inspect : Grammar where
  switches := sharedSwitches ++ [.output, .help]
  places := [fun _ => true, fun name => Transform.available.contains name]

namespace Request

/-- The request of a command. What is given after its name goes before what is given in front of
it. -/
def ofGiven (whole inner : Given) (command : Option Command) : Request where
  listTransforms := .listTransforms ∈ whole.flags ∨ .listTransforms ∈ inner.flags
  config := (inner.value? .config).or (whole.value? .config)
  moduleName := (inner.value? .moduleName).or (whole.value? .moduleName)
  command := command

/-- What the arguments of `help` ask for: help, unless they name no command. -/
def helpRefusal : List String → Refusal
  | [] => .help
  | [name] => if name ∈ Grammar.whole.commands then .help else .usage
  | _ => .usage

/-- The request of a command, from the arguments after its name. -/
def ofCommand (whole : Given) (name : String) (arguments : List String) :
    Except Refusal Request := do
  match name with
  | "convert" =>
    let given ← Grammar.convert.read arguments
    match given.plain with
    | root :: _ =>
      return ofGiven whole given (some (.convert root ((given.value? .output).getD ".")))
    | [] => throw .usage
  | "inspect" =>
    let given ← Grammar.inspect.read arguments
    match given.plain with
    | path :: rest => return ofGiven whole given (some (.inspect path rest.head? (given.value? .output)))
    | [] => throw .usage
  | _ => throw (helpRefusal arguments)

/-- The request of arguments that name their command. -/
def ofExplicit (arguments : List String) : Except Refusal Request := do
  let given ← Grammar.whole.read arguments
  match given.command with
  | some (name, rest) => ofCommand given name rest
  | none => if given.isEmpty then throw .usage else return ofGiven given {} none

/-- Whether arguments may be those of `convert` without its name. -/
def mayOmitConvert : List String → Bool
  | [] => false
  | first :: _ => first.toList.head? ≠ some '-' && !Grammar.whole.commands.contains first

/-- What the program is asked for. -/
def ofArguments (arguments : List String) : Except Refusal Request :=
  match ofExplicit arguments with
  | .ok r => .ok r
  | .error e =>
    if mayOmitConvert arguments then ofExplicit ("convert" :: arguments) else .error e

end Request

end BookCatalog.CommandLine
