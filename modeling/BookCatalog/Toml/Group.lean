import BookCatalog.Toml.Token

/-!
# Brackets

Tokens grouped by the brackets and braces around them. A comma divides what stands in brackets or
braces into pieces, and a line end divides the document into lines; a line end within brackets is a
token like others. `lines?` fails when brackets do not match.
-/

namespace BookCatalog.Toml

/-- A token, or pieces in brackets or braces. -/
inductive Group where
  | token (t : Token)
  | brackets (pieces : List (List Group))
  | braces (pieces : List (List Group))
  deriving Repr

/-- What encloses groups. -/
inductive Enclosure where
  | document
  | brackets
  | braces
  deriving DecidableEq, Repr

/-- An enclosure that is not closed yet: its finished pieces and the one that is begun, both last one
first. -/
structure Frame where
  enclosure : Enclosure
  finished : List (List Group) := []
  current : List Group := []

namespace Frame

/-- Adds a group to the piece that is begun. -/
def add (f : Frame) (g : Group) : Frame := { f with current := g :: f.current }

/-- Begins the next piece. -/
def next (f : Frame) : Frame := { f with finished := f.current.reverse :: f.finished, current := [] }

/-- The pieces in order. -/
def pieces (f : Frame) : List (List Group) := (f.current.reverse :: f.finished).reverse

end Frame

/-- The open enclosures. -/
structure Grouping where
  inner : Frame
  /-- What encloses `inner`, innermost first. -/
  outer : List Frame := []

namespace Grouping

/-- Adds a group to the innermost enclosure. -/
def add (g : Grouping) (group : Group) : Grouping := { g with inner := g.inner.add group }

/-- Opens an enclosure. -/
def enter (g : Grouping) (e : Enclosure) : Grouping := ⟨⟨e, [], []⟩, g.inner :: g.outer⟩

/-- Closes the innermost enclosure, which has to be of the given kind. -/
def leave? (g : Grouping) (e : Enclosure) (group : List (List Group) → Group) : Option Grouping :=
  match g.outer with
  | f :: outer => if g.inner.enclosure = e then some ⟨f.add (group g.inner.pieces), outer⟩ else none
  | [] => none

/-- Takes in a token. -/
def step? (g : Grouping) (t : Token) : Option Grouping :=
  match t with
  | .openBracket => some (g.enter .brackets)
  | .openBrace => some (g.enter .braces)
  | .closeBracket => g.leave? .brackets .brackets
  | .closeBrace => g.leave? .braces .braces
  | .comma =>
    if g.inner.enclosure = .document then none else some { g with inner := g.inner.next }
  | .newline =>
    if g.inner.enclosure = .document then some { g with inner := g.inner.next }
    else some (g.add (.token t))
  | _ => some (g.add (.token t))

end Grouping

/-- The lines of a document. -/
def lines? (tokens : List Token) : Option (List (List Group)) := do
  let g ← tokens.foldlM Grouping.step? ⟨⟨.document, [], []⟩, []⟩
  if g.outer.isEmpty then return g.inner.pieces else none

namespace Group

/-- Whether a group is a run of blanks. -/
def isBlank : Group → Bool
  | .token (.blanks _) => true
  | _ => false

/-- Whether a group is a run of blanks or a line end. -/
def isSpace : Group → Bool
  | .token (.blanks _) => true
  | .token .newline => true
  | _ => false

/-- Whether a group is an equals sign. -/
def isEquals : Group → Bool
  | .token .equals => true
  | _ => false

end Group

/-- Groups without those at both ends that satisfy `p`. -/
def trimGroups (p : Group → Bool) (gs : List Group) : List Group :=
  ((gs.dropWhile p).reverse.dropWhile p).reverse

end BookCatalog.Toml
