import BookCatalog.Html.Position
import BookCatalog.Html.Token

/-!
# Selectors

A selector says which elements of a page are meant: by name, by identifier, by class or by attribute,
and by the elements around and before them. `Selector.read?` reads one from its text and
`Selector.matches` tells whether it means the element at a position.
-/

namespace BookCatalog.Html

/-- The words of the attribute `class`, between blanks of HTML. -/
def Element.classWords (e : Element) : List String :=
  match e.attr? "class" with
  | some value => ((value.toList.splitOnP isHtmlBlank).filter (!·.isEmpty)).map String.ofList
  | none => []

/-- Whether a selector finds the element by the class. -/
def Element.isOfClass (e : Element) (cls : String) : Bool := e.classWords.contains cls

/-- How the value of an attribute is compared. -/
inductive Comparison where
  | equal
  | word
  | dashed
  | start
  | finish
  | within
  deriving DecidableEq, Repr

namespace Comparison

/-- The comparison that a mark in front of the equals sign stands for. -/
def ofMark? : Char → Option Comparison
  | '~' => some .word
  | '|' => some .dashed
  | '^' => some .start
  | '$' => some .finish
  | '*' => some .within
  | _ => none

/-- Whether a value compares with the wanted text. -/
def holds (c : Comparison) (wanted value : String) : Bool :=
  let w := wanted.toList
  let v := value.toList
  match c with
  | .equal => value = wanted
  | .word => (v.splitOnP isHtmlBlank).contains w && !w.isEmpty
  | .dashed => value = wanted || (w ++ ['-']).isPrefixOf v
  | .start => !w.isEmpty && w.isPrefixOf v
  | .finish => !w.isEmpty && w.isSuffixOf v
  | .within => !w.isEmpty && (List.range v.length).any fun n => w.isPrefixOf (v.drop n)

end Comparison

/-- A condition on one element. -/
inductive Simple where
  | any
  | name (n : String)
  | id (i : String)
  | cls (c : String)
  | attr (name : String)
  | value (name : String) (comparison : Comparison) (wanted : String)
  deriving DecidableEq, Repr

/-- The names of elements and attributes are compared in lower case in the vocabulary of HTML. -/
def Element.nameIn (e : Element) (name : String) : String :=
  if e.space = .html then name.toLower else name

/-- Whether an element satisfies a condition. -/
def Simple.matches (s : Simple) (e : Element) : Bool :=
  match s with
  | .any => true
  | .name n => e.name = e.nameIn n
  | .id i => e.attr? "id" = some i
  | .cls c => e.isOfClass c
  | .attr n => (e.attr? (e.nameIn n)).isSome
  | .value n c w => (e.attr? (e.nameIn n)).any (c.holds w)

/-- Conditions on one element, all of which count. -/
abbrev Compound := List Simple

/-- Whether an element satisfies all conditions. -/
def Compound.matches (c : Compound) (e : Element) : Bool := c.all (·.matches e)

/-- Where one element stands as seen from another. -/
inductive Combinator where
  | ancestor
  | parent
  | previous
  | earlier
  deriving DecidableEq, Repr

/-- The positions that a combinator leads to. -/
def Combinator.from (c : Combinator) (p : Position) : List Position :=
  match c with
  | .ancestor => outward p.around
  | .parent => (outward p.around).take 1
  | .previous => (backward p.spot.before p.around).take 1
  | .earlier => backward p.spot.before p.around
where
  /-- The positions around one. -/
  outward : List Spot → List Position
    | [] => []
    | spot :: around => ⟨spot, around⟩ :: outward around
  /-- The positions before one. -/
  backward : List Element → List Spot → List Position
    | [], _ => []
    | e :: before, around => ⟨⟨e, before⟩, around⟩ :: backward before around

/-- Conditions on an element and on elements that it stands by, from the right to the left of the
written selector. -/
structure Complex where
  last : Compound
  left : List (Combinator × Compound)
  deriving DecidableEq, Repr

/-- Whether a position has all the elements around and before it that are asked for. -/
def leftMatches : List (Combinator × Compound) → Position → Bool
  | [], _ => true
  | (combinator, compound) :: rest, p =>
    (combinator.from p).any fun q => compound.matches q.element && leftMatches rest q

/-- Whether the element at a position is meant. -/
def Complex.matches (c : Complex) (p : Position) : Bool :=
  c.last.matches p.element && leftMatches c.left p

/-- A selector: alternatives, one of which has to match. -/
structure Selector where
  alternatives : List Complex
  deriving DecidableEq, Repr

/-- Whether a selector means the element at a position. -/
def Selector.matches (s : Selector) (p : Position) : Bool := s.alternatives.any (·.matches p)

/-! ## Reading -/

/-- A piece of a written selector. -/
inductive SelectorToken where
  | blank
  | word (s : List Char)
  | quoted (s : List Char)
  /-- A word right after a number sign. -/
  | numbered (s : List Char)
  /-- A word right after a point. -/
  | pointed (s : List Char)
  | mark (c : Char)
  deriving DecidableEq, Repr

/-- A character of a name in a selector. -/
def isSelectorNameChar (c : Char) : Bool :=
  c.isAlphanum || c == '-' || c == '_' || 128 ≤ c.toNat

/-- Whether a word is a name: it begins with a letter, perhaps after a hyphen, or with two hyphens. -/
def isSelectorName (cs : List Char) : Bool :=
  let startsName (c : Char) : Bool := c.isAlpha || c == '_' || 128 ≤ c.toNat
  match cs with
  | '-' :: c :: _ => startsName c || c == '-'
  | c :: _ => startsName c
  | [] => false

/-- Cuts a selector into pieces; `quote` is the quote that is open and the text read in it, last
character first. -/
def selectorTokens (quote : Option (Char × List Char)) : List Char → List SelectorToken
  | [] => match quote with
    | some (_, text) => [.quoted text.reverse]
    | none => []
  | c :: rest =>
    match quote with
    | some (q, text) =>
      if c = q then .quoted text.reverse :: selectorTokens none rest
      else selectorTokens (some (q, c :: text)) rest
    | none =>
      if c = '"' || c = '\'' then selectorTokens (some (c, [])) rest
      else
        let tokens := selectorTokens none rest
        if isHtmlBlank c then .blank :: tokens
        else if isSelectorNameChar c then
          match tokens with
          | .word cs :: more => if rest.head?.any isSelectorNameChar then .word (c :: cs) :: more
            else .word [c] :: tokens
          | _ => .word [c] :: tokens
        else
          match c, tokens with
          | '#', .word w :: more => .numbered w :: more
          | '.', .word w :: more => .pointed w :: more
          | _, _ => .mark c :: tokens

/-- The condition written between square brackets, blanks left out. -/
def readAttrTest? (tokens : List SelectorToken) : Option Simple :=
  let wanted? (t : SelectorToken) : Option String := match t with
    | .word w => if isSelectorName w then some (String.ofList w) else none
    | .quoted w => some (String.ofList w)
    | _ => none
  match tokens with
  | .word n :: rest =>
    if isSelectorName n then
      let name := String.ofList n
      match rest with
      | [] => some (.attr name)
      | [.mark '=', t] => (wanted? t).map (.value name .equal)
      | [.mark m, .mark '=', t] => do
        some (.value name (← Comparison.ofMark? m) (← wanted? t))
      | _ => none
    else none
  | _ => none

/-- What is read of a selector so far. -/
structure SelectorReading where
  /-- The finished alternatives, latest first. -/
  finished : List Complex := []
  /-- The finished compounds to the left, nearest first. -/
  left : List (Combinator × Compound) := []
  /-- The conditions of the compound being read, latest first. -/
  current : List Simple := []
  /-- The combinator read after the compound. -/
  joint : Option Combinator := none
  /-- The pieces of an open pair of square brackets, latest first. -/
  bracket : Option (List SelectorToken) := none

namespace SelectorReading

/-- Adds a condition. The name of an element comes first in its compound. -/
def add (r : SelectorReading) (s : Simple) (isName : Bool) : Option SelectorReading :=
  match r.joint with
  | some c =>
    some { r with left := (c, r.current.reverse) :: r.left, current := [s], joint := none }
  | none => if isName && !r.current.isEmpty then none else some { r with current := s :: r.current }

/-- Adds a combinator other than a blank. -/
def combine (r : SelectorReading) (c : Combinator) : Option SelectorReading :=
  if r.current.isEmpty || r.joint.any (· ≠ .ancestor) then none else some { r with joint := some c }

/-- Ends an alternative. -/
def finish (r : SelectorReading) : Option SelectorReading :=
  if r.current.isEmpty || r.joint.any (· ≠ .ancestor) then none
  else some { finished := ⟨r.current.reverse, r.left⟩ :: r.finished }

/-- Adds a condition on the name that a word is. -/
def addNamed (r : SelectorReading) (w : List Char) (s : String → Simple) (isName : Bool) :
    Option SelectorReading :=
  if isSelectorName w then r.add (s (String.ofList w)) isName else none

/-- Ends a pair of square brackets. -/
def closeBracket (r : SelectorReading) (tokens : List SelectorToken) : Option SelectorReading :=
  (readAttrTest? tokens.reverse).bind fun test => { r with bracket := none }.add test false

/-- Reads one piece of a selector. -/
def step (r : SelectorReading) (t : SelectorToken) : Option SelectorReading :=
  match r.bracket with
  | some tokens =>
    match t with
    | .mark ']' => r.closeBracket tokens
    | .blank => some r
    | _ => some { r with bracket := some (t :: tokens) }
  | none =>
    match t with
    | .blank =>
      if r.current.isEmpty || r.joint.isSome then some r else some { r with joint := some .ancestor }
    | .word w => r.addNamed w .name true
    | .numbered w => r.addNamed w .id false
    | .pointed w => r.addNamed w .cls false
    | .mark '*' => r.add .any true
    | .mark '>' => r.combine .parent
    | .mark '+' => r.combine .previous
    | .mark '~' => r.combine .earlier
    | .mark ',' => r.finish
    | .mark '[' => some { r with bracket := some [] }
    | _ => none

/-- The alternatives read when a selector ends. Square brackets that are still open end there. -/
def result (r : SelectorReading) : Option (List Complex) := do
  let r ← match r.bracket with
    | some tokens => r.closeBracket tokens
    | none => some r
  return (← r.finish).finished.reverse

end SelectorReading

namespace Selector

/-- The selector written in a text, if it is one. -/
def read? (text : String) : Option Selector :=
  (((selectorTokens none text.toList).foldlM SelectorReading.step {}).bind
    SelectorReading.result).map Selector.mk

/-- The elements among some positions that a selector means. -/
def select (s : Selector) (positions : List Position) : List Position := positions.filter s.matches

end Selector

end BookCatalog.Html
