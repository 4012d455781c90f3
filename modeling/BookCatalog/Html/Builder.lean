import BookCatalog.Html.Store
import BookCatalog.Html.Names

/-!
# The state of a tree under construction

A builder holds the nodes made so far, the elements that are open, the formatting that is in force,
and the insertion mode that says how the next token counts. This module has the operations on it that
the insertion modes are made of. The open elements and the formatting are lists with the innermost,
or latest, first.
-/

namespace BookCatalog.Html

/-- How the next token counts. -/
inductive Mode where
  | initial
  | beforeHtml
  | beforeHead
  | inHead
  | afterHead
  | inBody
  | inText
  | inTable
  | inTableText
  | inCaption
  | inColumnGroup
  | inTableBody
  | inRow
  | inCell
  | inSelect
  | inSelectInTable
  | inTemplate
  | afterBody
  | inFrameset
  | afterFrameset
  | afterAfterBody
  | afterAfterFrameset
  deriving DecidableEq, Repr, Inhabited

/-- Formatting in force: an element with the tag that made it, or a marker that formatting does not
reach across. -/
inductive Formatting where
  | marker
  | element (id : NodeId) (tag : Tag)
  deriving Repr, Inhabited

/-- Whether formatting is the given element. -/
def Formatting.isElement (id : NodeId) : Formatting → Bool
  | .element other _ => other = id
  | .marker => false

/-- Whether formatting is a marker. -/
def Formatting.isMarker : Formatting → Bool
  | .marker => true
  | _ => false

/-- A tree under construction. -/
structure Builder where
  store : Store := .start
  mode : Mode := .initial
  /-- The mode to return to after raw text or text in a table. -/
  returnMode : Mode := .initial
  /-- The modes of the templates that are open. -/
  templateModes : List Mode := []
  /-- The open elements, innermost first. -/
  opened : List NodeId := []
  /-- The formatting in force, latest first. -/
  formatting : List Formatting := []
  head : Option NodeId := none
  form : Option NodeId := none
  /-- A frameset may still take the place of the body. -/
  framesetOk : Bool := true
  /-- What does not belong into a table goes in front of it. -/
  fostering : Bool := false
  /-- A line feed that comes next does not count. -/
  skipLineFeed : Bool := false
  /-- The page is laid out like old pages. -/
  quirky : Bool := false
  /-- The text in a table that is not placed yet, latest first. -/
  tableText : List Token := []
  /-- How the text of the innermost element is read. -/
  textModel : TextModel := .markup
  deriving Inhabited

namespace Builder

/-! ## Open elements -/

/-- The vocabulary and the name of a node. -/
def nameOf (b : Builder) (id : NodeId) : Space × String :=
  (b.store.elementName? id).getD (.html, "")

/-- The innermost open element. -/
def current (b : Builder) : NodeId := b.opened.headD Store.documentId

/-- The name of the innermost open element. -/
def currentName (b : Builder) : Space × String := b.nameOf b.current

/-- Whether the innermost open element is one of HTML with one of the names. -/
def currentIn (b : Builder) (names : List String) : Bool := isHtmlIn names b.currentName

/-- Whether a node is an element of HTML of the given name. -/
def isNamed (b : Builder) (name : String) (id : NodeId) : Bool := isHtmlIn [name] (b.nameOf id)

/-- Whether an element of HTML of the given name is open. -/
def hasOpen (b : Builder) (name : String) : Bool := b.opened.any (b.isNamed name)

/-- The outermost open element. -/
def rootElement (b : Builder) : NodeId := b.opened.getLast?.getD Store.documentId

/-- The body, when it is open where it belongs. -/
def bodyElement? (b : Builder) : Option NodeId :=
  match b.opened.reverse with
  | _ :: second :: _ => if b.isNamed "body" second then some second else none
  | _ => none

/-- Whether a search from the innermost element outwards finds one that satisfies `p` before it comes
to an end of the scope. -/
def findsInScope (b : Builder) (scope : Scope) (p : NodeId → Bool) : List NodeId → Bool
  | [] => false
  | id :: outer =>
    if p id then true
    else if scope.stops (b.nameOf id) then false
    else b.findsInScope scope p outer

/-- Whether an element that satisfies `p` is open in the scope. -/
def inScope (b : Builder) (scope : Scope) (p : NodeId → Bool) : Bool :=
  b.findsInScope scope p b.opened

/-- Whether an element of HTML of the given name is open in the scope. -/
def inScopeNamed (b : Builder) (scope : Scope) (name : String) : Bool :=
  b.inScope scope (b.isNamed name)

/-- Closes the innermost element. -/
def pop (b : Builder) : Builder := { b with opened := b.opened.drop 1 }

/-- Opens an element. -/
def push (b : Builder) (id : NodeId) : Builder := { b with opened := id :: b.opened }

/-- Closes elements up to one of HTML with one of the names, which is closed too. -/
def popThrough (b : Builder) (names : List String) : Builder :=
  { b with opened := (b.opened.dropWhile fun id => !isHtmlIn names (b.nameOf id)).drop 1 }

/-- Closes elements up to one of HTML with one of the names, which stays open. -/
def popTo (b : Builder) (names : List String) : Builder :=
  { b with opened := b.opened.dropWhile fun id => !isHtmlIn names (b.nameOf id) }

/-- Closes the elements whose end is implied. -/
def closeImplied (b : Builder) (names : List String) : Builder :=
  { b with opened := b.opened.dropWhile fun id => isHtmlIn names (b.nameOf id) }

/-- Closes the elements whose end is implied, one name apart. -/
def closeImpliedExcept (b : Builder) (name : String) : Builder :=
  b.closeImplied (impliedEndNames.filter (· ≠ name))

/-- Closes an element wherever it is open. -/
def removeOpen (b : Builder) (id : NodeId) : Builder := { b with opened := b.opened.erase id }

/-- Closes the innermost paragraph. -/
def closeParagraph (b : Builder) : Builder := (b.closeImpliedExcept "p").popThrough ["p"]

/-- Closes the paragraph that is open here, if there is one. -/
def closeParagraphInScope (b : Builder) : Builder :=
  if b.inScopeNamed .button "p" then b.closeParagraph else b

/-! ## Placing nodes -/

/-- Where a node goes. -/
inductive Place where
  | lastIn (parent : NodeId)
  /-- In front of a table, or at the end of the element around it when the table stands nowhere. -/
  | beforeTable (table around : NodeId)

/-- The place outside the innermost table or template. -/
def fosterPlace (b : Builder) : List NodeId → Place
  | [] => .lastIn b.rootElement
  | id :: outer =>
    if b.isNamed "template" id then .lastIn (b.store.contentsOf id)
    else if b.isNamed "table" id then .beforeTable id (outer.headD Store.documentId)
    else b.fosterPlace outer

/-- The place for a node that is to go into `target`. -/
def placeIn (b : Builder) (target : NodeId) : Place :=
  if b.fostering && isHtmlIn ["table", "tbody", "tfoot", "thead", "tr"] (b.nameOf target) then
    b.fosterPlace b.opened
  else if b.isNamed "template" target then .lastIn (b.store.contentsOf target)
  else .lastIn target

/-- Puts a node at a place. -/
def insertAt (b : Builder) (place : Place) (id : NodeId) : Builder :=
  let store := match place with
    | .lastIn parent => b.store.append parent id
    | .beforeTable table around =>
      if (b.store.parent? table).isSome then b.store.insertBefore table id
      else b.store.append around id
  { b with store }

/-- Puts a text at a place. -/
def insertTextAt (b : Builder) (place : Place) (text : List Char) : Builder :=
  let text := String.ofList text
  let store := match place with
    | .lastIn parent => b.store.appendText parent text
    | .beforeTable table around =>
      if (b.store.parent? table).isSome then b.store.insertTextBefore table text
      else b.store.appendText around text
  { b with store }

/-- Adds a text where the innermost element takes it. -/
def appendText (b : Builder) (text : List Char) : Builder :=
  b.insertTextAt (b.placeIn b.current) text

/-- Adds a comment to a node. -/
def appendCommentTo (b : Builder) (parent : NodeId) (text : String) : Builder :=
  let (id, store) := b.store.add (.comment text)
  { b with store := store.append parent id }

/-- Adds a comment where the innermost element takes it. -/
def appendComment (b : Builder) (text : String) : Builder :=
  let (id, store) := b.store.add (.comment text)
  { b with store }.insertAt (b.placeIn b.current) id

/-- Makes an element that stands nowhere. -/
def makeElement (b : Builder) (space : Space) (name : String) (attrs : List Attr) :
    NodeId × Builder :=
  let (id, store) := b.store.addElement space name attrs
  (id, { b with store })

/-- Adds an element where the innermost element takes it. -/
def addElement (b : Builder) (space : Space) (name : String) (attrs : List Attr) :
    NodeId × Builder :=
  let place := b.placeIn b.current
  let (id, b) := b.makeElement space name attrs
  (id, b.insertAt place id)

/-- Adds an element and opens it. -/
def openElement (b : Builder) (space : Space) (name : String) (attrs : List Attr) :
    NodeId × Builder :=
  let (id, b) := b.addElement space name attrs
  (id, b.push id)

/-- Adds the element of a tag and opens it. -/
def openTag (b : Builder) (t : Tag) : Builder := (b.openElement .html t.name t.attrs).2

/-- Adds the element of a tag without opening it. -/
def addTag (b : Builder) (t : Tag) : Builder := (b.addElement .html t.name t.attrs).2

/-- Opens an element that no tag stands for. -/
def openImplied (b : Builder) (name : String) : Builder := b.openTag (Tag.plain name)

/-- Makes the outermost element. -/
def openRoot (b : Builder) (attrs : List Attr) : Builder :=
  let (id, b) := b.makeElement .html "html" attrs
  { b with store := b.store.append Store.documentId id }.push id

/-- Opens the element of a tag whose text is read by `model`. -/
def openText (b : Builder) (t : Tag) (model : TextModel) : Builder :=
  { b.openTag t with returnMode := b.mode, mode := .inText, textModel := model }

/-! ## Formatting -/

/-- The formatting after the last marker, latest first. -/
def recentFormatting (b : Builder) : List Formatting :=
  b.formatting.takeWhile (!·.isMarker)

/-- Puts a marker that formatting does not reach across. -/
def markFormatting (b : Builder) : Builder := { b with formatting := .marker :: b.formatting }

/-- Forgets the formatting after the last marker, and the marker. -/
def clearFormatting (b : Builder) : Builder :=
  { b with formatting := (b.formatting.dropWhile (!·.isMarker)).drop 1 }

/-- Forgets an element of formatting. -/
def removeFormatting (b : Builder) (id : NodeId) : Builder :=
  { b with formatting := b.formatting.eraseP (·.isElement id) }

/-- Whether formatting is a marker or an open element. -/
def isSettled (b : Builder) : Formatting → Bool
  | .marker => true
  | .element id _ => b.opened.contains id

/-- Opens the elements of lost formatting again, earliest first. The list is the latest formatting
that is not open, latest first. -/
def reopen (b : Builder) : List Formatting → List Formatting × Builder
  | [] => ([], b)
  | f :: earlier =>
    let (done, b) := b.reopen earlier
    match f with
    | .marker => (f :: done, b)
    | .element _ t =>
      let (id, b) := b.openElement .html t.name t.attrs
      (.element id t :: done, b)

/-- Opens again the formatting that was closed together with something around it. -/
def restoreFormatting (b : Builder) : Builder :=
  let lost := b.formatting.takeWhile (!b.isSettled ·)
  let settled := b.formatting.drop lost.length
  let (again, b) := b.reopen lost
  { b with formatting := again ++ settled }

/-- Whether two tags make the same formatting. -/
def sameFormatting (s t : Tag) : Bool :=
  s.name = t.name && s.attrs.length = t.attrs.length && s.attrs.all t.attrs.contains

/-- Drops the last entry that satisfies `p`, the earliest one. -/
def dropEarliest (p : Formatting → Bool) (fs : List Formatting) : List Formatting :=
  (fs.reverse.eraseP p).reverse

/-- Opens a formatting element. Of three equal ones in force the earliest is forgotten. -/
def openFormatting (b : Builder) (t : Tag) : Builder :=
  let same (f : Formatting) : Bool := match f with
    | .element _ s => sameFormatting s t
    | .marker => false
  let recent := b.recentFormatting
  let older := b.formatting.drop recent.length
  let kept := if 3 ≤ (recent.filter same).length then dropEarliest same recent else recent
  let (id, b) := b.openElement .html t.name t.attrs
  { b with formatting := .element id t :: (kept ++ older) }

/-- The tag that an element of formatting was made by. -/
def formattingTag? (b : Builder) (id : NodeId) : Option Tag :=
  b.formatting.findSome? fun f => match f with
    | .element other t => if other = id then some t else none
    | .marker => none

/-- Puts another element in the place of one of formatting. -/
def replaceFormatting (b : Builder) (id new : NodeId) : Builder :=
  { b with formatting := b.formatting.map fun f => match f with
      | .element other t => if other = id then .element new t else f
      | .marker => f }

/-! ## End tags -/

/-- The innermost element of a name, unless a special element stands before it. -/
def reachable? (b : Builder) (name : String) : List NodeId → Option NodeId
  | [] => none
  | id :: outer =>
    if b.isNamed name id then some id
    else if isHtmlIn specialNames (b.nameOf id) then none
    else b.reachable? name outer

/-- Closes the element of an end tag that has no rules of its own. A special element in between keeps
it open. -/
def closeOrdinary (b : Builder) (name : String) : Builder :=
  match b.reachable? name b.opened with
  | none => b
  | some id => { b with opened := (b.opened.dropWhile (· ≠ id)).drop 1 }

/-- What the elements between a formatting element and the furthest block become. -/
structure Relinking where
  builder : Builder
  /-- The outermost node that is moved so far. -/
  last : NodeId
  /-- The formatting that the new formatting element comes after. -/
  after : Option NodeId
  count : Nat

/-- Treats one element between the furthest block and the formatting element: the first three are
made anew around what is moved, unless they are no formatting; the others are closed. -/
def Relinking.step (r : Relinking) (id : NodeId) : Relinking :=
  let b := r.builder
  let count := r.count + 1
  match if count ≤ 3 then b.formattingTag? id else none with
  | none => { r with builder := (b.removeFormatting id).removeOpen id, count }
  | some t =>
    let (new, b) := b.makeElement .html t.name t.attrs
    let b := { b with opened := b.opened.map fun o => if o = id then new else o }
    let b := b.replaceFormatting id new
    let b := { b with store := b.store.append new r.last }
    { builder := b, last := new, after := some (r.after.getD new), count }

/-- Ends a formatting element that reaches into a block: the formatting is made anew inside the
block. -/
def relink (b : Builder) (element block : NodeId) (tag : Tag) : Builder :=
  let inner := b.opened.takeWhile (· ≠ element)
  let between := (inner.dropWhile (· ≠ block)).drop 1
  let around := ((b.opened.dropWhile (· ≠ element)).drop 1).headD Store.documentId
  let r := between.foldl Relinking.step ⟨b, block, none, 0⟩
  let b := r.builder
  let b := { b with store := b.store.detach r.last }
  let b := b.insertAt (b.placeIn around) r.last
  let (new, b) := b.makeElement .html tag.name tag.attrs
  let b := { b with store := (b.store.moveChildren block new).append block new }
  let formatting := match r.after with
    | none => b.formatting.map fun f => if f.isElement element then .element new tag else f
    | some mark =>
      (b.formatting.flatMap fun f => if f.isElement mark then [.element new tag, f] else [f]).eraseP
        (·.isElement element)
  let opened := ((b.opened.erase element).flatMap fun o => if o = block then [new, o] else [o])
  { b with formatting, opened }

/-- Ends formatting of the given name, at most `rounds` times. -/
def endFormattingFrom (name : String) (rounds : Nat) (b : Builder) : Builder :=
  match rounds with
  | 0 => b
  | rounds + 1 =>
    let found := b.recentFormatting.findSome? fun f => match f with
      | .element id t => if t.name = name then some (id, t) else none
      | .marker => none
    match found with
    | none => b.closeOrdinary name
    | some (element, tag) =>
      if !b.opened.contains element then b.removeFormatting element
      else if !b.inScope .general (· = element) then b
      else
        let inner := b.opened.takeWhile (· ≠ element)
        match inner.reverse.find? fun id => isHtmlIn specialNames (b.nameOf id) with
        | none =>
          { b.removeFormatting element with opened := (b.opened.dropWhile (· ≠ element)).drop 1 }
        | some block => endFormattingFrom name rounds (b.relink element block tag)

/-- Ends the formatting element of a name, wherever it is open. -/
def endFormatting (b : Builder) (name : String) : Builder :=
  if b.currentIn [name] && !b.formatting.any (·.isElement b.current) then b.pop
  else endFormattingFrom name 8 b

/-! ## Modes -/

/-- The mode that the open elements call for, looking from the innermost outwards. -/
def modeFor (b : Builder) : List NodeId → Mode
  | [] => .inBody
  | id :: outer =>
    let last := outer.isEmpty
    let (space, name) := b.nameOf id
    if space ≠ .html then b.modeFor outer
    else
      match name with
      | "select" =>
        match outer.find? fun o => isHtmlIn ["template", "table"] (b.nameOf o) with
        | some o => if b.isNamed "table" o then .inSelectInTable else .inSelect
        | none => .inSelect
      | "td" => if last then b.modeFor outer else .inCell
      | "th" => if last then b.modeFor outer else .inCell
      | "tr" => .inRow
      | "tbody" => .inTableBody
      | "thead" => .inTableBody
      | "tfoot" => .inTableBody
      | "caption" => .inCaption
      | "colgroup" => .inColumnGroup
      | "table" => .inTable
      | "template" => b.templateModes.headD .inBody
      | "head" => if last then b.modeFor outer else .inHead
      | "body" => .inBody
      | "frameset" => .inFrameset
      | "html" => if b.head.isNone then .beforeHead else .afterHead
      | _ => b.modeFor outer

/-- Takes the mode that the open elements call for. -/
def resetMode (b : Builder) : Builder := { b with mode := b.modeFor b.opened }

/-- Closes the cell that is open. -/
def closeCell (b : Builder) : Builder :=
  ((b.closeImplied impliedEndNames).popThrough ["td", "th"]).clearFormatting

end Builder

end BookCatalog.Html
