import BookCatalog.Html.Element

/-!
# Trees under construction

While a page is read, nodes are moved about: each has a number, a parent and a list of children in a
store. `Store.freeze` makes a tree of a finished store.
-/

namespace BookCatalog.Html

/-- The number of a node in a store. -/
abbrev NodeId := Nat

/-- What a node of a store is. -/
inductive Kind where
  | document
  | element (space : Space) (name : String) (attrs : List Attr)
  | text (s : String)
  | comment (s : String)
  | fragment
  deriving Repr, Inhabited

/-- A node of a store. -/
structure Entry where
  kind : Kind
  parent : Option NodeId
  children : List NodeId
  deriving Repr, Inhabited

/-- Nodes by their numbers. The document is number 0. -/
structure Store where
  entries : Array Entry
  deriving Repr, Inhabited

namespace Store

/-- The number of the document. -/
def documentId : NodeId := 0

/-- A document without contents. -/
def start : Store := ⟨#[⟨.document, none, []⟩]⟩

/-- The node of a number. -/
def entry (s : Store) (id : NodeId) : Entry := s.entries.getD id default

/-- The parent of a node. -/
def parent? (s : Store) (id : NodeId) : Option NodeId := (s.entry id).parent

/-- The vocabulary and the name of an element. -/
def elementName? (s : Store) (id : NodeId) : Option (Space × String) :=
  match (s.entry id).kind with
  | .element space name _ => some (space, name)
  | _ => none

/-- Changes a node. -/
def modify (s : Store) (id : NodeId) (f : Entry → Entry) : Store := ⟨s.entries.modify id f⟩

/-- Adds a node without a parent. -/
def add (s : Store) (kind : Kind) : NodeId × Store :=
  (s.entries.size, ⟨s.entries.push ⟨kind, none, []⟩⟩)

/-- Takes a node from its parent. -/
def detach (s : Store) (id : NodeId) : Store :=
  match s.parent? id with
  | none => s
  | some p =>
    (s.modify p fun e => { e with children := e.children.filter (· ≠ id) }).modify id
      fun e => { e with parent := none }

/-- Makes a node the last child of another. -/
def append (s : Store) (parent id : NodeId) : Store :=
  ((s.detach id).modify parent fun e => { e with children := e.children ++ [id] }).modify id
    fun e => { e with parent := some parent }

/-- Puts a node in front of another. -/
def insertBefore (s : Store) (sibling id : NodeId) : Store :=
  match s.parent? sibling with
  | none => s
  | some parent =>
    ((s.detach id).modify parent fun e =>
      { e with children := e.children.flatMap fun c => if c = sibling then [id, c] else [c] }).modify id
      fun e => { e with parent := some parent }

/-- The text of a node, when it is a run of text. -/
def text? (s : Store) (id : NodeId) : Option String :=
  match (s.entry id).kind with
  | .text t => some t
  | _ => none

/-- Adds a text to a run of text. -/
def extendText (s : Store) (id : NodeId) (added : String) : Store :=
  s.modify id fun e => match e.kind with
    | .text t => { e with kind := .text (t ++ added) }
    | _ => e

/-- Adds a text at the end of a node; it joins a run of text that stands there. -/
def appendText (s : Store) (parent : NodeId) (added : String) : Store :=
  match (s.entry parent).children.getLast? with
  | some last =>
    if (s.text? last).isSome then s.extendText last added
    else
      let (id, s) := s.add (.text added)
      s.append parent id
  | none =>
    let (id, s) := s.add (.text added)
    s.append parent id

/-- The node in front of another. -/
def previous? (s : Store) (id : NodeId) : Option NodeId :=
  (s.parent? id).bind fun p => ((s.entry p).children.takeWhile (· ≠ id)).getLast?

/-- Puts a text in front of a node; it joins a run of text that stands there. -/
def insertTextBefore (s : Store) (sibling : NodeId) (added : String) : Store :=
  match (s.previous? sibling).filter fun id => (s.text? id).isSome with
  | some before => s.extendText before added
  | none =>
    let (id, s) := s.add (.text added)
    s.insertBefore sibling id

/-- Moves all children of a node to the end of another. -/
def moveChildren (s : Store) (source target : NodeId) : Store :=
  (s.entry source).children.foldl (fun s id => s.append target id) s

/-- Where an attribute stands among those of an element: plain ones first, by name. -/
def attrRank (a : Attr) : Nat :=
  match a.space with
  | .plain => 0
  | .xmlns => if a.name = "xmlns" then 1 else 4
  | .xlink => 2
  | .xml => 3

/-- Whether an attribute stands before another. -/
def attrBefore (a b : Attr) : Bool :=
  attrRank a < attrRank b || (attrRank a = attrRank b && a.name ≤ b.name)

/-- Attributes in order with another one put at its place. -/
def insertAttr (a : Attr) : List Attr → List Attr
  | [] => [a]
  | b :: rest => if attrBefore a b then a :: b :: rest else b :: insertAttr a rest

/-- Attributes in the order of their names. -/
def sortAttrs (attrs : List Attr) : List Attr := attrs.foldr insertAttr []

/-- Adds an element without a parent. A template gets a fragment for its contents. -/
def addElement (s : Store) (space : Space) (name : String) (attrs : List Attr) : NodeId × Store :=
  let (id, s) := s.add (.element space name (sortAttrs attrs))
  if space = .html && name = "template" then
    let (contents, s) := s.add .fragment
    (id, s.append id contents)
  else (id, s)

/-- The fragment of a template, or the node itself when it has none. -/
def contentsOf (s : Store) (id : NodeId) : NodeId := (s.entry id).children.headD id

/-- Gives an element the attributes that it does not have. -/
def addMissingAttrs (s : Store) (id : NodeId) (attrs : List Attr) : Store :=
  s.modify id fun e => match e.kind with
    | .element space name old =>
      let new := attrs.filter fun a => !old.any fun o => o.space = a.space && o.name = a.name
      { e with kind := .element space name (sortAttrs (old ++ new)) }
    | _ => e

/-- The tree below a node, at most `depth` levels of it. -/
def freeze (s : Store) (depth : Nat) (id : NodeId) : List Node :=
  match depth with
  | 0 => []
  | depth + 1 =>
    let e := s.entry id
    let below := e.children.flatMap (s.freeze depth)
    match e.kind with
    | .document => below
    | .element space name attrs => [.element (.mk space name attrs below)]
    | .text t => [.text t]
    | .comment t => [.comment t]
    | .fragment => [.fragment below]

/-- The elements below a node and the node itself, when it is one, in document order. -/
def elementIds (s : Store) (depth : Nat) (id : NodeId) : List NodeId :=
  match depth with
  | 0 => []
  | depth + 1 =>
    let e := s.entry id
    let below := e.children.flatMap (s.elementIds depth)
    match e.kind with
    | .element .. => id :: below
    | _ => below

/-- A bound on the levels of any tree in the store: no branch is longer than the number of nodes. -/
def depth (s : Store) : Nat := s.entries.size

/-- The document and the elements that were taken out of it. -/
def roots (s : Store) : List NodeId :=
  (List.range s.entries.size).filter fun id => (s.parent? id).isNone

end Store

end BookCatalog.Html
