import BookCatalog.Xml.Token

/-!
# XML documents

The tree of an XML document. Names are resolved: a name with a colon, or the name of an element under a
default declaration, belongs to the namespace that is declared for it. `Element.ofText?` reads a
document and fails when it is not well formed.
-/

namespace BookCatalog.Xml

/-- A name in a namespace. -/
structure Name where
  space : Option String
  base : String
  deriving DecidableEq, Repr, Inhabited

/-- An attribute. -/
structure Attribute where
  name : Name
  value : String
  deriving DecidableEq, Repr, Inhabited

mutual

/-- An element: its name, its attributes and what stands in it. -/
inductive Element where
  | mk (name : Name) (attributes : List Attribute) (children : List Node)

/-- A part of an element. -/
inductive Node where
  | element (e : Element)
  | text (s : String)
  | comment (s : String)
  | instruction (target content : String)

end

instance : Inhabited Element := ⟨.mk ⟨none, ""⟩ [] []⟩

namespace Element

/-- The name of an element. -/
def name : Element → Name | .mk n _ _ => n

/-- The attributes of an element. -/
def attributes : Element → List Attribute | .mk _ a _ => a

/-- What stands in an element. -/
def children : Element → List Node | .mk _ _ c => c

/-- The value of an attribute that belongs to no namespace. -/
def attribute? (e : Element) (name : String) : Option String :=
  (e.attributes.find? fun a => a.name = ⟨none, name⟩).map (·.value)

end Element

/-- The element that a node is. -/
def Node.element? : Node → Option Element
  | .element e => some e
  | _ => none

namespace Element

/-- The elements of a name directly in an element, whatever their namespace. -/
def childrenNamed (e : Element) (base : String) : List Element :=
  (e.children.filterMap Node.element?).filter (·.name.base = base)

end Element

/-! ## Namespaces -/

/-- The namespace of names that begin with `xml`. -/
def xmlSpace : String := "http://www.w3.org/XML/1998/namespace"

/-- The namespace of declarations. -/
def declarationSpace : String := "http://www.w3.org/2000/xmlns/"

/-- The declarations in force, innermost first: what names begin with, or none for names without a
colon, and the namespace. -/
abbrev Scope := List (Option String × String)

/-- The declarations of a start tag, in order, after those in `before`. A declaration fails when it
gives `xml` another meaning or its namespace to another name, or repeats one. -/
def declarations? (before : Scope) : List WrittenAttr → Option Scope
  | [] => some before
  | a :: rest =>
    if a.name.lead = "xmlns" then
      let isXml := a.value == xmlSpace
      if a.value = declarationSpace || (a.name.base == "xml") != isXml ||
          before.any (·.1 = some a.name.base) then none
      else declarations? (if isXml then before else before ++ [(some a.name.base, a.value)]) rest
    else if a.name.base = "xmlns" then
      if a.value = xmlSpace || a.value = declarationSpace then none
      else declarations? (before ++ [(none, a.value)]) rest
    else declarations? before rest

/-- Whether an attribute is a declaration. -/
def WrittenAttr.isDeclaration (a : WrittenAttr) : Bool := a.name.lead = "xmlns" || a.name.base = "xmlns"

/-- The name of an element. What it begins with has to be declared. -/
def elementName? (scope : Scope) (n : WrittenName) : Option Name :=
  if n.lead = "" then some ⟨scope.lookup none, n.base⟩
  else (scope.lookup (some n.lead)).map fun space => ⟨some space, n.base⟩

/-- The name of an attribute. Without a colon it belongs to no namespace. -/
def attributeName? (scope : Scope) (n : WrittenName) : Option Name :=
  if n.lead = "" then some ⟨none, n.base⟩
  else if n.lead = "xml" then some ⟨some xmlSpace, n.base⟩
  else (scope.lookup (some n.lead)).map fun space => ⟨some space, n.base⟩

/-- The attributes of a start tag, no two of one name. -/
def attributesOf? (scope : Scope) (written : List WrittenAttr) : Option (List Attribute) := do
  let attrs ← (written.filter (!·.isDeclaration)).mapM fun a => do
    return (⟨← attributeName? scope a.name, a.value⟩ : Attribute)
  if (attrs.map (·.name)).Nodup then return attrs else none

/-! ## Reading -/

/-- An element whose end tag is still to come. Its parts are kept last one first. -/
structure OpenElement where
  written : WrittenName
  name : Name
  attributes : List Attribute
  scope : Scope
  parts : List Node

/-- What is read of a document: the open elements, innermost first, and the outermost element when it
is finished. -/
structure Reading where
  opened : List OpenElement := []
  root : Option Element := none

namespace Reading

/-- Adds a part to the innermost element. Outside of all elements only an element counts. -/
def add (r : Reading) (part : Node) : Reading :=
  match r.opened with
  | inner :: outer => { r with opened := { inner with parts := part :: inner.parts } :: outer }
  | [] => match part with
    | .element e => { r with root := some e }
    | _ => r

/-- Ends the innermost element. -/
def close (r : Reading) (inner : OpenElement) (outer : List OpenElement) : Reading :=
  { r with opened := outer }.add (.element (.mk inner.name inner.attributes inner.parts.reverse))

/-- Reads one piece of a document. -/
def step (r : Reading) (token : Token) : Option Reading :=
  match token with
  | .startTag name attrs selfClosing => do
    if (r.opened.isEmpty && r.root.isSome) || name.lead = "xmlns" then none
    let outer := match r.opened with
      | inner :: _ => inner.scope
      | [] => []
    let scope := (← declarations? [] attrs) ++ outer
    let inner : OpenElement :=
      ⟨name, ← elementName? scope name, ← attributesOf? scope attrs, scope, []⟩
    return if selfClosing then r.close inner r.opened else { r with opened := inner :: r.opened }
  | .endTag name =>
    match r.opened with
    | inner :: outer => if inner.written = name then some (r.close inner outer) else none
    | [] => none
  | .text s blank => if r.opened.isEmpty && !blank then none else some (r.add (.text s))
  | .comment s => some (r.add (.comment s))
  | .instruction target content => some (r.add (.instruction target content))

/-- The outermost element, when nothing is open. -/
def result (r : Reading) : Option Element := if r.opened.isEmpty then r.root else none

end Reading

/-- The outermost element of a document. -/
def Element.ofText? (text : String) : Option Element := do
  ((← tokens? text).foldlM Reading.step {}).bind Reading.result

end BookCatalog.Xml
