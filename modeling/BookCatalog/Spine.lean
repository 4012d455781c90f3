import BookCatalog.ConversionError
import BookCatalog.Xml

/-!
# The spine of a book

The package document of a book names its files in a manifest and lists the chapters, by the ids of
their files, in a spine. The spine gives the reading order. Entries of the spine that name no file are
left out.
-/

namespace BookCatalog.Spine

open BookCatalog.Xml

/-- The ids and the paths of the files in a manifest. -/
def files (manifest : Element) : List (String × String) :=
  (manifest.childrenNamed "item").filterMap fun item => do
    return (← item.attribute? "id", ← item.attribute? "href")

/-- The path of the file of an id. Of several files the last one counts. -/
def path? (files : List (String × String)) (id : String) : Option String := files.reverse.lookup id

/-- The paths that the entries of a spine name. -/
def paths (files : List (String × String)) (spine : Element) : List String :=
  (spine.childrenNamed "itemref").filterMap fun entry =>
    (entry.attribute? "idref").bind (path? files)

/-- The first element of a name in a package, or what it means that there is none. -/
def required (package : Element) (name : String) (fault : PackageFault) :
    Except ConversionError Element :=
  match (package.childrenNamed name).head? with
  | some e => .ok e
  | none => .error (.package fault)

/-- The paths of the chapters in a package, in reading order. -/
def ofPackage (package : Element) : Except ConversionError (List String) := do
  let manifest ← required package "manifest" .noManifest
  let spine ← required package "spine" .noSpine
  return paths (files manifest) spine

/-- The paths of the chapters in the package document written in `source`, in reading order. -/
def ofText (source : String) : Except ConversionError (List String) :=
  match Element.ofText? source with
  | some package => ofPackage package
  | none => .error (.package .malformed)

end BookCatalog.Spine
