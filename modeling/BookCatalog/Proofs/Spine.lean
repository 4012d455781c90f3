import BookCatalog.Spine
import Mathlib.Data.List.Perm.Basic
import Mathlib.Data.Option.Basic

/-!
# What a package document says of the chapters

The chapters of a book are the files of the manifest that the entries of the spine name, in the order of the
spine (`ofText_eq_ok_iff`). When the entries change places, so do the chapters
(`Reordered.exists_ofText`).
-/

namespace BookCatalog.Spine

open BookCatalog.Xml

/-- The ids that the entries of a spine name, in order. -/
def entries (spine : Element) : List String :=
  (spine.childrenNamed "itemref").filterMap (·.attribute? "idref")

/-- What a package document says of the chapters: the files of its manifest and the entries of its spine, as
far as it has them. -/
def parts? (source : String) : Option (Option (List (String × String)) × Option (List String)) :=
  (Element.ofText? source).map fun package =>
    ((package.childrenNamed "manifest").head?.map files, (package.childrenNamed "spine").head?.map entries)

theorem paths_eq (named : List (String × String)) (spine : Element) :
    paths named spine = (entries spine).filterMap (path? named) := by
  rw [paths, entries, List.filterMap_filterMap]

/-- The chapters of a package document are the files that the entries of its spine name. -/
theorem ofText_eq_ok_iff {source : String} {chapters : List String} :
    ofText source = .ok chapters ↔
      ∃ named ids, parts? source = some (some named, some ids) ∧ chapters = ids.filterMap (path? named) := by
  unfold ofText parts?
  cases Element.ofText? source with
  | none => simp
  | some package =>
    simp only [ofPackage, required, paths_eq, Option.map_some, Option.some.injEq, Prod.mk.injEq]
    generalize (package.childrenNamed "manifest").head? = manifest
    generalize (package.childrenNamed "spine").head? = spine
    cases manifest <;> cases spine <;> simp [bind, Except.bind, pure, Except.pure, eq_comm]

example : ofText "<package><manifest/><spine><itemref idref='a'/></spine></package>" = .ok [] := by
  decide +kernel

/-! ## Spines in another order -/

/-- One package document says the same of the chapters as another one, but for the order of the entries of
its spine. -/
def Reordered (source source' : String) : Prop :=
  ∃ manifest spine spine', parts? source = some (manifest, spine) ∧ parts? source' = some (manifest, spine') ∧
    Option.Rel List.Perm spine' spine

theorem Reordered.symm {source source' : String} (h : Reordered source source') :
    Reordered source' source := by
  obtain ⟨manifest, spine, spine', hs, hs', hperm⟩ := h
  refine ⟨manifest, spine', spine, hs', hs, ?_⟩
  cases hperm with
  | some h => exact .some h.symm
  | none => exact .none

/-- The chapters are the same in another order. -/
theorem Reordered.exists_ofText {source source' : String} (h : Reordered source source')
    {chapters : List String} (hchapters : ofText source = .ok chapters) :
    ∃ chapters', ofText source' = .ok chapters' ∧ chapters'.Perm chapters := by
  obtain ⟨manifest, spine, spine', hs, hs', hperm⟩ := h
  obtain ⟨named, ids, hparts, rfl⟩ := ofText_eq_ok_iff.1 hchapters
  rw [hs] at hparts
  cases hparts
  cases hperm with
  | some h => exact ⟨_, ofText_eq_ok_iff.2 ⟨named, _, hs', rfl⟩, h.filterMap _⟩

end BookCatalog.Spine
