import BookCatalog.Proofs.Book.Stages
import Mathlib.Data.List.Perm.Basic

/-!
# Chapters in another order

The table of anchors prefers earlier chapters, so the order of the chapters matters to it. It does not when
no two chapters have different slugs for one id (`SlugsAgree`): then the table is the same in every order
(`bookTable_of_perm`), every chapter is rendered alike, and the renderings only change places
(`exists_renderChapters_of_perm`).
-/

namespace BookCatalog

theorem exists_forall₂_of_perm {α β : Type} {R : α → β → Prop} {xs xs' : List α} {ys : List β}
    (hperm : xs'.Perm xs) (h : List.Forall₂ R xs ys) : ∃ ys', List.Forall₂ R xs' ys' ∧ ys'.Perm ys :=
  List.perm_comp_forall₂ hperm h

namespace Chapters

open BookCatalog.Html

/-! ## Slugs of several chapters -/

/-- The slug that a chapter has for an id. -/
def slug? (source id : String) : Option String :=
  match Chapter.anchors source with
  | .ok table => table.get? id
  | .error _ => none

/-- No two chapters have different slugs for one id. -/
def SlugsAgree (chapters : List (String × String)) : Prop :=
  ∀ c ∈ chapters, ∀ c' ∈ chapters, ∀ id slug slug',
    slug? c.2 id = some slug → slug? c'.2 id = some slug' → slug = slug'

theorem SlugsAgree.of_perm {chapters chapters' : List (String × String)} (h : SlugsAgree chapters)
    (hperm : chapters'.Perm chapters) : SlugsAgree chapters' := fun c hc c' hc' =>
  h c (hperm.mem_iff.1 hc) c' (hperm.mem_iff.1 hc')

/-- What a chapter offers to the table of a book. -/
theorem lookup_offers_bodyElements (source id : String) :
    (offers (bodyElements (.ofText source))).lookup id = slug? source id := by
  unfold slug? Chapter.anchors
  cases hb : (Page.ofText source).body? with
  | none =>
    simp only [bodyElements, hb, Chapter.pageAnchors, Chapter.body]
    rfl
  | some b =>
    have hp : Chapter.pageAnchors (.ofText source) =
        .ok (.ofList (offers (bodyElements (.ofText source)))) := by
      simp only [Chapter.pageAnchors, Chapter.body, hb, bodyElements]
      rfl
    simp only [hp, AnchorTable.get?_ofList]

theorem lookup_offers_elements_cons (c : String × String) (rest : List (String × String)) (id : String) :
    (offers (elements (c :: rest))).lookup id =
      (slug? c.2 id).or ((offers (elements rest)).lookup id) := by
  rw [elements, List.flatMap_cons, offers_append, List.lookup_append, lookup_offers_bodyElements]
  rfl

/-- A slug in the table comes from a chapter. -/
theorem exists_slug?_of_get?_bookTable {chapters : List (String × String)} {id slug : String}
    (h : (bookTable chapters).get? id = some slug) : ∃ c ∈ chapters, slug? c.2 id = some slug := by
  rw [bookTable, AnchorTable.get?_ofList] at h
  induction chapters with
  | nil => cases h
  | cons c rest ih =>
    rw [lookup_offers_elements_cons, Option.or_eq_some_iff] at h
    rcases h with h | ⟨-, h⟩
    · exact ⟨c, List.mem_cons_self, h⟩
    · obtain ⟨c', hc', hslug⟩ := ih h
      exact ⟨c', List.mem_cons_of_mem _ hc', hslug⟩

/-- An id that a chapter has is in the table. -/
theorem isSome_get?_bookTable {chapters : List (String × String)} {c : String × String} {id slug : String}
    (hc : c ∈ chapters) (h : slug? c.2 id = some slug) : ((bookTable chapters).get? id).isSome := by
  rw [bookTable, AnchorTable.get?_ofList]
  induction chapters with
  | nil => cases hc
  | cons first rest ih =>
    rw [lookup_offers_elements_cons, Option.isSome_or]
    rcases List.mem_cons.1 hc with rfl | hc
    · simp [h]
    · simp [ih hc]

/-- When the chapters agree, the table has for every id the slug of any chapter that has the id. -/
theorem SlugsAgree.get?_bookTable_eq_some_iff {chapters : List (String × String)} (h : SlugsAgree chapters)
    {id slug : String} :
    (bookTable chapters).get? id = some slug ↔ ∃ c ∈ chapters, slug? c.2 id = some slug := by
  refine ⟨exists_slug?_of_get?_bookTable, ?_⟩
  rintro ⟨c, hc, hslug⟩
  obtain ⟨slug', hslug'⟩ := Option.isSome_iff_exists.1 (isSome_get?_bookTable hc hslug)
  obtain ⟨c', hc', hslug''⟩ := exists_slug?_of_get?_bookTable hslug'
  rw [hslug', h c hc c' hc' id slug slug' hslug hslug'']

theorem SlugsAgree.bookTable_of_perm {chapters chapters' : List (String × String)} (h : SlugsAgree chapters)
    (hperm : chapters'.Perm chapters) : bookTable chapters' = bookTable chapters := by
  refine AnchorTable.ext_get? fun id => Option.ext fun slug => ?_
  rw [(h.of_perm hperm).get?_bookTable_eq_some_iff, h.get?_bookTable_eq_some_iff]
  simp only [hperm.mem_iff]

end Chapters

/-! ## Renderings -/

/-- Chapters that agree are rendered in any order, and each of them alike. -/
theorem Book.exists_renderChapters_of_perm {output : String} {sources sources' : List (String × String)}
    {chapters : List (String × String)} {n : Nat} (hagree : Chapters.SlugsAgree sources)
    (hperm : sources'.Perm sources) (h : renderChapters output sources = .ok (chapters, n)) :
    ∃ chapters', renderChapters output sources' = .ok (chapters', n) ∧ chapters'.Perm chapters := by
  obtain ⟨rfl, documents, hdocuments, hrender⟩ := renderChapters_eq_ok_iff.1 h
  have htable := hagree.bookTable_of_perm hperm
  obtain ⟨documents', hdocuments', hdperm⟩ :=
    exists_forall₂_of_perm hperm (Chapters.documents_eq_ok_iff.1 hdocuments)
  obtain ⟨chapters', hrender', hcperm⟩ :=
    exists_forall₂_of_perm hdperm (mapM_render_eq_ok_iff.1 hrender)
  refine ⟨chapters', renderChapters_eq_ok_iff.2 ⟨by rw [htable], documents', ?_, ?_⟩, hcperm⟩
  · rw [Chapters.documents_eq_ok_iff, htable]
    exact hdocuments'
  · exact mapM_render_eq_ok_iff.2 hrender'

end BookCatalog
