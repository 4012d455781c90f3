import BookCatalog.Chapters
import BookCatalog.Proofs.AnchorTable
import BookCatalog.Proofs.Results
import BookCatalog.Proofs.WrittenLinks

/-!
# One table of anchors for the whole book

The chapters of a book are converted in two passes: the anchors of all of them are merged into one table,
then every chapter is converted against it. Here the table is described without the two passes, by the
elements of the book in reading order: an id leads to the first section of the book that has it
(`LeadsToFirst`). A conversion of the chapters succeeds when each chapter on its own can be converted,
and a chapter on its own may be tried without any anchors, since only the links of its document depend
on them.
-/

namespace BookCatalog.Chapters

open BookCatalog.Html

/-! ## Sections of a book -/

/-- Whether an element is a section that a link finds by `id`: it has the class and the id, and the first
element in it is a heading of the second or the third level. -/
def isFoundBy (id : String) (e : Element) : Bool :=
  e.isOfClass "section" && e.attr? "id" = some id &&
    e.firstChild?.any fun heading => heading.name = "h2" || heading.name = "h3"

/-- The slug of the heading that a section begins with. -/
def headingSlug? (e : Element) : Option String :=
  e.firstChild?.map fun heading => Slug.ofText heading.ownText

/-- The id that links find a section by. -/
def linkId? (e : Element) : Option String := (e.attr? "id").filter (isFoundBy · e)

/-- The elements below the body of a page, in document order. -/
def bodyElements (page : Page) : List Element := (page.body?.map Element.descendants).getD []

/-- The elements below the bodies of some chapters, in reading order. -/
def elements (chapters : List (String × String)) : List Element :=
  chapters.flatMap fun c => bodyElements (.ofText c.2)

/-- A table leads every id to the first section in the book that has it, and holds no other ids. -/
def LeadsToFirst (chapters : List (String × String)) (table : AnchorTable) : Prop :=
  ∀ id, table.get? id = ((elements chapters).find? (isFoundBy id)).bind headingSlug?

/-! ## The anchors that are offered -/

/-- The ids and the slugs that some elements offer to a table, in order. -/
def offers (es : List Element) : List (String × String) :=
  (es.filter (·.isOfClass "section")).filterMap Chapter.anchor?

theorem isFoundBy_iff {id : String} {e : Element} :
    isFoundBy id e = true ↔ e.isOfClass "section" = true ∧ ∃ slug, Chapter.anchor? e = some (id, slug) := by
  cases hid : e.attr? "id" <;> cases hc : e.firstChild? <;>
    simp [isFoundBy, Chapter.anchor?, hid, hc]
  grind

theorem headingSlug?_of_anchor? {e : Element} {id slug : String}
    (h : Chapter.anchor? e = some (id, slug)) : headingSlug? e = some slug := by
  cases hid : e.attr? "id" <;> cases hc : e.firstChild? <;>
    simp [Chapter.anchor?, hid, hc] at h
  simp [headingSlug?, hc, h.2.2]

theorem lookup_offers (id : String) : ∀ es : List Element,
    (offers es).lookup id = (es.find? (isFoundBy id)).bind headingSlug?
  | [] => rfl
  | e :: rest => by
    have ih := lookup_offers id rest
    unfold offers at ih ⊢
    by_cases hs : e.isOfClass "section" = true
    · simp only [List.filter_cons, hs, if_true]
      cases ha : Chapter.anchor? e with
      | none =>
        have hf : ¬isFoundBy id e = true := by simp [isFoundBy_iff, ha]
        rw [List.filterMap_cons_none ha, List.find?_cons_of_neg hf, ih]
      | some offer =>
        obtain ⟨key, slug⟩ := offer
        rw [List.filterMap_cons_some ha]
        by_cases hk : id = key
        · subst hk
          have hf : isFoundBy id e = true := isFoundBy_iff.2 ⟨hs, slug, ha⟩
          rw [List.find?_cons_of_pos hf, List.lookup_cons_self]
          exact (headingSlug?_of_anchor? ha).symm
        · have hf : ¬isFoundBy id e = true := by simp [isFoundBy_iff, ha, Ne.symm hk]
          rw [List.find?_cons_of_neg hf, AnchorTable.lookup_cons_of_ne hk, ih]
    · have hf : ¬isFoundBy id e = true := by simp [isFoundBy_iff, hs]
      simp only [List.filter_cons, hs, List.find?_cons_of_neg hf]
      exact ih

theorem linkId?_eq {e : Element} :
    linkId? e = if e.isOfClass "section" then (Chapter.anchor? e).map (·.1) else none := by
  cases hid : e.attr? "id" <;> cases hc : e.firstChild? <;>
    simp [linkId?, isFoundBy, Chapter.anchor?, hid, hc, Option.filter]
  split <;> simp_all

/-- The ids that are offered are those that links find a section by. -/
theorem map_fst_offers : ∀ es : List Element, (offers es).map (·.1) = es.filterMap linkId?
  | [] => rfl
  | e :: rest => by
    have ih := map_fst_offers rest
    unfold offers at ih ⊢
    rw [List.filterMap_cons, ← ih, linkId?_eq]
    by_cases hs : e.isOfClass "section" = true
    · simp only [List.filter_cons, hs, if_true, List.filterMap_cons]
      cases Chapter.anchor? e <;> rfl
    · simp [hs]

theorem offers_append (es more : List Element) : offers (es ++ more) = offers es ++ offers more := by
  simp [offers]

/-! ## The table of a book -/

/-- The table that all sections of a book are offered to, in reading order. -/
def bookTable (chapters : List (String × String)) : AnchorTable :=
  .ofList (offers (elements chapters))

theorem leadsToFirst_bookTable (chapters : List (String × String)) :
    LeadsToFirst chapters (bookTable chapters) := fun id => by
  rw [bookTable, AnchorTable.get?_ofList, lookup_offers]

/-- The size of the table is the number of different ids in the book. -/
theorem size_bookTable (chapters : List (String × String)) :
    (bookTable chapters).size = ((elements chapters).filterMap linkId?).dedup.length := by
  refine AnchorTable.size_eq_length_dedup fun id => ?_
  rw [bookTable, AnchorTable.get?_ofList, ← map_fst_offers]
  simp

theorem anchorsFrom_eq_ok_iff : ∀ {pages : List Page} {t t' : AnchorTable},
    anchorsFrom t pages = .ok t' ↔
      (∀ page ∈ pages, page.body?.isSome) ∧ t' = t.insertAll (offers (pages.flatMap bodyElements))
  | [], t, t' => by
    constructor
    · intro h; cases h; exact ⟨by simp, rfl⟩
    · rintro ⟨-, rfl⟩; rfl
  | page :: rest, t, t' => by
    have ih := @anchorsFrom_eq_ok_iff rest
    rw [anchorsFrom, bind_eq_ok_iff]
    cases hb : page.body? with
    | none => simp [Chapter.pageAnchors, Chapter.body, hb, bind, Except.bind]
    | some b =>
      have hp : Chapter.pageAnchors page = .ok (.ofList (offers (bodyElements page))) := by
        simp only [Chapter.pageAnchors, Chapter.body, hb, bodyElements]; rfl
      simp only [hp, Except.ok.injEq, exists_eq_left', ih, AnchorTable.merge_ofList,
        List.flatMap_cons, offers_append, AnchorTable.insertAll_append, List.forall_mem_cons, hb,
        Option.isSome_some, true_and]

theorem anchors_eq_ok_iff {chapters : List (String × String)} {table : AnchorTable} :
    anchors (chapters.map fun c => Page.ofText c.2) = .ok table ↔
      (∀ c ∈ chapters, (Page.ofText c.2).body?.isSome) ∧ table = bookTable chapters := by
  rw [anchors, anchorsFrom_eq_ok_iff, List.forall_mem_map, List.flatMap_map]
  rfl

/-! ## The documents of a book -/

theorem isSome_body?_of_document {source : String} {table : AnchorTable} {d : Document}
    (h : Chapter.document source table = .ok d) : (Page.ofText source).body?.isSome := by
  obtain ⟨b, hb, -⟩ := bind_eq_ok_iff.1 h
  unfold Chapter.body at hb
  split at hb
  · rename_i hs; simp [hs]
  · cases hb

theorem transcode_eq_ok_iff {chapters : List (String × String)} {table : AnchorTable}
    {documents : List (String × Document)} :
    transcode chapters = .ok (table, documents) ↔
      (∀ c ∈ chapters, (Page.ofText c.2).body?.isSome) ∧ table = bookTable chapters ∧
        List.Forall₂ (fun c d => d.1 = c.1 ∧ Chapter.document c.2 table = .ok d.2) chapters documents := by
  have hstep : transcode chapters = (anchors (chapters.map fun c => Page.ofText c.2) >>= fun table =>
      (chapters.mapM fun c => Chapter.document c.2 table >>= fun d => pure (c.1, d)) >>= fun documents =>
        pure (table, documents)) := by
    simp only [transcode, List.mapM_map, List.map_map]; rfl
  simp only [hstep, bind_eq_ok_iff, anchors_eq_ok_iff]
  constructor
  · rintro ⟨t, ⟨hbody, rfl⟩, ds, hds, h⟩
    cases h
    simp only [mapM_eq_ok_iff, pair_eq_ok_iff] at hds
    exact ⟨hbody, rfl, hds⟩
  · rintro ⟨hbody, rfl, hds⟩
    refine ⟨_, ⟨hbody, rfl⟩, documents, ?_, rfl⟩
    simpa only [mapM_eq_ok_iff, pair_eq_ok_iff] using hds

theorem documents_eq_ok_iff {chapters : List (String × String)} {docs : List (String × Document)} :
    documents chapters = .ok docs ↔
      List.Forall₂ (fun c d => d.1 = c.1 ∧ Chapter.document c.2 (bookTable chapters) = .ok d.2)
        chapters docs := by
  unfold documents
  rw [bind_eq_ok_iff]
  constructor
  · rintro ⟨⟨table, ds⟩, h, hds⟩
    cases hds
    obtain ⟨-, rfl, hds⟩ := transcode_eq_ok_iff.1 h
    exact hds
  · intro hds
    refine ⟨(_, docs), transcode_eq_ok_iff.2 ⟨fun c hc => ?_, rfl, hds⟩, rfl⟩
    -- a chapter that has a document has a body
    obtain ⟨i, hi, rfl⟩ := List.getElem_of_mem hc
    exact isSome_body?_of_document (List.forall₂_iff_get.1 hds |>.2 i hi (hds.length_eq ▸ hi)).2

/-- A chapter can be converted against any table or against none. -/
theorem exists_document_iff (source : String) (table table' : AnchorTable) :
    (∃ d, Chapter.document source table = .ok d) ↔ ∃ d, Chapter.document source table' = .ok d :=
  (Chapter.resolves_pageDocument (.ofText source)).ok_iff table table'

/-- **The chapters of a book are converted together as each would be on its own, with one table.** The
table leads every id to the first section of the whole book that has it, so a link finds sections of
earlier and of later chapters alike; and the book can be converted when every chapter can be, whatever
the anchors. -/
theorem documents_of_chapters (chapters : List (String × String)) :
    ∃ table, LeadsToFirst chapters table ∧
      (∀ docs, documents chapters = .ok docs ↔
        List.Forall₂ (fun c d => d.1 = c.1 ∧ Chapter.document c.2 table = .ok d.2) chapters docs) ∧
      ((∃ docs, documents chapters = .ok docs) ↔
        ∀ c ∈ chapters, ∃ d, Chapter.document c.2 ∅ = .ok d) := by
  refine ⟨bookTable chapters, leadsToFirst_bookTable chapters, fun _ => documents_eq_ok_iff, ?_⟩
  calc (∃ docs, documents chapters = .ok docs)
      ↔ ∃ docs, (chapters.mapM fun c => Chapter.document c.2 (bookTable chapters) >>= fun d =>
          pure (c.1, d)) = .ok docs := by
        simp only [documents_eq_ok_iff, mapM_eq_ok_iff, pair_eq_ok_iff]
    _ ↔ ∀ c ∈ chapters, ∃ d, Chapter.document c.2 (bookTable chapters) = .ok d := by
        rw [exists_mapM_eq_ok_iff]
        refine forall₂_congr fun c _ => ?_
        simp only [pair_eq_ok_iff]
        exact ⟨fun ⟨y, _, h⟩ => ⟨y.2, h⟩, fun ⟨d, h⟩ => ⟨(c.1, d), rfl, h⟩⟩
    _ ↔ ∀ c ∈ chapters, ∃ d, Chapter.document c.2 ∅ = .ok d :=
        forall₂_congr fun c _ => exists_document_iff c.2 _ _

end BookCatalog.Chapters
