import BookCatalog.Proofs.BookAnchors
import BookCatalog.Proofs.Chapter.MainContent
import BookCatalog.Proofs.MarkupParts
import BookCatalog.Proofs.Slugs
import BookCatalog.Proofs.TreeEquality
import Mathlib.Logic.Relation

/-!
# Headings that links lead to

A link leads to a section by the slug of the heading that the section begins with. The slug is made when the
anchors of a chapter are collected, the heading when the chapter becomes a document. Both have the same
heading in mind (`anchored_heading_in_document`): when nothing but spliced divisions stands between the
content of the chapter and the section, the document has a heading whose text has that slug.
-/

namespace BookCatalog.Chapter

open BookCatalog.Html

/-! ## What stands open in the content -/

/-- One position stands directly in another. -/
structure StandsIn (q p : Position) : Prop where
  around_eq : q.around = p.spot :: p.around
  mem_contents : .element q.element ∈ p.element.contents

/-- One position stands directly in another, which is a spliced division. -/
def OpensTo (p q : Position) : Prop := IsSpliced p.element ∧ StandsIn q p

/-- What becomes of a spliced division is part of what becomes of the content that it stands open in. -/
theorem exists_blocks_of_open {anchors : AnchorTable} {inLines : Bool} {bs : List Block} {content p : Position}
    (h : blocks anchors inLines content.element.contents = .ok bs)
    (hopen : Relation.ReflTransGen OpensTo content p) (hp : IsSpliced p.element) :
    ∃ own, blocks anchors inLines p.element.contents = .ok own ∧ own ⊆ bs := by
  induction hopen with
  | refl => exact ⟨bs, h, List.Subset.refl bs⟩
  | tail _ hstep ih =>
    obtain ⟨hspliced, hstands⟩ := hstep
    obtain ⟨around, haround, hsub⟩ := ih hspliced
    obtain ⟨own, hown, hsub'⟩ := exists_block_of_mem haround hstands.mem_contents
    rw [block_of_isSpliced hp] at hown
    exact ⟨own, hown, List.Subset.trans hsub' hsub⟩

/-! ## The text of a heading -/

/-- An element never becomes a run of text. -/
theorem text?_of_inline {anchors : AnchorTable} {e : Element} {i : Inline} (h : inline anchors e = .ok i) :
    i.text? = none := by
  cases e with
  | mk space name attrs contents =>
    simp only [inline] at h
    cases hkind : InlineKind.ofName name with
    | link | image | code | kept => rw [hkind] at h; cases h; rfl
    | emphasis | strong =>
      rw [hkind] at h
      obtain ⟨content, -, h⟩ := bind_eq_ok_iff.1 h
      cases h
      rfl
    | unknown => rw [hkind] at h; cases h

/-- The runs of text of a line are the texts that stand directly among its nodes. -/
theorem filterMap_text?_of_inlines {anchors : AnchorTable} : ∀ {nodes : List Node} {line : List Inline},
    inlines anchors nodes = .ok line →
      line.filterMap Inline.text? = (nodes.filterMap Node.text?).map Text.collapseBlanks
  | [], line, h => by cases h; rfl
  | .text s :: rest, line, h => by
    obtain ⟨more, hmore, h⟩ := bind_eq_ok_iff.1 h
    cases h
    simpa [Inline.text?, textRun, Node.text?] using filterMap_text?_of_inlines hmore
  | .element e :: rest, line, h => by
    obtain ⟨first, hfirst, h⟩ := bind_eq_ok_iff.1 h
    obtain ⟨more, hmore, h⟩ := bind_eq_ok_iff.1 h
    cases h
    rw [List.filterMap_cons_none (text?_of_inline hfirst), List.filterMap_cons_none rfl,
      filterMap_text?_of_inlines hmore]
  | .comment _ :: rest, line, h | .fragment _ :: rest, line, h => by
    simp only [inlines] at h
    rw [List.filterMap_cons_none rfl, filterMap_text?_of_inlines h]

/-- The slug of an element's own text is the slug of the text in the line that it becomes. -/
theorem slug_of_inlines {anchors : AnchorTable} {e : Element} {line : List Inline}
    (h : inlines anchors e.contents = .ok line) :
    Slug.ofText (String.join (line.filterMap Inline.text?)) = Slug.ofText e.ownText := by
  rw [filterMap_text?_of_inlines h, Slug.ofText_join_collapseBlanks, Element.ownText, Slug.ofText_tidy]

/-! ## Headings of linked sections -/

/-- The slug in the table of a chapter belongs to the heading that the first section with the id begins
with. -/
theorem exists_heading_of_get? {source id slug : String} {table : AnchorTable} {b : Element} {p : Position}
    (htable : Chapter.anchors source = .ok table) (hslug : table.get? id = some slug)
    (hb : (Page.ofText source).body? = some b)
    (hp : (positionsBelow b).find? (Chapters.isFoundBy id ·.element) = some p) :
    ∃ heading, p.element.firstChild? = some heading ∧ (heading.name = "h2" ∨ heading.name = "h3") ∧
      Slug.ofText heading.ownText = slug := by
  obtain ⟨b', hb', h⟩ := bind_eq_ok_iff.1 htable
  cases h
  obtain rfl : b = b' := Option.some.inj (hb.symm.trans (body_eq_ok_iff.1 hb'))
  have hfirst : b.descendants.find? (Chapters.isFoundBy id) = some p.element := by
    rw [← map_find?_positionsBelow, hp, Option.map_some]
  have hfound : Chapters.isFoundBy id p.element = true := List.find?_some hfirst
  have hlookup : (Chapters.offers b.descendants).lookup id = some slug := by
    rwa [anchorsBelow, AnchorTable.get?_ofList] at hslug
  rw [Chapters.lookup_offers, hfirst, Option.bind_some, Chapters.headingSlug?] at hlookup
  obtain ⟨heading, hheading, hslug⟩ := Option.map_eq_some_iff.1 hlookup
  refine ⟨heading, hheading, ?_, hslug⟩
  simp only [Chapters.isFoundBy, hheading, Option.any_some, Bool.and_eq_true, Bool.or_eq_true,
    decide_eq_true_eq] at hfound
  exact hfound.2

/-- **The heading that a link names is in the document.** When a chapter becomes a document, and the first
section that a link finds by an id is a division that stands open in the content of the chapter, then the
document has a heading of the second or the third level among its blocks, and the text in its line has the
slug that the anchors of the chapter give the id. -/
theorem anchored_heading_in_document {source id slug : String} {anchors table : AnchorTable} {d : Document}
    {b : Element} {content p : Position} (hd : document source anchors = .ok d)
    (htable : Chapter.anchors source = .ok table) (hslug : table.get? id = some slug)
    (hb : (Page.ofText source).body? = some b) (hcontent : mainContent? b = some content)
    (hp : (positionsBelow b).find? (Chapters.isFoundBy id ·.element) = some p)
    (hdivision : p.element.name = "div") (hopen : Relation.ReflTransGen OpensTo content p) :
    ∃ level line, .heading level line ∈ d.children ∧ (level = 2 ∨ level = 3) ∧
      Slug.ofText (String.join (line.filterMap Inline.text?)) = slug := by
  obtain ⟨b', content', hb', hcontent', hchildren⟩ := pageDocument_eq_ok_iff.1 hd
  obtain rfl : b = b' := Option.some.inj (hb.symm.trans hb')
  obtain rfl : content = content' := Option.some.inj (hcontent.symm.trans hcontent')
  have hfound : Chapters.isFoundBy id p.element = true :=
    List.find?_some (p := fun p : Position => Chapters.isFoundBy id p.element) hp
  have hspliced := isSpliced_of_section hdivision (Chapters.isFoundBy_iff.1 hfound).1
  obtain ⟨own, hown, hsub⟩ := exists_blocks_of_open hchildren hopen hspliced
  obtain ⟨heading, hheading, hname, hslug⟩ := exists_heading_of_get? htable hslug hb hp
  obtain ⟨level, hlevel, hkind⟩ : ∃ level, (level = 2 ∨ level = 3) ∧
      BlockKind.ofName heading.name = .heading level := by
    rcases hname with h | h
    · exact ⟨2, .inl rfl, by rw [h]; rfl⟩
    · exact ⟨3, .inr rfl, by rw [h]; rfl⟩
  have hmem : .element heading ∈ p.element.contents := by
    obtain ⟨node, hnode, helement⟩ := List.exists_of_findSome?_eq_some hheading
    cases node <;> cases helement
    exact hnode
  obtain ⟨first, hfirst, hsub'⟩ := exists_block_of_mem hown hmem
  rw [block_of_heading hkind] at hfirst
  obtain ⟨line, hline, h⟩ := bind_eq_ok_iff.1 hfirst
  cases h
  exact ⟨level, line, hsub (hsub' List.mem_cons_self), hlevel, (slug_of_inlines hline).trans hslug⟩

/-! ## A section in a section -/

/-- A chapter whose only section that can be linked to stands in another one. -/
def nestedPage : String :=
  "<div class='body'><div class='section'><div class='section' id='s'>" ++
    "<h2>Simple\n <em>and</em> Values</h2></div></div></div>"

/-- The section that can be linked to. -/
def innerSection : Element :=
  .mk .html "div" [⟨.plain, "class", "section"⟩, ⟨.plain, "id", "s"⟩]
    [.element (.mk .html "h2" []
      [.text "Simple\n ", .element (.mk .html "em" [] [.text "and"]), .text " Values"])]

/-- The section around it. -/
def outerSection : Element := .mk .html "div" [⟨.plain, "class", "section"⟩] [.element innerSection]

/-- The content of the chapter. -/
def nestedContent : Element := .mk .html "div" [⟨.plain, "class", "body"⟩] [.element outerSection]

/-- The body of the page. -/
def nestedBody : Element := .mk .html "body" [] [.element nestedContent]

/-- Where the content of the chapter stands. -/
def nestedContentAt : Position := ⟨⟨nestedContent, []⟩, [⟨nestedBody, []⟩]⟩

/-- Where the outer section stands. -/
def outerSectionAt : Position := ⟨⟨outerSection, []⟩, nestedContentAt.spot :: nestedContentAt.around⟩

/-- Where the inner section stands. -/
def innerSectionAt : Position := ⟨⟨innerSection, []⟩, outerSectionAt.spot :: outerSectionAt.around⟩

theorem opensTo_innerSection : Relation.ReflTransGen OpensTo nestedContentAt innerSectionAt := by
  have hcontent : OpensTo nestedContentAt outerSectionAt :=
    ⟨isSpliced_of_isMainContent (by decide +kernel), rfl, List.mem_cons_self⟩
  have houter : OpensTo outerSectionAt innerSectionAt :=
    ⟨isSpliced_of_section rfl (by decide +kernel), rfl, List.mem_cons_self⟩
  exact .tail (.tail .refl hcontent) houter

theorem nested_heading_in_document :
    ∃ (d : Document) (table : AnchorTable), document nestedPage ∅ = .ok d ∧
      Chapter.anchors nestedPage = .ok table ∧ table.get? "s" = some "Simple-Values" ∧
      (Page.ofText nestedPage).body? = some nestedBody ∧ mainContent? nestedBody = some nestedContentAt ∧
      (positionsBelow nestedBody).find? (Chapters.isFoundBy "s" ·.element) = some innerSectionAt ∧
      ∃ level line, .heading level line ∈ d.children ∧ (level = 2 ∨ level = 3) ∧
        Slug.ofText (String.join (line.filterMap Inline.text?)) = "Simple-Values" := by
  obtain ⟨d, hd⟩ : ∃ d, (document nestedPage ∅).toOption = some d :=
    Option.isSome_iff_exists.1 (by decide +kernel)
  obtain ⟨table, htable, hslug⟩ : ∃ table, (Chapter.anchors nestedPage).toOption = some table ∧
      table.get? "s" = some "Simple-Values" := Option.bind_eq_some_iff.1 (by decide +kernel)
  have hbody : (Page.ofText nestedPage).body? = some nestedBody := by decide +kernel
  have hcontent : mainContent? nestedBody = some nestedContentAt := by decide +kernel
  have hfound : (positionsBelow nestedBody).find? (Chapters.isFoundBy "s" ·.element) =
      some innerSectionAt := by decide +kernel
  have hd' := eq_ok_of_toOption hd
  have htable' := eq_ok_of_toOption htable
  exact ⟨d, table, hd', htable', hslug, hbody, hcontent, hfound,
    anchored_heading_in_document hd' htable' hslug hbody hcontent hfound rfl opensTo_innerSection⟩

end BookCatalog.Chapter
