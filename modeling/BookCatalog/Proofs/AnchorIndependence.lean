import BookCatalog.Proofs.References
import BookCatalog.Proofs.WrittenLinks
import Mathlib.Data.List.Forall2

/-!
# What depends on the anchors

A chapter is converted against a table of anchors. Under two tables it fails with one error or gives two
trees that are alike in everything but the destinations of links; and two destinations of one link differ at
most in the slug after the document (`documents_alike`).
-/

namespace BookCatalog

/-! ## Trees that are alike but for links -/

section
variable (R : String → String → Prop)

/-- Inline content that is the same but for the destinations of links, which are related by `R`. -/
inductive Inline.Alike : Inline → Inline → Prop
  | text (literal : String) : Inline.Alike (.text literal) (.text literal)
  | emphasis {content content' : List Inline} :
      List.Forall₂ Inline.Alike content content' → Inline.Alike (.emphasis content) (.emphasis content')
  | strong {content content' : List Inline} :
      List.Forall₂ Inline.Alike content content' → Inline.Alike (.strong content) (.strong content')
  | code (literal : String) : Inline.Alike (.code literal) (.code literal)
  | html (literal : String) : Inline.Alike (.html literal) (.html literal)
  | link {destination destination' : String} {content content' : List Inline} :
      R destination destination' → List.Forall₂ Inline.Alike content content' →
        Inline.Alike (.link destination content) (.link destination' content')
  | image (source : Option String) : Inline.Alike (.image source) (.image source)
  | symbolLink (symbol : String) : Inline.Alike (.symbolLink symbol) (.symbolLink symbol)

/-- Cells that are the same but for the destinations of links. -/
abbrev Cell.Alike : Cell → Cell → Prop := List.Forall₂ (Inline.Alike R)

/-- Blocks that are the same but for the destinations of links, which are related by `R`. -/
inductive Block.Alike : Block → Block → Prop
  | heading (level : Nat) {content content' : List Inline} :
      List.Forall₂ (Inline.Alike R) content content' →
        Block.Alike (.heading level content) (.heading level content')
  | paragraph {content content' : List Inline} : List.Forall₂ (Inline.Alike R) content content' →
      Block.Alike (.paragraph content) (.paragraph content')
  | list (ordered : Bool) {items items' : List (List Block)} :
      List.Forall₂ (List.Forall₂ Block.Alike) items items' →
        Block.Alike (.list ordered items) (.list ordered items')
  | table {header header' : List Cell} {rows rows' : List (List Cell)} :
      List.Forall₂ (Cell.Alike R) header header' → List.Forall₂ (List.Forall₂ (Cell.Alike R)) rows rows' →
        Block.Alike (.table header rows) (.table header' rows')
  | blockQuote {children children' : List Block} : List.Forall₂ Block.Alike children children' →
      Block.Alike (.blockQuote children) (.blockQuote children')
  | codeBlock (language : Option String) (literal : String) :
      Block.Alike (.codeBlock language literal) (.codeBlock language literal)
  | htmlBlock (literal : String) : Block.Alike (.htmlBlock literal) (.htmlBlock literal)

end

open HasLinks (relink)

/-! ## One tree led elsewhere twice -/

section
variable {R : String → String → Prop} {f g : String → String}

theorem forall₂_relink {α : Type} [HasLinks α] {S : α → α → Prop}
    (hS : ∀ a, S (relink f a) (relink g a)) :
    ∀ as : List α, List.Forall₂ S (relink f as) (relink g as)
  | [] => .nil
  | a :: rest => .cons (hS a) (forall₂_relink hS rest)

mutual

theorem Inline.alike_relink (h : ∀ href, R (f href) (g href)) :
    ∀ i : Inline, Inline.Alike R (HasLinks.relink f i) (HasLinks.relink g i)
  | .text literal => .text literal
  | .code literal => .code literal
  | .html literal => .html literal
  | .image source => .image source
  | .symbolLink symbol => .symbolLink symbol
  | .emphasis content => by
    rw [relink_emphasis, relink_emphasis]
    exact .emphasis (Inline.alike_relinkAll h content)
  | .strong content => by
    rw [relink_strong, relink_strong]
    exact .strong (Inline.alike_relinkAll h content)
  | .link destination content => by
    rw [relink_link, relink_link]
    exact .link (h destination) (Inline.alike_relinkAll h content)

theorem Inline.alike_relinkAll (h : ∀ href, R (f href) (g href)) : ∀ content : List Inline,
    List.Forall₂ (Inline.Alike R) (HasLinks.relink f content) (HasLinks.relink g content)
  | [] => .nil
  | i :: rest => .cons (Inline.alike_relink h i) (Inline.alike_relinkAll h rest)

end

mutual

theorem Block.alike_relink (h : ∀ href, R (f href) (g href)) :
    ∀ b : Block, Block.Alike R (HasLinks.relink f b) (HasLinks.relink g b)
  | .codeBlock language literal => .codeBlock language literal
  | .htmlBlock literal => .htmlBlock literal
  | .heading level content => by
    rw [relink_heading, relink_heading]
    exact .heading level (Inline.alike_relinkAll h content)
  | .paragraph content => by
    rw [relink_paragraph, relink_paragraph]
    exact .paragraph (Inline.alike_relinkAll h content)
  | .table header rows => by
    rw [relink_table, relink_table]
    have hcell : ∀ cell : Cell, Cell.Alike R (HasLinks.relink f cell) (HasLinks.relink g cell) :=
      Inline.alike_relinkAll h
    exact .table (forall₂_relink hcell header) (forall₂_relink (forall₂_relink hcell) rows)
  | .list ordered items => by
    rw [relink_list, relink_list]
    exact .list ordered (Block.alike_relinkItems h items)
  | .blockQuote children => by
    rw [relink_blockQuote, relink_blockQuote]
    exact .blockQuote (Block.alike_relinkAll h children)

theorem Block.alike_relinkAll (h : ∀ href, R (f href) (g href)) : ∀ blocks : List Block,
    List.Forall₂ (Block.Alike R) (HasLinks.relink f blocks) (HasLinks.relink g blocks)
  | [] => .nil
  | b :: rest => .cons (Block.alike_relink h b) (Block.alike_relinkAll h rest)

theorem Block.alike_relinkItems (h : ∀ href, R (f href) (g href)) : ∀ items : List (List Block),
    List.Forall₂ (List.Forall₂ (Block.Alike R)) (HasLinks.relink f items) (HasLinks.relink g items)
  | [] => .nil
  | item :: rest => .cons (Block.alike_relinkAll h item) (Block.alike_relinkItems h rest)

end

end

/-! ## Destinations under two tables -/

namespace Link

/-- The fragment of the URL that a link stands for. -/
def fragment? (href : String) : Option String := (Url.resolve? bookSite href).bind (·.fragment)

/-- Two destinations of one link, under one table and under another: they are equal, unless the tables have
different slugs for the fragment of the link. Then they lead to one document, each with the slug that its
table has. -/
def LedAlike (anchors anchors' : AnchorTable) (destination destination' : String) : Prop :=
  ∃ href, destination = Link.destination href anchors ∧ destination' = Link.destination href anchors' ∧
    (destination = destination' ∨ ∃ fragment id, fragment? href = some fragment ∧
      anchors.get? fragment ≠ anchors'.get? fragment ∧
      destination = catalogReference id (anchors.get? fragment) ∧
      destination' = catalogReference id (anchors'.get? fragment))

theorem ledAlike_destination (anchors anchors' : AnchorTable) (href : String) :
    LedAlike anchors anchors' (destination href anchors) (destination href anchors') := by
  refine ⟨href, rfl, rfl, ?_⟩
  unfold destination
  split
  · exact .inl rfl
  cases hurl : Url.resolve? bookSite href with
  | none => exact .inl rfl
  | some url =>
    simp only [reference_eq]
    cases hfragment : url.fragment with
    | none => exact .inl rfl
    | some fragment =>
      by_cases hslug : anchors.get? fragment = anchors'.get? fragment
      · exact .inl (congrArg (catalogReference (documentId url)) hslug)
      · exact .inr ⟨fragment, documentId url, by simp [fragment?, hurl, hfragment], hslug, rfl, rfl⟩

end Link

namespace Chapter

/-- **The anchors of a book decide nothing but the sections that links lead to.** A chapter fails with one
error under every table, or there is one tree with the links as the page has them, and the document under
a table is that tree with each link resolved. The documents under two tables are alike but for links, and
each link leads alike in both. -/
theorem documents_alike (source : String) :
    (∃ e, ∀ anchors, document source anchors = .error e) ∨
      ∃ written : Document, ∀ anchors anchors' : AnchorTable, ∃ d d' : Document,
        document source anchors = .ok d ∧ document source anchors' = .ok d' ∧
          d = relink (Link.destination · anchors) written ∧
          List.Forall₂ (Block.Alike (Link.LedAlike anchors anchors')) d.children d'.children := by
  obtain ⟨written, hw⟩ := resolves_pageDocument (.ofText source)
  have hdocument : ∀ anchors, document source anchors =
      written.map (relink (Link.destination · anchors)) := hw
  simp only [hdocument]
  cases written with
  | error e => exact .inl ⟨e, fun _ => rfl⟩
  | ok w =>
    refine .inr ⟨w, fun anchors anchors' => ⟨_, _, rfl, rfl, rfl, ?_⟩⟩
    exact Block.alike_relinkAll (Link.ledAlike_destination anchors anchors') w.children

end Chapter

end BookCatalog
