import BookCatalog.Proofs.Chapter.SectionNesting

/-!
# Titles of admonitions

A note or a warning becomes a quote of the blocks that stand after its title, and the title is put in front
of them. When the first block is a paragraph or a heading whose line begins with a run of text, the title
goes into that run; otherwise it gets a paragraph of its own (`Titled`). Nothing else changes, and the
conversion of an admonition fails exactly when that of its blocks does (`admonition_keeps_content`).
-/

namespace BookCatalog.Chapter

open BookCatalog.Html

/-! ## Blocks with a title -/

/-- Blocks of which the first one is a line that begins with a run of text. -/
inductive BeginsWithText (run : String) : List Block → Prop
  | paragraph (line : List Inline) (rest : List Block) :
      BeginsWithText run (.paragraph (.text run :: line) :: rest)
  | heading (level : Nat) (line : List Inline) (rest : List Block) :
      BeginsWithText run (.heading level (.text run :: line) :: rest)

/-- Some blocks, and the same blocks with a label in front of them. -/
inductive Titled (label : String) : List Block → List Block → Prop
  | paragraph (run : String) (line : List Inline) (rest : List Block) :
      Titled label (.paragraph (.text run :: line) :: rest)
        (.paragraph (.text (label ++ run) :: line) :: rest)
  | heading (level : Nat) (run : String) (line : List Inline) (rest : List Block) :
      Titled label (.heading level (.text run :: line) :: rest)
        (.heading level (.text (label ++ run) :: line) :: rest)
  | apart {bs : List Block} : (∀ run, ¬BeginsWithText run bs) →
      Titled label bs (.paragraph [.text label] :: bs)

theorem withTitle_of_apart {bs : List Block} (h : ∀ run, ¬BeginsWithText run bs) (label : String) :
    withTitle label bs = .paragraph [.text label] :: bs := by
  unfold withTitle
  split
  · rename_i run line rest
    exact absurd (.paragraph line rest) (h run)
  · rename_i level run line rest
    exact absurd (.heading level line rest) (h run)
  · rfl

/-- There is one way to put a label in front of some blocks. -/
theorem titled_iff {label : String} {bs titled : List Block} :
    Titled label bs titled ↔ titled = withTitle label bs := by
  constructor
  · intro h
    cases h with
    | paragraph | heading => rfl
    | apart hno => exact (withTitle_of_apart hno label).symm
  · rintro rfl
    by_cases hno : ∀ run, ¬BeginsWithText run bs
    · rw [withTitle_of_apart hno]
      exact .apart hno
    · obtain ⟨run, hrun⟩ := not_forall_not.1 hno
      cases hrun with
      | paragraph line rest => exact .paragraph run line rest
      | heading level line rest => exact .heading level run line rest

/-! ## Admonitions -/

section
variable {anchors : AnchorTable} {inLines : Bool}

theorem blocksAfterFirst_eq (nodes : List Node) : blocksAfterFirst anchors inLines nodes =
    blocksOf anchors inLines (nodes.filterMap Node.element?).tail := by
  induction nodes with
  | nil => rfl
  | cons node rest ih =>
    cases node with
    | element e => exact blocks_eq_blocksOf rest
    | text | comment | fragment => exact ih

theorem block_of_admonition {e title : Element} {rest : List Element} (hname : e.name = "div")
    (hspliced : ¬IsSpliced e) (hlisting : e.hasClass "highlight-swift" = false)
    (hchildren : e.childElements = title :: rest) (htitle : title.hasClass "admonition-title" = true) :
    block anchors inLines e = (do
      return [.blockQuote (withTitle (title.ownText ++ ": ") (← blocksOf anchors inLines rest))]) := by
  have hfirst : e.firstChild? = some title := by rw [firstChild?_eq_head?, hchildren, List.head?_cons]
  have hkind := divisionKind_of_admonition hname hspliced hlisting hfirst htitle
  have hrest : blocksAfterFirst anchors inLines e.contents = blocksOf anchors inLines rest := by
    rw [blocksAfterFirst_eq, ← Element.childElements, hchildren, List.tail_cons]
  cases e with
  | mk space name attrs contents =>
    obtain rfl : name = "div" := hname
    have hdivision : BlockKind.ofName "div" = .division := rfl
    simp only [block, hdivision, hkind]
    rw [← hrest]
    rfl

end

/-- **Admonitions keep their content.** Take a division that is no section and no listing, and whose first
element has the class of a title. Its conversion fails exactly as that of the elements after the title does.
Otherwise it becomes one quote, which holds the blocks of those elements with the title in front. -/
theorem admonition_keeps_content (anchors : AnchorTable) (inLines : Bool) {e title : Element}
    {rest : List Element} (hname : e.name = "div") (hsection : e.hasClass "section" = false)
    (hbody : e.hasClass "body" = false) (hlisting : e.hasClass "highlight-swift" = false)
    (hchildren : e.childElements = title :: rest) (htitle : title.hasClass "admonition-title" = true) :
    (∀ fault, block anchors inLines e = .error fault ↔ blocksOf anchors inLines rest = .error fault) ∧
    (∀ out, block anchors inLines e = .ok out ↔ ∃ bs titled, blocksOf anchors inLines rest = .ok bs ∧
      Titled (title.ownText ++ ": ") bs titled ∧ out = [.blockQuote titled]) := by
  have hspliced : ¬IsSpliced e := by
    rintro ⟨-, h | h⟩
    · rw [hsection] at h; cases h
    · rw [hbody] at h; cases h
  have hblock : block anchors inLines e = (do
      return [.blockQuote (withTitle (title.ownText ++ ": ") (← blocksOf anchors inLines rest))]) :=
    block_of_admonition hname hspliced hlisting hchildren htitle
  rw [hblock]
  refine ⟨fun fault => ?_, fun out => ?_⟩
  · rw [bind_eq_error_iff]
    constructor
    · rintro (h | ⟨bs, -, h⟩)
      · exact h
      · cases h
    · exact .inl
  · rw [bind_eq_ok_iff]
    refine exists_congr fun bs => ?_
    constructor
    · rintro ⟨hbs, hout⟩
      cases hout
      exact ⟨_, hbs, titled_iff.2 rfl, rfl⟩
    · rintro ⟨titled, hbs, htitled, rfl⟩
      rw [titled_iff.1 htitled]
      exact ⟨hbs, rfl⟩

/-- The title of a note. -/
def noteTitle : Element := .mk .html "p" [⟨.plain, "class", "admonition-title first"⟩] [.text " Note\n"]

/-- A note with the given elements after its title. -/
def noteOf (rest : List Element) : Element :=
  .mk .html "div" [⟨.plain, "class", "admonition note"⟩]
    (.text "\n" :: .element noteTitle :: rest.map .element)

/-- A section that begins with a heading. -/
def carefulSection : Element :=
  .mk .html "div" [⟨.plain, "class", "section"⟩]
    [.element (.mk .html "h3" [] [.text "Careful", .element (.mk .html "em" [] [.text "!"])])]

/-- The title goes into the heading that a section in the note begins with, and it stands alone in front of
a note in the note. -/
theorem admonition_keeps_content_note :
    (noteOf [carefulSection]).name = "div" ∧ (noteOf [carefulSection]).hasClass "section" = false ∧
      (noteOf [carefulSection]).hasClass "body" = false ∧
      (noteOf [carefulSection]).hasClass "highlight-swift" = false ∧
      noteTitle.hasClass "admonition-title" = true ∧
      block ∅ false (noteOf [carefulSection]) =
        .ok [.blockQuote [.heading 3 [.text "Note: Careful", .emphasis [.text "!"]]]] ∧
      block ∅ false (noteOf [noteOf [carefulSection]]) =
        .ok [.blockQuote [.paragraph [.text "Note: "],
          .blockQuote [.heading 3 [.text "Note: Careful", .emphasis [.text "!"]]]]] := by
  have hclass (rest : List Element) : (noteOf rest).hasClass "section" = false ∧
      (noteOf rest).hasClass "body" = false ∧ (noteOf rest).hasClass "highlight-swift" = false :=
    ⟨by rfl, by rfl, by rfl⟩
  have htitle : noteTitle.hasClass "admonition-title" = true := by rfl
  have hchildren (rest : List Element) : (noteOf rest).childElements = noteTitle :: rest := by
    have hrest : (rest.map Node.element).filterMap Node.element? = rest := by
      rw [List.filterMap_map]
      exact List.filterMap_some
    exact congrArg (noteTitle :: ·) hrest
  have hkept (rest : List Element) := admonition_keeps_content ∅ false (e := noteOf rest) rfl
    (hclass rest).1 (hclass rest).2.1 (hclass rest).2.2 (hchildren rest) htitle
  have hinner : block ∅ false (noteOf [carefulSection]) =
      .ok [.blockQuote [.heading 3 [.text "Note: Careful", .emphasis [.text "!"]]]] :=
    ((hkept [carefulSection]).2 _).2 ⟨_, _, by rfl, .heading 3 "Careful" [.emphasis [.text "!"]] [], by rfl⟩
  refine ⟨rfl, (hclass _).1, (hclass _).2.1, (hclass _).2.2, htitle, hinner, ?_⟩
  -- what stands first in the outer note is a quote, so its title gets a paragraph of its own
  refine ((hkept [noteOf [carefulSection]]).2 _).2 ⟨_, _, ?_, .apart fun run h => ?_, by rfl⟩
  · rw [blocksOf_cons, hinner]
    rfl
  · cases h

end BookCatalog.Chapter
