import BookCatalog.Markdown.Tree
import BookCatalog.Proofs.Blanks
import BookCatalog.Proofs.Chapter.MainContent
import BookCatalog.Proofs.MarkupParts

/-!
# Documents are well formed

What a chapter becomes is sound at every depth (`document_wellFormed`): headings have one of six levels, a
link holds nothing but text, no line of text has a blank other than a space, code is tidy, and no quote is
empty. Writing such a document as CommonMark changes none of its texts and none of its levels.

A property of inlines holds throughout a document when it holds of every inline that an element becomes, and of the
plain texts (`Chapter.Pervades.document`); soundness is one such property.
-/

namespace BookCatalog

/-! ## Sound parts -/

/-- A text whose blanks are spaces. -/
def Text.IsPlain (s : String) : Prop := ∀ c ∈ s.toList, isBlank c = true → c = ' '

instance (s : String) : Decidable (Text.IsPlain s) :=
  List.decidableBAll (fun c => Text.isBlank c = true → c = ' ') s.toList

/-- What holds of every inline of a chapter, the inlines inside it apart. -/
def Inline.IsSound : Inline → Prop
  | .text literal => Text.IsPlain literal
  | .code literal => Text.IsTidy literal.toList
  | .link _ content => ∀ i ∈ content, ∃ literal, i = .text literal
  | .symbolLink _ => False
  | .emphasis _ | .strong _ | .html _ | .image _ => True

/-- What holds of every block of a chapter, its lines and the blocks inside it apart. -/
def Block.IsSound : Block → Prop
  | .heading level _ => 1 ≤ level ∧ level ≤ 6
  | .blockQuote children => children ≠ []
  | .codeBlock language _ => language = some "swift"
  | .paragraph _ | .list _ _ | .table _ _ | .htmlBlock _ => True

/-! ## What holds at every depth -/

/-- What holds of every inline of a line, at every depth. -/
def Throughout (P : Inline → Prop) (line : List Inline) : Prop := ∀ i ∈ Inline.partsOf line, P i

/-- Blocks that are sound, with what holds of every inline in them, at every depth. -/
def SoundThroughout (P : Inline → Prop) (blocks : List Block) : Prop :=
  (∀ b ∈ Block.partsOf blocks, b.IsSound) ∧ ∀ i ∈ Block.inlinesOf blocks, P i

section
variable {P : Inline → Prop} {line more : List Inline} {i : Inline}

@[simp] theorem throughout_nil : Throughout P [] := by
  intro i hi
  simp at hi

@[simp] theorem throughout_cons_iff :
    Throughout P (i :: line) ↔ (P i ∧ Throughout P i.inner) ∧ Throughout P line := by
  simp only [Throughout, Inline.partsOf_cons, Inline.parts_eq, List.forall_mem_append, List.forall_mem_cons]

theorem throughout_text_cons_iff {s : String} :
    Throughout P (.text s :: line) ↔ P (.text s) ∧ Throughout P line := by
  simp [Inline.inner]

@[simp] theorem throughout_append_iff : Throughout P (line ++ more) ↔ Throughout P line ∧ Throughout P more := by
  simp only [Throughout, Inline.partsOf_append, List.forall_mem_append]

end

section
variable {P : Inline → Prop} {blocks more : List Block} {b : Block}

@[simp] theorem soundThroughout_nil : SoundThroughout P [] := by
  constructor <;> intro i hi <;> simp [Block.inlinesOf] at hi

@[simp] theorem soundThroughout_append_iff :
    SoundThroughout P (blocks ++ more) ↔ SoundThroughout P blocks ∧ SoundThroughout P more := by
  simp only [SoundThroughout, Block.inlinesOf, Block.partsOf_append, List.flatMap_append, List.forall_mem_append]
  tauto

@[simp] theorem soundThroughout_cons_iff : SoundThroughout P (b :: blocks) ↔
    (b.IsSound ∧ (∀ line ∈ b.lines, Throughout P line) ∧ SoundThroughout P b.inner) ∧ SoundThroughout P blocks := by
  have hlines : (∀ i ∈ b.ownInlines, P i) ↔ ∀ line ∈ b.lines, Throughout P line :=
    List.forall_mem_flatMap
  simp only [SoundThroughout, Block.inlinesOf, Block.partsOf_cons, Block.parts_eq, List.flatMap_append,
    List.flatMap_cons, List.forall_mem_append, List.forall_mem_cons, hlines]
  tauto

theorem soundThroughout_heading_cons_iff {level : Nat} {content : List Inline} :
    SoundThroughout P (.heading level content :: blocks) ↔
      (1 ≤ level ∧ level ≤ 6) ∧ Throughout P content ∧ SoundThroughout P blocks := by
  simp [Block.IsSound, Block.lines, Block.inner, and_assoc]

theorem soundThroughout_paragraph_cons_iff {content : List Inline} :
    SoundThroughout P (.paragraph content :: blocks) ↔ Throughout P content ∧ SoundThroughout P blocks := by
  simp [Block.IsSound, Block.lines, Block.inner]

theorem soundThroughout_list_iff {ordered : Bool} {items : List (List Block)} :
    SoundThroughout P [.list ordered items] ↔ SoundThroughout P items.flatten := by
  simp [Block.IsSound, Block.lines, Block.inner]

theorem soundThroughout_blockQuote_iff {children : List Block} :
    SoundThroughout P [.blockQuote children] ↔ children ≠ [] ∧ SoundThroughout P children := by
  simp [Block.IsSound, Block.lines, Block.inner]

end

/-- A line whose inlines are sound at every depth. -/
def SoundLine (line : List Inline) : Prop := ∀ i ∈ Inline.partsOf line, i.IsSound

/-- Blocks that are sound, and whose lines are sound, at every depth. -/
def SoundBlocks (blocks : List Block) : Prop :=
  (∀ b ∈ Block.partsOf blocks, b.IsSound) ∧ ∀ i ∈ Block.inlinesOf blocks, i.IsSound

theorem soundLine_cons_iff {i : Inline} {line : List Inline} :
    SoundLine (i :: line) ↔ (i.IsSound ∧ SoundLine i.inner) ∧ SoundLine line := throughout_cons_iff

theorem soundBlocks_append_iff {blocks more : List Block} :
    SoundBlocks (blocks ++ more) ↔ SoundBlocks blocks ∧ SoundBlocks more := soundThroughout_append_iff

theorem soundBlocks_cons_iff {b : Block} {blocks : List Block} : SoundBlocks (b :: blocks) ↔
    (b.IsSound ∧ (∀ line ∈ b.lines, SoundLine line) ∧ SoundBlocks b.inner) ∧ SoundBlocks blocks :=
  soundThroughout_cons_iff

/-! ## Plain texts -/

namespace Text

theorem IsPlain.append {s t : String} (hs : IsPlain s) (ht : IsPlain t) : IsPlain (s ++ t) := by
  intro c hc
  rw [String.toList_append] at hc
  rcases List.mem_append.1 hc with hc | hc
  · exact hs c hc
  · exact ht c hc

theorem isPlain_collapseBlanks (s : String) : IsPlain (collapseBlanks s) := by
  intro c hc
  exact eq_space_of_mem_collapseBlanks hc

theorem isPlain_tidy (s : String) : IsPlain (tidy s) := by
  intro c hc
  exact eq_space_of_mem_tidy hc

/-- In a plain text there is no line end that a writer would have to replace. -/
theorem IsPlain.singleLine_eq {s : String} (h : IsPlain s) : Markdown.singleLine s = s := by
  have hchars : ∀ c ∈ s.toList, (if c == '\n' then ' ' else c) = c := by
    intro c hc
    by_cases hend : c = '\n'
    · subst hend
      exact absurd (h '\n' hc (by decide)) (by decide)
    · simp [hend]
  rw [Markdown.singleLine, List.map_congr_left hchars, List.map_id', String.ofList_toList]

end Text

namespace Chapter

open BookCatalog.Html

/-- What holds of every inline that an element becomes, and of the texts that are plain. -/
structure Pervades (anchors : AnchorTable) (P : Inline → Prop) : Prop where
  text_iff : ∀ s, P (.text s) ↔ Text.IsPlain s
  emphasis : ∀ content, P (.emphasis content)
  strong : ∀ content, P (.strong content)
  link : ∀ e, P (linkOf anchors e)
  image : ∀ e, P (imageOf e)
  code : ∀ e : Element, P (.code e.text)
  markup : ∀ e : Element, P (.html e.outerMarkup)

theorem isPlain_admonition_title {e : Element} {title : String}
    (h : DivisionKind.of e = .admonition title) : Text.IsPlain (title ++ ": ") := by
  obtain ⟨first, -, rfl⟩ := exists_title_of_admonition h
  exact (Text.isPlain_tidy _).append (by decide)

theorem level_of_heading {name : String} {level : Nat} (h : BlockKind.ofName name = .heading level) :
    1 ≤ level ∧ level ≤ 6 := by
  unfold BlockKind.ofName at h
  split at h <;> cases h <;> omega

namespace Pervades

variable {anchors : AnchorTable} {P : Inline → Prop}

section
variable (h : Pervades anchors P)
include h

/-! ## Lines -/

theorem text_cons {s : String} {line : List Inline} (hs : Text.IsPlain s) (hline : Throughout P line) :
    Throughout P (.text s :: line) :=
  throughout_text_cons_iff.2 ⟨(h.text_iff s).2 hs, hline⟩

theorem textRuns (runs : List String) : Throughout P (runs.map textRun) := by
  induction runs with
  | nil => exact throughout_nil
  | cons s rest ih => exact h.text_cons (Text.isPlain_collapseBlanks s) ih

end

mutual

theorem inline (h : Pervades anchors P) : ∀ e : Element,
    Yields (inline anchors e) fun i => P i ∧ Throughout P i.inner
  | .mk space name attrs contents => by
    simp only [Chapter.inline]
    cases InlineKind.ofName name with
    | link => exact .ok ⟨h.link _, h.textRuns _⟩
    | code => exact .ok ⟨h.code _, throughout_nil⟩
    | image => exact .ok ⟨h.image _, throughout_nil⟩
    | kept => exact .ok ⟨h.markup _, throughout_nil⟩
    | emphasis => exact (h.inlines contents).bind fun line hline => .ok ⟨h.emphasis line, hline⟩
    | strong => exact (h.inlines contents).bind fun line hline => .ok ⟨h.strong line, hline⟩
    | unknown => exact .error _

theorem inlines (h : Pervades anchors P) : ∀ nodes : List Node, Yields (inlines anchors nodes) (Throughout P)
  | [] => .ok throughout_nil
  | .text s :: rest => by
    refine (h.inlines rest).bind fun line hline => .ok ?_
    exact h.text_cons (Text.isPlain_collapseBlanks s) hline
  | .element e :: rest => by
    refine (h.inline e).bind fun i hi => ?_
    exact (h.inlines rest).bind fun line hline => .ok (throughout_cons_iff.2 ⟨hi, hline⟩)
  | .comment _ :: rest | .fragment _ :: rest => by
    simp only [Chapter.inlines]
    exact h.inlines rest

end

section
variable (h : Pervades anchors P)
include h

theorem unwrappedInlines (e : Element) : Yields (unwrappedInlines anchors e.contents) (Throughout P) := by
  rw [unwrappedInlines_eq]
  exact h.inlines (unwrapped e).contents

/-! ## Tables -/

theorem cells (nodes : List Node) : Yields (cells anchors nodes) fun cells => ∀ line ∈ cells, Throughout P line := by
  induction nodes with
  | nil => exact .ok (List.forall_mem_nil _)
  | cons node rest ih =>
    cases node with
    | element e =>
      simp only [Chapter.cells]
      split
      · exact .error _
      · refine (h.unwrappedInlines e).bind fun line hline => ?_
        exact ih.bind fun more hmore => .ok (List.forall_mem_cons.2 ⟨hline, hmore⟩)
    | text | comment | fragment => exact ih

theorem row (e : Element) : Yields (row anchors e) fun cells => ∀ line ∈ cells, Throughout P line := by
  unfold Chapter.row
  split
  · exact h.cells e.contents
  · exact .error _

theorem rows (nodes : List Node) :
    Yields (rows anchors nodes) fun rows => ∀ r ∈ rows, ∀ line ∈ r, Throughout P line := by
  induction nodes with
  | nil => exact .ok (List.forall_mem_nil _)
  | cons node rest ih =>
    cases node with
    | element e =>
      refine (h.row e).bind fun r hr => ?_
      exact ih.bind fun more hmore => .ok (List.forall_mem_cons.2 ⟨hr, hmore⟩)
    | text | comment | fragment => exact ih

theorem firstRow? (nodes : List Node) :
    Yields (firstRow? anchors nodes) fun header => ∀ r ∈ header, ∀ line ∈ r, Throughout P line := by
  induction nodes with
  | nil => exact .ok (by simp)
  | cons node rest ih =>
    cases node with
    | element e => exact (h.row e).bind fun r hr => .ok (by simpa using hr)
    | text | comment | fragment => exact ih

theorem tableParts (nodes : List Node) : Yields (tableParts anchors nodes) fun parts =>
    (∀ r ∈ parts.1, ∀ line ∈ r, Throughout P line) ∧ ∀ r ∈ parts.2, ∀ line ∈ r, Throughout P line := by
  induction nodes with
  | nil => exact .ok (by simp)
  | cons node rest ih =>
    cases node with
    | element e =>
      simp only [Chapter.tableParts]
      split
      · refine (h.firstRow? e.contents).bind fun header hheader => ?_
        refine ih.bind fun later hlater => .ok ⟨fun r hr => ?_, hlater.2⟩
        -- A later head with a row counts; without one the row of this head does.
        cases hfirst : later.1 with
        | none => exact hheader r (by simpa [hfirst] using hr)
        | some first => exact hlater.1 r (by simpa [hfirst] using hr)
      · split
        · refine (h.rows e.contents).bind fun first hfirst => ?_
          refine ih.bind fun later hlater => .ok ⟨hlater.1, ?_⟩
          exact List.forall_mem_append.2 ⟨hfirst, hlater.2⟩
        · exact ih
    | text | comment | fragment => exact ih

theorem tableOf (nodes : List Node) : Yields (tableOf anchors nodes) fun b => SoundThroughout P [b] := by
  refine (h.tableParts nodes).bind fun parts hparts => .ok ?_
  obtain ⟨header, rows⟩ := parts
  refine soundThroughout_cons_iff.2 ⟨⟨trivial, fun line hline => ?_, soundThroughout_nil⟩, soundThroughout_nil⟩
  rcases List.mem_append.1 hline with hline | hline
  · cases header with
    | none => simp at hline
    | some r => exact hparts.1 r rfl line hline
  · obtain ⟨r, hr, hline⟩ := List.mem_flatten.1 hline
    exact hparts.2 r hr line hline

/-! ## Blocks that are edited -/

/-- A text in front of another one. -/
theorem text_append {title s : String} {content : List Inline} (htitle : Text.IsPlain title)
    (hline : Throughout P (.text s :: content)) : Throughout P (.text (title ++ s) :: content) := by
  obtain ⟨hs, hcontent⟩ := throughout_text_cons_iff.1 hline
  exact h.text_cons (htitle.append ((h.text_iff s).1 hs)) hcontent

/-- A quote is never empty: its title stands in a text of the first block or in a paragraph of its own. -/
theorem withTitle {title : String} {children : List Block} (htitle : Text.IsPlain title)
    (hchildren : SoundThroughout P children) : SoundThroughout P [.blockQuote (withTitle title children)] := by
  rw [soundThroughout_blockQuote_iff]
  unfold Chapter.withTitle
  split
  · obtain ⟨hline, hrest⟩ := soundThroughout_paragraph_cons_iff.1 hchildren
    exact ⟨List.cons_ne_nil _ _, soundThroughout_paragraph_cons_iff.2 ⟨h.text_append htitle hline, hrest⟩⟩
  · obtain ⟨hlevel, hline, hrest⟩ := soundThroughout_heading_cons_iff.1 hchildren
    exact ⟨List.cons_ne_nil _ _, soundThroughout_heading_cons_iff.2 ⟨hlevel, h.text_append htitle hline, hrest⟩⟩
  · exact ⟨List.cons_ne_nil _ _,
      soundThroughout_paragraph_cons_iff.2 ⟨h.text_cons htitle throughout_nil, hchildren⟩⟩

theorem termLine {term : List Inline} (hterm : Throughout P term) : Throughout P (termLine term) := by
  have hbefore : Throughout P [.text "term "] := h.text_cons (by decide) throughout_nil
  have hafter : Throughout P [.text ": "] := h.text_cons (by decide) throughout_nil
  exact throughout_append_iff.2 ⟨throughout_append_iff.2 ⟨hbefore, hterm⟩, hafter⟩

theorem withTerm {term : List Inline} {children : List Block} (hterm : Throughout P term)
    (hchildren : SoundThroughout P children) : SoundThroughout P (withTerm term children) := by
  unfold Chapter.withTerm
  split
  · obtain ⟨hline, hrest⟩ := soundThroughout_paragraph_cons_iff.1 hchildren
    have hmerged := throughout_append_iff.2 ⟨h.termLine hterm, hline⟩
    exact soundThroughout_paragraph_cons_iff.2 ⟨hmerged, hrest⟩
  · exact soundThroughout_paragraph_cons_iff.2 ⟨h.termLine hterm, hchildren⟩

end

/-! ## Blocks -/

mutual

theorem block (h : Pervades anchors P) (inLines : Bool) : ∀ e : Element,
    Yields (block anchors inLines e) (SoundThroughout P)
  | .mk space name attrs contents => by
    simp only [Chapter.block]
    cases hkind : BlockKind.ofName name with
    | heading level =>
      refine (h.inlines contents).bind fun line hline => .ok ?_
      exact soundThroughout_heading_cons_iff.2 ⟨level_of_heading hkind, hline, soundThroughout_nil⟩
    | list =>
      refine (h.items _ name contents).bind fun items hitems => .ok ?_
      exact soundThroughout_list_iff.2 hitems
    | paragraph =>
      refine (h.inlines contents).bind fun line hline => .ok ?_
      exact soundThroughout_paragraph_cons_iff.2 ⟨hline, soundThroughout_nil⟩
    | table => exact (h.tableOf contents).bind fun _ htable => .ok htable
    | definitions =>
      refine (h.terms inLines contents).bind fun items hitems => .ok ?_
      exact soundThroughout_list_iff.2 hitems
    | division =>
      dsimp only
      cases hdivision : DivisionKind.of (.mk space name attrs contents) with
      | container => exact h.blocks inLines contents
      | listing => exact .ok (by simp [Block.IsSound, Block.lines, Block.inner, listingLanguage])
      | admonition title =>
        refine (h.blocksAfterFirst inLines contents).bind fun children hchildren => .ok ?_
        exact h.withTitle (isPlain_admonition_title hdivision) hchildren
      | kept => exact .ok (by simp [Block.IsSound, Block.lines, Block.inner])
    | other =>
      refine (h.inline (.mk space name attrs contents)).bind fun i hi => .ok ?_
      exact soundThroughout_paragraph_cons_iff.2 ⟨throughout_cons_iff.2 ⟨hi, throughout_nil⟩, soundThroughout_nil⟩

theorem blocks (h : Pervades anchors P) (inLines : Bool) : ∀ nodes : List Node,
    Yields (blocks anchors inLines nodes) (SoundThroughout P)
  | [] => .ok soundThroughout_nil
  | .element e :: rest => by
    refine (h.block inLines e).bind fun first hfirst => ?_
    exact (h.blocks inLines rest).bind fun more hmore => .ok (soundThroughout_append_iff.2 ⟨hfirst, hmore⟩)
  | .text _ :: rest | .comment _ :: rest | .fragment _ :: rest => by
    simp only [Chapter.blocks]
    exact h.blocks inLines rest

theorem blocksAfterFirst (h : Pervades anchors P) (inLines : Bool) : ∀ nodes : List Node,
    Yields (blocksAfterFirst anchors inLines nodes) (SoundThroughout P)
  | [] => .ok soundThroughout_nil
  | .element _ :: rest => by
    simp only [Chapter.blocksAfterFirst]
    exact h.blocks inLines rest
  | .text _ :: rest | .comment _ :: rest | .fragment _ :: rest => by
    simp only [Chapter.blocksAfterFirst]
    exact h.blocksAfterFirst inLines rest

theorem items (h : Pervades anchors P) (inLines : Bool) (list : String) : ∀ nodes : List Node,
    Yields (items anchors inLines list nodes) fun items => SoundThroughout P items.flatten
  | [] => .ok soundThroughout_nil
  | .element (.mk _ name _ contents) :: rest => by
    simp only [Chapter.items]
    split
    · exact .error _
    · refine (h.blocks inLines contents).bind fun first hfirst => ?_
      exact (h.items inLines list rest).bind fun more hmore =>
        .ok (soundThroughout_append_iff.2 ⟨hfirst, hmore⟩)
  | .text _ :: rest | .comment _ :: rest | .fragment _ :: rest => by
    simp only [Chapter.items]
    exact h.items inLines list rest

theorem terms (h : Pervades anchors P) (inLines : Bool) : ∀ nodes : List Node,
    Yields (terms anchors inLines nodes) fun items => SoundThroughout P items.flatten
  | [] => .ok soundThroughout_nil
  | .element e :: rest => by
    simp only [Chapter.terms]
    split
    · exact .error _
    · refine (h.unwrappedInlines e).bind fun term hterm => ?_
      exact h.descriptions inLines hterm e.text rest
  | .text _ :: rest | .comment _ :: rest | .fragment _ :: rest => by
    simp only [Chapter.terms]
    exact h.terms inLines rest

theorem descriptions (h : Pervades anchors P) (inLines : Bool) {term : List Inline} (hterm : Throughout P term)
    (label : String) : ∀ nodes : List Node,
      Yields (descriptions anchors inLines term label nodes) fun items => SoundThroughout P items.flatten
  | [] => .error _
  | .element (.mk _ name _ contents) :: rest => by
    simp only [Chapter.descriptions]
    split
    · exact .error _
    · refine (h.blocks inLines contents).bind fun description hdescription => ?_
      refine (h.terms inLines rest).bind fun more hmore => .ok ?_
      exact soundThroughout_append_iff.2 ⟨h.withTerm hterm hdescription, hmore⟩
  | .text _ :: rest | .comment _ :: rest | .fragment _ :: rest => by
    simp only [Chapter.descriptions]
    exact h.descriptions inLines hterm label rest

end

/-- What pervades lines holds of all inlines of a document, and its blocks are sound. -/
theorem document (h : Pervades anchors P) {source : String} {d : Document} (hd : document source anchors = .ok d) :
    SoundThroughout P d.children := by
  obtain ⟨b, content, -, -, hchildren⟩ := pageDocument_eq_ok_iff.1 hd
  exact h.blocks (standsInLines content) content.element.contents d.children hchildren

end Pervades

/-! ## Documents -/

theorem sound_document {source : String} {anchors : AnchorTable} {d : Document}
    (h : document source anchors = .ok d) : SoundBlocks d.children := by
  have hpervades : Pervades anchors Inline.IsSound := by
    refine ⟨fun _ => Iff.rfl, fun _ => trivial, fun _ => trivial, fun e i hi => ?_, fun _ => trivial,
      fun _ => Text.isTidy_tidy _, fun _ => trivial⟩
    obtain ⟨s, -, rfl⟩ := List.mem_map.1 hi
    exact ⟨_, rfl⟩
  exact hpervades.document h

/-- **The document of a chapter is well formed.** Every block and every inline in it is sound, at every depth.
A writer of CommonMark therefore finds no line end to replace in any of its texts and no level out of
range. -/
theorem document_wellFormed {source : String} {anchors : AnchorTable} {d : Document}
    (h : document source anchors = .ok d) :
    (∀ b ∈ d.allBlocks, b.IsSound) ∧ (∀ i ∈ d.allInlines, i.IsSound) ∧
      (∀ literal, .text literal ∈ d.allInlines → Markdown.spanOf (.text literal) = .text literal) ∧
      ∀ level content, .heading level content ∈ d.allBlocks →
        Markdown.chunksOfBlock (.heading level content) = [.heading level (Markdown.spansOf content)] := by
  obtain ⟨hblocks, hinlines⟩ := sound_document h
  refine ⟨hblocks, hinlines, fun literal hliteral => ?_, fun level line hheading => ?_⟩
  · have hplain : Text.IsPlain literal := hinlines _ hliteral
    rw [Markdown.spanOf, hplain.singleLine_eq]
  · have hlevel : 1 ≤ level ∧ level ≤ 6 := hblocks _ hheading
    rw [Markdown.chunksOfBlock, max_eq_left hlevel.1, min_eq_left hlevel.2]

/-- A chapter with a line end in a heading, loose blanks in code, and a link in a quote. -/
def mixedPage : String :=
  "<div class='body'><h1>Simple\nValues <code> a  b </code></h1><div><p class='admonition-title'>Note</p>" ++
    "<p>see <a href='x.xhtml'>the <em>tour</em></a></p></div></div>"

theorem mixed_document_wellFormed : ∃ d : Document, document mixedPage ∅ = .ok d ∧
    (d.allBlocks.length, d.allInlines.length) = (3, 6) ∧
    (∀ b ∈ d.allBlocks, b.IsSound) ∧ (∀ i ∈ d.allInlines, i.IsSound) ∧
      (∀ literal, .text literal ∈ d.allInlines → Markdown.spanOf (.text literal) = .text literal) ∧
      ∀ level content, .heading level content ∈ d.allBlocks →
        Markdown.chunksOfBlock (.heading level content) = [.heading level (Markdown.spansOf content)] := by
  obtain ⟨d, hd, hlengths⟩ : ∃ d, (document mixedPage ∅).toOption = some d ∧
      (d.allBlocks.length, d.allInlines.length) = (3, 6) :=
    Option.map_eq_some_iff.1 (by decide +kernel)
  have hd' := eq_ok_of_toOption hd
  exact ⟨d, hd', hlengths, document_wellFormed hd'⟩

end Chapter

end BookCatalog
