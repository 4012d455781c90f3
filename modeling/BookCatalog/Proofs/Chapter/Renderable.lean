import BookCatalog.Proofs.Chapter.WellFormed
import BookCatalog.Proofs.Markdown.Frames
import Mathlib.Data.List.GetD

/-!
# Chapters that can be written as CommonMark

CommonMark has no form for an empty code span, and the writer gives up when it comes to one. Of the document
of a chapter it writes every inline: the cells of a table are all kept, and the label of a link is nothing
but text. So the document can be written exactly when no code in it, at any depth, is empty, and as long as its
ordered lists have less than 99 items the writer never takes more off the margin than there is
(`document_renderable_iff`).

A chapter with a blank `code` element is converted, but it cannot be written (`blank_code_not_renderable`).
-/

namespace BookCatalog.Markdown

open BookCatalog.Inline

/-- A code span without text. -/
def emptyCode : Inline := .code ""

/-! ## Lines -/

theorem emptyCode_not_mem_partsOf_texts {content : List Inline}
    (h : ∀ i ∈ content, ∃ literal, i = .text literal) : emptyCode ∉ partsOf content := by
  induction content with
  | nil => simp
  | cons i rest ih =>
    obtain ⟨⟨literal, rfl⟩, hrest⟩ := List.forall_mem_cons.1 h
    simpa [parts, emptyCode] using ih hrest

theorem anyEmptyCode_spansOf_texts {content : List Inline}
    (h : ∀ i ∈ content, ∃ literal, i = .text literal) : Span.anyEmptyCode (spansOf content) = false := by
  induction content with
  | nil => rfl
  | cons i rest ih =>
    obtain ⟨⟨literal, rfl⟩, hrest⟩ := List.forall_mem_cons.1 h
    simpa [spansOf, spanOf, Span.anyEmptyCode, Span.hasEmptyCode] using ih hrest

mutual

theorem hasEmptyCode_spanOf_iff : ∀ i : Inline, i.IsSound → SoundLine i.inner →
    ((spanOf i).hasEmptyCode = true ↔ emptyCode ∈ i.parts)
  | .emphasis content, _, h | .strong content, _, h => by
    simpa [spanOf, Span.hasEmptyCode, parts, emptyCode] using anyEmptyCode_spansOf_iff content h
  | .link destination content, htexts, _ => by
    have hparts : .code "" ∉ partsOf content := emptyCode_not_mem_partsOf_texts htexts
    simp [spanOf, Span.hasEmptyCode, anyEmptyCode_spansOf_texts htexts, parts, hparts, emptyCode]
  | .code literal, _, _ => by simp [spanOf, Span.hasEmptyCode, parts, emptyCode, eq_comm]
  | .text _, _, _ | .html _, _, _ | .image _, _, _ | .symbolLink _, _, _ => by
    simp [spanOf, Span.hasEmptyCode, parts, emptyCode]

theorem anyEmptyCode_spansOf_iff : ∀ line : List Inline, SoundLine line →
    (Span.anyEmptyCode (spansOf line) = true ↔ emptyCode ∈ partsOf line)
  | [], _ => by simp [spansOf, Span.anyEmptyCode]
  | i :: rest, h => by
    obtain ⟨⟨hi, hinner⟩, hrest⟩ := soundLine_cons_iff.1 h
    have hfirst := hasEmptyCode_spanOf_iff i hi hinner
    have hmore := anyEmptyCode_spansOf_iff rest hrest
    simp [spansOf, Span.anyEmptyCode, hfirst, hmore]

end

/-! ## Tables -/

theorem length_le_foldl_max {α : Type} (rows : List (List α)) (n : Nat) :
    n ≤ rows.foldl (fun most row => max most row.length) n ∧
      ∀ row ∈ rows, row.length ≤ rows.foldl (fun most row => max most row.length) n := by
  induction rows generalizing n with
  | nil => simp
  | cons first rest ih =>
    obtain ⟨hstart, hrest⟩ := ih (max n first.length)
    refine ⟨(Nat.le_max_left _ _).trans hstart, List.forall_mem_cons.2 ⟨?_, hrest⟩⟩
    exact (Nat.le_max_right _ _).trans hstart

/-- Every row of a table fits in its columns. -/
theorem length_le_columnCount {header : List Cell} {rows : List (List Cell)} {row : List Cell}
    (h : row ∈ header :: rows) : row.length ≤ columnCount header rows := by
  obtain ⟨hheader, hrows⟩ := length_le_foldl_max rows header.length
  rcases List.mem_cons.1 h with rfl | h
  · exact hheader
  · exact hrows row h

/-- Whether there is an empty code span in a line. -/
def lineHasEmptyCode (line : List Inline) : Bool := Span.anyEmptyCode (spansOf line)

/-- A row that fits keeps all its cells, and the cells that are added hold nothing. -/
theorem any_paddedCells {columns : Nat} {row : List Cell} (h : row.length ≤ columns) :
    (paddedCells columns row).any Span.anyEmptyCode = row.any lineHasEmptyCode := by
  rw [Bool.eq_iff_iff]
  simp only [paddedCells, List.any_map, List.any_eq_true, List.mem_range, Function.comp_apply]
  constructor
  · rintro ⟨index, -, hcode⟩
    by_cases hindex : index < row.length
    · rw [List.getD_eq_getElem _ _ hindex] at hcode
      exact ⟨row[index], List.getElem_mem hindex, hcode⟩
    · rw [List.getD_eq_default _ _ (Nat.le_of_not_lt hindex)] at hcode
      cases hcode
  · rintro ⟨cell, hcell, hcode⟩
    obtain ⟨index, hindex, rfl⟩ := List.getElem_of_mem hcell
    exact ⟨index, hindex.trans_le h, by rwa [List.getD_eq_getElem _ _ hindex]⟩

/-- A table keeps all its cells; one that is left out has none. -/
theorem any_tableOf (header : List Cell) (rows : List (List Cell)) :
    (tableOf header rows).any Table.hasEmptyCode = (header :: rows).flatten.any lineHasEmptyCode := by
  simp only [tableOf]
  split
  · rename_i hzero
    have hempty : (header :: rows).flatten = [] := List.flatten_eq_nil_iff.2 fun row hrow =>
      List.length_eq_zero_iff.1 (Nat.le_zero.1 (hzero ▸ length_le_columnCount hrow))
    rw [hempty]
    rfl
  · have hfits : ∀ row ∈ header :: rows,
        (paddedCells (columnCount header rows) row).any Span.anyEmptyCode = row.any lineHasEmptyCode :=
      fun row hrow => any_paddedCells (length_le_columnCount hrow)
    obtain ⟨hheader, hrows⟩ := List.forall_mem_cons.1 hfits
    rw [Option.any_some, Table.hasEmptyCode, List.any_cons, hheader, List.any_map, List.flatten_cons,
      List.any_append, List.any_flatten]
    refine congrArg _ (Bool.eq_iff_iff.2 ?_)
    rw [List.any_eq_true, List.any_eq_true]
    exact exists_congr fun row => and_congr_right fun hrow => by rw [← hrows row hrow]; rfl

/-! ## Blocks -/

theorem anyEmptyCode_append (chunks more : List Chunk) :
    Chunk.anyEmptyCode (chunks ++ more) = (Chunk.anyEmptyCode chunks || Chunk.anyEmptyCode more) := by
  induction chunks with
  | nil => simp [Chunk.anyEmptyCode]
  | cons c rest ih => simp [Chunk.anyEmptyCode, ih, Bool.or_assoc]

/-- The lines of a block that have an empty code span in them, at any depth. -/
theorem emptyCode_mem_ownInlines_iff {b : Block} (h : ∀ line ∈ b.lines, SoundLine line) :
    emptyCode ∈ b.ownInlines ↔ b.lines.any lineHasEmptyCode = true := by
  rw [Block.ownInlines, List.mem_flatMap, List.any_eq_true]
  refine exists_congr fun line => and_congr_right fun hline => ?_
  exact (anyEmptyCode_spansOf_iff line (h line hline)).symm

theorem inlinesOf_cons (b : Block) (rest : List Block) :
    Block.inlinesOf (b :: rest) = b.ownInlines ++ Block.inlinesOf b.inner ++ Block.inlinesOf rest := by
  simp [Block.inlinesOf, Block.parts_eq]

theorem inlinesOf_append (blocks more : List Block) :
    Block.inlinesOf (blocks ++ more) = Block.inlinesOf blocks ++ Block.inlinesOf more := by
  simp [Block.inlinesOf]

mutual

theorem anyEmptyCode_chunksOfBlock_iff : ∀ b : Block, (∀ line ∈ b.lines, SoundLine line) →
    SoundBlocks b.inner →
      (Chunk.anyEmptyCode (chunksOfBlock b) = true ↔
        emptyCode ∈ b.ownInlines ∨ emptyCode ∈ Block.inlinesOf b.inner)
  | .heading level content, hlines, _ | .paragraph content, hlines, _ => by
    rw [emptyCode_mem_ownInlines_iff hlines]
    simp [chunksOfBlock, Chunk.anyEmptyCode, Chunk.hasEmptyCode, lineHasEmptyCode, Block.lines, Block.inner,
      Block.inlinesOf]
  | .table header rows, hlines, _ => by
    have htable := any_tableOf header rows
    rw [emptyCode_mem_ownInlines_iff hlines, Block.lines, ← List.flatten_cons, ← htable, chunksOfBlock]
    cases tableOf header rows <;>
      simp [Chunk.anyEmptyCode, Chunk.hasEmptyCode, Block.inner, Block.inlinesOf]
  | .list ordered items, _, hinner => by
    simpa [chunksOfBlock, Chunk.anyEmptyCode, Chunk.hasEmptyCode, Block.ownInlines, Block.lines, Block.inner]
      using anyItemEmptyCode_itemsOf_iff items hinner
  | .blockQuote children, _, hinner => by
    simpa [chunksOfBlock, Chunk.anyEmptyCode, Chunk.hasEmptyCode, Block.ownInlines, Block.lines, Block.inner]
      using anyEmptyCode_chunksOf_iff children hinner
  | .codeBlock _ _, _, _ | .htmlBlock _, _, _ => by
    simp [chunksOfBlock, Chunk.anyEmptyCode, Chunk.hasEmptyCode, Block.ownInlines, Block.lines, Block.inner,
      Block.inlinesOf]

theorem anyEmptyCode_chunksOf_iff : ∀ blocks : List Block, SoundBlocks blocks →
    (Chunk.anyEmptyCode (chunksOf blocks) = true ↔ emptyCode ∈ Block.inlinesOf blocks)
  | [], _ => by simp [chunksOf, Chunk.anyEmptyCode, Block.inlinesOf]
  | b :: rest, h => by
    obtain ⟨⟨-, hlines, hinner⟩, hrest⟩ := soundBlocks_cons_iff.1 h
    have hfirst := anyEmptyCode_chunksOfBlock_iff b hlines hinner
    have hmore := anyEmptyCode_chunksOf_iff rest hrest
    simp [chunksOf, anyEmptyCode_append, inlinesOf_cons, hfirst, hmore, or_assoc]

theorem anyItemEmptyCode_itemsOf_iff : ∀ items : List (List Block), SoundBlocks items.flatten →
    (Chunk.anyItemEmptyCode (itemsOf items) = true ↔ emptyCode ∈ Block.inlinesOf items.flatten)
  | [], _ => by simp [itemsOf, Chunk.anyItemEmptyCode, Block.inlinesOf]
  | item :: rest, h => by
    obtain ⟨hitem, hrest⟩ := soundBlocks_append_iff.1 h
    have hfirst := anyEmptyCode_chunksOf_iff item hitem
    have hmore := anyItemEmptyCode_itemsOf_iff rest hrest
    simp [itemsOf, Chunk.anyItemEmptyCode, inlinesOf_append, hfirst, hmore]

end

/-! ## Documents -/

theorem exists_render?_iff {d : Document} (h : SoundBlocks d.children) :
    (∃ text, render? d = some text) ↔ emptyCode ∉ d.allInlines := by
  rw [Document.allInlines, ← anyEmptyCode_chunksOf_iff d.children h]
  cases hcode : Chunk.anyEmptyCode (chunksOf d.children) <;> simp [render?, hcode]

end BookCatalog.Markdown

namespace BookCatalog.Chapter

/-- **A chapter can be written unless there is empty code in it.** The document that a page becomes has a
CommonMark text exactly when none of the code in it, at any depth, is empty; and while an accepted chapter whose
ordered lists have less than 99 items is written, no more is taken off the margin than stands there. -/
theorem document_renderable_iff {source : String} {anchors : AnchorTable} {d : Document}
    (h : document source anchors = .ok d) :
    ((∃ text, Markdown.render? d = some text) ↔ "" ∉ d.allCode) ∧
      ((∀ items, .list true items ∈ d.allBlocks → items.length < 99) → Markdown.HoldsMargin d) := by
  refine ⟨?_, Markdown.holdsMargin_of_shortLists⟩
  rw [Document.mem_allCode_iff]
  exact Markdown.exists_render?_iff (sound_document h)

/-- A chapter with code in a table, where another cell is empty, and with a numbered list in a quote. -/
def codePage : String :=
  "<div class='body'><table><tr><td></td><td><em><code> let </code></em></td></tr></table>" ++
    "<div class='admonition'><p class='admonition-title'>T</p><ol><li><p>a</p></li><li><p>b</p></li></ol></div></div>"

/-- The number of items in an ordered list. -/
def orderedItemCount : Block → Nat
  | .list true items => items.length
  | _ => 0

theorem shortLists_of_count {d : Document} (h : ∀ b ∈ d.allBlocks, orderedItemCount b < 99) :
    ∀ items, .list true items ∈ d.allBlocks → items.length < 99 :=
  fun items hitems => h (.list true items) hitems

theorem codePage_document_renderable : ∃ d : Document, document codePage ∅ = .ok d ∧
    d.allCode = ["let"] ∧ d.allBlocks.map orderedItemCount = [0, 0, 0, 2, 0, 0] ∧
    (∃ text, Markdown.render? d = some text) ∧ Markdown.HoldsMargin d := by
  obtain ⟨d, hd, h⟩ : ∃ d, (document codePage ∅).toOption = some d ∧
      (d.allCode, d.allBlocks.map orderedItemCount) = (["let"], [0, 0, 0, 2, 0, 0]) :=
    Option.map_eq_some_iff.1 (by decide +kernel)
  obtain ⟨hcode, hcounts⟩ := Prod.mk.inj h
  have hd' := eq_ok_of_toOption hd
  obtain ⟨hrender, hmargin⟩ := document_renderable_iff hd'
  have hshort (b : Block) (hb : b ∈ d.allBlocks) : orderedItemCount b < 99 := by
    have hbound : ∀ n ∈ [0, 0, 0, 2, 0, 0], n < 99 := by decide
    exact hbound _ (hcounts ▸ List.mem_map_of_mem hb)
  exact ⟨d, hd', hcode, hcounts, hrender.2 (by simp [hcode]), hmargin (shortLists_of_count hshort)⟩

/-- A chapter with a `code` element in which nothing stands. -/
def blankCodePage : String := "<div class='body'><p>x<code> </code></p></div>"

/-- The chapter is converted, its ordered lists are short, and it cannot be written. -/
theorem blank_code_not_renderable : ∃ d : Document, document blankCodePage ∅ = .ok d ∧
    (∀ b ∈ d.allBlocks, orderedItemCount b < 99) ∧ ¬∃ text, Markdown.render? d = some text := by
  obtain ⟨d, hd, h⟩ : ∃ d, (document blankCodePage ∅).toOption = some d ∧
      (decide (∀ b ∈ d.allBlocks, orderedItemCount b < 99), Markdown.render? d) = (true, none) :=
    Option.map_eq_some_iff.1 (by decide +kernel)
  obtain ⟨hshort, hnone⟩ := Prod.mk.inj h
  exact ⟨d, eq_ok_of_toOption hd, of_decide_eq_true hshort, by simp [hnone]⟩

end BookCatalog.Chapter
