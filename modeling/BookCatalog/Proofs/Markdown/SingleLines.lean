import BookCatalog.Proofs.Markdown.Places
import BookCatalog.Proofs.Markdown.TableShape

/-!
# Headings and rows of a chapter

A heading is meant to stand on one line, and so is a row of a table. Every line end in the text of a chapter is taken
out before it can end one, but markup is passed through as it is: a heading and a table stand on as many lines more
as there are line ends in their markup (`exists_linesAfter`), unless the erasing of separators takes line ends beside
them (`heading_joined_by_erasing`) or in them (`heading_shortened_by_erasing`).
-/

namespace BookCatalog

open BookCatalog.Html

/-! ## Lines to stand on -/

/-- The line ends in the markup of a line. -/
def Inline.markupLineEnds (line : List Inline) : Nat := ((passed line).map fun s => s.toList.count '\n').sum

/-- The line ends in the markup of a block itself. -/
def Block.markupLineEnds (b : Block) : Nat := (b.lines.map Inline.markupLineEnds).sum

/-- The lines of a block that is written by lines: a heading has one, and a table with a cell has one for its header,
one under it and one for each row. -/
def Block.lineCount? : Block → Option Nat
  | .heading _ _ => some 1
  | .table header rows => if (header ++ rows.flatten).isEmpty then none else some (rows.length + 2)
  | _ => none

/-- A list without items. -/
def Block.isEmptyList : Block → Bool
  | .list _ [] => true
  | _ => false

/-! ## Content of a chapter -/

/-- What holds of the strings in the lines of a chapter, the inlines inside an inline apart: text and code have no blank
but spaces, and markup is an element with its tags. -/
def Inline.IsTranscribed : Inline → Prop
  | .text s | .code s => Text.IsPlain s
  | .html s => ∃ e : Element, s = e.outerMarkup
  | .emphasis _ | .strong _ | .link _ _ | .image _ | .symbolLink _ => True

theorem Chapter.isTranscribed_document {source : String} {anchors : AnchorTable} {d : Document}
    (hd : Chapter.document source anchors = .ok d) : ∀ i ∈ d.allInlines, i.IsTranscribed :=
  have hpervades : Pervades anchors Inline.IsTranscribed :=
    ⟨fun _ => Iff.rfl, fun _ => trivial, fun _ => trivial, fun _ => trivial, fun _ => trivial,
      fun _ => Text.isPlain_tidy _, fun e => ⟨e, rfl⟩⟩
  (hpervades.document hd).2

namespace Markdown

open BookCatalog.Inline

/-! ## Content -/

/-- Strokes that bring the line ends of the markup, and no others. -/
structure Carries (strokes : List Stroke) (markup : List String) : Prop where
  isOpen : ∀ s ∈ strokes, s.IsOpen
  lineEnds : (strokes.map Stroke.lineEnds).sum = (markup.map fun s => s.toList.count '\n').sum

namespace Carries

protected theorem nil : Carries [] [] := ⟨List.forall_mem_nil _, rfl⟩

theorem append {strokes more : List Stroke} {markup later : List String} (h : Carries strokes markup)
    (h' : Carries more later) : Carries (strokes ++ more) (markup ++ later) := by
  refine ⟨List.forall_mem_append.2 ⟨h.isOpen, h'.isOpen⟩, ?_⟩
  rw [List.map_append, List.sum_append, List.map_append, List.sum_append, h.lineEnds, h'.lineEnds]

/-- A text on one line. -/
theorem mark {s : String} (h : '\n' ∉ s.toList) : Carries [⟨.literal, s⟩] [] := by
  refine ⟨List.forall_mem_singleton.2 fun _ hlast => h (List.mem_of_getLast? hlast), ?_⟩
  simp [Stroke.lineEnds, List.count_eq_zero.2 h]

theorem guarded {mode : Escaping} (hmode : mode ≠ .literal) (s : String) : Carries [⟨mode, s⟩] [] := by
  refine ⟨List.forall_mem_singleton.2 fun h => absurd h hmode, ?_⟩
  simp [Stroke.lineEnds, hmode]

theorem markup {s : String} (h : s.toList.getLast? ≠ some '\n') : Carries [⟨.literal, s⟩] [s] := by
  refine ⟨List.forall_mem_singleton.2 fun _ => h, ?_⟩
  simp [Stroke.lineEnds]

end Carries

theorem passed_cons (i : Inline) (rest : List Inline) : passed (i :: rest) = passed [i] ++ passed rest := by
  rw [passed, pieces_cons, List.filterMap_append, passed, passed]

theorem passed_of_inner {i : Inline} (h : i.piece? = none) : passed [i] = passed i.inner := by
  rw [passed, pieces_of_inner h, passed]

theorem passed_texts {content : List Inline} (h : ∀ i ∈ content, ∃ s, i = .text s) : passed content = [] := by
  induction content with
  | nil => rfl
  | cons i rest ih =>
    obtain ⟨⟨s, rfl⟩, hrest⟩ := List.forall_mem_cons.1 h
    rw [passed_cons, ih hrest]
    rfl

theorem lineEnd_not_mem_singleLine (s : String) : '\n' ∉ (singleLine s).toList := by
  intro hmem
  rw [singleLine, String.toList_ofList] at hmem
  obtain ⟨c, -, hc⟩ := List.mem_map.1 hmem
  split at hc
  · cases hc
  · rename_i hne
    exact hne (beq_iff_eq.2 hc)

/-- The address between angle brackets is a text of the line. -/
theorem lineEnd_not_mem_autolink {url : String} {content : List Inline} (hcontent : ∀ i ∈ content, ∃ s, i = .text s)
    (h : isAutolink url (spansOf content)) : '\n' ∉ ("<" ++ shownUrl url ++ ">").toList := by
  have hshown : '\n' ∉ (shownUrl url).toList := by
    unfold isAutolink at h
    rw [Bool.and_eq_true] at h
    cases content with
    | nil => simp [spansOf] at h
    | cons i rest =>
      obtain ⟨s, rfl⟩ := hcontent i List.mem_cons_self
      simp only [spansOf, spanOf, beq_iff_eq] at h
      rw [h.2]
      exact lineEnd_not_mem_singleLine s
  simp [hshown]

theorem lineEnd_not_mem_codeText {literal : String} (h : '\n' ∉ literal.toList) : '\n' ∉ (codeText literal).toList := by
  obtain ⟨n, hticks⟩ := exists_ticks_eq literal.toList
  have hmarks : '\n' ∉ (fence '\x60' (tickCount literal.toList)).toList := by
    rw [hticks, ← List.replicate_succ]
    exact fun hmem => absurd (List.eq_of_mem_replicate hmem) (by decide)
  have hpad : '\n' ∉ (if needsPadding literal.toList then " " else "").toList := by split <;> decide
  simp only [codeText, String.toList_append, List.mem_append, not_or]
  exact ⟨⟨⟨⟨hmarks, hpad⟩, h⟩, hpad⟩, hmarks⟩

theorem exists_outerMarkup_eq (e : Element) : ∃ inner, e.outerMarkup = "<" ++ inner ++ ">" := by
  obtain ⟨space, name, attrs, contents⟩ := e
  rw [Element.outerMarkup]
  dsimp only
  split
  · exact ⟨name ++ String.join (attrs.map Attr.markup), by simp only [startTagMarkup, String.append_assoc]⟩
  · refine ⟨name ++ String.join (attrs.map Attr.markup) ++ ">" ++
      Node.markupOf (space = .html && rawTextNames.contains name) contents ++ "</" ++ name, ?_⟩
    simp only [startTagMarkup, String.append_assoc]

theorem head?_outerMarkup (e : Element) : e.outerMarkup.toList.head? = some '<' := by
  obtain ⟨inner, hinner⟩ := exists_outerMarkup_eq e
  rw [hinner, String.toList_append, String.toList_append]
  rfl

theorem getLast?_outerMarkup (e : Element) : e.outerMarkup.toList.getLast? = some '>' := by
  obtain ⟨inner, hinner⟩ := exists_outerMarkup_eq e
  rw [hinner, String.toList_append, List.getLast?_append]
  rfl

/-- What holds of every inline of a chapter, the inlines inside it apart. -/
def IsOfChapter (i : Inline) : Prop := i.IsSound ∧ i.IsTranscribed

mutual

theorem carries_span (around : Surrounding) : ∀ i : Inline, (∀ j ∈ i.parts, IsOfChapter j) →
    Carries (strokesOfSpan around (spanOf i)) (passed [i])
  | .text s, _ => .guarded (by decide) _
  | .code s, h => by
    have hplain : Text.IsPlain s := (h _ List.mem_cons_self).2
    exact .mark (lineEnd_not_mem_codeText fun hmem => absurd (hplain '\n' hmem (by decide)) (by decide))
  | .html s, h => by
    obtain ⟨e, rfl⟩ : ∃ e : Element, s = e.outerMarkup := (h _ List.mem_cons_self).2
    refine .markup fun hlast => ?_
    rw [getLast?_outerMarkup] at hlast
    cases hlast
  | .image source, _ => by
    rw [spanOf, strokesOfSpan]
    exact ((Carries.mark (by decide)).append (.guarded (by decide) _)).append (.mark (by decide))
  | .symbolLink s, h => (h _ List.mem_cons_self).1.elim
  | .emphasis content, h => by
    rw [parts, List.forall_mem_cons] at h
    have hmark : '\n' ∉ (emphasisMark around).toList := by
      unfold emphasisMark
      split <;> decide
    rw [spanOf, strokesOfSpan, passed_of_inner rfl, ← List.append_nil (passed _)]
    exact ((Carries.mark hmark).append (carries_line _ content h.2)).append (.mark hmark)
  | .strong content, h => by
    rw [parts, List.forall_mem_cons] at h
    have hmark : '\n' ∉ (strongMark around).toList := by
      unfold strongMark
      split <;> decide
    rw [spanOf, strokesOfSpan, passed_of_inner rfl, ← List.append_nil (passed _)]
    exact ((Carries.mark hmark).append (carries_line _ content h.2)).append (.mark hmark)
  | .link url content, h => by
    rw [parts, List.forall_mem_cons] at h
    have htexts : ∀ i ∈ content, ∃ s, i = .text s := h.1.1
    rw [spanOf, strokesOfSpan, passed_of_inner rfl]
    split
    · rename_i hauto
      change Carries _ (passed content)
      rw [passed_texts htexts]
      exact .mark (lineEnd_not_mem_autolink htexts hauto)
    · rw [← List.append_nil (passed _)]
      refine ((Carries.mark (by decide)).append (carries_line _ content h.2)).append ?_
      exact ((Carries.mark (by decide)).append (.guarded (by decide) _)).append (.mark (by decide))

/-- A line of a chapter is written with the line ends of its markup, and no others. -/
theorem carries_line (around : Surrounding) : ∀ line : List Inline, (∀ j ∈ partsOf line, IsOfChapter j) →
    Carries (strokesOf around (spansOf line)) (passed line)
  | [], _ => .nil
  | i :: rest, h => by
    rw [partsOf_cons, List.forall_mem_append] at h
    rw [spansOf, strokesOf, passed_cons]
    exact (carries_span around i h.1).append (carries_line around rest h.2)

end

/-! ## Blocks -/

section
variable {line : List Inline} (h : ∀ j ∈ partsOf line, IsOfChapter j)
include h

theorem isOpen_line : ∀ s ∈ strokesOf .other (spansOf line), s.IsOpen := (carries_line .other line h).isOpen

theorem lineEndsOf_line : lineEndsOf (spansOf line) = markupLineEnds line := (carries_line .other line h).lineEnds

end

theorem standsAlone_of_heading (level : Nat) {content : List Inline} (h : ∀ j ∈ partsOf content, IsOfChapter j) :
    ∃ c, chunksOfBlock (.heading level content) = [c] ∧ c.StandsAlone ∧
      c.alone.OnLine 2 (markupLineEnds content) := by
  have hlevel : 1 ≤ min (max level 1) 6 := by omega
  refine ⟨_, rfl, standsAlone_heading hlevel (isOpen_line h), ?_⟩
  rw [← lineEndsOf_line h]
  exact onLine_writeHeading hlevel (isOpen_line h) true none

/-- A padded row is the row with empty cells after it. -/
theorem paddedCells_eq {columns : Nat} {row : List Cell} (h : row.length ≤ columns) :
    paddedCells columns row = row.map spansOf ++ List.replicate (columns - row.length) [] := by
  apply List.ext_getElem?
  intro c
  by_cases hc : c < columns
  · rw [paddedCells_getElem? columns row hc, ← spansOf_eq_map]
    by_cases hrow : c < row.length
    · rw [List.getElem?_append_left (by simpa using hrow), List.getElem?_map, List.getElem?_eq_getElem hrow]
      rfl
    · rw [List.getElem?_append_right (by simpa using hrow), List.getElem?_eq_none (Nat.le_of_not_lt hrow),
        List.getElem?_replicate, if_pos (by rw [List.length_map]; omega)]
      rfl
  · rw [List.getElem?_eq_none (by simpa [paddedCells] using hc), List.getElem?_eq_none (by simp; omega)]

theorem isOpen_paddedCells {columns : Nat} {row : List Cell} (hcolumns : row.length ≤ columns) (isHeader : Bool)
    (h : ∀ line ∈ row, ∀ j ∈ partsOf line, IsOfChapter j) :
    TableRow.IsOpen ⟨isHeader, paddedCells columns row⟩ ∧
      TableRow.lineEnds ⟨isHeader, paddedCells columns row⟩ = (row.map markupLineEnds).sum := by
  refine ⟨fun cell hcell => ?_, ?_⟩
  · rw [paddedCells_eq hcolumns, List.mem_append] at hcell
    rcases hcell with hcell | hcell
    · obtain ⟨line, hline, rfl⟩ := List.mem_map.1 hcell
      exact isOpen_line (h line hline)
    · rw [List.eq_of_mem_replicate hcell]
      exact List.forall_mem_nil _
  · have hcells : (row.map spansOf).map lineEndsOf = row.map markupLineEnds := by
      rw [List.map_map]
      exact List.map_congr_left fun line hline => lineEndsOf_line (h line hline)
    have hadded : lineEndsOf [] = 0 := rfl
    rw [TableRow.lineEnds, paddedCells_eq hcolumns, List.map_append, List.sum_append, hcells, List.map_replicate,
      hadded, List.sum_replicate_nat, Nat.mul_zero, Nat.add_zero]

theorem standsAlone_of_table {header : List Cell} {rows : List (List Cell)} (hcell : header ++ rows.flatten ≠ [])
    (h : ∀ line ∈ header ++ rows.flatten, ∀ j ∈ partsOf line, IsOfChapter j) :
    ∃ c, chunksOfBlock (.table header rows) = [c] ∧ c.StandsAlone ∧
      c.alone.OnLine 2 (rows.length + 1 + ((header ++ rows.flatten).map markupLineEnds).sum) := by
  have hcolumns : columnCount header rows ≠ 0 := fun hzero => hcell <| by
    obtain ⟨rfl, hrows⟩ := List.forall_mem_cons.1 (columnCount_eq_zero_iff.1 hzero)
    rw [List.nil_append, List.flatten_eq_nil_iff]
    exact hrows
  obtain ⟨t, ht, hrows⟩ : ∃ t, tableOf header rows = some t ∧
      t.rows = ⟨true, paddedCells (columnCount header rows) header⟩ ::
        rows.map fun row => ⟨false, paddedCells (columnCount header rows) row⟩ :=
    ⟨_, by rw [tableOf, if_neg hcolumns], rfl⟩
  have hlength : ∀ row ∈ header :: rows, row.length ≤ columnCount header rows := fun _ => length_le_columnCount
  obtain ⟨hheaderOpen, hheaderEnds⟩ := isOpen_paddedCells (hlength header List.mem_cons_self) true fun line hline =>
    h line (List.mem_append_left _ hline)
  have hbody (row : List Cell) (hrow : row ∈ rows) :=
    isOpen_paddedCells (hlength row (List.mem_cons_of_mem _ hrow)) false fun line hline =>
      h line (List.mem_append_right _ (List.mem_flatten.2 ⟨row, hrow, hline⟩))
  have hopen : ∀ row ∈ t.rows, row.IsOpen := by
    rw [hrows, List.forall_mem_cons, List.forall_mem_map]
    exact ⟨hheaderOpen, fun row hrow => (hbody row hrow).1⟩
  have hends : (t.rows.map TableRow.lineEnds).sum = ((header ++ rows.flatten).map markupLineEnds).sum := by
    have hmap : (rows.map fun row => (⟨false, paddedCells (columnCount header rows) row⟩ : TableRow)).map
        TableRow.lineEnds = (rows.map (List.map markupLineEnds)).map List.sum := by
      rw [List.map_map, List.map_map]
      exact List.map_congr_left fun row hrow => (hbody row hrow).2
    rw [hrows, List.map_cons, List.sum_cons, hheaderEnds, hmap, List.map_append, List.sum_append, List.map_flatten,
      List.sum_flatten]
  have hline := onLine_writeTable hrows (by simpa [paddedCells] using hcolumns)
    (by rw [List.forall_mem_map]; exact fun _ _ => rfl) hopen true none
  rw [List.length_map, hends] at hline
  exact ⟨.table t, by rw [chunksOfBlock, ht]; rfl, standsAlone_table hrows hline, hline⟩

/-- A heading, and a table with a cell, stands alone, on its lines and those that its markup brings. -/
theorem exists_standsAlone {b : Block} {n : Nat} (hn : b.lineCount? = some n)
    (h : ∀ line ∈ b.lines, ∀ j ∈ partsOf line, IsOfChapter j) :
    ∃ c, chunksOfBlock b = [c] ∧ c.StandsAlone ∧
      (c.alone.text ++ ['\n']).count '\n' = n + b.markupLineEnds := by
  have hcount {c : Chunk} {m : Nat} (hline : c.alone.OnLine 2 m) :
      (c.alone.text ++ ['\n']).count '\n' = m + 1 := by
    rw [List.count_append, Pen.text, List.count_reverse, hline.count]
    rfl
  cases b with
  | heading level content =>
    obtain ⟨c, hc, hstands, hline⟩ := standsAlone_of_heading level (h content List.mem_cons_self)
    cases hn
    refine ⟨c, hc, hstands, (hcount hline).trans ?_⟩
    simp [Block.markupLineEnds, Block.lines, Nat.add_comm]
  | table header rows =>
    rw [Block.lineCount?] at hn
    split at hn
    · cases hn
    · rename_i hempty
      cases hn
      obtain ⟨c, hc, hstands, hline⟩ := standsAlone_of_table (by simpa using hempty) h
      refine ⟨c, hc, hstands, (hcount hline).trans ?_⟩
      rw [Block.markupLineEnds, Block.lines]
      omega
  | paragraph | list | blockQuote | codeBlock | htmlBlock => cases hn

/-! ## Chapters -/

section
variable {source : String} {anchors : AnchorTable} {d : Document} (hd : Chapter.document source anchors = .ok d)
  {pre post : List Block} {b : Block} (hb : d.children = pre ++ b :: post) {n : Nat} (hn : b.lineCount? = some n)
include hd

theorem isCalmDocument_of_document (hwords : ∀ s ∈ d.strings, ¬words <:+: s.toList)
    (hlists : ∀ b ∈ d.allBlocks, b.isEmptyList = false) : IsCalmDocument d where
  words := hwords
  markup s hs := by
    obtain ⟨e, rfl⟩ : ∃ e : Element, s = e.outerMarkup := Chapter.isTranscribed_document hd _ hs
    exact head?_outerMarkup e
  items ordered items hmem := by
    rintro rfl
    exact absurd (hlists _ hmem) (by rw [Block.isEmptyList]; decide)

include hb hn

theorem exists_standsAlone_of_document : ∃ c, chunksOfBlock b = [c] ∧ c.StandsAlone ∧
    (c.alone.text ++ ['\n']).count '\n' = n + b.markupLineEnds := by
  have hmem : b ∈ d.allBlocks := by
    rw [Document.allBlocks, hb, Block.partsOf_append, Block.partsOf_cons, Block.parts_eq]
    simp
  refine exists_standsAlone hn fun line hline i hi => ?_
  have hi : i ∈ d.allInlines := List.mem_flatMap.2 ⟨b, hmem, List.mem_flatMap.2 ⟨line, hline, hi⟩⟩
  exact ⟨(Chapter.sound_document hd).2 i hi, Chapter.isTranscribed_document hd i hi⟩

/-- In a chapter that brings no words of a comment and no list without items nothing is erased beside a heading or a
table. -/
theorem not_erasedBeside_of_document (hwords : ∀ s ∈ d.strings, ¬words <:+: s.toList)
    (hlists : ∀ b ∈ d.allBlocks, b.isEmptyList = false) : ¬ErasedBeside pre b := by
  obtain ⟨c, hc, hstands, -⟩ := exists_standsAlone_of_document hd hb hn
  exact not_erasedBeside hc hstands (hb ▸ (isCalmDocument_of_document hd hwords hlists).allIn_isCalm)

/-- **Only markup breaks a heading or a row.** Each heading and each table with a cell at the top of a chapter stands on
lines of its own in the text of the chapter, unless a separator is erased beside it: as many as its kind has, and one
more for each line end in its markup. -/
theorem exists_linesAfter (hbeside : ¬ErasedBeside pre b) {text : String} (hrender : render? d = some text) :
    ∃ lines, LinesAfter pre b text lines ∧ lines.count '\n' = n + b.markupLineEnds := by
  obtain ⟨c, hc, hstands, hcount⟩ := exists_standsAlone_of_document hd hb hn
  obtain ⟨children⟩ := d
  dsimp only at hb
  subst hb
  exact ⟨_, linesAfter_of_standsAlone hc hstands hbeside hrender, hcount⟩

end

/-- A chapter with a heading, and with a table that has a line end in its markup. -/
def brokenCellPage : String :=
  "<div class='body'><h1>a <code>b</code></h1><table><tr><td><sup>c\nd</sup></td></tr></table></div>"

theorem exists_linesAfter_brokenCell : ∃ d text, Chapter.document brokenCellPage ∅ = .ok d ∧
    render? d = some text ∧ ∃ heading table, d.children = [heading] ++ table :: [] ∧
      table.lineCount? = some 3 ∧ table.markupLineEnds = 1 ∧ ¬ErasedBeside [heading] table ∧
        ∃ lines, LinesAfter [heading] table text lines ∧ lines.count '\n' = 3 + table.markupLineEnds := by
  obtain ⟨d, hd, h⟩ : ∃ d, (Chapter.document brokenCellPage ∅).toOption = some d ∧
      (d.children.map fun b => (b.lineCount?, b.markupLineEnds), (render? d).isSome,
        decide (∀ s ∈ d.strings, ¬words <:+: s.toList), decide (∀ b ∈ d.allBlocks, b.isEmptyList = false)) =
        ([(some 1, 0), (some 3, 1)], true, true, true) :=
    Option.map_eq_some_iff.1 (by decide +kernel)
  simp only [Prod.mk.injEq, decide_eq_true_eq] at h
  obtain ⟨hchildren, hsome, hwords, hlists⟩ := h
  obtain ⟨text, hrender⟩ := Option.isSome_iff_exists.1 hsome
  obtain ⟨heading, rest, hheading, -, hrest⟩ := List.map_eq_cons_iff.1 hchildren
  obtain ⟨table, more, rfl, htable, hmore⟩ := List.map_eq_cons_iff.1 hrest
  obtain rfl := List.map_eq_nil_iff.1 hmore
  have hd' := eq_ok_of_toOption hd
  have hb : d.children = [heading] ++ table :: [] := hheading
  simp only [Prod.mk.injEq] at htable
  have hbeside := not_erasedBeside_of_document hd' hb htable.1 hwords hlists
  exact ⟨d, text, hd', hrender, heading, table, hb, htable.1, htable.2, hbeside,
    exists_linesAfter hd' hb htable.1 hbeside hrender⟩

/-- A chapter that is a heading with a line end in its markup. -/
def brokenHeadingPage : String := "<div class='body'><h1>x <sup>a\nb</sup></h1></div>"

/-- **A heading on two lines.** The document is one heading, and its text has two lines. -/
theorem heading_broken_by_markup : ∃ d b, Chapter.document brokenHeadingPage ∅ = .ok d ∧ d.children = [b] ∧
    b.lineCount? = some 1 ∧ render? d = some "# x <sup>a\nb</sup>\n" ∧
      "# x <sup>a\nb</sup>\n".toList.count '\n' = 2 := by
  obtain ⟨d, hd, h⟩ : ∃ d, (Chapter.document brokenHeadingPage ∅).toOption = some d ∧
      (d.children.map Block.lineCount?, render? d) = ([some 1], some "# x <sup>a\nb</sup>\n") :=
    Option.map_eq_some_iff.1 (by decide +kernel)
  simp only [Prod.mk.injEq] at h
  obtain ⟨hchildren, hrender⟩ := h
  obtain ⟨b, rest, hb, hcount, hrest⟩ := List.map_eq_cons_iff.1 hchildren
  obtain rfl := List.map_eq_nil_iff.1 hrest
  exact ⟨d, b, eq_ok_of_toOption hd, hb, hcount, hrender, by decide⟩

/-- An item in which a list without items follows a list, and a heading after them. -/
def emptyListPage : String :=
  "<div class='body'><ul><li><ul><li><p>a</p></li></ul><ul></ul></li></ul><h2>b</h2></div>"

/-- **A heading that is joined to the line before it.** The separator at the end of the list is erased, with the line
ends after it. -/
theorem heading_joined_by_erasing : ∃ d list heading, Chapter.document emptyListPage ∅ = .ok d ∧
    d.children = [list] ++ heading :: [] ∧ heading.lineCount? = some 1 ∧ render? d = some "- - a\n  ## b\n" ∧
      ¬∃ lines, LinesAfter [list] heading "- - a\n  ## b\n" lines := by
  obtain ⟨d, hd, h⟩ : ∃ d, (Chapter.document emptyListPage ∅).toOption = some d ∧
      (d.children.map fun b => (b.lineCount?, render? ⟨[b]⟩), render? d) =
        ([(none, some "- - a\n  <!-- end list -->\n"), (some 1, some "## b\n")], some "- - a\n  ## b\n") :=
    Option.map_eq_some_iff.1 (by decide +kernel)
  simp only [Prod.mk.injEq] at h
  obtain ⟨hchildren, hrender⟩ := h
  obtain ⟨list, rest, hlist, hfirst, hrest⟩ := List.map_eq_cons_iff.1 hchildren
  obtain ⟨heading, more, rfl, hheading, hmore⟩ := List.map_eq_cons_iff.1 hrest
  obtain rfl := List.map_eq_nil_iff.1 hmore
  simp only [Prod.mk.injEq] at hfirst hheading
  refine ⟨d, list, heading, eq_ok_of_toOption hd, hlist, hheading.1, hrender, fun ⟨lines, hlines⟩ => ?_⟩
  -- the text does not go on after that of the list
  obtain ⟨before, gap, after, hbefore, htext, -⟩ := hlines.place
  rw [hfirst.2, Option.some_inj] at hbefore
  have hprefix : before <+: "- - a\n  ## b\n".toList := by
    rw [htext, List.append_assoc, List.append_assoc]
    exact List.prefix_append _ _
  rw [← String.toList_ofList (l := before), ← hbefore] at hprefix
  exact absurd hprefix (by decide)

/-- A heading with a separator in its markup. -/
def separatorPage : String := "<div class='body'><h2><sup><!-- end list -->\n\n</sup></h2></div>"

/-- **A heading that loses line ends of its markup.** They are erased with the separator before them. -/
theorem heading_shortened_by_erasing : ∃ d heading, Chapter.document separatorPage ∅ = .ok d ∧
    d.children = [] ++ heading :: [] ∧ heading.lineCount? = some 1 ∧ heading.markupLineEnds = 2 ∧
      render? d = some "## <sup></sup>\n" := by
  obtain ⟨d, hd, h⟩ : ∃ d, (Chapter.document separatorPage ∅).toOption = some d ∧
      (d.children.map fun b => (b.lineCount?, b.markupLineEnds), render? d) =
        ([(some 1, 2)], some "## <sup></sup>\n") :=
    Option.map_eq_some_iff.1 (by decide +kernel)
  simp only [Prod.mk.injEq] at h
  obtain ⟨hchildren, hrender⟩ := h
  obtain ⟨heading, more, hheading, hcounts, hmore⟩ := List.map_eq_cons_iff.1 hchildren
  obtain rfl := List.map_eq_nil_iff.1 hmore
  simp only [Prod.mk.injEq] at hcounts
  exact ⟨d, heading, eq_ok_of_toOption hd, hheading, hcounts.1, hcounts.2, hrender⟩

end Markdown

end BookCatalog
