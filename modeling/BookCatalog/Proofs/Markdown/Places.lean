import BookCatalog.Proofs.Chapter.Renderable
import BookCatalog.Proofs.Markdown.LineEnds
import BookCatalog.Proofs.Markdown.Separators

/-!
# Headings and tables in their place

A heading and a table begin with a mark of their own, so at the top of a document they are written as they would be
written alone (`Chunk.StandsAlone`), on lines of their own. When no separator is erased beside them
(`ErasedBeside`), the text of the document is the text of the blocks before, then line ends, then the lines of the block
as they are alone, then the rest (`linesAfter_of_standsAlone`). None is when the content of the document brings no
comment (`not_erasedBeside`).
-/

namespace BookCatalog.Markdown

/-! ## The next line -/

namespace Pen

variable {p : Pen}

/-- The next text begins a line. -/
def Waits (p : Pen) : Prop := p.reversed = [] ∨ 0 < p.breaks

theorem waits_endLine (p : Pen) : p.endLine.Waits := .inr p.breaks_endLine_pos

theorem waits_endBlock (p : Pen) : p.endBlock.Waits := .inr p.breaks_endBlock_pos

theorem reversed_makeBreaks_nil : ∀ (n : Nat) (p : Pen), (makeBreaks n [] p).reversed = p.reversed
  | 0, _ => rfl
  | n + 1, p => reversed_makeBreaks_nil n { p with lineStart := true, contentStart := true }

theorem Waits.startsLine_settle (h : p.Waits) : p.settle.StartsLine := by
  rcases h with h | h
  · refine .inl ?_
    unfold settle
    dsimp only
    rw [h, reversed_makeBreaks_nil, h]
  · exact Pen.startsLine_settle h

/-- Without a margin breaks are line ends. -/
theorem exists_reversed_makeBreaks : ∀ (n : Nat) (seen : List Char) (p : Pen), p.margin = [] →
    ∃ k, (makeBreaks n seen p).reversed = List.replicate k '\n' ++ p.reversed
  | 0, _, _, _ => ⟨0, rfl⟩
  | n + 1, [], p, _ => ⟨0, reversed_makeBreaks_nil (n + 1) p⟩
  | n + 1, c :: before, p, h => by
    rw [makeBreaks]
    split
    · exact exists_reversed_makeBreaks n before { p with lineStart := true, contentStart := true } h
    · obtain ⟨k, hk⟩ := exists_reversed_makeBreaks n (c :: before) { p with
        lineStart := true, contentStart := true
        reversed := (if n = 0 then [] else p.margin.reverse) ++ '\n' :: p.reversed } h
      refine ⟨k + 1, hk.trans ?_⟩
      simp [h, List.replicate_succ']

theorem exists_reversed_settle (h : p.margin = []) :
    ∃ k, p.settle.reversed = List.replicate k '\n' ++ p.reversed :=
  exists_reversed_makeBreaks _ p.reversed p h

theorem AtTop.eq_mk {q : Pen} (hq : q.AtTop) (hbreaks : q.breaks = 0) (hline : q.lineStart = false)
    (hcontent : q.contentStart = false) :
    q = { reversed := q.reversed, lineStart := false, contentStart := false } := by
  obtain ⟨reversed, margin, breaks, lineStart, contentStart, tight, counters, inCell⟩ := q
  obtain ⟨hmargin, htight, hcounters, hcell⟩ := hq
  subst hbreaks hline hcontent hmargin htight hcounters hcell
  rfl

/-- A text at the top is written as it is alone, under the text before it. -/
theorem AtTop.literal_eq (hp : p.AtTop) {s : String} {cs : List Char} {c : Char} (hs : s.toList = cs ++ [c])
    (hc : c ≠ '\n') (hdigit : isDigit c = false) : p.literal s = (({} : Pen).literal s).onto p.settle.reversed := by
  have hne : s ≠ "" := ne_empty_of_toList_concat hs
  have heq {q : Pen} (hq : q.AtTop) : q.literal s =
      { reversed := s.toList.reverse ++ q.settle.reversed, lineStart := false, contentStart := false } := by
    obtain ⟨hline, hcontent⟩ := literal_starts hs hc hdigit q
    rw [← hq.reversed_literal hne]
    exact (hq.of_sameFrame ((Plain.literal s).keeps q)).eq_mk (breaks_literal hne q) hline hcontent
  have hnil : ({} : Pen).settle.reversed = [] := rfl
  rw [heq hp, heq .start, hnil, List.append_nil]
  rfl

end Pen

theorem waits_writeItems (ordered : Bool) : ∀ (items : List (List Chunk)) {p : Pen}, p.Waits →
    (writeItems ordered items p).Waits
  | [], _, h => h
  | item :: rest, p, _ => by
    rw [writeItems]
    exact waits_writeItems ordered rest (Pen.waits_endLine _)

/-- After a block the next text begins a line. -/
theorem waits_writeChunk (inItem first : Bool) (next : Option Chunk) (c : Chunk) {p : Pen} (h : p.Waits) :
    (writeChunk inItem first next c p).Waits := by
  cases c with
  | list ordered items =>
    rw [writeChunk_eq]
    split
    · exact Pen.waits_endBlock _
    · rw [writeList_eq]
      have hentered : (({ p with tight := p.tight || inItem } : Pen).enterList ordered).Waits := by
        cases ordered <;> exact h
      have hitems := waits_writeItems ordered items hentered
      cases ordered <;> exact hitems
  | heading | paragraph | blockQuote | htmlBlock | table =>
    rw [writeChunk]
    exact Pen.waits_endBlock _
  | codeBlock =>
    rw [writeChunk, writeCodeBlock]
    exact Pen.waits_endBlock _

theorem waits_writeChunks (inItem : Bool) : ∀ (first : Bool) (cs : List Chunk) {p : Pen}, p.Waits →
    (writeChunks inItem first cs p).Waits
  | _, [], _, h => h
  | first, c :: rest, p, h => by
    rw [writeChunks]
    exact waits_writeChunks inItem false rest (waits_writeChunk inItem first rest.head? c h)

/-! ## Blocks that stand alone -/

/-- The pen after a block that is written alone. -/
def Chunk.alone (c : Chunk) : Pen := writeChunk false true none c {}

/-- A block that is written at the top as it is alone, on lines of its own: it begins with a character that is in no
separator, and it leaves its last line to be ended. -/
structure Chunk.StandsAlone (c : Chunk) : Prop where
  leaf : c.isLeaf
  joinsList : c.joinsList = false
  written : ∀ (first : Bool) (next : Option Chunk) {p : Pen}, p.AtTop → p.Waits →
    ∃ k, writeChunk false first next c p = c.alone.onto (List.replicate k '\n' ++ p.reversed) ∧
      EndsLine (List.replicate k '\n' ++ p.reversed).reverse
  first : ∃ x ∉ listSeparator, ∃ rest, c.alone.text = x :: rest
  breaks : 0 < c.alone.breaks
  last : ∃ x rest, c.alone.reversed = x :: rest ∧ x ≠ '\n'

/-- How a block begins: with breaks, then with a mark, and what is written after the mark. -/
structure Chunk.Opening (c : Chunk) where
  start : Pen → Pen
  mark : String
  rest : Pen → Pen
  plain_start : Plain start
  silent : ∀ p, (start p).reversed = p.reversed
  waits : ∀ p : Pen, p.Waits → (start p).Waits
  plain_rest : Plain rest
  first : ∃ x ∉ listSeparator, mark.toList.head? = some x
  last : ∃ before y, mark.toList = before ++ [y] ∧ y ≠ '\n' ∧ Pen.isDigit y = false
  written : ∀ (first : Bool) (next : Option Chunk) (p : Pen),
    writeChunk false first next c p = rest ((start p).literal mark)

namespace Chunk.Opening

variable {c : Chunk} (o : c.Opening)
include o

theorem mark_ne_empty : o.mark ≠ "" := by
  obtain ⟨before, y, hmark, -, -⟩ := o.last
  exact Pen.ne_empty_of_toList_concat hmark

/-- At the top a mark is written as it is alone, after line ends. -/
theorem literal_start {p : Pen} (hp : p.AtTop) :
    (o.start p).literal o.mark = (({} : Pen).literal o.mark).onto (o.start p).settle.reversed := by
  obtain ⟨before, y, hmark, hy, hdigit⟩ := o.last
  exact (hp.of_sameFrame (o.plain_start.keeps p)).literal_eq hmark hy hdigit

theorem alone_eq : c.alone = o.rest (({} : Pen).literal o.mark) := by
  have hempty : (o.start {}).settle.reversed = [] := by
    unfold Pen.settle
    dsimp only
    rw [o.silent, Pen.reversed_makeBreaks_nil, o.silent]
  rw [Chunk.alone, o.written, o.literal_start .start, hempty]
  simp [Pen.onto]

theorem reversed_mark : (({} : Pen).literal o.mark).reversed = o.mark.toList.reverse := by
  rw [Pen.AtTop.start.reversed_literal o.mark_ne_empty]
  exact List.append_nil _

theorem written_eq (first : Bool) (next : Option Chunk) {p : Pen} (hp : p.AtTop) :
    writeChunk false first next c p = c.alone.onto (o.start p).settle.reversed := by
  have hink : (({} : Pen).literal o.mark).HasInk := by
    obtain ⟨before, y, hmark, hy, -⟩ := o.last
    exact ⟨y, by rw [o.reversed_mark, hmark]; simp, hy⟩
  rw [o.written, o.literal_start hp, o.plain_rest.onto_eq _ _ hink, ← o.alone_eq]

theorem exists_text_eq : ∃ x ∉ listSeparator, ∃ rest, c.alone.text = x :: rest := by
  obtain ⟨x, hx, hfirst⟩ := o.first
  obtain ⟨rest, hrest⟩ := List.head?_eq_some_iff.1 hfirst
  obtain ⟨added, hadded⟩ := o.plain_rest.grows (({} : Pen).literal o.mark)
  refine ⟨x, hx, rest ++ added.reverse, ?_⟩
  rw [Pen.text, o.alone_eq, ← hadded, o.reversed_mark, List.reverse_append, List.reverse_reverse, hrest]
  rfl

/-- A block that opens with a mark stands alone when its last line is left open. -/
theorem standsAlone (hleaf : c.isLeaf) (hjoins : c.joinsList = false) (hbreaks : 0 < c.alone.breaks) {n m : Nat}
    (hline : c.alone.OnLine n m) : c.StandsAlone := by
  refine ⟨hleaf, hjoins, fun first next p hp hwaits => ?_, o.exists_text_eq, hbreaks, hline.last⟩
  obtain ⟨k, hk⟩ := Pen.exists_reversed_settle (hp.of_sameFrame (o.plain_start.keeps p)).margin
  rw [o.silent] at hk
  refine ⟨k, by rw [o.written_eq first next hp, hk], ?_⟩
  rw [← hk]
  exact (o.waits p hwaits).startsLine_settle.endsLine

end Chunk.Opening

/-- A heading opens with number signs. -/
def headingOpening (level : Nat) (content : List Span) : (Chunk.heading (level + 1) content).Opening where
  start p := p
  mark := fence '#' (level + 1)
  rest p := (writeSpans .other content { p.literal " " with contentStart := true }).endBlock
  plain_start := .id
  silent _ := rfl
  waits _ := id
  plain_rest := Plain.endBlock.comp ((Plain.writeSpans .other content).comp
    (Plain.setContentStart.comp (Plain.literal " ")))
  first := ⟨'#', by decide, by rw [fence, String.toList_ofList]; rfl⟩
  last := ⟨List.replicate level '#', '#', by rw [fence, String.toList_ofList, List.replicate_succ'], by decide⟩
  written first next p := by
    rw [writeChunk]
    simp only [Bool.or_false]

theorem standsAlone_heading {level : Nat} (hlevel : 1 ≤ level) {content : List Span}
    (hopen : ∀ s ∈ strokesOf .other content, s.IsOpen) : (Chunk.heading level content).StandsAlone := by
  obtain ⟨k, rfl⟩ : ∃ k, level = k + 1 := Nat.exists_eq_add_one.2 hlevel
  exact (headingOpening k content).standsAlone rfl rfl (Pen.breaks_endBlock_pos _)
    (onLine_writeHeading hlevel hopen true none)

theorem plain_finishRow (alignments : List Alignment) (row : TableRow) : Plain (finishRow alignments row) := by
  have hcells : Plain fun p => row.cells.foldl (fun p cell => writeCell cell p) p :=
    .foldl fun cell _ => .writeCell cell
  exact .ite ((Plain.writeDelimiters alignments).comp hcells) hcells

/-- A table opens with the pipe of its header. -/
def tableOpening {t : Table} {header : TableRow} {rows : List TableRow} (h : t.rows = header :: rows) :
    (Chunk.table t).Opening where
  start p := p.endBlock.endLine
  mark := "|"
  rest p := (rows.foldl (fun p row => writeRow t.alignments row p) (finishRow t.alignments header p)).endBlock
  plain_start := Plain.endLine.comp .endBlock
  silent _ := rfl
  waits p _ := Pen.waits_endLine p.endBlock
  plain_rest := Plain.endBlock.comp ((Plain.foldl fun row _ => Plain.writeRow t.alignments row).comp
    (plain_finishRow t.alignments header))
  first := ⟨'|', by decide, rfl⟩
  last := ⟨[], '|', rfl, by decide⟩
  written first next p := by
    rw [writeChunk, writeTable, h, List.foldl_cons, writeRow_eq]
    simp only [Bool.or_false]

theorem standsAlone_table {t : Table} {header : TableRow} {rows : List TableRow} (ht : t.rows = header :: rows)
    {n m : Nat} (hline : (Chunk.table t).alone.OnLine n m) : (Chunk.table t).StandsAlone :=
  (tableOpening ht).standsAlone rfl rfl (Pen.breaks_endBlock_pos _) hline

/-! ## Blocks in a text -/

theorem renderText_eq_of_reversed {chunks : List Chunk} {k : Nat}
    (h : EndsLine (List.replicate k '\n' ++ (writeChunks false true chunks {}).reversed).reverse) :
    ∃ gap, (List.replicate k '\n' ++ (writeChunks false true chunks {}).reversed).reverse =
      renderText chunks ++ List.replicate gap '\n' := by
  unfold renderText
  dsimp only
  generalize (writeChunks false true chunks {}).reversed = written at h ⊢
  cases written with
  | nil => exact ⟨k, by simp⟩
  | cons c rest =>
    dsimp only
    by_cases hc : c = '\n'
    · rw [if_pos hc]
      exact ⟨k, by simp⟩
    · rw [if_neg hc]
      cases k with
      | zero =>
        rcases h with h | h
        · simp at h
        · simp [hc] at h
      | succ k => exact ⟨k, by simp [List.replicate_succ']⟩

theorem endsLine_renderText (chunks : List Chunk) : EndsLine (renderText chunks) := by
  unfold renderText
  dsimp only
  generalize (writeChunks false true chunks {}).reversed = written
  cases written with
  | nil => exact .inl rfl
  | cons c rest =>
    refine .inr ?_
    dsimp only
    split
    · rename_i hc
      rw [hc, List.getLast?_reverse]
      rfl
    · rw [List.getLast?_reverse]
      rfl

/-- A block that stands alone is written between the blocks around it as it is alone. -/
theorem exists_renderText_eq {c : Chunk} (h : c.StandsAlone) (pre post : List Chunk) :
    ∃ gap after, renderText (pre ++ c :: post) =
      renderText pre ++ List.replicate gap '\n' ++ c.alone.text ++ '\n' :: after := by
  have htop := Pen.AtTop.start.writeChunks true pre
  have hwaits : (writeChunks false true pre {}).Waits := waits_writeChunks false true pre (.inl rfl)
  obtain ⟨k, hk, hends⟩ := h.written (true && pre.isEmpty) post.head? htop hwaits
  obtain ⟨gap, hgap⟩ := renderText_eq_of_reversed hends
  have hbefore : writeBefore false true c pre {} = writeChunks false true pre {} := by
    rw [writeBefore, h.joinsList, Bool.and_false]
    rfl
  obtain ⟨x, rest, hx, hne⟩ := h.last
  obtain ⟨added, hadded, hstart⟩ := exists_writeChunks_eq h.breaks hx hne false false post
  have hink : c.alone.HasInk := ⟨x, hx ▸ List.mem_cons_self, hne⟩
  have hwritten : (writeChunks false true (pre ++ c :: post) {}).reversed =
      added ++ x :: (rest ++ (List.replicate k '\n' ++ (writeChunks false true pre {}).reversed)) := by
    rw [writeChunks_append_cons, hbefore, hk, (Local.writeChunks false false post).onto_eq _ _ hink, Pen.onto, hadded,
      hx]
    simp
  obtain ⟨after, hafter⟩ := List.head?_eq_some_iff.1 (head?_closedText hstart)
  refine ⟨gap, after, ?_⟩
  rw [renderText_eq hne hwritten, ← List.cons_append, ← hx, List.reverse_append, hgap, hafter, Pen.text]

/-- In a text the lines of a block are those of the block alone; they stand after the text of the blocks before it. -/
structure LinesAfter (pre : List Block) (b : Block) (text : String) (lines : List Char) : Prop where
  alone : render? ⟨[b]⟩ = some (String.ofList lines)
  ends : lines.getLast? = some '\n'
  place : ∃ before gap after, render? ⟨pre⟩ = some (String.ofList before) ∧
    text.toList = before ++ List.replicate gap '\n' ++ lines ++ after ∧
    EndsLine (before ++ List.replicate gap '\n')

/-- A text ends with a comment, line ends apart. -/
def EndsInComment (cs : List Char) : Prop := ∃ before k, cs = before ++ comment ++ List.replicate k '\n'

section
variable {cs : List Char}

/-- A separator that reaches into line ends begins with a comment at the end of the text before them. -/
theorem endsInComment_of_suffix {a b : List Char} (hab : listSeparator = a ++ b) (hb : b.head? = some '\n')
    (hsuffix : a <:+ cs) : EndsInComment cs := by
  obtain ⟨x, rfl, hx⟩ := exists_eq_comment_append hab hb
  obtain ⟨before, rfl⟩ := hsuffix
  exact ⟨before, x.length, by rw [List.append_assoc, List.eq_replicate_iff.2 ⟨rfl, hx⟩]; simp⟩

/-- Line ends after a text that does not end with a comment are in no separator. -/
theorem apart_lineEnds (h : ¬EndsInComment cs) (k : Nat) :
    Apart listSeparator cs (List.replicate k '\n') := by
  rintro a b - hb hab hsuffix hbegin
  obtain ⟨y, b, rfl⟩ := List.exists_cons_of_ne_nil hb
  obtain rfl : y = '\n' := List.eq_of_mem_replicate (hbegin.subset List.mem_cons_self)
  exact h (endsInComment_of_suffix hab rfl hsuffix)

/-- Ended lines that do not end with a comment stay ended when separators are erased. -/
theorem EndsLine.erase (hends : EndsLine cs) (h : ¬EndsInComment cs) : EndsLine (erase listSeparator cs) := by
  rcases hends with rfl | hends
  · exact .inl rfl
  · obtain ⟨front, rfl⟩ := List.getLast?_eq_some_iff.1 hends
    have hfront : ¬EndsInComment front := fun ⟨before, k, hfront⟩ =>
      h ⟨before, k + 1, by rw [hfront, List.replicate_succ']; simp⟩
    have hlast : Markdown.erase listSeparator ['\n'] = ['\n'] := rfl
    have herased : Markdown.erase listSeparator (front ++ ['\n']) = _ := erase_append (apart_lineEnds hfront 1)
    rw [herased, hlast]
    exact .inr (by simp)

/-- A text that holds no separator with a blank line after it is apart from a line end. -/
theorem apart_lineEnd_of_last {c : Char} {rest ds : List Char} (hlast : cs.reverse = c :: rest) (hc : c ≠ '\n')
    (h : ¬listSeparator <:+: cs ++ ['\n', '\n']) : Apart listSeparator cs ('\n' :: ds) := by
  rintro a b - hb hab ⟨before, rfl⟩ hbegin
  obtain ⟨y, b, rfl⟩ := List.exists_cons_of_ne_nil hb
  obtain ⟨rfl, -⟩ := List.cons_prefix_cons.1 hbegin
  obtain ⟨x, rfl, hx⟩ := exists_eq_comment_append hab rfl
  -- the text ends with ink, so the comment stands at its end
  obtain rfl | ⟨x, d, rfl⟩ := List.eq_nil_or_concat x
  · rw [List.append_nil, listSeparator_eq, List.append_cancel_left_eq] at hab
    refine h ⟨before, [], ?_⟩
    rw [listSeparator_eq]
    simp
  · rw [List.concat_eq_append] at hx hlast
    have hd : d = c := by
      rw [← List.append_assoc, ← List.append_assoc, List.reverse_concat] at hlast
      exact (List.cons.inj hlast).1
    exact hc (hd ▸ hx d (List.mem_append_right x (List.mem_singleton_self d)))

end

/-- A separator is erased beside a block: the text of the blocks before it ends with a comment, or the text of
the block with a blank line after it has a separator in it. -/
def ErasedBeside (pre : List Block) (b : Block) : Prop :=
  EndsInComment (renderText (chunksOf pre)) ∨ listSeparator <:+: renderText (chunksOf [b]) ++ ['\n']

theorem Fresh.not_endsInComment {short kept : Prop} {cs : List Char} (h : Fresh short kept [] cs.reverse) :
    ¬EndsInComment cs := by
  rintro ⟨before, k, rfl⟩
  obtain ⟨⟨c, hc, hne⟩, -⟩ := h.place (List.replicate k '\n') before.reverse (by simp [commentRev])
    (by simp [commentRev, comment, endOfList])
  exact hne (List.eq_of_mem_replicate hc)

section
variable {pre post : List Block} {b : Block} {c : Chunk} (hb : chunksOfBlock b = [c]) (hstands : c.StandsAlone)
include hb hstands

theorem renderText_of_standsAlone : renderText (chunksOf [b]) = c.alone.text ++ ['\n'] := by
  obtain ⟨y, more, hy, hne⟩ := hstands.last
  have hrendered : renderText [c] = _ ++ closedText [] := renderText_eq hne hy
  rw [chunksOf, hb, chunksOf, List.append_nil]
  rwa [← hy] at hrendered

/-- Where no content brings a comment, nothing is erased beside a block that stands alone. -/
theorem not_erasedBeside (hcalm : Chunk.AllIn Chunk.IsCalm (chunksOf (pre ++ b :: post))) :
    ¬ErasedBeside pre b := by
  rw [chunksOf_append, chunksOf, hb, allIn_append_iff] at hcalm
  obtain ⟨hpre, hc, -⟩ := hcalm
  have hfresh : Fresh False _ [] _ := fresh_renderText hpre False.elim
  have hfree : ¬comment <:+: c.alone.text :=
    (Pen.Ready.start.writeLeaf false true none hstands.leaf hc.self).1.not_comment_isInfix
  rintro (hbefore | hown)
  · exact hfresh.not_endsInComment hbefore
  · rw [renderText_of_standsAlone hb hstands, List.append_assoc] at hown
    have hcomment := ((List.prefix_append comment ['\n', '\n']).isInfix.trans hown : comment <:+: _)
    rcases isInfix_append_cons_of_not_mem not_lineEnd_mem_comment hcomment with hoccurs | hoccurs
    · exact hfree hoccurs
    · exact absurd hoccurs (by decide)

theorem erase_alone (hbeside : ¬ErasedBeside pre b) :
    erase listSeparator c.alone.text = c.alone.text ∧
      erase listSeparator (c.alone.text ++ ['\n']) = c.alone.text ++ ['\n'] := by
  rw [ErasedBeside, not_or, renderText_of_standsAlone hb hstands] at hbeside
  have hsingle : ¬listSeparator <:+: c.alone.text ++ ['\n'] := fun hoccurs =>
    hbeside.2 (hoccurs.trans (List.prefix_append _ _).isInfix)
  have hfree : ¬listSeparator <:+: c.alone.text := fun hoccurs =>
    hsingle (hoccurs.trans (List.prefix_append _ _).isInfix)
  exact ⟨(erase_eq_self_iff listSeparator_ne_nil).2 hfree, (erase_eq_self_iff listSeparator_ne_nil).2 hsingle⟩

/-- Nothing is erased in the block, and what is erased before it stays among the blocks there. -/
theorem exists_erase_renderText_eq (hbeside : ¬ErasedBeside pre b) (post : List Block) : ∃ gap after,
    erase listSeparator (renderText (chunksOf (pre ++ b :: post))) =
      erase listSeparator (renderText (chunksOf pre)) ++ List.replicate gap '\n' ++ (c.alone.text ++ ['\n']) ++
        after := by
  obtain ⟨gap, after, htext⟩ := exists_renderText_eq hstands (chunksOf pre) (chunksOf post)
  obtain ⟨x, hx, rest, hfirst⟩ := hstands.first
  obtain ⟨y, more, hy, hne⟩ := hstands.last
  have hown := (erase_alone hb hstands hbeside).1
  rw [ErasedBeside, not_or, renderText_of_standsAlone hb hstands] at hbeside
  have hbegins : Apart listSeparator (renderText (chunksOf pre) ++ List.replicate gap '\n')
      (c.alone.text ++ '\n' :: after) := by
    rw [hfirst]
    exact apart_of_not_mem hx
  have hends : Apart listSeparator c.alone.text ('\n' :: after) :=
    apart_lineEnd_of_last (by rw [Pen.text, List.reverse_reverse, hy]) hne (by simpa using hbeside.2)
  have hgap : ¬listSeparator <:+: List.replicate gap '\n' := fun hoccurs =>
    absurd (List.eq_of_mem_replicate (hoccurs.subset (by decide : '<' ∈ listSeparator))) (by decide)
  have hnext : ¬listSeparator <+: '\n' :: after := fun hbegin => by
    simp [listSeparator, endOfList] at hbegin
  refine ⟨gap, erase listSeparator after, ?_⟩
  rw [chunksOf_append, chunksOf, hb, List.singleton_append, htext, List.append_assoc, erase_append hbegins,
    erase_append (apart_lineEnds hbeside.1 gap), erase_append hends,
    (erase_eq_self_iff listSeparator_ne_nil).2 hgap, hown, erase_cons_of_not_begins hnext]
  simp

/-- **Where a block that stands alone is found.** When no separator is erased beside it, it stands on its own lines in
the text of the document, after the text of the blocks before it. -/
theorem linesAfter_of_standsAlone (hbeside : ¬ErasedBeside pre b) {text : String}
    (hrender : render? ⟨pre ++ b :: post⟩ = some text) : LinesAfter pre b text (c.alone.text ++ ['\n']) := by
  obtain ⟨hempty, rfl⟩ := render?_eq_some_iff.1 hrender
  obtain ⟨gap, after, herased⟩ := exists_erase_renderText_eq hb hstands hbeside post
  dsimp only at hempty
  rw [chunksOf_append, chunksOf, hb, anyEmptyCode_append, Bool.or_eq_false_iff, List.singleton_append,
    Chunk.anyEmptyCode, Bool.or_eq_false_iff] at hempty
  refine ⟨?_, List.getLast?_concat, erase listSeparator (renderText (chunksOf pre)), gap, after, ?_, ?_, ?_⟩
  · refine render?_eq_some_iff.2 ⟨?_, ?_⟩
    · rw [chunksOf, hb, chunksOf, List.append_nil, Chunk.anyEmptyCode, hempty.2.1]
      rfl
    · rw [renderText_of_standsAlone hb hstands, (erase_alone hb hstands hbeside).2]
  · exact render?_eq_some_iff.2 ⟨hempty.1, rfl⟩
  · rw [String.toList_ofList, herased]
  · refine ((endsLine_renderText _).erase (not_or.1 hbeside).1).append ?_
    cases gap with
    | zero => exact .inl rfl
    | succ gap => exact .inr (by simp [List.replicate_succ'])

end

end BookCatalog.Markdown
