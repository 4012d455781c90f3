import BookCatalog.Proofs.Markdown.Pen

/-!
# Writing blocks

Writing a block is local. A list is written alike whatever comes after it, and then it is closed by a comment or
not (`writeChunk_eq`); so the blocks of a document can be written up to a block, then the block, then the others
(`writeChunks_append_cons`).
-/

namespace BookCatalog.Markdown

/-! ## Code blocks -/

/-- The mark that the bars around fenced code are made of. -/
def barMark (info : String) : Char := if '\x60' ∈ info.toList then '~' else '\x60'

theorem barMark_eq (info : String) : barMark info = '~' ∨ barMark info = '\x60' := by
  unfold barMark
  split
  · exact .inl rfl
  · exact .inr rfl

/-- The bar of marks around fenced code. -/
def codeBar (info text : String) : String :=
  fence (barMark info) (max 3 (longestRun (barMark info) text.toList + 1))

/-- A bar has at least three marks, and more than stand side by side in the text. -/
theorem exists_codeBar_eq (info text : String) : ∃ n, 2 ≤ n ∧ longestRun (barMark info) text.toList ≤ n ∧
    (codeBar info text).toList = List.replicate n (barMark info) ++ [barMark info] := by
  refine ⟨max 3 (longestRun (barMark info) text.toList + 1) - 1, by omega, by omega, ?_⟩
  rw [← List.replicate_succ', Nat.sub_add_cancel (by omega)]
  exact String.toList_ofList

/-- The line that opens fenced code. -/
def fenceLine (info text : String) : String := codeBar info text ++ if info = "" then "" else " " ++ info

theorem writeCodeBlock_eq (info text : String) (firstInItem : Bool) (p : Pen) :
    writeCodeBlock info text firstInItem p =
      if isIndented info text firstInItem then
        (((((if firstInItem then p else p.endBlock).literal "    ").indent "    ").literal text).outdent 4).endBlock
      else
        ((((if firstInItem then p else p.endBlock).literal (fenceLine info text)).endLine.literal
          text).endLine.literal (codeBar info text)).endBlock := by
  have hopened (q : Pen) :
      (if info = "" then q.literal (codeBar info text) else
        ((q.literal (codeBar info text)).literal " ").literal info) = q.literal (fenceLine info text) := by
    unfold fenceLine
    split
    · rw [String.append_empty]
    · rw [Pen.literal_literal, Pen.literal_literal]
  unfold writeCodeBlock
  dsimp only
  split
  · rfl
  · rw [← hopened]
    rfl

/-! ## Blocks are local -/

theorem Local.congr {f g : Pen → Pen} (h : ∀ p, f p = g p) (hg : Local g) : Local f := funext h ▸ hg

theorem Plain.congr {f g : Pen → Pen} (h : ∀ p, f p = g p) (hg : Plain g) : Plain f := funext h ▸ hg

namespace Plain

theorem writeCell (cell : List Span) : Plain (writeCell cell) where
  toLocal := (literal " |").toLocal.comp ((Local.setInCell false).comp
    ((writeSpans .other cell).toLocal.comp ((Local.setInCell true).comp (literal " ").toLocal)))
  keeps p := by
    have hcell : p.SameFrame
        { Markdown.writeSpans .other cell { p.literal " " with inCell := true } with inCell := false } := by
      have hspace := (literal " ").keeps p
      have hspans := (writeSpans .other cell).keeps { p.literal " " with inCell := true }
      exact ⟨hspans.margin.trans hspace.margin, hspans.tight.trans hspace.tight,
        hspans.counters.trans hspace.counters, fun _ => rfl⟩
    exact hcell.trans ((literal " |").keeps _)

theorem writeDelimiters (alignments : List Alignment) : Plain (writeDelimiters alignments) :=
  endLine.comp ((foldl fun a _ => (literal " |").comp ((literal a.mark).comp (literal " "))).comp
    ((literal "|").comp endLine))

theorem writeRow (alignments : List Alignment) (row : TableRow) : Plain (writeRow alignments row) := by
  have hcells : Plain fun p => row.cells.foldl (fun p cell => Markdown.writeCell cell p) (p.endLine.literal "|") :=
    (foldl fun cell _ => writeCell cell).comp ((literal "|").comp endLine)
  exact .ite ((writeDelimiters alignments).comp hcells) hcells

theorem writeTable (t : Table) : Plain (writeTable t) :=
  endBlock.comp ((foldl fun row _ => writeRow t.alignments row).comp endBlock)

/-- Text that is indented, with the margin taken back after it. -/
theorem indented (added text : String) {n : Nat} (hn : n = added.toList.length) :
    Plain fun p => ((p.indent added).literal text).outdent n where
  toLocal := (Local.outdent n).comp ((literal text).toLocal.comp (Local.indent added))
  keeps p := by
    have h := (literal text).keeps (p.indent added)
    have hmargin : (((p.indent added).literal text).outdent n).margin = p.margin := by
      have hadded : ((p.indent added).literal text).margin = p.margin ++ added.toList := h.margin
      simp [Pen.outdent, hadded, hn]
    exact ⟨hmargin, h.tight, h.counters, h.inCell⟩

theorem writeCodeBlock (info text : String) (firstInItem : Bool) :
    Plain (writeCodeBlock info text firstInItem) := by
  have hindented : Plain fun p => ((((p.literal "    ").indent "    ").literal text).outdent 4).endBlock :=
    endBlock.comp ((indented "    " text rfl).comp (literal "    "))
  have hfenced : Plain fun p => ((((p.literal (fenceLine info text)).endLine.literal
      text).endLine.literal (codeBar info text))).endBlock :=
    endBlock.comp ((literal _).comp (endLine.comp ((literal text).comp (endLine.comp (literal _)))))
  have hbegun : Plain fun p => if firstInItem then p else p.endBlock := .ite .id endBlock
  exact .congr (writeCodeBlock_eq info text firstInItem) (.ite (hindented.comp hbegun) (hfenced.comp hbegun))

end Plain

namespace Local

theorem openItem (ordered : Bool) : Local (openItem ordered) where
  grows p := (Plain.literal (p.nextMarker ordered)).grows p
  onto_eq base p h := by
    have hmarker := (Plain.literal (p.nextMarker ordered)).onto_eq base p h
    unfold Markdown.openItem
    dsimp only
    rw [show (p.onto base).nextMarker ordered = p.nextMarker ordered from rfl, hmarker]
    rfl
  ends p h := (Plain.literal (p.nextMarker ordered)).ends p h

theorem closeItem (ordered : Bool) : Local (closeItem ordered) :=
  of_silent (fun _ => rfl) (fun _ _ => rfl) fun _ => Nat.le_max_left _ _

end Local

/-- A block that is no quote and no list. -/
def Chunk.isLeaf : Chunk → Bool
  | .list .. | .blockQuote .. => false
  | _ => true

/-- A block without blocks in it is written in one place, once it is known to stand in an item. -/
theorem Plain.exists_leaf (inItem first : Bool) (next : Option Chunk) {c : Chunk} (h : c.isLeaf) :
    ∃ f, Plain f ∧ ∀ p, writeChunk inItem first next c p = f { p with tight := p.tight || inItem } := by
  cases c with
  | heading level content =>
    have hmark := (literal " ").comp (literal (fence '#' level))
    exact ⟨_, endBlock.comp ((writeSpans .other content).comp (setContentStart.comp hmark)),
      fun p => by rw [writeChunk]⟩
  | paragraph content => exact ⟨_, endBlock.comp (writeSpans .other content), fun p => by rw [writeChunk]⟩
  | codeBlock info text => exact ⟨_, writeCodeBlock info text (inItem && first), fun p => by rw [writeChunk]⟩
  | htmlBlock text => exact ⟨_, endBlock.comp ((literal text).comp endBlock), fun p => by rw [writeChunk]⟩
  | table t => exact ⟨_, writeTable t, fun p => by rw [writeChunk]⟩
  | list | blockQuote => cases h

theorem Local.writeLeaf (inItem first : Bool) (next : Option Chunk) {c : Chunk} (h : c.isLeaf) :
    Local (writeChunk inItem first next c) := by
  obtain ⟨f, hf, heq⟩ := Plain.exists_leaf inItem first next h
  exact .congr heq (hf.toLocal.comp (addTight inItem))

mutual

theorem Local.writeChunk (inItem first : Bool) (next : Option Chunk) : ∀ c : Chunk,
    Local (writeChunk inItem first next c)
  | .blockQuote children => by
    refine .congr (fun p => by rw [Markdown.writeChunk]) ?_
    exact endBlock.comp ((outdent 2).comp ((writeChunks false true children).comp ((indent "> ").comp
      (Plain.setContentStart.toLocal.comp ((Plain.literal "> ").toLocal.comp (addTight inItem))))))
  | .list ordered items => by
    refine .congr (fun p => by rw [Markdown.writeChunk]) ?_
    have hopened : Local fun p => if ordered then { p with counters := 1 :: p.counters } else p :=
      .ite (setCounters (1 :: ·)) .id
    have hclosed : Local fun p => if ordered then { p with counters := p.counters.tail } else p :=
      .ite (setCounters List.tail) .id
    have hlist := hclosed.comp ((setTight inItem).comp ((writeItems ordered items).comp
      (hopened.comp (addTight inItem))))
    exact .ite (endBlock.comp ((Plain.literal endOfList).toLocal.comp (endLine.comp hlist))) hlist
  | .heading _ _ | .paragraph _ | .codeBlock _ _ | .htmlBlock _ | .table _ => .writeLeaf inItem first next rfl

theorem Local.writeChunks (inItem first : Bool) : ∀ cs : List Chunk, Local (writeChunks inItem first cs)
  | [] => .id
  | c :: rest => by
    refine .congr (fun p => by rw [Markdown.writeChunks]) ?_
    exact (writeChunks inItem false rest).comp (writeChunk inItem first rest.head? c)

theorem Local.writeItems (ordered : Bool) : ∀ items : List (List Chunk), Local (writeItems ordered items)
  | [] => .id
  | item :: rest => by
    refine .congr (fun p => by rw [Markdown.writeItems]) ?_
    exact (writeItems ordered rest).comp ((closeItem ordered).comp ((writeChunks true true item).comp
      (openItem ordered)))

end

/-! ## Lists that are closed -/

/-- Whether a block is a list. -/
def Chunk.isList : Chunk → Bool
  | .list .. => true
  | _ => false

/-- Writes the comment that closes a list. -/
def closeList (p : Pen) : Pen := (p.endLine.literal endOfList).endBlock

theorem plain_closeList : Plain closeList := Plain.endBlock.comp ((Plain.literal endOfList).comp Plain.endLine)

/-- A list that the next block would run on into is closed, and what comes next is of no other importance. -/
theorem writeChunk_eq (inItem first : Bool) (next : Option Chunk) (c : Chunk) (p : Pen) :
    writeChunk inItem first next c p =
      if c.isList && next.any Chunk.joinsList then closeList (writeChunk inItem first none c p)
      else writeChunk inItem first none c p := by
  cases c with
  | list ordered items => simp [writeChunk, Chunk.isList, closeList]
  | _ => simp [writeChunk, Chunk.isList]

/-- Writes blocks as far as they are written before the block `c`. -/
def writeBefore (inItem first : Bool) (c : Chunk) (cs : List Chunk) (p : Pen) : Pen :=
  if cs.getLast?.any Chunk.isList && c.joinsList then closeList (writeChunks inItem first cs p)
  else writeChunks inItem first cs p

/-- Blocks are written up to one of them, then this one, then the others. -/
theorem writeChunks_append_cons (inItem : Bool) (c : Chunk) (rest : List Chunk) :
    ∀ (first : Bool) (cs : List Chunk) (p : Pen),
      writeChunks inItem first (cs ++ c :: rest) p =
        writeChunks inItem false rest
          (writeChunk inItem (first && cs.isEmpty) rest.head? c (writeBefore inItem first c cs p))
  | first, [], p => by simp [writeBefore, writeChunks]
  | first, [b], p => by
    rw [List.singleton_append, writeChunks, List.head?_cons, writeChunk_eq, writeChunks]
    simp [writeBefore, writeChunks]
  | first, b :: d :: cs, p => by
    have ih := writeChunks_append_cons inItem c rest false (d :: cs) (writeChunk inItem first (some d) b p)
    rw [List.cons_append, List.cons_append, writeChunks, List.head?_cons, ← List.cons_append, ih]
    simp [writeBefore, writeChunks]

end BookCatalog.Markdown
