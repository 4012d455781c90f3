import BookCatalog.Proofs.Markdown.Comments

/-!
# Line ends

How many line ends a heading and a table are written with. Protected text brings none, since a line end is escaped
there; so all of them are in the strokes that are written as they stand (`Stroke.lineEnds`), but for the ends of the
rows of a table. `Pen.OnLine` is what is kept from stroke to stroke and from cell to cell.
-/

namespace BookCatalog.Markdown

namespace Pen

/-- The pen stands on an open line after `n` line ends, with no margin and at most `b` breaks to make. -/
structure OnLine (b n : Nat) (p : Pen) : Prop where
  margin : p.margin = []
  breaks : p.breaks ≤ b
  count : p.reversed.count '\n' = n
  last : ∃ c rest, p.reversed = c :: rest ∧ c ≠ '\n'

variable {p : Pen} {b n : Nat}

theorem OnLine.imp {m : Nat} (h : p.OnLine b n) (hle : b ≤ m) : p.OnLine m n :=
  ⟨h.margin, h.breaks.trans hle, h.count, h.last⟩

/-! ## Characters -/

theorem lineEnd_not_mem_lead (hmargin : p.margin = []) (c : Char) : '\n' ∉ p.lead c := fun hmem => by
  rcases mem_lead hmem with ⟨-, hmem⟩ | hslash
  · rw [hmargin] at hmem
    cases hmem
  · exact absurd hslash (by decide)

/-- A character that is protected brings no line end. -/
theorem lineEnd_not_mem_form {mode : Escaping} (hmode : mode ≠ .literal) (hmargin : p.margin = []) (c : Char)
    (next : Option Char) : p.form mode c next ≠ [] ∧ '\n' ∉ p.form mode c next := by
  rcases form_cases hmode c next p with ⟨hform, -, hne⟩ | ⟨hform, hne⟩ | ⟨hform, hspace⟩ | hform <;> rw [hform]
  · exact ⟨List.cons_ne_nil _ _, by simpa using Ne.symm hne⟩
  · exact ⟨List.cons_ne_nil _ _, by simpa using Ne.symm hne⟩
  · rcases isSpace_cases hspace with rfl | rfl | rfl | rfl <;> decide
  · rw [hmargin, ite_self, List.nil_append]
    exact ⟨by simp [reference], not_mem_reference (by decide) (by decide) c⟩

theorem OnLine.putChar (h : p.OnLine 0 n) {mode : Escaping} (hmode : mode ≠ .literal) (c : Char)
    (next : Option Char) : (p.putChar mode c next).OnLine 0 n := by
  obtain ⟨hne, hform⟩ := lineEnd_not_mem_form hmode h.margin c next
  have hadded : '\n' ∉ (p.lead c ++ p.form mode c next).reverse := by
    rw [List.mem_reverse, List.mem_append, not_or]
    exact ⟨lineEnd_not_mem_lead h.margin c, hform⟩
  obtain ⟨x, rest, hx⟩ : ∃ x rest, (p.lead c ++ p.form mode c next).reverse = x :: rest :=
    List.exists_cons_of_ne_nil (by simp [hne])
  rw [putChar_eq]
  refine ⟨h.margin, h.breaks, ?_, x, rest ++ p.reversed, by rw [hx]; rfl, ?_⟩
  · rw [List.count_append, List.count_eq_zero.2 hadded, Nat.zero_add, h.count]
  · rintro rfl
    exact hadded (hx ▸ List.mem_cons_self)

theorem OnLine.putChars {mode : Escaping} (hmode : mode ≠ .literal) : ∀ (cs : List Char) {p : Pen}, p.OnLine 0 n →
    (p.putChars mode cs).OnLine 0 n
  | [], _, h => h
  | c :: rest, _, h => OnLine.putChars hmode rest (h.putChar hmode c rest.head?)

/-- A text that is written as it stands brings its own line ends. -/
theorem count_putChars_literal : ∀ (cs : List Char) {p : Pen}, p.margin = [] →
    (p.putChars .literal cs).reversed.count '\n' = p.reversed.count '\n' + cs.count '\n'
  | [], _, _ => rfl
  | c :: rest, p, hmargin => by
    have hkept : (p.putChar .literal c rest.head?).margin = [] :=
      (sameFrame_putChar .literal c rest.head? p).margin.trans hmargin
    have hfirst : (p.putChar .literal c rest.head?).reversed.count '\n' = p.reversed.count '\n' + [c].count '\n' := by
      rw [putChar_eq]
      dsimp only
      rw [List.count_append, List.count_reverse, List.count_append,
        List.count_eq_zero.2 (lineEnd_not_mem_lead hmargin c), Nat.zero_add, Nat.add_comm]
      rfl
    rw [putChars, count_putChars_literal rest hkept, hfirst, Nat.add_assoc, ← List.count_append]
    rfl

theorem exists_reversed_putChars_literal (cs : List Char) (c : Char) (p : Pen) :
    ∃ rest, (p.putChars .literal (cs ++ [c])).reversed = c :: rest := by
  rw [putChars_literal_append]
  refine ⟨((p.putChars .literal cs).lead c).reverse ++ (p.putChars .literal cs).reversed, ?_⟩
  rw [putChars, putChars, putChar_eq]
  simp [form]

/-! ## Strokes -/

theorem onLine_literal (hmargin : p.margin = []) {s : String} (hs : s ≠ "") (hlast : s.toList.getLast? ≠ some '\n') :
    (p.literal s).OnLine 0 (p.settle.reversed.count '\n' + s.toList.count '\n') := by
  have hsettled : p.settle.margin = [] := (sameFrame_settle p).margin.trans hmargin
  refine ⟨((Plain.literal s).keeps p).margin.trans hmargin, Nat.le_of_eq (breaks_literal hs p), ?_, ?_⟩
  · rw [literal, if_neg hs]
    exact count_putChars_literal s.toList hsettled
  · obtain ⟨cs, c, hcs⟩ : ∃ cs c, s.toList = cs ++ [c] :=
      ⟨_, _, (List.dropLast_append_getLast (by simpa using hs)).symm⟩
    obtain ⟨rest, hrest⟩ := exists_reversed_putChars_literal cs c p.settle
    rw [literal, if_neg hs, put, hcs]
    refine ⟨c, rest, hrest, ?_⟩
    rintro rfl
    exact hlast (by rw [hcs, List.getLast?_concat])

theorem OnLine.literal (h : p.OnLine 0 n) {s : String} (hlast : s.toList.getLast? ≠ some '\n') :
    (p.literal s).OnLine 0 (n + s.toList.count '\n') := by
  by_cases hs : s = ""
  · subst hs
    rwa [literal_empty]
  · have hsettle := settle_of_no_breaks (Nat.le_zero.1 h.breaks)
    have hliteral := onLine_literal h.margin hs hlast
    rwa [hsettle, h.count] at hliteral

/-- The first text on the next line. -/
theorem OnLine.next (h : p.OnLine 1 n) {s : String} (hs : s ≠ "") (hend : '\n' ∉ s.toList) :
    (p.endLine.literal s).OnLine 0 (n + 1) := by
  obtain ⟨c, rest, hreversed, hne⟩ := h.last
  have hbreaks : p.endLine.breaks = 1 := Nat.max_eq_right h.breaks
  have hone : (if p.endLine.tight then min p.endLine.breaks 1 else p.endLine.breaks) = 1 := by
    rw [hbreaks, Nat.min_self, ite_self]
  have hsettle : p.endLine.settle.reversed = '\n' :: p.reversed := by
    unfold settle
    dsimp only
    rw [hone, reversed_endLine, hreversed, reversed_makeBreaks_one, if_neg hne, reversed_endLine, hreversed]
  have hliteral := onLine_literal (p := p.endLine) h.margin hs fun hlast => hend (List.mem_of_getLast? hlast)
  rwa [hsettle, List.count_cons_self, h.count, List.count_eq_zero.2 hend, Nat.add_zero] at hliteral

end Pen

/-- The line ends that a stroke brings. -/
def Stroke.lineEnds (s : Stroke) : Nat := if s.mode = .literal then s.text.toList.count '\n' else 0

/-- A stroke that leaves its last line open. -/
def Stroke.IsOpen (s : Stroke) : Prop := s.mode = .literal → s.text.toList.getLast? ≠ some '\n'

/-- The line ends that spans bring. -/
def lineEndsOf (content : List Span) : Nat := ((strokesOf .other content).map Stroke.lineEnds).sum

namespace Pen.OnLine

variable {p : Pen} {n : Nat}

theorem stroke (h : p.OnLine 0 n) {s : Stroke} (hs : s.IsOpen) : (p.stroke s).OnLine 0 (n + s.lineEnds) := by
  unfold Pen.stroke Stroke.lineEnds
  split
  · rename_i hmode
    exact h.literal (hs hmode)
  · rename_i hmode
    rw [put, settle_of_no_breaks (Nat.le_zero.1 h.breaks)]
    exact putChars hmode s.text.toList h

theorem strokes : ∀ {ss : List Stroke} {n : Nat} {p : Pen}, p.OnLine 0 n → (∀ s ∈ ss, s.IsOpen) →
    (ss.foldl Pen.stroke p).OnLine 0 (n + (ss.map Stroke.lineEnds).sum)
  | [], _, _, h, _ => h
  | s :: rest, n, p, h, hopen => by
    obtain ⟨hs, hrest⟩ := List.forall_mem_cons.1 hopen
    rw [List.map_cons, List.sum_cons, ← Nat.add_assoc]
    exact strokes (h.stroke hs) hrest

theorem writeSpans (h : p.OnLine 0 n) {content : List Span} (hopen : ∀ s ∈ strokesOf .other content, s.IsOpen) :
    (writeSpans .other content p).OnLine 0 (n + lineEndsOf content) := by
  rw [writeSpans_eq]
  exact h.strokes hopen

end Pen.OnLine

/-! ## Headings -/

theorem getLast?_ne_lineEnd {s : String} (h : '\n' ∉ s.toList) : s.toList.getLast? ≠ some '\n' :=
  fun hlast => h (List.mem_of_getLast? hlast)

/-- A heading has the line ends of its content. -/
theorem onLine_writeHeading {level : Nat} (hlevel : 1 ≤ level) {content : List Span}
    (hopen : ∀ s ∈ strokesOf .other content, s.IsOpen) (first : Bool) (next : Option Chunk) :
    (writeChunk false first next (.heading level content) {}).OnLine 2 (lineEndsOf content) := by
  have hmarks : (fence '#' level).toList = List.replicate level '#' := String.toList_ofList
  have hfence : '\n' ∉ (fence '#' level).toList := by
    rw [hmarks]
    exact fun hmem => absurd (List.eq_of_mem_replicate hmem) (by decide)
  have hne : fence '#' level ≠ "" := fun h => by
    rw [h] at hmarks
    have hlength := congrArg List.length hmarks
    rw [List.length_replicate] at hlength
    exact absurd hlength (Nat.ne_of_lt hlevel)
  have hstart := Pen.onLine_literal (p := {}) rfl hne (getLast?_ne_lineEnd hfence)
  have hspace := hstart.literal (s := " ") (by decide)
  have hopened :
      ({ (({} : Pen).literal (fence '#' level)).literal " " with contentStart := true } : Pen).OnLine 0 0 := by
    refine ⟨hspace.margin, hspace.breaks, hspace.count.trans ?_, hspace.last⟩
    rw [List.count_eq_zero.2 hfence]
    rfl
  have hwritten := hopened.writeSpans hopen
  rw [Nat.zero_add] at hwritten
  rw [writeChunk]
  exact ⟨hwritten.margin, Nat.max_le.2 ⟨hwritten.breaks.trans (Nat.zero_le 2), Nat.le_refl 2⟩, hwritten.count,
    hwritten.last⟩

/-! ## Tables -/

/-- Writes what stands in a row after its first pipe, and after the header the line under it. -/
def finishRow (alignments : List Alignment) (row : TableRow) (p : Pen) : Pen :=
  let q := row.cells.foldl (fun p cell => writeCell cell p) p
  if row.isHeader && !row.cells.isEmpty then writeDelimiters alignments q else q

theorem writeRow_eq (alignments : List Alignment) (row : TableRow) (p : Pen) :
    writeRow alignments row p = finishRow alignments row (p.endLine.literal "|") := rfl

/-- The cells of a row leave their last lines open. -/
def TableRow.IsOpen (row : TableRow) : Prop := ∀ cell ∈ row.cells, ∀ s ∈ strokesOf .other cell, s.IsOpen

/-- The line ends that the cells of a row bring. -/
def TableRow.lineEnds (row : TableRow) : Nat := (row.cells.map lineEndsOf).sum

namespace Pen.OnLine

variable {p : Pen} {n : Nat}

theorem writeCell (h : p.OnLine 0 n) {cell : List Span} (hopen : ∀ s ∈ strokesOf .other cell, s.IsOpen) :
    (writeCell cell p).OnLine 0 (n + lineEndsOf cell) := by
  have hspace := h.literal (s := " ") (by decide)
  have hin : ({ p.literal " " with inCell := true } : Pen).OnLine 0 n :=
    ⟨hspace.margin, hspace.breaks, hspace.count, hspace.last⟩
  have hwritten := hin.writeSpans hopen
  have hout : ({ Markdown.writeSpans .other cell { p.literal " " with inCell := true } with inCell := false } :
      Pen).OnLine 0 (n + lineEndsOf cell) :=
    ⟨hwritten.margin, hwritten.breaks, hwritten.count, hwritten.last⟩
  exact hout.literal (s := " |") (by decide)

theorem writeCells : ∀ {cells : List (List Span)} {n : Nat} {p : Pen}, p.OnLine 0 n →
    (∀ cell ∈ cells, ∀ s ∈ strokesOf .other cell, s.IsOpen) →
      (cells.foldl (fun p cell => Markdown.writeCell cell p) p).OnLine 0 (n + (cells.map lineEndsOf).sum)
  | [], _, _, h, _ => h
  | cell :: rest, n, p, h, hopen => by
    obtain ⟨hcell, hrest⟩ := List.forall_mem_cons.1 hopen
    rw [List.map_cons, List.sum_cons, ← Nat.add_assoc]
    exact writeCells (h.writeCell hcell) hrest

theorem writeDelimiters (h : p.OnLine 0 n) (alignments : List Alignment) :
    (writeDelimiters alignments p).OnLine 1 (n + 1) := by
  have hmark (a : Alignment) : a.mark.toList.count '\n' = 0 ∧ a.mark.toList.getLast? ≠ some '\n' := by
    cases a
    decide
  have hmarks : ∀ (as : List Alignment) {q : Pen}, q.OnLine 0 (n + 1) →
      (as.foldl (fun p a => ((p.literal " ").literal a.mark).literal " |") q).OnLine 0 (n + 1) := by
    intro as
    induction as with
    | nil => exact id
    | cons a rest ih =>
      intro q hq
      have hwritten := ((hq.literal (s := " ") (by decide)).literal (hmark a).2).literal (s := " |") (by decide)
      rw [(hmark a).1] at hwritten
      exact ih hwritten
  have hline := hmarks alignments ((h.imp (Nat.zero_le 1)).next (s := "|") (by decide) (by decide))
  exact ⟨hline.margin, Nat.max_le.2 ⟨hline.breaks.trans (Nat.zero_le 1), Nat.le_refl 1⟩, hline.count, hline.last⟩

theorem finishRow (h : p.OnLine 0 n) (alignments : List Alignment) {row : TableRow} (hopen : row.IsOpen) :
    (finishRow alignments row p).OnLine 1
      (n + row.lineEnds + if row.isHeader && !row.cells.isEmpty then 1 else 0) := by
  have hcells := h.writeCells hopen
  unfold Markdown.finishRow
  dsimp only
  split
  · exact hcells.writeDelimiters alignments
  · exact hcells.imp (Nat.zero_le 1)

/-- Rows below the header stand on lines of their own. -/
theorem writeRows : ∀ {rows : List TableRow} {n : Nat} {p : Pen}, p.OnLine 1 n → ∀ alignments : List Alignment,
    (∀ row ∈ rows, row.isHeader = false ∧ row.IsOpen) →
      (rows.foldl (fun p row => writeRow alignments row p) p).OnLine 1
        (n + rows.length + (rows.map TableRow.lineEnds).sum)
  | [], _, _, h, _, _ => h
  | row :: rest, n, p, h, alignments, hrows => by
    obtain ⟨⟨hbody, hopen⟩, hrest⟩ := List.forall_mem_cons.1 hrows
    have hrow := (h.next (s := "|") (by decide) (by decide)).finishRow alignments hopen
    rw [hbody, Bool.false_and, if_neg Bool.false_ne_true, Nat.add_zero] at hrow
    have hwritten := writeRows hrow alignments hrest
    rw [List.length_cons, List.map_cons, List.sum_cons, List.foldl_cons, writeRow_eq]
    rwa [show n + (rest.length + 1) + (row.lineEnds + (rest.map TableRow.lineEnds).sum) =
      n + 1 + row.lineEnds + rest.length + (rest.map TableRow.lineEnds).sum by omega]

end Pen.OnLine

/-- A table has the line ends of its cells, and one after each row but the last, the line under the header included. -/
theorem onLine_writeTable {t : Table} {header : TableRow} {rows : List TableRow} (ht : t.rows = header :: rows)
    (hheader : header.isHeader && !header.cells.isEmpty) (hrows : ∀ row ∈ rows, row.isHeader = false)
    (hopen : ∀ row ∈ t.rows, row.IsOpen) (first : Bool) (next : Option Chunk) :
    (writeChunk false first next (.table t) {}).OnLine 2
      (rows.length + 1 + (t.rows.map TableRow.lineEnds).sum) := by
  rw [ht, List.forall_mem_cons] at hopen
  have hstart : (({} : Pen).endBlock.endLine.literal "|").OnLine 0 0 :=
    Pen.onLine_literal (p := ({} : Pen).endBlock.endLine) (s := "|") rfl (by decide) (by decide)
  have hfirst := hstart.finishRow t.alignments hopen.1
  rw [hheader, if_pos rfl] at hfirst
  have hwritten := hfirst.writeRows t.alignments fun row hrow => ⟨hrows row hrow, hopen.2 row hrow⟩
  rw [writeChunk, writeTable, ht, List.foldl_cons, writeRow_eq, List.map_cons, List.sum_cons]
  have hcount : 0 + header.lineEnds + 1 + rows.length + (rows.map TableRow.lineEnds).sum =
    rows.length + 1 + (header.lineEnds + (rows.map TableRow.lineEnds).sum) := by omega
  exact ⟨hwritten.margin, Nat.max_le.2 ⟨hwritten.breaks.trans (Nat.le_succ 1), Nat.le_refl 2⟩,
    hwritten.count.trans hcount, hwritten.last⟩

end BookCatalog.Markdown
