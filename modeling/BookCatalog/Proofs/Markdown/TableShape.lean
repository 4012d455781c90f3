import BookCatalog.Proofs.Chapter.Renderable

/-!
# The shape of tables

A table of a document may be ragged; a CommonMark table is a rectangle that declares its shape. Every ragged table
with a cell becomes one rectangle (`chunksOfBlock_table`): it has the width of the longest row, every source cell
stands in it in its own row and column, and what is added to fill it is empty. A table without a cell becomes
nothing.
-/

namespace BookCatalog.Markdown

/-- The cell of a ragged table in a row and a column, the header being the first row. -/
def sourceCell? (header : List Cell) (rows : List (List Cell)) (r c : Nat) : Option Cell :=
  (header :: rows)[r]?.bind fun row => row[c]?

/-- The cell of a table in a row and a column. -/
def Table.cell? (t : Table) (r c : Nat) : Option (List Span) := t.rows[r]?.bind fun row => row.cells[c]?

/-- A table is the rectangle around a ragged one. -/
structure TableShape (header : List Cell) (rows : List (List Cell)) (t : Table) : Prop where
  columns : ((header :: rows).map List.length).max? = some t.columns
  rowCount : t.rowCount = rows.length + 1
  alignments : t.alignments.length = t.columns
  /-- There is a row for each source row, and the first one alone is the header. -/
  isHeader : t.rows.map TableRow.isHeader = true :: List.replicate rows.length false
  length_cells : ∀ row ∈ t.rows, row.cells.length = t.columns
  /-- A source cell keeps its place and its inlines, in order. -/
  cell : ∀ r c source, sourceCell? header rows r c = some source → t.cell? r c = some (source.map spanOf)
  /-- A place without a source cell is empty. -/
  added : ∀ r c, r ≤ rows.length → c < t.columns → sourceCell? header rows r c = none → t.cell? r c = some []

section
variable {header : List Cell} {rows : List (List Cell)}

theorem spansOf_eq_map (content : List Inline) : spansOf content = content.map spanOf := by
  induction content with
  | nil => rfl
  | cons i rest ih => rw [spansOf, ih, List.map_cons]

theorem max?_lengths : ((header :: rows).map List.length).max? = some (columnCount header rows) := by
  rw [List.map_cons, List.max?_cons', List.foldl_map]
  rfl

theorem columnCount_eq_zero_iff : columnCount header rows = 0 ↔ ∀ row ∈ header :: rows, row = [] := by
  have hlengths : ((header :: rows).map List.length).max? = some (columnCount header rows) := max?_lengths
  have hmax := List.max?_le_iff hlengths (x := 0)
  simpa using hmax

theorem paddedCells_getElem? (columns : Nat) (row : List Cell) {c : Nat} (h : c < columns) :
    (paddedCells columns row)[c]? = some ((row[c]?.getD []).map spanOf) := by
  rw [paddedCells, List.getElem?_map, List.getElem?_range h, Option.map_some, spansOf_eq_map,
    List.getD_eq_getElem?_getD]

/-- The rows of the rectangle are the source rows, filled. -/
theorem cell?_of_rows {t : Table} {columns : Nat}
    (h : t.rows = ⟨true, paddedCells columns header⟩ :: rows.map fun row => ⟨false, paddedCells columns row⟩)
    (r c : Nat) : t.cell? r c = (header :: rows)[r]?.bind fun row => (paddedCells columns row)[c]? := by
  rw [Table.cell?, h]
  cases r with
  | zero => rfl
  | succ r => cases hrow : rows[r]? <;> simp [hrow]

end

/-- **Tables are filled to rectangles.** A table without cells becomes nothing, and every other table becomes one
rectangle around it. -/
theorem chunksOfBlock_table (header : List Cell) (rows : List (List Cell)) :
    (∀ row ∈ header :: rows, row = []) ∧ chunksOfBlock (.table header rows) = [] ∨
      (∃ row ∈ header :: rows, row ≠ []) ∧
        ∃ t, chunksOfBlock (.table header rows) = [.table t] ∧ TableShape header rows t := by
  by_cases hcolumns : columnCount header rows = 0
  · exact .inl ⟨columnCount_eq_zero_iff.1 hcolumns, by rw [chunksOfBlock, tableOf, if_pos hcolumns]; rfl⟩
  · have hcell : ∃ row ∈ header :: rows, row ≠ [] := by
      by_contra hnone
      exact hcolumns (columnCount_eq_zero_iff.2 fun row hrow => by_contra fun hne => hnone ⟨row, hrow, hne⟩)
    refine .inr ⟨hcell, _, by rw [chunksOfBlock, tableOf, if_neg hcolumns]; rfl, ?_⟩
    refine ⟨max?_lengths, rfl, List.length_replicate, ?_, ?_, ?_, ?_⟩
    · simp [Function.comp_def]
    · simp [paddedCells]
    · intro r c source hsource
      obtain ⟨row, hrow, hc⟩ := Option.bind_eq_some_iff.1 hsource
      have hlt : c < columnCount header rows :=
        Nat.lt_of_lt_of_le (List.getElem?_eq_some_iff.1 hc).1 (length_le_columnCount (List.mem_of_getElem? hrow))
      rw [cell?_of_rows rfl, hrow, Option.bind_some, paddedCells_getElem? _ _ hlt, hc, Option.getD_some]
    · intro r c hr hlt hnone
      obtain ⟨row, hrow⟩ : ∃ row, (header :: rows)[r]? = some row :=
        ⟨_, List.getElem?_eq_getElem (by simpa [Nat.lt_succ_iff] using hr)⟩
      rw [sourceCell?, hrow, Option.bind_some] at hnone
      rw [cell?_of_rows rfl, hrow, Option.bind_some, paddedCells_getElem? _ _ hlt, hnone]
      rfl

example : chunksOfBlock (.table [[]] [[], [[.text "a"], [.text "b"]]]) =
    [.table ⟨2, 3, [.unset, .unset],
      [⟨true, [[], []]⟩, ⟨false, [[], []]⟩, ⟨false, [[.text "a"], [.text "b"]]⟩]⟩] := by
  rfl

end BookCatalog.Markdown
