import BookCatalog.Proofs.Markdown.Comments

/-!
# Blocks that bring no comment

A block whose own content is calm brings up no comment (`Pen.Ready.writeLeaf`), and it leaves the pen ready: no comment
is begun where the next text will stand. What a block adds to its content are markers, bars and margins, and the sign
that begins a comment is in none of them.
-/

namespace BookCatalog.Markdown

/-! ## Calm blocks -/

/-- No content of a block brings up a comment, the blocks inside it apart, and a list has items. -/
def Chunk.IsCalm : Chunk → Prop
  | .heading _ content => ∀ s ∈ strokesOf .other content, s.IsCalm
  | .paragraph content => ∀ s ∈ strokesOf .other content, s.IsCalm
  | .list _ items => items ≠ []
  | .blockQuote _ => True
  | .codeBlock info text => ¬comment <:+: info.toList ∧ ¬comment <:+: text.toList
  | .htmlBlock text => ¬comment <:+: text.toList
  | .table t => ∀ row ∈ t.rows, ∀ cell ∈ row.cells, ∀ s ∈ strokesOf .other cell, s.IsCalm

namespace Calm

theorem writeCell {cell : List Span} (h : ∀ s ∈ strokesOf .other cell, s.IsCalm) : Calm (writeCell cell) := by
  have hclosed : Calm fun p => { p with inCell := false } := of_silent fun _ => ⟨rfl, rfl, rfl⟩
  have hopened : Calm fun p => { p with inCell := true } := of_silent fun _ => ⟨rfl, rfl, rfl⟩
  exact (literal (.inl (by decide))).comp (hclosed.comp ((writeSpans h).comp (hopened.comp
    (literal (.inl (by decide))))))

theorem writeDelimiters (alignments : List Alignment) : Calm (writeDelimiters alignments) := by
  have hmark (a : Alignment) : '>' ∉ a.mark.toList := by
    cases a
    decide
  exact endLine.comp ((foldl fun a _ => (literal (.inl (by decide))).comp ((literal (.inl (hmark a))).comp
    (literal (.inl (by decide))))).comp ((literal (.inl (by decide))).comp endLine))

theorem writeRow (alignments : List Alignment) {row : TableRow}
    (h : ∀ cell ∈ row.cells, ∀ s ∈ strokesOf .other cell, s.IsCalm) : Calm (writeRow alignments row) := by
  have hcells : Calm fun p => row.cells.foldl (fun p cell => Markdown.writeCell cell p) (p.endLine.literal "|") :=
    (foldl fun cell hcell => writeCell (h cell hcell)).comp ((literal (.inl (by decide))).comp endLine)
  exact .ite ((writeDelimiters alignments).comp hcells) hcells

end Calm

theorem not_mem_itemMarker {c : Char} (hdigit : c.isDigit = false) (hne : c ≠ '.' ∧ c ≠ ' ') (n : Nat) :
    c ∉ (itemMarker n).toList := by
  have hdigits : c ∉ (toString n).toList := fun hmem => by
    rw [Nat.toString_eq_repr, Nat.repr, String.toList_ofList] at hmem
    rw [Nat.isDigit_of_mem_toDigits (by decide) (by decide) hmem] at hdigit
    cases hdigit
  rw [itemMarker, String.toList_append, List.mem_append, not_or]
  refine ⟨hdigits, ?_⟩
  split <;> simp [hne]

theorem not_mem_nextMarker {c : Char} (hdigit : c.isDigit = false) (hne : c ≠ '.' ∧ c ≠ ' ' ∧ c ≠ '-')
    (ordered : Bool) (p : Pen) : c ∉ (p.nextMarker ordered).toList := by
  unfold Pen.nextMarker
  split
  · exact not_mem_itemMarker hdigit ⟨hne.1, hne.2.1⟩ _
  · simp [hne]

theorem not_mem_codeBar {c : Char} (hc : c ≠ '~' ∧ c ≠ '\x60') (info text : String) :
    c ∉ (codeBar info text).toList := by
  intro hmem
  obtain ⟨n, -, -, hbar⟩ := exists_codeBar_eq info text
  rw [hbar, ← List.replicate_succ'] at hmem
  rcases barMark_eq info with h | h <;> rw [h] at hmem
  · exact hc.1 (List.eq_of_mem_replicate hmem)
  · exact hc.2 (List.eq_of_mem_replicate hmem)

/-- The line that opens a listing holds no comment unless its language does. -/
theorem not_comment_isInfix_fenceLine {info : String} (h : ¬comment <:+: info.toList) (text : String) :
    ¬comment <:+: (fenceLine info text).toList := by
  intro hoccurs
  rw [fenceLine, String.toList_append] at hoccurs
  have hrest := comment_isInfix_of_append_left (not_mem_codeBar (by decide) info text) hoccurs
  split at hrest
  · exact absurd hrest (by decide)
  · rw [String.toList_append] at hrest
    exact h (comment_isInfix_of_append_left (by decide) hrest)

/-! ## Ready pens -/

namespace Pen

variable {p : Pen}

/-- A pen that is to make a break is ready. -/
theorem Steady.ready (h : p.Steady) (hbreaks : 0 < p.breaks) : p.Ready :=
  ⟨h, fun hzero => absurd hzero (Nat.ne_of_gt hbreaks)⟩

theorem Steady.endBlock (h : p.Steady) : p.endBlock.Ready := (Calm.endBlock p h).2.ready p.breaks_endBlock_pos

theorem Steady.endLine (h : p.Steady) : p.endLine.Ready := (Calm.endLine p h).2.ready p.breaks_endLine_pos

theorem Steady.idle_putChars : ∀ (cs : List Char) {p : Pen}, p.Steady → Idle p.reversed → '<' ∉ cs →
    Idle (p.putChars .literal cs).reversed
  | [], _, _, hidle, _ => hidle
  | c :: rest, p, h, hidle, hcs => by
    rw [List.mem_cons, not_or] at hcs
    obtain ⟨hsteady, hreversed⟩ := h.putChar_literal c rest.head?
    have hlead : Idle ((p.lead c).reverse ++ p.reversed) := h.endsIn_lead hidle c
    refine Steady.idle_putChars rest hsteady ?_ hcs.2
    rw [hreversed]
    exact hlead.cons (Ne.symm hcs.1)

/-- A text that begins no comment leaves the pen ready. -/
theorem Ready.literal_of_not_mem (h : p.Ready) {s : String} (hs : '<' ∉ s.toList) :
    Quiet p.reversed (p.literal s).reversed ∧ (p.literal s).Ready := by
  have hfree : ¬comment <:+: s.toList := fun hoccurs => hs (hoccurs.subset (by decide))
  obtain ⟨hquiet, hsteady⟩ := h.literal hfree
  by_cases hempty : s = ""
  · rw [hempty, literal_empty]
    exact ⟨.refl _, h⟩
  · refine ⟨hquiet, hsteady, fun _ => ?_⟩
    rw [Pen.literal, if_neg hempty]
    exact h.toSteady.settle.2.idle_putChars s.toList h.idle_settle hs

theorem Ready.addTight (h : p.Ready) (b : Bool) : ({ p with tight := p.tight || b } : Pen).Ready :=
  ⟨⟨h.margin, h.idle⟩, h.waits⟩

theorem Ready.indent (h : p.Ready) {s : String} (hs : ∀ c ∈ s.toList, c = ' ' ∨ c = '>') : (p.indent s).Ready :=
  ⟨⟨fun c hc => (List.mem_append.1 hc).elim (h.margin c) (hs c), h.idle⟩, h.waits⟩

theorem Ready.openQuote (h : p.Ready) :
    Quiet p.reversed (openQuote p).reversed ∧ (openQuote p).Ready := by
  obtain ⟨hquiet, hready⟩ := h.literal_of_not_mem (s := "> ") (by decide)
  have hopened : ({ p.literal "> " with contentStart := true } : Pen).Ready :=
    ⟨⟨hready.margin, hready.idle⟩, hready.waits⟩
  exact ⟨hquiet, hopened.indent (by simp)⟩

theorem Ready.openItem (h : p.Ready) (ordered : Bool) :
    Quiet p.reversed (openItem ordered p).reversed ∧ (openItem ordered p).Ready := by
  obtain ⟨hquiet, hready⟩ := h.literal_of_not_mem (not_mem_nextMarker (c := '<') (by decide) (by decide) ordered p)
  refine ⟨hquiet, ⟨fun c hc => ?_, hready.idle⟩, hready.waits⟩
  rw [margin_openItem, List.mem_append] at hc
  rcases hc with hc | hc
  · exact h.margin c hc
  · exact .inl (List.eq_of_mem_replicate hc)

theorem Steady.outdent (h : p.Steady) (n : Nat) : (p.outdent n).Steady :=
  ⟨fun c hc => h.margin c (List.mem_of_mem_take hc), h.idle⟩

theorem Ready.writeCodeBlock (h : p.Ready) {info text : String} (hinfo : ¬comment <:+: info.toList)
    (htext : ¬comment <:+: text.toList) (firstInItem : Bool) :
    Quiet p.reversed (writeCodeBlock info text firstInItem p).reversed ∧
      (writeCodeBlock info text firstInItem p).Ready := by
  obtain ⟨q, hq, hreversed, hready⟩ : ∃ q : Pen, (if firstInItem then p else p.endBlock) = q ∧
      q.reversed = p.reversed ∧ q.Ready := by
    refine ⟨_, rfl, ?_⟩
    split
    · exact ⟨rfl, h⟩
    · exact ⟨rfl, h.toSteady.endBlock⟩
  rw [writeCodeBlock_eq, hq, ← hreversed]
  split
  · obtain ⟨hspaces, hopened⟩ := hready.literal_of_not_mem (s := "    ") (by decide)
    obtain ⟨hquiet, hsteady⟩ := (hopened.indent (s := "    ") (by simp)).literal htext
    rw [reversed_indent] at hquiet
    exact ⟨hspaces.trans hquiet, (hsteady.outdent 4).endBlock⟩
  · obtain ⟨hline, hopened⟩ := hready.literal (not_comment_isInfix_fenceLine hinfo text)
    obtain ⟨hlines, hwritten⟩ := hopened.endLine.literal htext
    obtain ⟨hbar, hclosed⟩ := (Calm.literal (s := codeBar info text) (.inl (not_mem_codeBar (by decide) info text)))
      _ hwritten.endLine.toSteady
    rw [reversed_endLine] at hlines hbar
    refine ⟨?_, hclosed.endBlock⟩
    rw [reversed_endBlock]
    exact hline.trans (hlines.trans hbar)

end Pen

/-- A block without blocks in it brings up no comment. -/
theorem Pen.Ready.writeLeaf {p : Pen} (h : p.Ready) (inItem first : Bool) (next : Option Chunk) {c : Chunk}
    (hleaf : c.isLeaf) (hcalm : c.IsCalm) :
    Quiet p.reversed (writeChunk inItem first next c p).reversed ∧ (writeChunk inItem first next c p).Ready := by
  have hp := h.addTight inItem
  cases c with
  | heading level content =>
    have hmarks : '>' ∉ (fence '#' level).toList := fun hmem => by
      rw [fence, String.toList_ofList] at hmem
      exact absurd (List.eq_of_mem_replicate hmem) (by decide)
    have hstart : Calm fun p => { p with contentStart := true } := .of_silent fun _ => ⟨rfl, rfl, rfl⟩
    have hspans : Calm (writeSpans .other content) := .writeSpans hcalm
    obtain ⟨hquiet, hsteady⟩ := hspans.comp (hstart.comp
      ((Calm.literal (s := " ") (.inl (by decide))).comp (.literal (.inl hmarks)))) _ hp.toSteady
    rw [writeChunk]
    exact ⟨hquiet, hsteady.endBlock⟩
  | paragraph content =>
    have hspans : Calm (writeSpans .other content) := .writeSpans hcalm
    obtain ⟨hquiet, hsteady⟩ := hspans _ hp.toSteady
    rw [writeChunk]
    exact ⟨hquiet, hsteady.endBlock⟩
  | codeBlock info text =>
    rw [writeChunk]
    exact hp.writeCodeBlock hcalm.1 hcalm.2 (inItem && first)
  | htmlBlock text =>
    obtain ⟨hquiet, hsteady⟩ := hp.toSteady.endBlock.literal hcalm
    rw [writeChunk]
    exact ⟨hquiet, hsteady.endBlock⟩
  | table t =>
    have hrows : Calm fun p => t.rows.foldl (fun p row => writeRow t.alignments row p) p.endBlock :=
      (Calm.foldl fun row hrow => .writeRow t.alignments (hcalm row hrow)).comp .endBlock
    obtain ⟨hquiet, hsteady⟩ := hrows _ hp.toSteady
    rw [writeChunk]
    exact ⟨hquiet, hsteady.endBlock⟩
  | list | blockQuote => cases hleaf

end BookCatalog.Markdown
