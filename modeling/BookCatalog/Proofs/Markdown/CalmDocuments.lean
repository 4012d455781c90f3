import BookCatalog.Proofs.Markdown.CalmBlocks

/-!
# Documents that bring no comment

The content of a document brings no comment when none of its strings has the words of a comment in it
(`Document.strings`), and its markup begins with a tag, so that no comment is put together from pieces.
-/

namespace BookCatalog

/-- The strings of an inline, those of the inlines inside it apart. -/
def Inline.ownStrings : Inline → List String
  | .text s | .code s | .html s | .symbolLink s | .link s _ => [s]
  | .image source => source.toList
  | .emphasis _ | .strong _ => []

/-- The strings of a block that stand in no line of it. -/
def Block.ownStrings : Block → List String
  | .codeBlock language literal => language.toList ++ [literal]
  | .htmlBlock literal => [literal]
  | _ => []

/-- All strings in a document. -/
def Document.strings (d : Document) : List String :=
  d.allBlocks.flatMap Block.ownStrings ++ d.allInlines.flatMap Inline.ownStrings

namespace Markdown

open BookCatalog.Inline

/-- The words of the comment that closes a list. -/
def words : List Char := "end list".toList

theorem not_comment_isInfix {cs : List Char} (h : ¬words <:+: cs) : ¬comment <:+: cs :=
  fun hoccurs => h ((by decide : words <:+: comment).trans hoccurs)

/-! ## Spans -/

/-- An inline that brings no comment, the inlines inside it apart. -/
structure IsCalmInline (i : Inline) : Prop where
  words : ∀ s ∈ i.ownStrings, ¬words <:+: s.toList
  markup : ∀ s, i = .html s → s.toList.head? = some '<'

theorem le_leastUnused (used : List Nat) : ∀ fuel n : Nat, n ≤ leastUnused used fuel n
  | 0, _ => Nat.le_refl _
  | fuel + 1, n => by
    rw [leastUnused]
    split
    · exact (Nat.le_succ n).trans (le_leastUnused used fuel (n + 1))
    · exact Nat.le_refl n

theorem exists_ticks_eq (cs : List Char) :
    ∃ n, (fence '\x60' (tickCount cs)).toList = '\x60' :: List.replicate n '\x60' := by
  obtain ⟨n, hn⟩ : ∃ n, tickCount cs = n + 1 :=
    Nat.exists_eq_add_one.2 (le_leastUnused (runLengths '\x60' 0 cs) _ 1)
  exact ⟨n, by rw [fence, String.toList_ofList, hn, List.replicate_succ]⟩

theorem isCalm_codeText {literal : String} (h : ¬comment <:+: literal.toList) : IsCalm (codeText literal).toList := by
  obtain ⟨n, hticks⟩ := exists_ticks_eq literal.toList
  have hpad (c : Char) (hc : c ≠ ' ') : c ∉ (if needsPadding literal.toList then " " else "").toList := by
    split <;> simp [hc]
  have hmarks (c : Char) (hc : c ≠ '\x60') : c ∉ (fence '\x60' (tickCount literal.toList)).toList := by
    rw [hticks, ← List.replicate_succ]
    exact fun hmem => hc (List.eq_of_mem_replicate hmem)
  refine .inr ⟨fun hoccurs => ?_, ?_⟩
  · simp only [codeText, String.toList_append, List.append_assoc] at hoccurs
    have hoccurs := comment_isInfix_of_append_left (hmarks '<' (by decide)) hoccurs
    have hoccurs := comment_isInfix_of_append_left (hpad '<' (by decide)) hoccurs
    refine h (comment_isInfix_of_append_right (fun hmem => ?_) hoccurs)
    exact (List.mem_append.1 hmem).elim (hpad '>' (by decide)) (hmarks '>' (by decide))
  · simp only [codeText, String.toList_append, List.append_assoc, hticks, List.cons_append]
    rintro c ⟨⟩
    decide

theorem shownUrl_suffix (url : String) : (shownUrl url).toList <:+ url.toList := by
  unfold shownUrl
  dsimp only
  split
  · rw [String.toList_ofList]
    exact List.drop_suffix _ _
  · exact List.suffix_rfl

theorem isCalm_autolink {url : String} (h : ¬words <:+: url.toList) :
    IsCalm ("<" ++ shownUrl url ++ ">").toList := by
  refine .inr ⟨fun hoccurs => ?_, ?_⟩
  · have hoccurs : words <:+: [] ++ '<' :: ((shownUrl url).toList ++ ['>']) := by
      refine (by decide : words <:+: comment).trans ?_
      simpa using hoccurs
    have hoccurs := (isInfix_append_cons_of_not_mem (by decide) hoccurs).resolve_left (by decide)
    have hoccurs := (isInfix_append_cons_of_not_mem (by decide) hoccurs).resolve_right (by decide)
    exact h (hoccurs.trans (shownUrl_suffix url).isInfix)
  · simp only [String.toList_append]
    rintro c ⟨⟩
    decide

mutual

theorem isCalm_strokesOfSpan (around : Surrounding) : ∀ i : Inline, (∀ j ∈ i.parts, IsCalmInline j) →
    ∀ s ∈ strokesOfSpan around (spanOf i), s.IsCalm
  | .text literal, _, s, hs => by
    obtain rfl := List.mem_singleton.1 hs
    exact nofun
  | .code literal, h, s, hs => by
    obtain rfl := List.mem_singleton.1 hs
    have hwords := (h _ List.mem_cons_self).words literal List.mem_cons_self
    exact fun _ => isCalm_codeText (not_comment_isInfix hwords)
  | .html literal, h, s, hs => by
    obtain rfl := List.mem_singleton.1 hs
    have hown := h _ List.mem_cons_self
    refine fun _ => .inr ⟨not_comment_isInfix (hown.words literal List.mem_cons_self), fun c hc => ?_⟩
    rw [hown.markup literal rfl] at hc
    cases hc
    decide
  | .symbolLink symbol, h, s, hs => by
    obtain rfl := List.mem_singleton.1 hs
    have hwords := not_comment_isInfix ((h _ List.mem_cons_self).words symbol List.mem_cons_self)
    refine fun _ => .inr ⟨fun hoccurs => ?_, ?_⟩
    · simp only [String.toList_append, List.append_assoc] at hoccurs
      have hoccurs := comment_isInfix_of_append_left (by decide) hoccurs
      exact hwords (comment_isInfix_of_append_right (by decide) hoccurs)
    · simp only [String.toList_append, symbolFence]
      rintro c ⟨⟩
      decide
  | .image source, _, s, hs => by
    rw [spanOf, strokesOfSpan] at hs
    simp only [List.mem_cons, List.not_mem_nil, or_false] at hs
    obtain rfl | rfl | rfl := hs
    · exact fun _ => .inl (by decide)
    · exact nofun
    · exact fun _ => .inl (by decide)
  | .emphasis content, h, s, hs => by
    rw [parts, List.forall_mem_cons] at h
    rw [spanOf, strokesOfSpan, List.cons_append, List.mem_cons, List.mem_append, List.mem_singleton] at hs
    have hmark : '>' ∉ (emphasisMark around).toList := by
      unfold emphasisMark
      split <;> decide
    obtain rfl | hs | rfl := hs
    · exact fun _ => .inl hmark
    · exact isCalm_strokesOf _ content h.2 s hs
    · exact fun _ => .inl hmark
  | .strong content, h, s, hs => by
    rw [parts, List.forall_mem_cons] at h
    rw [spanOf, strokesOfSpan, List.cons_append, List.mem_cons, List.mem_append, List.mem_singleton] at hs
    have hmark : '>' ∉ (strongMark around).toList := by
      unfold strongMark
      split <;> decide
    obtain rfl | hs | rfl := hs
    · exact fun _ => .inl hmark
    · exact isCalm_strokesOf _ content h.2 s hs
    · exact fun _ => .inl hmark
  | .link destination content, h, s, hs => by
    rw [parts, List.forall_mem_cons] at h
    rw [spanOf, strokesOfSpan] at hs
    split at hs
    · obtain rfl := List.mem_singleton.1 hs
      exact fun _ => isCalm_autolink (h.1.words destination List.mem_cons_self)
    · rw [List.cons_append, List.mem_cons, List.mem_append] at hs
      simp only [List.mem_cons, List.not_mem_nil, or_false] at hs
      obtain rfl | hs | rfl | rfl | rfl := hs
      · exact fun _ => .inl (by decide)
      · exact isCalm_strokesOf _ content h.2 s hs
      · exact fun _ => .inl (by decide)
      · exact nofun
      · exact fun _ => .inl (by decide)

/-- Content whose inlines are calm at every depth is written with calm strokes. -/
theorem isCalm_strokesOf (around : Surrounding) : ∀ content : List Inline, (∀ j ∈ partsOf content, IsCalmInline j) →
    ∀ s ∈ strokesOf around (spansOf content), s.IsCalm
  | [], _, s, hs => by simp [spansOf, strokesOf] at hs
  | i :: rest, h, s, hs => by
    rw [partsOf_cons, List.forall_mem_append] at h
    rw [spansOf, strokesOf, List.mem_append] at hs
    exact hs.elim (isCalm_strokesOfSpan around i h.1 s) (isCalm_strokesOf around rest h.2 s)

end

/-! ## Documents -/

/-- A document whose content brings no comment, and whose lists have items. -/
structure IsCalmDocument (d : Document) : Prop where
  words : ∀ s ∈ d.strings, ¬words <:+: s.toList
  markup : ∀ s, .html s ∈ d.allInlines → s.toList.head? = some '<'
  items : ∀ ordered items, .list ordered items ∈ d.allBlocks → items ≠ []

theorem mem_tableOf_cells {header : List Cell} {rows : List (List Cell)} {t : Table} (h : tableOf header rows = some t)
    {row : TableRow} (hrow : row ∈ t.rows) {cell : List Span} (hcell : cell ∈ row.cells) :
    ∃ line, (line = [] ∨ line ∈ header ++ rows.flatten) ∧ cell = spansOf line := by
  have hpadded (columns : Nat) (source : List Cell) (hmem : cell ∈ paddedCells columns source) :
      ∃ line, (line = [] ∨ line ∈ source) ∧ cell = spansOf line := by
    obtain ⟨index, -, rfl⟩ := List.mem_map.1 hmem
    refine ⟨_, ?_, rfl⟩
    rw [List.getD_eq_getElem?_getD]
    cases hindex : source[index]? with
    | none => exact .inl rfl
    | some line => exact .inr (List.mem_of_getElem? hindex)
  unfold tableOf at h
  dsimp only at h
  split at h
  · cases h
  · cases h
    rcases List.mem_cons.1 hrow with rfl | hrow
    · obtain ⟨line, hline, heq⟩ := hpadded _ header hcell
      exact ⟨line, hline.imp_right (List.mem_append_left _), heq⟩
    · obtain ⟨source, hsource, rfl⟩ := List.mem_map.1 hrow
      obtain ⟨line, hline, heq⟩ := hpadded _ source hcell
      refine ⟨line, hline.imp_right fun hmem => ?_, heq⟩
      exact List.mem_append_right _ (List.mem_flatten.2 ⟨source, hsource, hmem⟩)

namespace IsCalmDocument

variable {d : Document}

theorem isCalmInline (h : IsCalmDocument d) {i : Inline} (hi : i ∈ d.allInlines) : IsCalmInline i where
  words s hs := h.words s (List.mem_append_right _ (List.mem_flatMap.2 ⟨i, hi, hs⟩))
  markup s hs := h.markup s (hs ▸ hi)

theorem calm_line (h : IsCalmDocument d) {b : Block} (hb : b ∈ d.allBlocks) {line : List Inline}
    (hline : line ∈ b.lines) : ∀ s ∈ strokesOf .other (spansOf line), s.IsCalm :=
  isCalm_strokesOf .other line fun _ hi =>
    h.isCalmInline (List.mem_flatMap.2 ⟨b, hb, List.mem_flatMap.2 ⟨line, hline, hi⟩⟩)

theorem isCalm_chunk (h : IsCalmDocument d) {b : Block} (hb : b ∈ d.allBlocks) {c : Chunk}
    (hc : c ∈ chunksOfBlock b) : c.IsCalm := by
  have hwords (s : String) (hs : s ∈ b.ownStrings) : ¬comment <:+: s.toList :=
    not_comment_isInfix (h.words s (List.mem_append_left _ (List.mem_flatMap.2 ⟨b, hb, hs⟩)))
  cases b with
  | heading level content | paragraph content =>
    obtain rfl := List.mem_singleton.1 hc
    exact h.calm_line hb List.mem_cons_self
  | list ordered items =>
    obtain rfl := List.mem_singleton.1 hc
    obtain ⟨item, rest, rfl⟩ := List.exists_cons_of_ne_nil (h.items ordered items hb)
    exact List.cons_ne_nil _ _
  | blockQuote children =>
    obtain rfl := List.mem_singleton.1 hc
    trivial
  | codeBlock language literal =>
    obtain rfl := List.mem_singleton.1 hc
    refine ⟨?_, hwords literal (List.mem_append_right _ List.mem_cons_self)⟩
    cases language with
    | none => exact (by decide : ¬comment <:+: "".toList)
    | some info => exact hwords info List.mem_cons_self
  | htmlBlock literal =>
    obtain rfl := List.mem_singleton.1 hc
    have hfree := hwords literal List.mem_cons_self
    change ¬comment <:+: (closedLine literal).toList
    unfold closedLine
    split
    · exact hfree
    · rw [String.toList_append]
      exact fun hoccurs => hfree (comment_isInfix_of_append_right (by decide) hoccurs)
  | table header rows =>
    obtain ⟨t, ht, rfl⟩ := List.mem_map.1 hc
    intro row hrow cell hcell
    obtain ⟨line, hline, rfl⟩ := mem_tableOf_cells (Option.mem_toList.1 ht) hrow hcell
    rcases hline with rfl | hline
    · exact nofun
    · exact h.calm_line hb hline

/-- All blocks of a calm document are calm, at every depth. -/
theorem allIn_isCalm (h : IsCalmDocument d) : Chunk.AllIn Chunk.IsCalm (chunksOf d.children) :=
  allIn_chunksOf d.children fun _ hb _ hc => h.isCalm_chunk hb hc

end IsCalmDocument

end Markdown

end BookCatalog
