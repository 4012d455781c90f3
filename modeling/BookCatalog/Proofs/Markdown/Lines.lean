import BookCatalog.Proofs.Markdown.Erasure
import BookCatalog.Proofs.Markdown.Frames

/-!
# Lines

Breaks that are made leave the pen at the start of a line (`startsLine_settle`). Outside quotes, lists and cells a
text that is written as it stands is put down as it stands (`reversed_literal`), and what is written after a block
begins with the end of its last line, whatever the block is (`exists_writeChunks_eq`).
-/

namespace BookCatalog.Markdown

namespace Pen

/-! ## The start of a line -/

/-- Nothing is written on the line at hand. -/
def StartsLine (p : Pen) : Prop := p.reversed = [] ∨ p.reversed.head? = some '\n'

theorem StartsLine.endsLine {p : Pen} (h : p.StartsLine) : EndsLine p.text := by
  rw [EndsLine, text, List.reverse_eq_nil_iff, List.getLast?_reverse]
  exact h

theorem startsLine_makeBreaks_of_ne {c : Char} (hc : c ≠ '\n') (before : List Char) : ∀ (n : Nat) (p : Pen),
    (makeBreaks (n + 1) (c :: before) p).StartsLine
  | 0, p => by
    rw [makeBreaks, if_neg hc]
    exact .inr rfl
  | n + 1, p => by
    rw [makeBreaks, if_neg hc]
    exact startsLine_makeBreaks_of_ne hc before n _

theorem StartsLine.makeBreaks : ∀ (n : Nat) (seen : List Char) {p : Pen}, p.StartsLine →
    (p.makeBreaks n seen).StartsLine
  | 0, _, _, h => h
  | n + 1, [], _, h => StartsLine.makeBreaks n [] h
  | 1, c :: before, p, h => by
    rw [Pen.makeBreaks]
    split
    · exact h
    · exact .inr rfl
  | n + 2, c :: before, p, h => by
    by_cases hc : c = '\n'
    · rw [Pen.makeBreaks, if_pos hc]
      exact StartsLine.makeBreaks (n + 1) before h
    · exact startsLine_makeBreaks_of_ne hc before (n + 1) p

theorem startsLine_makeBreaks (n : Nat) (p : Pen) : (makeBreaks (n + 1) p.reversed p).StartsLine := by
  cases hrev : p.reversed with
  | nil => exact StartsLine.makeBreaks (n + 1) [] (.inl hrev)
  | cons c before =>
    by_cases hc : c = '\n'
    · exact StartsLine.makeBreaks (n + 1) _ (.inr (by rw [hrev, hc]; rfl))
    · exact startsLine_makeBreaks_of_ne hc before n p

theorem lineStart_makeBreaks : ∀ (n : Nat) (seen : List Char) (p : Pen),
    p.lineStart → (makeBreaks n seen p).lineStart
  | 0, _, _, h => h
  | n + 1, [], p, _ => lineStart_makeBreaks n [] { p with lineStart := true, contentStart := true } rfl
  | n + 1, c :: before, p, _ => by
    rw [makeBreaks]
    split
    · exact lineStart_makeBreaks n before { p with lineStart := true, contentStart := true } rfl
    · exact lineStart_makeBreaks n (c :: before) _ rfl

/-- Breaks to be made are at least one, in a tight item too. -/
theorem exists_breaks_eq {p : Pen} (h : 0 < p.breaks) :
    ∃ n, (if p.tight then min p.breaks 1 else p.breaks) = n + 1 := by
  refine ⟨_, (Nat.succ_pred_eq_of_pos ?_).symm⟩
  split <;> omega

theorem startsLine_settle {p : Pen} (h : 0 < p.breaks) : p.settle.StartsLine := by
  obtain ⟨n, hn⟩ := exists_breaks_eq h
  unfold settle
  rw [hn]
  exact startsLine_makeBreaks n p

theorem lineStart_settle {p : Pen} (h : 0 < p.breaks) : p.settle.lineStart := by
  obtain ⟨n, hn⟩ := exists_breaks_eq h
  unfold settle
  rw [hn]
  cases hrev : p.reversed with
  | nil => exact lineStart_makeBreaks n [] { p with lineStart := true, contentStart := true } rfl
  | cons c before =>
    dsimp only
    rw [makeBreaks]
    split
    · exact lineStart_makeBreaks n before { p with lineStart := true, contentStart := true } rfl
    · exact lineStart_makeBreaks n (c :: before) _ rfl

theorem reversed_makeBreaks_one (c : Char) (before : List Char) (p : Pen) :
    (makeBreaks 1 (c :: before) p).reversed = if c = '\n' then p.reversed else '\n' :: p.reversed := by
  rw [makeBreaks]
  split <;> rfl

/-- A line is ended once. -/
theorem reversed_settle_endLine {p : Pen} {s : String} {base : List Char} (hs : s ≠ "") (hbreaks : p.breaks = 0)
    (h : p.reversed = s.toList.reverse ++ base) :
    p.endLine.settle.reversed = (closedLine s).toList.reverse ++ base := by
  have hone : (if p.tight then min (max p.breaks 1) 1 else max p.breaks 1) = 1 := by
    rw [hbreaks]
    split <;> rfl
  obtain ⟨c, cs, hlast⟩ : ∃ c cs, s.toList.reverse = c :: cs :=
    List.exists_cons_of_ne_nil (by simpa using hs)
  have hlast? : s.toList.getLast? = some c := by rw [← List.head?_reverse, hlast]; rfl
  have hsettle : p.endLine.settle.reversed = if c = '\n' then p.reversed else '\n' :: p.reversed := by
    refine Eq.trans ?_ (reversed_makeBreaks_one c (cs ++ base) p.endLine)
    rw [← List.cons_append, ← hlast, ← h]
    unfold settle endLine
    dsimp only
    rw [hone]
  rw [hsettle, closedLine, hlast?, h]
  by_cases hc : c = '\n'
  · rw [if_pos hc, if_pos (by rw [hc])]
  · rw [if_neg hc, if_neg (fun heq => hc (Option.some.inj heq)), String.toList_append, List.reverse_append]
    rfl

/-! ## Texts without a margin -/

theorem reversed_putChars_literal : ∀ (cs : List Char) {p : Pen}, p.margin = [] → p.inCell = false →
    (p.putChars .literal cs).reversed = cs.reverse ++ p.reversed
  | [], _, _, _ => rfl
  | c :: rest, p, hmargin, hcell => by
    have hlead : p.lead c = [] := by simp [lead, hmargin, hcell]
    have hrest := reversed_putChars_literal rest (p := p.putChar .literal c rest.head?)
      (by rwa [putChar_eq]) (by rwa [putChar_eq])
    rw [putChars, hrest, putChar_eq, hlead]
    simp [form]

theorem AtTop.reversed_literal {p : Pen} (hp : p.AtTop) {s : String} (hs : s ≠ "") :
    (p.literal s).reversed = s.toList.reverse ++ p.settle.reversed := by
  have hsettle := hp.of_sameFrame (sameFrame_settle p)
  rw [literal, if_neg hs]
  exact reversed_putChars_literal s.toList hsettle.margin hsettle.inCell

theorem ne_empty_of_toList_concat {s : String} {cs : List Char} {c : Char} (hs : s.toList = cs ++ [c]) : s ≠ "" := by
  rintro rfl
  simp at hs

/-- The pen after the last character of a text. -/
theorem literal_starts {s : String} {cs : List Char} {c : Char} (hs : s.toList = cs ++ [c]) (hc : c ≠ '\n')
    (hdigit : Pen.isDigit c = false) (p : Pen) :
    (p.literal s).lineStart = false ∧ (p.literal s).contentStart = false := by
  have hne : s ≠ "" := ne_empty_of_toList_concat hs
  have hlast : p.literal s = (p.settle.putChars .literal cs).putChar .literal c none := by
    rw [Pen.literal, if_neg hne, Pen.put, hs, Pen.putChars_literal_append]
    rfl
  rw [hlast, Pen.putChar_eq]
  simp [Pen.endsLine, hc, hdigit]

end Pen

/-! ## What is written after a block -/

/-- The text after a block, `added` being its characters, last one first. -/
def closedText (added : List Char) : List Char :=
  if added.head? = some '\n' then added.reverse else added.reverse ++ ['\n']

theorem head?_closedText {added : List Char} (h : added = [] ∨ added.getLast? = some '\n') :
    (closedText added).head? = some '\n' := by
  unfold closedText
  split
  · rename_i hhead
    rcases h with rfl | hlast
    · cases hhead
    · rwa [List.head?_reverse]
  · rcases h with rfl | hlast
    · rfl
    · rw [List.head?_append, List.head?_reverse, hlast]
      rfl

/-- What is written by the pen `q` after its last line is `added`. -/
theorem exists_writeChunks_eq {q : Pen} {c : Char} {base : List Char} (hbreaks : 0 < q.breaks)
    (hq : q.reversed = c :: base) (hc : c ≠ '\n') (inItem first : Bool) (rest : List Chunk) :
    ∃ added, (writeChunks inItem first rest q).reversed = added ++ q.reversed ∧
      (added = [] ∨ added.getLast? = some '\n') := by
  have hlocal := Local.writeChunks inItem first rest
  rcases hlocal.ends q ⟨hbreaks, c, base, hq, hc⟩ with ⟨-, heq⟩ | ⟨added, hadded⟩
  · exact ⟨[], heq, .inl rfl⟩
  · exact ⟨added ++ ['\n'], by simp [← hadded], .inr List.getLast?_concat⟩

theorem renderText_eq {chunks : List Chunk} {added base : List Char} {c : Char} (hc : c ≠ '\n')
    (h : (writeChunks false true chunks {}).reversed = added ++ c :: base) :
    renderText chunks = (c :: base).reverse ++ closedText added := by
  unfold renderText closedText
  dsimp only
  rw [h]
  cases added with
  | nil => simp [hc]
  | cons d more => by_cases hd : d = '\n' <;> simp [hd]

/-! ## Documents -/

theorem chunksOf_append (blocks more : List Block) : chunksOf (blocks ++ more) = chunksOf blocks ++ chunksOf more := by
  induction blocks with
  | nil => rfl
  | cons b rest ih => rw [List.cons_append, chunksOf, ih, chunksOf, List.append_assoc]

theorem render?_eq_some_iff {d : Document} {md : String} :
    render? d = some md ↔ Chunk.anyEmptyCode (chunksOf d.children) = false ∧
      md = String.ofList (erase listSeparator (renderText (chunksOf d.children))) := by
  unfold render?
  dsimp only
  split
  · rename_i h
    simp [h]
  · rename_i h
    simp [h, eq_comm]

theorem isSome_render?_iff {d : Document} :
    (render? d).isSome ↔ Chunk.anyEmptyCode (chunksOf d.children) = false := by
  simp [Option.isSome_iff_exists, render?_eq_some_iff]

end BookCatalog.Markdown
