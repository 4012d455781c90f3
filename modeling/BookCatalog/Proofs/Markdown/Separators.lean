import BookCatalog.Proofs.Markdown.CalmDocuments

/-!
# Separators

A list that is directly followed by a list or a code block is closed by a comment, at every depth. These separators
are erased afterwards, where they stand with a blank line after them. At the top every one of them does, but not
inside of a quote, where the blank line carries a margin, nor inside of an item, where no line is left blank. So a
comment is left in a text exactly when a list is closed inside of something (`comment_left_iff`).

What a block brings up is followed through the writer by one relation between the text before it and the text after
it (`Fresh`), which every block keeps (`fresh_writeChunk`): each comment that comes up is followed by something, a
blank line after it means that it begins a line, and there is one without a blank line exactly when there is a
separator inside of the block.
-/

namespace BookCatalog.Markdown

/-! ## Lists that are followed by what they would run on into -/

mutual

/-- Whether in a block, at some depth, a list is directly followed by a list or a code block. -/
def Chunk.hasSeparator : Chunk → Bool
  | .list _ items => Chunk.anyItemSeparator items
  | .blockQuote children => Chunk.anySeparator true children
  | _ => false

/-- Whether in one of some blocks a list is directly followed by a list or a code block; whether it is among the
blocks themselves counts when they stand inside of something. -/
def Chunk.anySeparator (inside : Bool) : List Chunk → Bool
  | [] => false
  | c :: rest =>
    c.hasSeparator || (inside && c.isList && rest.head?.any Chunk.joinsList) || Chunk.anySeparator inside rest

/-- Whether in one of some items a list is directly followed by a list or a code block. -/
def Chunk.anyItemSeparator : List (List Chunk) → Bool
  | [] => false
  | item :: rest => Chunk.anySeparator true item || Chunk.anyItemSeparator rest

end

theorem Chunk.anySeparator_cons_iff (inside : Bool) (c : Chunk) (rest : List Chunk) :
    Chunk.anySeparator inside (c :: rest) = true ↔ c.hasSeparator = true ∨
      inside = true ∧ (c.isList && rest.head?.any Chunk.joinsList) = true ∨
        Chunk.anySeparator inside rest = true := by
  rw [Chunk.anySeparator, Bool.or_eq_true, Bool.or_eq_true, Bool.and_assoc, Bool.and_eq_true, or_assoc]

/-! ## Comments in a text that goes on -/

/-- A blank line follows. -/
def BlankLine (after : List Char) : Prop := ['\n', '\n'] <+: after

/-- A text goes on with comments, each of which has something after it: without a blank line before it when the
comment is `kept`, and otherwise with the comment at the start of a line. All texts have their last character
first. -/
structure Fresh (short kept : Prop) (r r' : List Char) : Prop where
  grows : r <:+ r'
  place : ∀ after before, r' = after ++ (commentRev ++ before) → r.length < (commentRev ++ before).length →
    (∃ c ∈ after, c ≠ '\n') ∧ (BlankLine after.reverse → before = [] ∨ before.head? = some '\n') ∧
      (¬BlankLine after.reverse → kept)
  keeps : short → kept → ∃ after before, r' = after ++ (commentRev ++ before) ∧ (∃ c ∈ after, c ≠ '\n') ∧
    ¬BlankLine after.reverse

/-- Whether a blank line follows is settled by the first characters that are written. -/
theorem blankLine_append_iff {cs ds : List Char} (h : ∃ c ∈ cs, c ≠ '\n') :
    BlankLine (cs ++ ds) ↔ BlankLine cs := by
  obtain ⟨c, hc, hne⟩ := h
  match cs with
  | [d] =>
    obtain rfl := List.mem_singleton.1 hc
    simp [BlankLine, Ne.symm hne]
  | d :: e :: rest => simp [BlankLine]

namespace Fresh

variable {short kept more : Prop} {r r' r'' : List Char}

theorem of_quiet (h : Quiet r r') : Fresh short False r r' where
  grows := h.grows
  place after before heq hlt := absurd (List.prefix_append commentRev before)
    (h.none_ends _ ⟨after, heq.symm⟩ hlt)
  keeps _ hkept := hkept.elim

theorem congr (h : Fresh short kept r r') (hiff : kept ↔ more) : Fresh short more r r' := propext hiff ▸ h

theorem trans (h : Fresh short kept r r') (h' : Fresh short more r' r'') : Fresh short (kept ∨ more) r r'' where
  grows := h.grows.trans h'.grows
  place after before heq hlt := by
    by_cases hlong : r'.length < (commentRev ++ before).length
    · obtain ⟨hink, hblank, hkept⟩ := h'.place after before heq hlong
      exact ⟨hink, hblank, fun hno => .inr (hkept hno)⟩
    · -- the comment stands in the text before
      have hsuffix : commentRev ++ before <:+ r' :=
        List.suffix_of_suffix_length_le ⟨after, heq.symm⟩ h'.grows (Nat.le_of_not_lt hlong)
      obtain ⟨between, rfl⟩ := hsuffix
      obtain ⟨added, rfl⟩ := h'.grows
      obtain rfl : added ++ between = after := List.append_cancel_right ((List.append_assoc _ _ _).trans heq)
      obtain ⟨hink, hblank, hkept⟩ := h.place between before rfl hlt
      have hiff : BlankLine (added ++ between).reverse ↔ BlankLine between.reverse := by
        rw [List.reverse_append]
        exact blankLine_append_iff (by simpa using hink)
      rw [hiff]
      obtain ⟨c, hc, hne⟩ := hink
      exact ⟨⟨c, List.mem_append_right added hc, hne⟩, hblank, fun hno => .inl (hkept hno)⟩
  keeps hshort hor := by
    rcases hor with hkept | hmore
    · obtain ⟨after, before, rfl, ⟨c, hc, hne⟩, hno⟩ := h.keeps hshort hkept
      obtain ⟨added, rfl⟩ := h'.grows
      refine ⟨added ++ after, before, (List.append_assoc _ _ _).symm, ⟨c, List.mem_append_right added hc, hne⟩, ?_⟩
      rwa [List.reverse_append, blankLine_append_iff ⟨c, List.mem_reverse.2 hc, hne⟩]
    · exact h'.keeps hshort hmore

theorem of_quiet_trans (h : Quiet r r') (h' : Fresh short kept r' r'') : Fresh short kept r r'' :=
  ((of_quiet h).trans h').congr (false_or _).to_iff

end Fresh

/-! ## The comment that closes a list -/

namespace Pen

theorem reversed_putChars_of_not_lineStart : ∀ (cs : List Char) {p : Pen}, p.lineStart = false → '\n' ∉ cs →
    '|' ∉ cs → (p.putChars .literal cs).reversed = cs.reverse ++ p.reversed
  | [], _, _, _, _ => rfl
  | c :: rest, p, hline, hend, hpipe => by
    rw [List.mem_cons, not_or] at hend hpipe
    have hlead : p.lead c = [] := by simp [lead, hline, Ne.symm hpipe.1]
    have hrest := reversed_putChars_of_not_lineStart rest (p := p.putChar .literal c rest.head?)
      (by rw [putChar_eq]; simp [endsLine, Ne.symm hend.1]) hend.2 hpipe.2
    rw [putChars, hrest, putChar_eq, hlead]
    simp [form]

/-- A text on one line that begins a line stands after the margin. -/
theorem reversed_putChars_of_lineStart {c : Char} {rest : List Char} {p : Pen} (hline : p.lineStart)
    (hend : '\n' ∉ c :: rest) (hpipe : '|' ∉ c :: rest) :
    (p.putChars .literal (c :: rest)).reversed = (c :: rest).reverse ++ (p.margin.reverse ++ p.reversed) := by
  rw [List.mem_cons, not_or] at hend hpipe
  have hlead : p.lead c = p.margin := by simp [lead, hline, Ne.symm hpipe.1]
  have hrest := reversed_putChars_of_not_lineStart rest (p := p.putChar .literal c rest.head?)
    (by rw [putChar_eq]; simp [endsLine, Ne.symm hend.1]) hend.2 hpipe.2
  rw [putChars, hrest, putChar_eq, hlead]
  simp [form]

end Pen

section
variable {p : Pen}

theorem reversed_closeList (p : Pen) :
    (closeList p).reversed = commentRev ++ (p.margin.reverse ++ p.endLine.settle.reversed) := by
  have hmargin : p.endLine.settle.margin = p.margin := (Pen.sameFrame_settle p.endLine).margin
  have hline := Pen.lineStart_settle (p := p.endLine) p.breaks_endLine_pos
  rw [← hmargin]
  exact Pen.reversed_putChars_of_lineStart hline (by decide) (by decide)

theorem breaks_closeList (p : Pen) : (closeList p).breaks = 2 := by
  have hzero : (p.endLine.literal endOfList).breaks = 0 := Pen.breaks_literal (by decide) _
  rw [closeList, Pen.endBlock, hzero]
  rfl

theorem ready_closeList (h : p.Steady) : (closeList p).Ready := by
  have hends : endOfList.toList = comment.dropLast ++ ['>'] := by decide
  obtain ⟨hline, -⟩ := Pen.literal_starts hends (by decide) (by decide) p.endLine
  refine Pen.Steady.ready ⟨(plain_closeList.keeps p).margin ▸ h.margin, fun hline' => ?_⟩ ?_
  · rw [closeList, Pen.endBlock, hline] at hline'
    cases hline'
  · rw [breaks_closeList]
    decide

/-- No other comment comes up when a list is closed. -/
theorem eq_of_commentRev_isPrefix (h : p.Steady) {t : List Char} (hsuffix : t <:+ (closeList p).reversed)
    (hlt : p.reversed.length < t.length) (hbegin : commentRev <+: t) : t = (closeList p).reversed := by
  have hsettled := h.endLine.toSteady.settle
  have hidle := (Pen.startsLine_settle (p := p.endLine) p.breaks_endLine_pos).idle
  have hmargin : '<' ∉ p.margin.reverse := fun hmem =>
    h.not_mem_margin (by decide) (by decide) (List.mem_reverse.1 hmem)
  have hquiet : Quiet p.reversed (comment.dropLast.reverse ++ (p.margin.reverse ++ p.endLine.settle.reversed)) :=
    (hsettled.1.trans (hidle.append hmargin).1).trans (.of_not_mem (by decide))
  have hsplit : (closeList p).reversed =
      '>' :: (comment.dropLast.reverse ++ (p.margin.reverse ++ p.endLine.settle.reversed)) := by
    rw [reversed_closeList]
    rfl
  rw [hsplit, List.suffix_cons_iff] at hsuffix
  rcases hsuffix with hsuffix | hsuffix
  · rw [hsuffix, hsplit]
  · exact absurd hbegin (hquiet.none_ends t hsuffix hlt)

end

/-! ## What follows a closed list -/

/-- The line ends and the margin between a line and the next text after two breaks. -/
def gap (p : Pen) : List Char := '\n' :: if p.tight then [] else p.margin ++ ['\n']

namespace Pen

variable {p : Pen}

theorem reversed_settle_of_two {c : Char} {rest : List Char} (hp : p.reversed = c :: rest) (hc : c ≠ '\n')
    (hbreaks : p.breaks = 2) : p.settle.reversed = (gap p).reverse ++ p.reversed := by
  unfold settle gap
  dsimp only
  rw [hbreaks, hp]
  by_cases htight : p.tight = true
  · rw [if_pos htight, if_pos htight]
    simp [makeBreaks, hc, hp]
  · rw [if_neg htight, if_neg htight]
    simp [makeBreaks, hc, hp]

/-- The next text after two breaks begins after the gap, with something other than a line end. -/
theorem exists_reversed_literal {c x : Char} {rest : List Char} {s : String} (hp : p.reversed = c :: rest)
    (hc : c ≠ '\n') (hbreaks : p.breaks = 2) (hmargin : '\n' ∉ p.margin) (hs : s.toList.head? = some x)
    (hx : x ≠ '\n') :
    ∃ y more, y ≠ '\n' ∧ (p.literal s).reversed = more ++ y :: ((gap p).reverse ++ p.reversed) := by
  obtain ⟨xs, hxs⟩ := List.head?_eq_some_iff.1 hs
  have hne : s ≠ "" := by
    rintro rfl
    cases hs
  have hlead : '\n' ∉ p.settle.lead x := fun hmem => by
    rcases mem_lead hmem with ⟨-, hmem⟩ | hslash
    · exact hmargin ((sameFrame_settle p).margin ▸ hmem)
    · exact absurd hslash (by decide)
  obtain ⟨y, ys, hy⟩ : ∃ y ys, p.settle.lead x ++ [x] = y :: ys :=
    List.exists_cons_of_ne_nil (List.append_ne_nil_of_right_ne_nil _ (List.cons_ne_nil x []))
  have hyne : y ≠ '\n' := by
    rintro rfl
    have hmem : '\n' ∈ p.settle.lead x ++ [x] := hy ▸ List.mem_cons_self
    rw [List.mem_append] at hmem
    exact hmem.elim hlead fun hmem => hx (List.mem_singleton.1 hmem).symm
  have hfirst : (p.settle.putChar .literal x xs.head?).reversed = ys.reverse ++ y :: p.settle.reversed := by
    rw [putChar_eq]
    change (p.settle.lead x ++ [x]).reverse ++ _ = _
    rw [hy]
    simp
  obtain ⟨more, hmore⟩ := (Adding.putChars .literal xs).grows (p.settle.putChar .literal x xs.head?)
  refine ⟨y, more ++ ys.reverse, hyne, ?_⟩
  rw [literal, if_neg hne, put, hxs, putChars, ← hmore, hfirst, reversed_settle_of_two hp hc hbreaks,
    List.append_assoc]

end Pen

/-- A text that a block begins with. -/
structure Begins (p : Pen) (tight : Bool) (q : Pen) (s : String) (x : Char) : Prop where
  reversed : q.reversed = p.reversed
  margin : q.margin = p.margin
  breaks : q.breaks = p.breaks
  tight : q.tight = tight
  head : s.toList.head? = some x
  ne : x ≠ '\n'

/-- A block that a list would run on into begins with something other than a line end. -/
theorem exists_begins {d : Chunk} (hjoins : d.joinsList) (hcalm : d.IsCalm) (inItem : Bool) (next : Option Chunk)
    {p : Pen} (hbreaks : p.breaks = 2) :
    ∃ q s x, Begins p (p.tight || inItem) q s x ∧
      (q.literal s).reversed <:+ (writeChunk inItem false next d p).reversed := by
  cases d with
  | list ordered items =>
    obtain ⟨item, rest, rfl⟩ := List.exists_cons_of_ne_nil hcalm
    obtain ⟨q, hq⟩ : ∃ q, q = Pen.enterList ordered { p with tight := p.tight || inItem } := ⟨_, rfl⟩
    have hmarker : '\n' ∉ (q.nextMarker ordered).toList := not_mem_nextMarker (by decide) (by decide) ordered q
    obtain ⟨x, xs, hx⟩ : ∃ x xs, (q.nextMarker ordered).toList = x :: xs := by
      refine List.exists_cons_of_ne_nil ?_
      unfold Pen.nextMarker
      split
      · rw [itemMarker, String.toList_append]
        exact List.append_ne_nil_of_right_ne_nil _ (by split <;> decide)
      · decide
    have hgrows : (q.literal (q.nextMarker ordered)).reversed <:+
        (writeChunk inItem false next (.list ordered (item :: rest)) p).reversed := by
      have hlist : (openItem ordered q).reversed <:+
          (writeChunk inItem false none (.list ordered (item :: rest)) p).reversed := by
        rw [writeList_eq, ← hq, writeItems]
        change _ <:+ ((writeItems ordered rest _).leaveList ordered).reversed
        rw [Pen.reversed_leaveList]
        exact ((Local.writeChunks true true item).grows (openItem ordered q)).trans
          ((Local.writeItems ordered rest).grows (closeItem ordered _))
      rw [writeChunk_eq]
      split
      · exact hlist.trans (plain_closeList.grows _)
      · exact hlist
    refine ⟨q, q.nextMarker ordered, x, ⟨?_, ?_, ?_, ?_, by rw [hx]; rfl, ?_⟩, hgrows⟩
    · rw [hq]; cases ordered <;> rfl
    · rw [hq]; cases ordered <;> rfl
    · rw [hq]; cases ordered <;> rfl
    · rw [hq]; cases ordered <;> rfl
    · rintro rfl
      exact hmarker (hx ▸ List.mem_cons_self)
  | codeBlock info text =>
    have hwritten : writeChunk inItem false next (.codeBlock info text) p =
        writeCodeBlock info text false { p with tight := p.tight || inItem } := by
      rw [writeChunk, Bool.and_false]
    obtain ⟨q, hq⟩ : ∃ q, q = ({ p with tight := p.tight || inItem } : Pen).endBlock := ⟨_, rfl⟩
    have hbegins (s : String) (x : Char) (hs : s.toList.head? = some x) (hx : x ≠ '\n') :
        Begins p (p.tight || inItem) q s x := by
      refine ⟨hq ▸ rfl, hq ▸ rfl, ?_, hq ▸ rfl, hs, hx⟩
      rw [hq, Pen.endBlock]
      exact Nat.max_eq_left (Nat.le_of_eq hbreaks.symm)
    rw [hwritten, writeCodeBlock_eq, if_neg Bool.false_ne_true, ← hq]
    split
    · exact ⟨q, "    ", ' ', hbegins _ _ rfl (by decide),
        (Plain.endBlock.comp (.indented "    " text rfl)).grows (q.literal "    ")⟩
    · obtain ⟨n, -, -, hbar⟩ := exists_codeBar_eq info text
      obtain ⟨x, xs, hx⟩ : ∃ x xs, (codeBar info text).toList = x :: xs :=
        List.exists_cons_of_ne_nil (hbar ▸ List.append_ne_nil_of_right_ne_nil _ (List.cons_ne_nil _ _))
      have hne : x ≠ '\n' := by
        rintro rfl
        exact not_mem_codeBar (c := '\n') (by decide) info text (hx ▸ List.mem_cons_self)
      have hhead : (fenceLine info text).toList.head? = some x := by
        rw [fenceLine, String.toList_append, hx]
        rfl
      have hrest : Plain fun p => ((p.endLine.literal text).endLine.literal (codeBar info text)).endBlock :=
        .comp .endBlock ((Plain.literal (codeBar info text)).comp
          (Plain.endLine.comp ((Plain.literal text).comp .endLine)))
      exact ⟨q, fenceLine info text, x, hbegins _ _ hhead hne, hrest.grows (q.literal (fenceLine info text))⟩
  | heading | paragraph | blockQuote | htmlBlock | table => cases hjoins

section
variable {p : Pen} {d : Chunk} {r : List Char}

/-- What follows a closed list, and whether it is a blank line. -/
theorem exists_follows (h : p.Steady) (hjoins : d.joinsList) (hcalm : d.IsCalm) (inItem : Bool)
    (next : Option Chunk) (hgrows : (writeChunk inItem false next d (closeList p)).reversed <:+ r) :
    ∃ after, r = after ++ (closeList p).reversed ∧ (∃ c ∈ after, c ≠ '\n') ∧
      (BlankLine after.reverse ↔ (p.tight || inItem) = false ∧ p.margin = []) := by
  have hframe := plain_closeList.keeps p
  have hclosed : (closeList p).reversed =
      '>' :: (comment.dropLast.reverse ++ (p.margin.reverse ++ p.endLine.settle.reversed)) := by
    rw [reversed_closeList]
    rfl
  obtain ⟨q, s, x, hq, hsuffix⟩ := exists_begins hjoins hcalm inItem next (breaks_closeList p)
  have hmargin : q.margin = p.margin := hq.margin.trans hframe.margin
  have hend : '\n' ∉ q.margin := hmargin ▸ h.not_mem_margin (by decide) (by decide)
  obtain ⟨y, more, hy, hliteral⟩ := Pen.exists_reversed_literal (hq.reversed.trans hclosed) (by decide)
    (hq.breaks.trans (breaks_closeList p)) hend hq.head hq.ne
  obtain ⟨added, hadded⟩ := hsuffix.trans hgrows
  refine ⟨added ++ more ++ y :: (gap q).reverse, ?_, ⟨y, by simp, hy⟩, ?_⟩
  · rw [← hadded, hliteral, hq.reversed]
    simp
  · have hgap : gap q = '\n' :: if (p.tight || inItem) then [] else p.margin ++ ['\n'] := by
      rw [gap, hq.tight, hframe.tight, hmargin]
    rw [List.reverse_append, List.reverse_cons, List.reverse_reverse, hgap]
    cases p.tight || inItem with
    | true => simp [BlankLine, Ne.symm hy]
    | false =>
      cases hp : p.margin with
      | nil => simp [BlankLine]
      | cons c rest =>
        have hc : c ≠ '\n' := by
          rintro rfl
          exact h.not_mem_margin (c := '\n') (by decide) (by decide) (hp ▸ List.mem_cons_self)
        simp [BlankLine, Ne.symm hc]

/-- A closed list and what is written after it. -/
theorem Fresh.closeList {short more : Prop} {inside : Bool} (h : p.Steady) (hjoins : d.joinsList)
    (hcalm : d.IsCalm) (inItem : Bool) (next : Option Chunk)
    (hgrows : (writeChunk inItem false next d (closeList p)).reversed <:+ r)
    (hmore : Fresh short more (closeList p).reversed r)
    (houtside : inside = false → (p.tight || inItem) = false ∧ p.margin = [])
    (hinside : short → inside = true → ¬((p.tight || inItem) = false ∧ p.margin = [])) :
    Fresh short (inside = true ∨ more) p.reversed r := by
  obtain ⟨after, hafter, hink, hblank⟩ := exists_follows h hjoins hcalm inItem next hgrows
  have hclosed := reversed_closeList p
  refine ⟨(plain_closeList.grows p).trans hmore.grows, fun later before heq hlt => ?_, fun hshort hor => ?_⟩
  · by_cases hlong : (Markdown.closeList p).reversed.length < (commentRev ++ before).length
    · obtain ⟨hlater, hstart, hkept⟩ := hmore.place later before heq hlong
      exact ⟨hlater, hstart, fun hno => .inr (hkept hno)⟩
    · -- no comment but the one that closes the list
      have hsuffix : commentRev ++ before <:+ (Markdown.closeList p).reversed :=
        List.suffix_of_suffix_length_le ⟨later, heq.symm⟩ ⟨after, hafter.symm⟩ (Nat.le_of_not_lt hlong)
      have hsame := eq_of_commentRev_isPrefix h hsuffix hlt (List.prefix_append _ _)
      have hbefore : before = p.margin.reverse ++ p.endLine.settle.reversed :=
        List.append_cancel_left (hsame.trans hclosed)
      obtain rfl : after = later := List.append_cancel_right (hafter.symm.trans (heq.trans (by rw [hsame])))
      refine ⟨hink, fun hyes => ?_, fun hno => .inl ?_⟩
      · rw [hbefore, (hblank.1 hyes).2]
        exact Pen.startsLine_settle (p := p.endLine) p.breaks_endLine_pos
      · cases hin : inside with
        | true => rfl
        | false => exact absurd (hblank.2 (houtside hin)) hno
  · rcases hor with hin | hmore'
    · exact ⟨after, _, hclosed ▸ hafter, hink, fun hyes => hinside hshort hin (hblank.1 hyes)⟩
    · exact hmore.keeps hshort hmore'

end

/-! ## Blocks -/

/-- Blocks that are written one after the other stand at the top, or inside of something that shows it: by a margin,
or by lines that follow on each other. -/
structure Inside (short : Prop) (inside inItem : Bool) (p : Pen) : Prop where
  outside : inside = false → inItem = false ∧ p.margin = []
  shown : short → inside = true → inItem = true ∨ p.margin ≠ []

theorem Inside.of_returns {short more : Prop} {inside inItem : Bool} {p q : Pen} (h : Inside short inside inItem p)
    (hq : p.Returns more q) (hmore : short → more) : Inside short inside inItem q where
  outside hin := ⟨(h.outside hin).1, List.prefix_nil.1 ((h.outside hin).2 ▸ hq.margin)⟩
  shown hshort hin := (hq.margin_eq (hmore hshort)).symm ▸ h.shown hshort hin

theorem Pen.Ready.enterList {p : Pen} (h : p.Ready) (ordered : Bool) : (p.enterList ordered).Ready := by
  cases ordered
  · exact h
  · exact ⟨⟨h.margin, h.idle⟩, h.waits⟩

theorem Pen.Ready.leaveList {p : Pen} (h : p.Ready) (ordered : Bool) : (p.leaveList ordered).Ready := by
  cases ordered
  · exact h
  · exact ⟨⟨h.margin, h.idle⟩, h.waits⟩

theorem reversed_enterList (ordered : Bool) (p : Pen) : (p.enterList ordered).reversed = p.reversed := by
  cases ordered <;> rfl

theorem fresh_writeLeaf {short : Prop} (inItem first : Bool) {c : Chunk} (hleaf : c.isLeaf)
    (hcalm : c.All Chunk.IsCalm) {p : Pen} (h : p.Ready) :
    Fresh short (c.hasSeparator = true) p.reversed (writeChunk inItem first none c p).reversed ∧
      (writeChunk inItem first none c p).Ready := by
  obtain ⟨hquiet, hready⟩ := h.writeLeaf inItem first none hleaf hcalm.self
  refine ⟨(Fresh.of_quiet hquiet).congr ?_, hready⟩
  cases c with
  | list | blockQuote => cases hleaf
  | _ => simp [Chunk.hasSeparator]

mutual

/-- **Which comments a block brings up.** -/
theorem fresh_writeChunk {short : Prop} (inItem first : Bool) : ∀ c : Chunk, c.All Chunk.IsCalm →
    (short → c.All Chunk.IsShort) → ∀ p : Pen, p.Ready →
      Fresh short (c.hasSeparator = true) p.reversed (writeChunk inItem first none c p).reversed ∧
        (writeChunk inItem first none c p).Ready
  | .list ordered items, hcalm, hshort, p, h => by
    obtain ⟨hfresh, hready⟩ := fresh_writeItems ordered items hcalm.2 (fun hs => (hshort hs).2) _
      ((h.addTight inItem).enterList ordered)
    rw [reversed_enterList] at hfresh
    have hleft := hready.leaveList ordered
    rw [writeList_eq, Chunk.hasSeparator]
    refine ⟨?_, ⟨hleft.margin, hleft.idle⟩, hleft.waits⟩
    change Fresh _ _ _ ((writeItems ordered items _).leaveList ordered).reversed
    rwa [Pen.reversed_leaveList]
  | .blockQuote children, hcalm, hshort, p, h => by
    obtain ⟨hquiet, hopened⟩ := (h.addTight inItem).openQuote
    have hinside : Inside short true false (openQuote { p with tight := p.tight || inItem }) :=
      ⟨nofun, fun _ _ => .inr (by rw [margin_openQuote]; simp)⟩
    obtain ⟨hfresh, hready⟩ := fresh_writeChunks true false true children hcalm.2 (fun hs => (hshort hs).2) _
      hopened hinside
    rw [writeQuote_eq, Chunk.hasSeparator]
    exact ⟨.of_quiet_trans hquiet hfresh, (hready.toSteady.outdent 2).endBlock⟩
  | .heading .., hcalm, _, _, h | .paragraph _, hcalm, _, _, h | .codeBlock .., hcalm, _, _, h
  | .htmlBlock _, hcalm, _, _, h | .table _, hcalm, _, _, h => fresh_writeLeaf inItem first rfl hcalm h

/-- Which comments blocks bring up. -/
theorem fresh_writeChunks {short : Prop} (inside inItem first : Bool) : ∀ cs : List Chunk,
    Chunk.AllIn Chunk.IsCalm cs → (short → Chunk.AllIn Chunk.IsShort cs) → ∀ p : Pen, p.Ready →
      Inside short inside inItem p →
        Fresh short (Chunk.anySeparator inside cs = true) p.reversed (writeChunks inItem first cs p).reversed ∧
          (writeChunks inItem first cs p).Ready
  | [], _, _, p, h, _ => ⟨(Fresh.of_quiet (.refl _)).congr (by simp [Chunk.anySeparator]), h⟩
  | c :: rest, hcalm, hshort, p, h, hinside => by
    obtain ⟨hfirst, hready⟩ := fresh_writeChunk inItem first c hcalm.1 (fun hs => (hshort hs).1) p h
    have hplace := hinside.of_returns (returns_writeChunk inItem first none c p) fun hs => (hshort hs).1
    have hrest := fresh_writeChunks inside inItem false rest hcalm.2 (fun hs => (hshort hs).2)
    rw [writeChunks, writeChunk_eq]
    by_cases hsep : (c.isList && rest.head?.any Chunk.joinsList) = true
    · rw [if_pos hsep]
      obtain ⟨hlist, hjoins⟩ := Bool.and_eq_true_iff.1 hsep
      obtain ⟨d, rest', rfl, hd⟩ : ∃ d rest', rest = d :: rest' ∧ d.joinsList := by
        cases rest with
        | nil => cases hjoins
        | cons d rest' => exact ⟨d, rest', rfl, hjoins⟩
      have htight : (writeChunk inItem first none c p).tight = inItem := by
        cases c with
        | list ordered items => rw [writeList_eq]
        | _ => cases hlist
      have hreturns : Pen.Returns True _ _ := (plain_closeList.keeps (writeChunk inItem first none c p)).returns
      obtain ⟨hmore, hend⟩ := hrest _ (ready_closeList hready.toSteady) (hplace.of_returns hreturns fun _ => trivial)
      have hgrows : (writeChunk inItem false rest'.head? d (closeList (writeChunk inItem first none c p))).reversed <:+
          (writeChunks inItem false (d :: rest') (closeList (writeChunk inItem first none c p))).reversed := by
        rw [writeChunks]
        exact (Local.writeChunks inItem false rest').grows _
      have hclosed : Fresh short (inside = true ∨ _) _ _ := hmore.closeList hready.toSteady hd hcalm.2.1.self inItem
        rest'.head? hgrows
        (fun hin => by rw [htight, Bool.or_self]; exact hplace.outside hin)
        (fun hs hin hboth => by
          rw [htight, Bool.or_self] at hboth
          rcases hplace.shown hs hin with hitem | hmargin
          · rw [hboth.1] at hitem
            cases hitem
          · exact hmargin hboth.2)
      refine ⟨(hfirst.trans hclosed).congr ?_, hend⟩
      rw [Chunk.anySeparator_cons_iff inside c, hsep, and_iff_left rfl]
    · rw [if_neg hsep]
      obtain ⟨hmore, hend⟩ := hrest _ hready hplace
      refine ⟨(hfirst.trans hmore).congr ?_, hend⟩
      rw [Chunk.anySeparator_cons_iff]
      exact or_congr_right (or_iff_right fun hboth => hsep hboth.2).symm

/-- Which comments the items of a list bring up. -/
theorem fresh_writeItems {short : Prop} (ordered : Bool) : ∀ items : List (List Chunk),
    Chunk.AllItems Chunk.IsCalm items → (short → Chunk.AllItems Chunk.IsShort items) → ∀ p : Pen, p.Ready →
      Fresh short (Chunk.anyItemSeparator items = true) p.reversed (writeItems ordered items p).reversed ∧
        (writeItems ordered items p).Ready
  | [], _, _, p, h => ⟨(Fresh.of_quiet (.refl _)).congr (by simp [Chunk.anyItemSeparator]), h⟩
  | item :: rest, hcalm, hshort, p, h => by
    obtain ⟨hquiet, hopened⟩ := h.openItem ordered
    obtain ⟨hfirst, hready⟩ := fresh_writeChunks true true true item hcalm.1 (fun hs => (hshort hs).1) _ hopened
      ⟨nofun, fun _ _ => .inl rfl⟩
    obtain ⟨hmore, hend⟩ := fresh_writeItems ordered rest hcalm.2 (fun hs => (hshort hs).2) _
      (hready.toSteady.outdent ((writeChunks true true item (openItem ordered p)).nextMarker ordered).length).endLine
    rw [writeItems]
    refine ⟨((Fresh.of_quiet_trans hquiet hfirst).trans hmore).congr ?_, hend⟩
    rw [Chunk.anyItemSeparator, Bool.or_eq_true]

end

/-! ## Documents -/

theorem fresh_renderText {short : Prop} {chunks : List Chunk} (hcalm : Chunk.AllIn Chunk.IsCalm chunks)
    (hshort : short → Chunk.AllIn Chunk.IsShort chunks) :
    Fresh short (Chunk.anySeparator false chunks = true) [] (renderText chunks).reverse := by
  obtain ⟨hwritten, -⟩ := fresh_writeChunks false false true chunks hcalm hshort {} .start
    ⟨fun _ => ⟨rfl, rfl⟩, nofun⟩
  unfold renderText
  dsimp only
  generalize (writeChunks false true chunks {}).reversed = written at hwritten ⊢
  cases written with
  | nil => exact hwritten
  | cons c rest =>
    dsimp only
    split
    · rwa [List.reverse_reverse]
    · rw [List.reverse_reverse]
      exact (hwritten.trans (.of_quiet (.cons_of_ne (by decide)))).congr (or_false _).to_iff

section
variable {short kept : Prop} {cs : List Char}

theorem Fresh.separatorsBeginLines (h : Fresh short kept [] cs.reverse) : SeparatorsBeginLines cs := by
  rintro before after rfl
  obtain ⟨-, hstart, -⟩ := h.place ('\n' :: '\n' :: after).reverse before.reverse
    (by simp [commentRev]) (by simp [commentRev, comment, endOfList])
  have hbefore := hstart (by simp [BlankLine])
  rwa [List.reverse_eq_nil_iff, List.head?_reverse] at hbefore

theorem Fresh.exists_kept_iff (h : Fresh short kept [] cs.reverse) (hshort : short) :
    (∃ before after, cs = before ++ comment ++ after ∧ ¬['\n', '\n'] <+: after) ↔ kept := by
  constructor
  · rintro ⟨before, after, rfl, hno⟩
    obtain ⟨-, -, hkept⟩ := h.place after.reverse before.reverse (by simp [commentRev])
      (by simp [commentRev, comment, endOfList])
    exact hkept (by rwa [List.reverse_reverse])
  · intro hkept
    obtain ⟨after, before, heq, -, hno⟩ := h.keeps hshort hkept
    refine ⟨before.reverse, after.reverse, ?_, hno⟩
    rw [← List.reverse_reverse cs, heq]
    simp [commentRev]

end

/-- **Where a separator is left.** A comment is left in the text of a document exactly when somewhere inside of a quote
or an item a list is directly followed by a list or a code block. -/
theorem comment_left_iff {d : Document} (h : IsCalmDocument d)
    (hshort : ∀ items, .list true items ∈ d.allBlocks → items.length < 99) {text : String}
    (hrender : render? d = some text) :
    comment <:+: text.toList ↔ Chunk.anySeparator false (chunksOf d.children) = true := by
  obtain ⟨-, rfl⟩ := render?_eq_some_iff.1 hrender
  have hfresh : Fresh True _ [] _ := fresh_renderText h.allIn_isCalm fun _ => allIn_isShort hshort
  rw [String.toList_ofList, comment_isInfix_erase_iff hfresh.separatorsBeginLines, hfresh.exists_kept_iff trivial]

/-- A list of one item. -/
def shortList (ordered : Bool) (line : String) : Block := .list ordered [[.paragraph [.text line]]]

/-- Two lists on end at the top, and a list before code in a quote. -/
def closedLists : Document :=
  ⟨[.paragraph [.html "<b>", .text "a"], shortList false "b", shortList true "c",
    .blockQuote [shortList false "d", .codeBlock none "e"]]⟩

theorem isCalm_closedLists : IsCalmDocument closedLists where
  words := by decide
  markup s hs := by
    have hmarkup : s = "<b>" := by
      simpa [closedLists, shortList, Document.allInlines, Block.inlinesOf, Block.partsOf, Block.parts,
        Block.partsOfItems, Block.ownInlines, Block.lines, Inline.parts] using hs
    rw [hmarkup]
    rfl
  items ordered items h := by
    rintro rfl
    simp [closedLists, shortList, Document.allBlocks, Block.parts] at h

theorem comment_left_iff_closedLists :
    (∀ items, .list true items ∈ closedLists.allBlocks → items.length < 99) ∧
      ∃ text, render? closedLists = some text ∧
        (comment <:+: text.toList ↔ Chunk.anySeparator false (chunksOf closedLists.children) = true) := by
  have hshort : ∀ items, .list true items ∈ closedLists.allBlocks → items.length < 99 := by
    intro items h
    have hitems : items = [[.paragraph [.text "c"]]] := by
      simpa [closedLists, shortList, Document.allBlocks, Block.parts] using h
    rw [hitems]
    decide
  obtain ⟨text, htext⟩ : ∃ text, render? closedLists = some text :=
    Option.isSome_iff_exists.1 (by decide +kernel)
  exact ⟨hshort, text, htext, comment_left_iff isCalm_closedLists hshort htext⟩

/-- Two lists on end in a quote. -/
def quotedLists : Document := ⟨[.blockQuote [shortList false "a", shortList false "b"]]⟩

/-- **A separator that is left.** No string of the document has the words of a comment in it, but its text has. -/
theorem comment_left_in_quote :
    (∀ s ∈ quotedLists.strings, ¬words <:+: s.toList) ∧
      render? quotedLists = some "> - a\n> \n> <!-- end list -->\n> \n> - b\n" ∧
      comment <:+: "> - a\n> \n> <!-- end list -->\n> \n> - b\n".toList := by
  decide +kernel

end BookCatalog.Markdown
