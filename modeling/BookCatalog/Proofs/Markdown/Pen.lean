import BookCatalog.Markdown

/-!
# Writing with the pen

Everything that is written is written by putting down texts and by changing what the next text depends on. Such
a way of writing only adds to the text, and what it adds does not depend on the text under it as soon as
something other than line ends is written (`Local`); so a text can be taken apart into what its blocks are
written as.

Inline content is a list of strokes, each of them a text that is protected in one way (`writeSpans_eq`).
-/

namespace BookCatalog.Markdown

/-! ## Ways of writing -/

namespace Pen

/-- The pen with `base` standing before its text. -/
def onto (base : List Char) (p : Pen) : Pen := { p with reversed := p.reversed ++ base }

/-- Something other than line ends is written. -/
def HasInk (p : Pen) : Prop := ∃ c ∈ p.reversed, c ≠ '\n'

/-- A line stands open that the next text will end. -/
def IsEnding (p : Pen) : Prop := 0 < p.breaks ∧ ∃ c rest, p.reversed = c :: rest ∧ c ≠ '\n'

end Pen

/-- A way of writing that only adds to the text, and that does not depend on what stands before a text with
something other than line ends in it. -/
structure Adding (f : Pen → Pen) : Prop where
  grows : ∀ p : Pen, p.reversed <:+ (f p).reversed
  onto_eq : ∀ (base : List Char) (p : Pen), p.HasInk → f (p.onto base) = (f p).onto base

namespace Adding

variable {f g : Pen → Pen}

theorem hasInk (hf : Adding f) {p : Pen} (h : p.HasInk) : (f p).HasInk := by
  obtain ⟨c, hc, hne⟩ := h
  exact ⟨c, (hf.grows p).subset hc, hne⟩

theorem comp (hg : Adding g) (hf : Adding f) : Adding fun p => g (f p) where
  grows p := (hf.grows p).trans (hg.grows (f p))
  onto_eq base p h := by rw [hf.onto_eq base p h, hg.onto_eq base (f p) (hf.hasInk h)]

protected theorem id : Adding fun p => p := ⟨fun _ => List.suffix_rfl, fun _ _ _ => rfl⟩

end Adding

/-- A way of writing that makes the breaks before it adds anything else. -/
structure Local (f : Pen → Pen) : Prop extends Adding f where
  ends : ∀ p : Pen, p.IsEnding →
    (f p).IsEnding ∧ (f p).reversed = p.reversed ∨ '\n' :: p.reversed <:+ (f p).reversed

namespace Local

variable {f g : Pen → Pen}

theorem comp (hg : Local g) (hf : Local f) : Local fun p => g (f p) where
  toAdding := hg.toAdding.comp hf.toAdding
  ends p h := by
    rcases hf.ends p h with ⟨hending, heq⟩ | hended
    · rw [← heq]
      exact hg.ends (f p) hending
    · exact .inr (hended.trans (hg.grows (f p)))

/-- What writes nothing, sees no text and takes no break back is local. -/
theorem of_silent (hsame : ∀ p, (f p).reversed = p.reversed) (honto : ∀ base p, f (p.onto base) = (f p).onto base)
    (hbreaks : ∀ p, p.breaks ≤ (f p).breaks) : Local f where
  grows p := ⟨[], (hsame p).symm⟩
  onto_eq base p _ := honto base p
  ends p h := by
    refine .inl ⟨⟨Nat.lt_of_lt_of_le h.1 (hbreaks p), ?_⟩, hsame p⟩
    rw [hsame]
    exact h.2

theorem ite {c : Prop} [Decidable c] (hf : Local f) (hg : Local g) : Local fun p => if c then f p else g p := by
  split
  · exact hf
  · exact hg

protected theorem id : Local fun p => p := of_silent (fun _ => rfl) (fun _ _ => rfl) fun _ => Nat.le_refl _

theorem endLine : Local Pen.endLine := of_silent (fun _ => rfl) (fun _ _ => rfl) fun _ => Nat.le_max_left _ _

theorem endBlock : Local Pen.endBlock := of_silent (fun _ => rfl) (fun _ _ => rfl) fun _ => Nat.le_max_left _ _

theorem indent (s : String) : Local (Pen.indent · s) :=
  of_silent (fun _ => rfl) (fun _ _ => rfl) fun _ => Nat.le_refl _

theorem outdent (n : Nat) : Local (Pen.outdent · n) :=
  of_silent (fun _ => rfl) (fun _ _ => rfl) fun _ => Nat.le_refl _

theorem setTight (b : Bool) : Local fun p => { p with tight := b } :=
  of_silent (fun _ => rfl) (fun _ _ => rfl) fun _ => Nat.le_refl _

theorem addTight (b : Bool) : Local fun p => { p with tight := p.tight || b } :=
  of_silent (fun _ => rfl) (fun _ _ => rfl) fun _ => Nat.le_refl _

theorem setInCell (b : Bool) : Local fun p => { p with inCell := b } :=
  of_silent (fun _ => rfl) (fun _ _ => rfl) fun _ => Nat.le_refl _

theorem setCounters (f : List Nat → List Nat) : Local fun p => { p with counters := f p.counters } :=
  of_silent (fun _ => rfl) (fun _ _ => rfl) fun _ => Nat.le_refl _

end Local

/-! ## Breaks -/

namespace Pen

theorem makeBreaks_grows : ∀ (n : Nat) (seen : List Char) (p : Pen),
    p.reversed <:+ (makeBreaks n seen p).reversed
  | 0, _, _ => List.suffix_rfl
  | n + 1, [], p => makeBreaks_grows n [] { p with lineStart := true, contentStart := true }
  | n + 1, c :: before, p => by
    rw [makeBreaks]
    split
    · exact makeBreaks_grows n before { p with lineStart := true, contentStart := true }
    · refine List.IsSuffix.trans ?_ (makeBreaks_grows n (c :: before) _)
      exact (List.suffix_cons '\n' p.reversed).trans (List.suffix_append _ _)

theorem makeBreaks_onto (base : List Char) : ∀ (n : Nat) (seen : List Char) (p : Pen),
    (∃ c ∈ seen, c ≠ '\n') → makeBreaks n (seen ++ base) (p.onto base) = (makeBreaks n seen p).onto base
  | 0, _, _, _ => rfl
  | n + 1, c :: before, p, h => by
    rw [List.cons_append, makeBreaks, makeBreaks]
    by_cases hc : c = '\n'
    · rw [if_pos hc, if_pos hc]
      obtain ⟨d, hd, hne⟩ := h
      have hd : d ∈ before := (List.mem_cons.1 hd).resolve_left fun heq => hne (heq.trans hc)
      exact makeBreaks_onto base n before { p with lineStart := true, contentStart := true } ⟨d, hd, hne⟩
    · rw [if_neg hc, if_neg hc, ← List.cons_append]
      have hpen : ({ p.onto base with
          lineStart := true, contentStart := true
          reversed := (if n = 0 then [] else p.margin.reverse) ++ '\n' :: (p.reversed ++ base) } : Pen) =
          ({ p with
            lineStart := true, contentStart := true
            reversed := (if n = 0 then [] else p.margin.reverse) ++ '\n' :: p.reversed } : Pen).onto base := by
        simp [onto]
      exact (congrArg _ hpen).trans (makeBreaks_onto base n (c :: before) _ h)

end Pen

theorem Adding.settle : Adding Pen.settle where
  grows p := Pen.makeBreaks_grows _ p.reversed p
  onto_eq base p h := by
    have hbreaks := Pen.makeBreaks_onto base (if p.tight then min p.breaks 1 else p.breaks) p.reversed p h
    exact congrArg (fun q : Pen => { q with breaks := 0 }) hbreaks

/-- The line that stands open is ended. -/
theorem Pen.IsEnding.lineEnd_suffix_settle {p : Pen} (h : p.IsEnding) : '\n' :: p.reversed <:+ p.settle.reversed := by
  obtain ⟨hpos, c, rest, hrev, hne⟩ := h
  obtain ⟨n, hn⟩ : ∃ n, (if p.tight then min p.breaks 1 else p.breaks) = n + 1 := by
    refine ⟨_, (Nat.succ_pred_eq_of_pos ?_).symm⟩
    split <;> omega
  unfold Pen.settle
  dsimp only
  rw [hn, hrev, Pen.makeBreaks, if_neg hne, ← hrev]
  refine List.IsSuffix.trans ?_ (Pen.makeBreaks_grows n p.reversed _)
  exact List.suffix_append _ ('\n' :: p.reversed)

/-! ## Characters -/

namespace Pen

/-- What is written before a character: the margin at the start of a line, and the backslash before a pipe in
a cell. -/
def lead (c : Char) (p : Pen) : List Char :=
  (if p.lineStart then p.margin else []) ++ if p.inCell && c == '|' then ['\\'] else []

/-- A character that is escaped. -/
def escapedForm (mode : Escaping) (c : Char) (p : Pen) : List Char :=
  if mode = .destination && isSpace c then percentEscape c
  else if isMark c then ['\\', c]
  else (if p.lineStart then p.margin else []) ++ reference c

/-- A character as it is written. -/
def form (mode : Escaping) (c : Char) (next : Option Char) (p : Pen) : List Char :=
  match mode with
  | .literal => [c]
  | .prose => if (p.add (p.lead c)).breaksProse c next then p.escapedForm mode c else [c]
  | .destination => if breaksDestination c then p.escapedForm mode c else [c]

/-- A character ends a line. -/
def endsLine (mode : Escaping) (c : Char) : Bool := mode = .literal && c = '\n'

@[simp] theorem add_add (p : Pen) (cs ds : List Char) : (p.add cs).add ds = p.add (cs ++ ds) := by
  simp [add]

theorem startLine_eq (p : Pen) : p.startLine = p.add (if p.lineStart then p.margin else []) := by
  unfold startLine
  split <;> simp [add]

theorem lead_eq (c : Char) (p : Pen) :
    (if p.startLine.inCell && c == '|' then p.startLine.add ['\\'] else p.startLine) = p.add (p.lead c) := by
  have hcell : p.startLine.inCell = p.inCell := by rw [startLine_eq]; rfl
  rw [hcell, startLine_eq, lead]
  split <;> simp

theorem putEscaped_add (mode : Escaping) (c : Char) (cs : List Char) (p : Pen) :
    (p.add cs).putEscaped mode c = p.add (cs ++ p.escapedForm mode c) := by
  unfold putEscaped escapedForm
  split
  · rw [add_add]
  · split
    · rw [add_add]
    · rw [startLine_eq, add_add, add_add]
      rfl

theorem add_endingLine (ends : Bool) (cs : List Char) (c : Char) (p : Pen) :
    (if ends then { p.add cs with lineStart := true, contentStart := true }
      else { p.add cs with lineStart := false, contentStart := p.contentStart && isDigit c }) =
      { p with
        reversed := cs.reverse ++ p.reversed
        lineStart := ends
        contentStart := ends || (p.contentStart && isDigit c) } := by
  cases ends <;> rfl

/-- What a character does to the pen. -/
theorem putChar_eq (mode : Escaping) (c : Char) (next : Option Char) (p : Pen) :
    p.putChar mode c next = { p with
      reversed := (p.lead c ++ p.form mode c next).reverse ++ p.reversed
      lineStart := endsLine mode c
      contentStart := endsLine mode c || (p.contentStart && isDigit c) } := by
  rw [← add_endingLine]
  unfold putChar form
  dsimp only
  rw [lead_eq]
  cases mode with
  | literal =>
    dsimp only
    rw [add_add]
    rfl
  | prose =>
    dsimp only
    by_cases h : (p.add (p.lead c)).breaksProse c next = true
    · rw [if_pos h, if_pos h, putEscaped_add]
      rfl
    · rw [if_neg h, if_neg h, add_add]
      rfl
  | destination =>
    dsimp only
    by_cases h : breaksDestination c = true
    · rw [if_pos h, if_pos h, putEscaped_add]
      rfl
    · rw [if_neg h, if_neg h, add_add]
      rfl

theorem form_onto (base : List Char) {p : Pen} (h : p.HasInk) (mode : Escaping) (c : Char) (next : Option Char) :
    (p.onto base).form mode c next = p.form mode c next := by
  have hprose : ((p.onto base).add (p.lead c)).breaksProse c next = (p.add (p.lead c)).breaksProse c next := by
    obtain ⟨d, hd, -⟩ := h
    obtain ⟨x, rest, hrev⟩ : ∃ x rest, (p.lead c).reverse ++ p.reversed = x :: rest :=
      List.exists_cons_of_ne_nil (List.append_ne_nil_of_right_ne_nil _ (List.ne_nil_of_mem hd))
    simp only [breaksProse, onto, add, ← List.append_assoc, hrev, List.cons_append]
  unfold form
  cases mode with
  | literal | destination => rfl
  | prose => exact congrArg (fun b : Bool => if b then p.escapedForm .prose c else [c]) hprose

end Pen

theorem Adding.putChar (mode : Escaping) (c : Char) (next : Option Char) : Adding (Pen.putChar mode c next) where
  grows p := by
    rw [Pen.putChar_eq]
    exact List.suffix_append _ _
  onto_eq base p h := by
    rw [Pen.putChar_eq, Pen.putChar_eq, Pen.form_onto base h]
    simp only [Pen.onto, ← List.append_assoc]
    rfl

theorem Adding.putChars (mode : Escaping) : ∀ cs : List Char, Adding (Pen.putChars mode cs)
  | [] => .id
  | c :: rest => (putChars mode rest).comp (.putChar mode c rest.head?)

theorem Local.put (mode : Escaping) (s : String) : Local (Pen.put · mode s) where
  toAdding := (Adding.putChars mode s.toList).comp .settle
  ends p h := .inr (h.lineEnd_suffix_settle.trans ((Adding.putChars mode s.toList).grows p.settle))

/-! ## What stays -/

/-- The pen stands in the same place: it has the margin, the tightness and the lists that it had before, and
outside a cell it stays outside. -/
structure Pen.SameFrame (p q : Pen) : Prop where
  margin : q.margin = p.margin
  tight : q.tight = p.tight
  counters : q.counters = p.counters
  inCell : p.inCell = false → q.inCell = false

namespace Pen

theorem SameFrame.refl (p : Pen) : SameFrame p p := ⟨rfl, rfl, rfl, id⟩

theorem SameFrame.trans {p q r : Pen} (h : SameFrame p q) (h' : SameFrame q r) : SameFrame p r :=
  ⟨h'.margin.trans h.margin, h'.tight.trans h.tight, h'.counters.trans h.counters, h'.inCell ∘ h.inCell⟩

theorem sameFrame_makeBreaks : ∀ (n : Nat) (seen : List Char) (p : Pen), SameFrame p (makeBreaks n seen p)
  | 0, _, p => .refl p
  | n + 1, [], p => by
    have h := sameFrame_makeBreaks n [] { p with lineStart := true, contentStart := true }
    exact ⟨h.margin, h.tight, h.counters, h.inCell⟩
  | n + 1, c :: before, p => by
    rw [makeBreaks]
    split
    · have h := sameFrame_makeBreaks n before { p with lineStart := true, contentStart := true }
      exact ⟨h.margin, h.tight, h.counters, h.inCell⟩
    · have h := sameFrame_makeBreaks n (c :: before) { p with
        lineStart := true, contentStart := true
        reversed := (if n = 0 then [] else p.margin.reverse) ++ '\n' :: p.reversed }
      exact ⟨h.margin, h.tight, h.counters, h.inCell⟩

theorem sameFrame_settle (p : Pen) : SameFrame p p.settle :=
  (sameFrame_makeBreaks _ p.reversed p).trans ⟨rfl, rfl, rfl, id⟩

theorem sameFrame_putChar (mode : Escaping) (c : Char) (next : Option Char) (p : Pen) :
    SameFrame p (p.putChar mode c next) := by
  rw [putChar_eq]
  exact ⟨rfl, rfl, rfl, id⟩

theorem sameFrame_putChars (mode : Escaping) : ∀ (cs : List Char) (p : Pen), SameFrame p (p.putChars mode cs)
  | [], p => .refl p
  | c :: rest, p => (sameFrame_putChar mode c rest.head? p).trans (sameFrame_putChars mode rest _)

theorem sameFrame_put (mode : Escaping) (s : String) (p : Pen) : SameFrame p (p.put mode s) :=
  (sameFrame_settle p).trans (sameFrame_putChars mode s.toList p.settle)

end Pen

/-- A local way of writing that leaves the pen in its place. -/
structure Plain (f : Pen → Pen) : Prop extends Local f where
  keeps : ∀ p : Pen, p.SameFrame (f p)

namespace Plain

variable {f g : Pen → Pen}

theorem comp (hg : Plain g) (hf : Plain f) : Plain fun p => g (f p) :=
  ⟨hg.toLocal.comp hf.toLocal, fun p => (hf.keeps p).trans (hg.keeps (f p))⟩

theorem ite {c : Prop} [Decidable c] (hf : Plain f) (hg : Plain g) : Plain fun p => if c then f p else g p := by
  split
  · exact hf
  · exact hg

protected theorem id : Plain fun p => p := ⟨.id, Pen.SameFrame.refl⟩

theorem foldl {α : Type} {f : Pen → α → Pen} : ∀ {xs : List α}, (∀ x ∈ xs, Plain (f · x)) →
    Plain fun p => xs.foldl f p
  | [], _ => .id
  | x :: rest, h => by
    obtain ⟨hx, hrest⟩ := List.forall_mem_cons.1 h
    exact (foldl hrest).comp hx

theorem endLine : Plain Pen.endLine := ⟨.endLine, fun _ => ⟨rfl, rfl, rfl, id⟩⟩

theorem endBlock : Plain Pen.endBlock := ⟨.endBlock, fun _ => ⟨rfl, rfl, rfl, id⟩⟩

theorem setContentStart : Plain fun p => { p with contentStart := true } :=
  ⟨.of_silent (fun _ => rfl) (fun _ _ => rfl) fun _ => Nat.le_refl _, fun _ => ⟨rfl, rfl, rfl, id⟩⟩

theorem put (mode : Escaping) (s : String) : Plain (Pen.put · mode s) := ⟨.put mode s, Pen.sameFrame_put mode s⟩

theorem literal (s : String) : Plain (Pen.literal · s) := .ite .id (.put .literal s)

end Plain

/-! ## Texts one after the other -/

namespace Pen

@[simp] theorem reversed_endLine (p : Pen) : p.endLine.reversed = p.reversed := rfl

@[simp] theorem reversed_endBlock (p : Pen) : p.endBlock.reversed = p.reversed := rfl

@[simp] theorem reversed_indent (p : Pen) (s : String) : (p.indent s).reversed = p.reversed := rfl

@[simp] theorem endLine_endLine (p : Pen) : p.endLine.endLine = p.endLine := by
  simp [endLine]

@[simp] theorem literal_empty (p : Pen) : p.literal "" = p := if_pos rfl

theorem breaks_endBlock_pos (p : Pen) : 0 < p.endBlock.breaks :=
  Nat.lt_of_lt_of_le Nat.zero_lt_two (Nat.le_max_right _ _)

theorem breaks_endLine_pos (p : Pen) : 0 < p.endLine.breaks :=
  Nat.lt_of_lt_of_le Nat.zero_lt_one (Nat.le_max_right _ _)

theorem settle_of_no_breaks {p : Pen} (h : p.breaks = 0) : p.settle = p := by
  obtain ⟨r, margin, breaks, lineStart, contentStart, tight, counters, inCell⟩ := p
  cases h
  cases tight <;> rfl

theorem breaks_putChars (mode : Escaping) : ∀ (cs : List Char) (p : Pen),
    (p.putChars mode cs).breaks = p.breaks
  | [], _ => rfl
  | c :: rest, p => by
    rw [putChars, breaks_putChars mode rest, putChar_eq]

@[simp] theorem breaks_put (mode : Escaping) (s : String) (p : Pen) : (p.put mode s).breaks = 0 :=
  breaks_putChars mode s.toList p.settle

theorem breaks_literal {s : String} (h : s ≠ "") (p : Pen) : (p.literal s).breaks = 0 := by
  rw [literal, if_neg h, breaks_put]

theorem putChars_literal_append : ∀ (cs ds : List Char) (p : Pen),
    p.putChars .literal (cs ++ ds) = (p.putChars .literal cs).putChars .literal ds
  | [], _, _ => rfl
  | c :: rest, ds, p => by
    have hnext (next : Option Char) : p.putChar .literal c next = p.putChar .literal c rest.head? := by
      rw [putChar_eq, putChar_eq]
      rfl
    rw [List.cons_append, putChars, hnext, putChars_literal_append rest ds, putChars]

/-- Two texts that are written as they stand are one. -/
theorem literal_literal (p : Pen) (s t : String) : (p.literal s).literal t = p.literal (s ++ t) := by
  by_cases hs : s = ""
  · simp [literal, hs]
  · by_cases ht : t = ""
    · simp [literal, ht]
    · have hst : s ++ t ≠ "" := by simp [hs]
      have hzero : (p.put .literal s).breaks = 0 := breaks_put .literal s p
      rw [literal, literal, literal, if_neg hs, if_neg ht, if_neg hst, put, settle_of_no_breaks hzero, put, put,
        String.toList_append, putChars_literal_append]

end Pen

/-! ## Strokes -/

/-- A text and how its characters are protected. -/
structure Stroke where
  mode : Escaping
  text : String

/-- Writes a stroke. -/
def Pen.stroke (p : Pen) (s : Stroke) : Pen :=
  if s.mode = .literal then p.literal s.text else p.put s.mode s.text

theorem Plain.stroke (s : Stroke) : Plain (Pen.stroke · s) := .ite (.literal s.text) (.put s.mode s.text)

/-- A code span. -/
def codeText (literal : String) : String :=
  let ticks := fence '\x60' (tickCount literal.toList)
  let pad := if needsPadding literal.toList then " " else ""
  ticks ++ pad ++ literal ++ pad ++ ticks

/-- The mark around emphasized content. -/
def emphasisMark (around : Surrounding) : String := if around = .emphasis true then "_" else "*"

/-- The mark around strong content. -/
def strongMark (around : Surrounding) : String := if around = .strong then "" else "**"

mutual

/-- The strokes that a span is written with. -/
def strokesOfSpan (around : Surrounding) : Span → List Stroke
  | .text literal => [⟨.prose, literal⟩]
  | .code literal => [⟨.literal, codeText literal⟩]
  | .html literal => [⟨.literal, literal⟩]
  | .emphasis content =>
    ⟨.literal, emphasisMark around⟩ :: strokesOf (.emphasis (content.length = 1)) content ++
      [⟨.literal, emphasisMark around⟩]
  | .strong content =>
    ⟨.literal, strongMark around⟩ :: strokesOf .strong content ++ [⟨.literal, strongMark around⟩]
  | .link url content =>
    if isAutolink url content then [⟨.literal, "<" ++ shownUrl url ++ ">"⟩]
    else
      ⟨.literal, "["⟩ :: strokesOf .other content ++
        [⟨.literal, "]("⟩, ⟨.destination, url⟩, ⟨.literal, ")"⟩]
  | .image url => [⟨.literal, "![]("⟩, ⟨.destination, url⟩, ⟨.literal, ")"⟩]

/-- The strokes that spans are written with. -/
def strokesOf (around : Surrounding) : List Span → List Stroke
  | [] => []
  | s :: rest => strokesOfSpan around s ++ strokesOf around rest

end

mutual

theorem writeSpan_eq (around : Surrounding) : ∀ (s : Span) (p : Pen),
    writeSpan around s p = (strokesOfSpan around s).foldl Pen.stroke p
  | .text literal, p => rfl
  | .html literal, p => rfl
  | .code literal, p => by
    simp [writeSpan, writeCode, strokesOfSpan, Pen.stroke, Pen.literal_literal, codeText]
  | .image url, p => by
    simp [writeSpan, strokesOfSpan, Pen.stroke, Pen.literal_literal]
  | .emphasis content, p => by
    simp [writeSpan, strokesOfSpan, Pen.stroke, writeSpans_eq, emphasisMark]
  | .strong content, p => by
    simp [writeSpan, strokesOfSpan, Pen.stroke, writeSpans_eq, strongMark]
  | .link url content, p => by
    rw [writeSpan, strokesOfSpan]
    split
    · simp [Pen.stroke, Pen.literal_literal]
    · simp [Pen.stroke, writeSpans_eq]

/-- Spans are written stroke by stroke. -/
theorem writeSpans_eq (around : Surrounding) : ∀ (content : List Span) (p : Pen),
    writeSpans around content p = (strokesOf around content).foldl Pen.stroke p
  | [], p => rfl
  | s :: rest, p => by
    rw [writeSpans, strokesOf, List.foldl_append, writeSpan_eq, writeSpans_eq]

end

theorem Plain.writeSpans (around : Surrounding) (content : List Span) : Plain (writeSpans around content) := by
  have heq : Markdown.writeSpans around content = fun p => (strokesOf around content).foldl Pen.stroke p :=
    funext (writeSpans_eq around content)
  rw [heq]
  exact .foldl fun s _ => .stroke s

end BookCatalog.Markdown
