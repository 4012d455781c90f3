import BookCatalog.Proofs.Markdown.Lines

/-!
# Where no comment comes up

A comment is written by the writer of lists alone, unless the content of a document brings one. Content brings
none when each of its texts is calm (`Stroke.IsCalm`): it holds no comment, and it does not go on with one that
another text has begun. Protected text never ends a comment, since the sign at the end of a comment is escaped
there.
-/

namespace BookCatalog.Markdown

/-! ## Texts -/

/-- A comment, its last character first. -/
def commentRev : List Char := comment.reverse

theorem prefix_comment_cases {w : List Char} {c : Char} (h : w ++ [c] <+: comment) :
    w = [] ∧ c = '<' ∨ w ≠ [] ∧ c ∈ comment.tail := by
  obtain ⟨rest, hcomment, -, -⟩ := exists_comment_eq
  rw [hcomment] at h ⊢
  cases w with
  | nil => exact .inl ⟨rfl, (List.cons_prefix_cons.1 h).1⟩
  | cons d w =>
    have hbegin := (List.cons_prefix_cons.1 h).2
    exact .inr ⟨List.cons_ne_nil d w, hbegin.subset (List.mem_append_right w (List.mem_singleton_self c))⟩

/-- A text that begins no comment can be left out before one. -/
theorem comment_isInfix_of_append_left {xs ys : List Char} (hxs : '<' ∉ xs) (h : comment <:+: xs ++ ys) :
    comment <:+: ys := by
  rcases List.infix_append_iff_ne_nil.1 h with h | h | ⟨a, b, ha, -, hab, hsuffix, -⟩
  · exact absurd (h.subset (by decide)) hxs
  · exact h
  · obtain ⟨c, a, rfl⟩ := List.exists_cons_of_ne_nil ha
    have hc : '<' = c := (List.cons.inj hab).1
    exact absurd (hsuffix.subset (hc ▸ List.mem_cons_self)) hxs

/-- A text that ends no comment can be left out after one. -/
theorem comment_isInfix_of_append_right {xs ys : List Char} (hys : '>' ∉ ys) (h : comment <:+: xs ++ ys) :
    comment <:+: xs := by
  rcases List.infix_append_iff_ne_nil.1 h with h | h | ⟨a, b, -, hb, hab, -, hbegin⟩
  · exact h
  · exact absurd (h.subset (by decide)) hys
  · have hlast : b.getLast? = some '>' := by
      rw [← List.getLast?_append_of_ne_nil a hb, ← hab]
      decide
    exact absurd (hbegin.subset (List.mem_of_getLast? hlast)) hys

/-- A text goes on without bringing up a comment; both texts have their last character first. -/
structure Quiet (r r' : List Char) : Prop where
  grows : r <:+ r'
  none_ends : ∀ t, t <:+ r' → r.length < t.length → ¬commentRev <+: t

namespace Quiet

variable {r r' r'' ds : List Char} {c : Char}

theorem refl (r : List Char) : Quiet r r :=
  ⟨List.suffix_rfl, fun _ ht hlt => absurd ht.length_le (Nat.not_le_of_lt hlt)⟩

theorem trans (h : Quiet r r') (h' : Quiet r' r'') : Quiet r r'' := by
  refine ⟨h.grows.trans h'.grows, fun t ht hlt => ?_⟩
  by_cases hlong : r'.length < t.length
  · exact h'.none_ends t ht hlong
  · exact h.none_ends t (List.suffix_of_suffix_length_le ht h'.grows (Nat.le_of_not_lt hlong)) hlt

theorem cons (h : ¬commentRev <+: c :: r) : Quiet r (c :: r) := by
  refine ⟨List.suffix_cons c r, fun t ht hlt => ?_⟩
  rwa [List.IsSuffix.eq_of_length ht (Nat.le_antisymm ht.length_le hlt)]

/-- Without the sign that ends a comment none comes up. -/
theorem cons_of_ne (h : c ≠ '>') : Quiet r (c :: r) :=
  .cons fun hbegin => h (List.cons_prefix_cons.1 hbegin).1.symm

theorem of_not_mem (h : '>' ∉ ds) : Quiet r (ds ++ r) := by
  induction ds with
  | nil => exact refl r
  | cons c rest ih =>
    rw [List.mem_cons, not_or] at h
    refine (ih h.2).trans (cons fun hbegin => h.1 ?_)
    exact (List.cons_prefix_cons.1 hbegin).1

/-- From the start on, no comment is in a text. -/
theorem not_comment_isInfix (h : Quiet [] r) : ¬comment <:+: r.reverse := by
  rintro ⟨before, after, heq⟩
  refine h.none_ends (commentRev ++ before.reverse) ⟨after.reverse, ?_⟩ ?_ (List.prefix_append _ _)
  · rw [← List.reverse_reverse r, ← heq]
    simp [commentRev]
  · simp [commentRev, comment, endOfList]

end Quiet

/-- Each beginning of a comment that the text `r` ends with stands in its last part `done`. -/
def EndsIn (done r : List Char) : Prop :=
  ∀ w, w ≠ [] → w <+: comment → w.reverse <+: r → w <:+ done

/-- A text ends with no beginning of a comment. -/
def Idle (r : List Char) : Prop := EndsIn [] r

section
variable {done r ds : List Char} {c : Char}

theorem exists_of_reverse_prefix {w : List Char} (hw : w ≠ []) (h : w.reverse <+: c :: r) :
    ∃ u, w = u ++ [c] ∧ u.reverse <+: r := by
  obtain rfl | ⟨u, d, rfl⟩ := List.eq_nil_or_concat w
  · exact absurd rfl hw
  · rw [List.concat_eq_append, List.reverse_append, List.reverse_singleton, List.singleton_append,
      List.cons_prefix_cons] at h
    obtain ⟨rfl, h⟩ := h
    exact ⟨u, List.concat_eq_append, h⟩

theorem EndsIn.cons (h : EndsIn done r) (c : Char) : EndsIn (done ++ [c]) (c :: r) := by
  intro w hw hcomment hbegin
  obtain ⟨u, rfl, hu⟩ := exists_of_reverse_prefix hw hbegin
  by_cases hnil : u = []
  · rw [hnil]
    exact List.suffix_append done [c]
  · have hsuffix := h u hnil ((List.prefix_append u [c]).trans hcomment) hu
    obtain ⟨before, rfl⟩ := hsuffix
    exact ⟨before, by simp⟩

/-- A character with which no comment goes on begins a part of its own. -/
theorem EndsIn.of_not_mem (hc : c ∉ comment.tail) (r : List Char) : EndsIn [c] (c :: r) := by
  intro w hw hcomment hbegin
  obtain ⟨u, rfl, -⟩ := exists_of_reverse_prefix hw hbegin
  rcases prefix_comment_cases hcomment with ⟨rfl, -⟩ | ⟨-, hmem⟩
  · exact List.suffix_rfl
  · exact absurd hmem hc

theorem EndsIn.quiet_cons (h : EndsIn done r) (hfree : ¬comment <:+: done ++ [c]) : Quiet r (c :: r) := by
  refine .cons fun hbegin => ?_
  exact hfree ((h.cons c) comment (by decide) List.prefix_rfl hbegin).isInfix

theorem idle_nil : Idle [] := fun _ hw _ hbegin =>
  absurd (List.reverse_eq_nil_iff.1 (List.prefix_nil.1 hbegin)) hw

theorem Idle.cons (h : Idle r) (hc : c ≠ '<') : Idle (c :: r) := by
  intro w hw hcomment hbegin
  obtain ⟨u, rfl, hu⟩ := exists_of_reverse_prefix hw hbegin
  rcases prefix_comment_cases hcomment with ⟨-, rfl⟩ | ⟨hnil, -⟩
  · exact absurd rfl hc
  · exact absurd (List.suffix_nil.1 (h u hnil ((List.prefix_append u [c]).trans hcomment) hu)) hnil

theorem idle_lineEnd (r : List Char) : Idle ('\n' :: r) := by
  intro w hw hcomment hbegin
  obtain ⟨u, rfl, -⟩ := exists_of_reverse_prefix hw hbegin
  exact absurd (hcomment.subset (List.mem_append_right u (List.mem_singleton_self '\n'))) not_lineEnd_mem_comment

/-- Where no comment is begun, characters that begin none bring up none. -/
theorem Idle.append (h : Idle r) (hds : '<' ∉ ds) : Quiet r (ds ++ r) ∧ Idle (ds ++ r) := by
  induction ds with
  | nil => exact ⟨.refl r, h⟩
  | cons c rest ih =>
    rw [List.mem_cons, not_or] at hds
    obtain ⟨hquiet, hidle⟩ := ih hds.2
    refine ⟨hquiet.trans (hidle.quiet_cons fun hoccurs => ?_), hidle.cons (Ne.symm hds.1)⟩
    exact absurd hoccurs.length_le (Nat.not_le_of_lt (by decide : 1 < comment.length))

end

/-! ## Characters -/

namespace Pen

/-- The margin begins no comment, and none is begun at the start of a line. -/
structure Steady (p : Pen) : Prop where
  margin : ∀ c ∈ p.margin, c = ' ' ∨ c = '>'
  idle : p.lineStart → Idle p.reversed

variable {p : Pen}

theorem Steady.not_mem_margin (h : p.Steady) {c : Char} (hspace : c ≠ ' ') (hsign : c ≠ '>') : c ∉ p.margin :=
  fun hmem => (h.margin c hmem).elim hspace hsign

theorem not_mem_reference {d : Char} (hd : d.isDigit = false) (hne : d ≠ '&' ∧ d ≠ '#' ∧ d ≠ ';') (c : Char) :
    d ∉ reference c := by
  intro hmem
  rw [reference, List.append_assoc, List.mem_append, List.mem_append] at hmem
  rcases hmem with hmem | hmem | hmem
  · simp [hne] at hmem
  · rw [Nat.isDigit_of_mem_toDigits (by decide) (by decide) hmem] at hd
    cases hd
  · simp [hne] at hmem

theorem isSpace_cases {c : Char} (h : isSpace c) : c = ' ' ∨ c = '\t' ∨ c = '\n' ∨ c = '\r' := by
  simpa [isSpace, or_assoc] using h

/-- How a character is written that is not written as it stands. -/
theorem form_cases {mode : Escaping} (hmode : mode ≠ .literal) (c : Char) (next : Option Char) (p : Pen) :
    p.form mode c next = [c] ∧ c ≠ '>' ∧ c ≠ '\n' ∨ p.form mode c next = ['\\', c] ∧ c ≠ '\n' ∨
      p.form mode c next = percentEscape c ∧ isSpace c ∨
      p.form mode c next = (if p.lineStart then p.margin else []) ++ reference c := by
  have hescaped : p.escapedForm mode c = ['\\', c] ∧ c ≠ '\n' ∨
      p.escapedForm mode c = percentEscape c ∧ isSpace c ∨
      p.escapedForm mode c = (if p.lineStart then p.margin else []) ++ reference c := by
    unfold escapedForm
    split
    · rename_i h
      exact .inr (.inl ⟨rfl, by simpa using (Bool.and_eq_true_iff.1 h).2⟩)
    · split
      · rename_i hmark
        exact .inl ⟨rfl, fun hc => by rw [hc] at hmark; cases hmark⟩
      · exact .inr (.inr rfl)
  cases mode with
  | literal => exact absurd rfl hmode
  | prose =>
    unfold form
    dsimp only
    by_cases h : (p.add (p.lead c)).breaksProse c next = true
    · rw [if_pos h]
      exact .inr hescaped
    · rw [if_neg h]
      refine .inl ⟨rfl, fun hc => h ?_, fun hc => h ?_⟩ <;> simp [breaksProse, hc]
  | destination =>
    unfold form
    dsimp only
    by_cases h : breaksDestination c = true
    · rw [if_pos h]
      exact .inr hescaped
    · rw [if_neg h]
      refine .inl ⟨rfl, fun hc => h ?_, fun hc => h ?_⟩ <;> simp [breaksDestination, isSpace, hc]

theorem mem_lead {c d : Char} (h : d ∈ p.lead c) : p.lineStart ∧ d ∈ p.margin ∨ d = '\\' := by
  rw [Pen.lead, List.mem_append] at h
  rcases h with h | h
  · split at h
    · rename_i hline
      exact .inl ⟨hline, h⟩
    · cases h
  · split at h
    · exact .inr (List.mem_singleton.1 h)
    · cases h

theorem Steady.lead (h : p.Steady) (c : Char) :
    Quiet p.reversed ((p.lead c).reverse ++ p.reversed) ∧
      (p.lineStart → Idle ((p.lead c).reverse ++ p.reversed)) := by
  by_cases hline : p.lineStart = true
  · have hlead : '<' ∉ (p.lead c).reverse := fun hmem => by
      rcases mem_lead (List.mem_reverse.1 hmem) with ⟨-, hmargin⟩ | hslash
      · exact h.not_mem_margin (by decide) (by decide) hmargin
      · exact absurd hslash (by decide)
    obtain ⟨hquiet, hidle⟩ := (h.idle hline).append hlead
    exact ⟨hquiet, fun _ => hidle⟩
  · refine ⟨.of_not_mem fun hmem => ?_, fun hline' => absurd hline' hline⟩
    rcases mem_lead (List.mem_reverse.1 hmem) with ⟨hline', -⟩ | hslash
    · exact hline hline'
    · exact absurd hslash (by decide)

/-- A protected character brings up no comment. -/
theorem Steady.putChar (h : p.Steady) {mode : Escaping} (hmode : mode ≠ .literal) (c : Char) (next : Option Char) :
    Quiet p.reversed (p.putChar mode c next).reversed ∧ (p.putChar mode c next).Steady := by
  rw [putChar_eq]
  refine ⟨?_, h.margin, fun hline => by simp [endsLine, hmode] at hline⟩
  obtain ⟨hlead, hidle⟩ := h.lead c
  rw [List.reverse_append, List.append_assoc]
  refine hlead.trans ?_
  rcases form_cases hmode c next p with ⟨hform, hne, -⟩ | ⟨hform, -⟩ | ⟨hform, hspace⟩ | hform <;> rw [hform]
  · exact .of_not_mem (by simpa using Ne.symm hne)
  · -- the sign that ends a comment stands after a backslash here
    have hquiet : Quiet ('\\' :: ((p.lead c).reverse ++ p.reversed))
        (c :: '\\' :: ((p.lead c).reverse ++ p.reversed)) :=
      (EndsIn.of_not_mem (by decide) _).quiet_cons fun hoccurs =>
        absurd hoccurs.length_le (Nat.not_le_of_lt (by decide : 2 < comment.length))
    exact Quiet.trans (.cons_of_ne (by decide)) hquiet
  · refine .of_not_mem ?_
    rw [List.mem_reverse]
    rcases isSpace_cases hspace with rfl | rfl | rfl | rfl <;> decide
  · have hreference (d : Char) (hd : d = '<' ∨ d = '>') : d ∉ reference c := by
      rcases hd with rfl | rfl <;> exact not_mem_reference (by decide) (by decide) c
    by_cases hline : p.lineStart = true
    · rw [if_pos hline]
      refine ((hidle hline).append ?_).1
      rw [List.mem_reverse, List.mem_append, not_or]
      exact ⟨h.not_mem_margin (by decide) (by decide), hreference '<' (.inl rfl)⟩
    · rw [if_neg hline, List.nil_append]
      refine .of_not_mem ?_
      rw [List.mem_reverse]
      exact hreference '>' (.inr rfl)

theorem Steady.putChars {mode : Escaping} (hmode : mode ≠ .literal) : ∀ (cs : List Char) {p : Pen}, p.Steady →
    Quiet p.reversed (p.putChars mode cs).reversed ∧ (p.putChars mode cs).Steady
  | [], p, h => ⟨.refl _, h⟩
  | c :: rest, p, h => by
    obtain ⟨hquiet, hsteady⟩ := h.putChar hmode c rest.head?
    obtain ⟨hmore, hend⟩ := Steady.putChars hmode rest hsteady
    exact ⟨hquiet.trans hmore, hend⟩

/-! ## Texts that are written as they stand -/

/-- What is written before a character goes on with no comment. -/
theorem Steady.endsIn_lead (h : p.Steady) {done : List Char} (hdone : EndsIn done p.reversed) (c : Char) :
    EndsIn done ((p.lead c).reverse ++ p.reversed) := by
  by_cases hline : p.lineStart = true
  · intro w hw hcomment hbegin
    exact absurd (List.suffix_nil.1 ((h.lead c).2 hline w hw hcomment hbegin)) hw
  · cases hlead : (p.lead c).reverse with
    | nil => exact hdone
    | cons d rest =>
      have hd : d = '\\' := by
        have hmem : d ∈ p.lead c := List.mem_reverse.1 (hlead ▸ List.mem_cons_self)
        exact (mem_lead hmem).resolve_left fun hmargin => hline hmargin.1
      intro w hw hcomment hbegin
      obtain ⟨u, rfl, -⟩ := exists_of_reverse_prefix hw hbegin
      have hmem : d ∈ comment := hcomment.subset (List.mem_append_right u (List.mem_singleton_self d))
      exact absurd (hd ▸ hmem) (by decide)

theorem Steady.putChar_literal (h : p.Steady) (c : Char) (next : Option Char) :
    (p.putChar .literal c next).Steady ∧
      (p.putChar .literal c next).reversed = c :: ((p.lead c).reverse ++ p.reversed) := by
  have hreversed : (p.putChar .literal c next).reversed = c :: ((p.lead c).reverse ++ p.reversed) := by
    rw [putChar_eq]
    simp [form]
  refine ⟨⟨by rw [putChar_eq]; exact h.margin, fun hline => ?_⟩, hreversed⟩
  have hc : c = '\n' := by
    rw [putChar_eq] at hline
    simpa [endsLine] using hline
  rw [hreversed, hc]
  exact idle_lineEnd _

/-- A text goes on as it stands, from its part `done`, without bringing up a comment. -/
theorem Steady.putChars_literal : ∀ (cs done : List Char) {p : Pen}, p.Steady → EndsIn done p.reversed →
    ¬comment <:+: done ++ cs →
      Quiet p.reversed (p.putChars .literal cs).reversed ∧ (p.putChars .literal cs).Steady
  | [], _, p, h, _, _ => ⟨.refl _, h⟩
  | c :: rest, done, p, h, hdone, hfree => by
    rw [List.append_cons] at hfree
    obtain ⟨hsteady, hreversed⟩ := h.putChar_literal c rest.head?
    have hlead := h.endsIn_lead hdone c
    have hquiet : Quiet p.reversed (p.putChar .literal c rest.head?).reversed := by
      rw [hreversed]
      exact (h.lead c).1.trans (hlead.quiet_cons fun hoccurs => hfree (hoccurs.trans (List.prefix_append _ _).isInfix))
    have hends : EndsIn (done ++ [c]) (p.putChar .literal c rest.head?).reversed := by
      rw [hreversed]
      exact hlead.cons c
    obtain ⟨hmore, hend⟩ := Steady.putChars_literal rest (done ++ [c]) hsteady hends hfree
    exact ⟨hquiet.trans hmore, hend⟩

theorem Steady.putChars_of_not_mem : ∀ (cs : List Char) {p : Pen}, p.Steady → '>' ∉ cs →
    Quiet p.reversed (p.putChars .literal cs).reversed ∧ (p.putChars .literal cs).Steady
  | [], p, h, _ => ⟨.refl _, h⟩
  | c :: rest, p, h, hcs => by
    rw [List.mem_cons, not_or] at hcs
    obtain ⟨hsteady, hreversed⟩ := h.putChar_literal c rest.head?
    have hquiet : Quiet p.reversed (p.putChar .literal c rest.head?).reversed := by
      rw [hreversed]
      exact (h.lead c).1.trans (.cons_of_ne (Ne.symm hcs.1))
    obtain ⟨hmore, hend⟩ := Steady.putChars_of_not_mem rest hsteady hcs.2
    exact ⟨hquiet.trans hmore, hend⟩

/-! ## Breaks -/

theorem quiet_makeBreaks : ∀ (n : Nat) (seen : List Char) (p : Pen), (∀ c ∈ p.margin, c = ' ' ∨ c = '>') →
    Quiet p.reversed (makeBreaks n seen p).reversed
  | 0, _, _, _ => .refl _
  | n + 1, [], p, h => quiet_makeBreaks n [] { p with lineStart := true, contentStart := true } h
  | n + 1, c :: before, p, h => by
    rw [makeBreaks]
    split
    · exact quiet_makeBreaks n before { p with lineStart := true, contentStart := true } h
    · refine Quiet.trans ?_ (quiet_makeBreaks n (c :: before) _ h)
      have hmargin : '<' ∉ if n = 0 then [] else p.margin.reverse := by
        split
        · exact List.not_mem_nil
        · exact fun hmem => (h '<' (List.mem_reverse.1 hmem)).elim (by decide) (by decide)
      exact Quiet.trans (.cons_of_ne (by decide)) ((idle_lineEnd _).append hmargin).1

theorem StartsLine.idle (h : p.StartsLine) : Idle p.reversed := by
  rcases h with h | h
  · rw [h]
    exact idle_nil
  · obtain ⟨rest, hrest⟩ := List.head?_eq_some_iff.1 h
    rw [hrest]
    exact idle_lineEnd rest

/-- No comment is begun where the next text will stand. -/
structure Ready (p : Pen) : Prop extends Steady p where
  waits : p.breaks = 0 → Idle p.reversed

theorem Ready.start : Ready {} := ⟨⟨fun _ hc => absurd hc List.not_mem_nil, fun _ => idle_nil⟩, fun _ => idle_nil⟩

theorem Steady.settle (h : p.Steady) : Quiet p.reversed p.settle.reversed ∧ p.settle.Steady := by
  refine ⟨quiet_makeBreaks _ _ p h.margin, (sameFrame_settle p).margin ▸ h.margin, fun hline => ?_⟩
  rcases Nat.eq_zero_or_pos p.breaks with hzero | hpos
  · rw [settle_of_no_breaks hzero] at hline ⊢
    exact h.idle hline
  · exact (startsLine_settle hpos).idle

theorem Ready.idle_settle (h : p.Ready) : Idle p.settle.reversed := by
  rcases Nat.eq_zero_or_pos p.breaks with hzero | hpos
  · rw [settle_of_no_breaks hzero]
    exact h.waits hzero
  · exact (startsLine_settle hpos).idle

/-- Where no comment is begun, a text without a comment brings up none. -/
theorem Ready.literal (h : p.Ready) {s : String} (hfree : ¬comment <:+: s.toList) :
    Quiet p.reversed (p.literal s).reversed ∧ (p.literal s).Steady := by
  unfold Pen.literal
  split
  · exact ⟨.refl _, h.toSteady⟩
  · obtain ⟨hquiet, hsteady⟩ := h.toSteady.settle
    obtain ⟨hmore, hend⟩ := hsteady.putChars_literal s.toList [] h.idle_settle hfree
    exact ⟨hquiet.trans hmore, hend⟩

end Pen

/-! ## Strokes -/

/-- A text that brings up no comment, whatever stands before it. -/
def IsCalm (cs : List Char) : Prop := '>' ∉ cs ∨ ¬comment <:+: cs ∧ ∀ c ∈ cs.head?, c ∉ comment.tail

/-- A stroke that brings up no comment. -/
def Stroke.IsCalm (s : Stroke) : Prop := s.mode = .literal → Markdown.IsCalm s.text.toList

namespace Pen

variable {p : Pen}

theorem Steady.putChars_of_isCalm (h : p.Steady) {cs : List Char} (hcalm : IsCalm cs) :
    Quiet p.reversed (p.putChars .literal cs).reversed ∧ (p.putChars .literal cs).Steady := by
  rcases hcalm with hcs | ⟨hfree, hhead⟩
  · exact h.putChars_of_not_mem cs hcs
  · cases cs with
    | nil => exact ⟨.refl _, h⟩
    | cons c rest =>
      have hc : c ∉ comment.tail := hhead c rfl
      obtain ⟨hsteady, hreversed⟩ := h.putChar_literal c rest.head?
      have hne : c ≠ '>' := fun heq => hc (heq ▸ by decide)
      have hquiet : Quiet p.reversed (p.putChar .literal c rest.head?).reversed := by
        rw [hreversed]
        exact (h.lead c).1.trans (.cons_of_ne hne)
      have hends : EndsIn [c] (p.putChar .literal c rest.head?).reversed := by
        rw [hreversed]
        exact .of_not_mem hc _
      obtain ⟨hmore, hend⟩ := hsteady.putChars_literal rest [c] hends hfree
      exact ⟨hquiet.trans hmore, hend⟩

end Pen

/-- A way of writing that brings up no comment. -/
def Calm (f : Pen → Pen) : Prop := ∀ p : Pen, p.Steady → Quiet p.reversed (f p).reversed ∧ (f p).Steady

namespace Calm

variable {f g : Pen → Pen}

theorem comp (hg : Calm g) (hf : Calm f) : Calm fun p => g (f p) := by
  intro p h
  obtain ⟨hquiet, hsteady⟩ := hf p h
  obtain ⟨hmore, hend⟩ := hg (f p) hsteady
  exact ⟨hquiet.trans hmore, hend⟩

theorem ite {c : Prop} [Decidable c] (hf : Calm f) (hg : Calm g) : Calm fun p => if c then f p else g p := by
  split
  · exact hf
  · exact hg

theorem foldl {α : Type} {f : Pen → α → Pen} : ∀ {xs : List α}, (∀ x ∈ xs, Calm (f · x)) →
    Calm fun p => xs.foldl f p
  | [], _ => fun _ h => ⟨.refl _, h⟩
  | x :: rest, h => by
    obtain ⟨hx, hrest⟩ := List.forall_mem_cons.1 h
    exact (foldl hrest).comp hx

/-- What writes nothing and leaves the margin and the start of the line as they are. -/
theorem of_silent (h : ∀ p : Pen, (f p).reversed = p.reversed ∧ (f p).margin = p.margin ∧
    (f p).lineStart = p.lineStart) : Calm f := by
  intro p hp
  obtain ⟨hreversed, hmargin, hline⟩ := h p
  exact ⟨hreversed ▸ .refl _, hmargin ▸ hp.margin, by rw [hreversed, hline]; exact hp.idle⟩

theorem endLine : Calm Pen.endLine := of_silent fun _ => ⟨rfl, rfl, rfl⟩

theorem endBlock : Calm Pen.endBlock := of_silent fun _ => ⟨rfl, rfl, rfl⟩

theorem settle : Calm Pen.settle := fun _ h => h.settle

theorem literal {s : String} (h : IsCalm s.toList) : Calm (Pen.literal · s) :=
  .ite (of_silent fun _ => ⟨rfl, rfl, rfl⟩) (.comp (fun _ hp => hp.putChars_of_isCalm h) settle)

theorem stroke {s : Stroke} (h : s.IsCalm) : Calm (Pen.stroke · s) := by
  unfold Pen.stroke
  split
  · rename_i hmode
    exact literal (h hmode)
  · rename_i hmode
    exact .comp (fun _ hp => hp.putChars hmode s.text.toList) settle

/-- **Calm content brings up no comment.** -/
theorem writeSpans {around : Surrounding} {content : List Span} (h : ∀ s ∈ strokesOf around content, s.IsCalm) :
    Calm (writeSpans around content) := by
  intro p hp
  rw [writeSpans_eq]
  exact foldl (fun s hs => stroke (h s hs)) p hp

end Calm

end BookCatalog.Markdown
