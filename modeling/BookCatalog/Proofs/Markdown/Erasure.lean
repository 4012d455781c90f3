import BookCatalog.Markdown
import Mathlib.Data.List.Infix

/-!
# Erasing a pattern

Erasing goes through a text from left to right. It acts on two texts that stand side by side as it acts on
each of them alone, unless an occurrence of the pattern reaches from the one into the other
(`erase_append`). The pattern that is erased from Markdown is the comment after a list with a blank line. Such a
comment overlaps with no other one, so it is in what is left of a text exactly when it occurs in the text
without a blank line after it (`comment_isInfix_erase_iff`).
-/

namespace BookCatalog.Markdown

variable {pattern cs ds : List Char} {c : Char}

/-- No occurrence of `pattern` reaches from a text into the text after it. -/
def Apart (pattern cs ds : List Char) : Prop :=
  ∀ a b, a ≠ [] → b ≠ [] → pattern = a ++ b → a <:+ cs → ¬b <+: ds

theorem apart_of_not_mem (h : c ∉ pattern) : Apart pattern cs (c :: ds) := by
  rintro a b - hb rfl - hbegin
  obtain ⟨d, rest, rfl⟩ := List.exists_cons_of_ne_nil hb
  obtain ⟨rfl, -⟩ := List.cons_prefix_cons.1 hbegin
  exact h (List.mem_append_right a List.mem_cons_self)

theorem apart_of_last_not_mem (h : c ∉ pattern) : Apart pattern (cs ++ [c]) ds := by
  rintro a b ha - rfl hsuffix -
  obtain ⟨before, hbefore⟩ := hsuffix
  have hlast : a.getLast? = some c := by
    rw [← List.getLast?_append_of_ne_nil before ha, hbefore, List.getLast?_concat]
  exact h (List.mem_append_left b (List.mem_of_getLast? hlast))

/-- No part of a text reaches over a character that is not in it. -/
theorem isInfix_append_cons_of_not_mem {α : Type} {x : α} {part before after : List α} (hx : x ∉ part)
    (h : part <:+: before ++ x :: after) : part <:+: before ∨ part <:+: after := by
  rcases List.infix_append_iff_ne_nil.1 h with h | h | ⟨a, b, -, hb, rfl, -, hbegin⟩
  · exact .inl h
  · rcases List.infix_cons_iff.1 h with h | h
    · cases part with
      | nil => exact .inl (List.nil_infix)
      | cons y rest =>
        obtain ⟨rfl, -⟩ := List.cons_prefix_cons.1 h
        exact absurd List.mem_cons_self hx
    · exact .inr h
  · obtain ⟨y, rest, rfl⟩ := List.exists_cons_of_ne_nil hb
    obtain ⟨rfl, -⟩ := List.cons_prefix_cons.1 hbegin
    exact absurd (List.mem_append_right a List.mem_cons_self) hx

/-! ## One text -/

theorem length_eraseFrom_le : ∀ (cs : List Char) (skip : Nat),
    (eraseFrom pattern skip cs).length ≤ cs.length
  | [], _ => Nat.le_refl _
  | c :: rest, skip + 1 => (length_eraseFrom_le rest skip).trans (Nat.le_succ _)
  | c :: rest, 0 => by
    rw [eraseFrom]
    split
    · exact (length_eraseFrom_le rest _).trans (Nat.le_succ _)
    · exact Nat.succ_le_succ (length_eraseFrom_le rest 0)

theorem eraseFrom_append_of_length (cs ds : List Char) :
    eraseFrom pattern cs.length (cs ++ ds) = erase pattern ds := by
  induction cs with
  | nil => rfl
  | cons c rest ih => exact ih

/-- A text that does not begin with the pattern keeps its first character. -/
theorem erase_cons_of_not_begins (h : ¬pattern <+: c :: cs) :
    erase pattern (c :: cs) = c :: erase pattern cs := by
  rw [erase, eraseFrom, if_neg (by rwa [List.isPrefixOf_iff_prefix])]
  rfl

/-- The pattern is deleted where it stands. -/
theorem erase_pattern_append (h : pattern ≠ []) (ds : List Char) :
    erase pattern (pattern ++ ds) = erase pattern ds := by
  obtain ⟨c, rest, rfl⟩ := List.exists_cons_of_ne_nil h
  have hbegin : c :: rest <+: c :: (rest ++ ds) := List.prefix_append (c :: rest) ds
  rw [erase, List.cons_append, eraseFrom, if_pos (List.isPrefixOf_iff_prefix.2 hbegin), List.length_cons,
    Nat.add_sub_cancel]
  exact eraseFrom_append_of_length rest ds

/-- A text is left as it is exactly when the pattern does not occur in it. -/
theorem erase_eq_self_iff (h : pattern ≠ []) : erase pattern cs = cs ↔ ¬pattern <:+: cs := by
  induction cs with
  | nil => simpa [erase, eraseFrom] using h
  | cons c rest ih =>
    rw [List.infix_cons_iff, not_or]
    by_cases hbegin : pattern <+: c :: rest
    · -- the first character is deleted, so what is left is shorter
      have hshort : (erase pattern (c :: rest)).length ≤ rest.length := by
        rw [erase, eraseFrom, if_pos (List.isPrefixOf_iff_prefix.2 hbegin)]
        exact length_eraseFrom_le rest _
      refine ⟨fun heq => ?_, fun hnot => absurd hbegin hnot.1⟩
      rw [heq, List.length_cons] at hshort
      omega
    · rw [erase_cons_of_not_begins hbegin, List.cons_eq_cons, ih]
      simp [hbegin]

/-! ## Two texts side by side -/

theorem eraseFrom_append : ∀ (cs : List Char) (skip : Nat), skip ≤ cs.length → Apart pattern cs ds →
    eraseFrom pattern skip (cs ++ ds) = eraseFrom pattern skip cs ++ erase pattern ds
  | [], 0, _, _ => rfl
  | c :: rest, skip + 1, hskip, hapart =>
    eraseFrom_append rest skip (Nat.le_of_succ_le_succ hskip) fun a b ha hb hab hsuffix =>
      hapart a b ha hb hab (hsuffix.trans (List.suffix_cons c rest))
  | c :: rest, 0, _, hapart => by
    have hrest : Apart pattern rest ds := fun a b ha hb hab hsuffix =>
      hapart a b ha hb hab (hsuffix.trans (List.suffix_cons c rest))
    have hiff : pattern <+: c :: (rest ++ ds) ↔ pattern <+: c :: rest := by
      refine ⟨fun hbegin => ?_, fun hbegin => hbegin.trans (List.prefix_append (c :: rest) ds)⟩
      by_contra hnot
      obtain ⟨after, hafter⟩ := hbegin
      rw [← List.cons_append, List.append_eq_append_iff] at hafter
      obtain ⟨b, hb, hds⟩ | ⟨b, hb, hds⟩ := hafter
      · exact hnot ⟨b, hb.symm⟩
      · -- the pattern is longer than the first text, so it reaches into the second
        have hne : b ≠ [] := by
          rintro rfl
          exact hnot (by simp [hb])
        exact hapart (c :: rest) b (List.cons_ne_nil c rest) hne hb List.suffix_rfl ⟨after, hds.symm⟩
    rw [List.cons_append, eraseFrom, eraseFrom]
    by_cases hbegin : pattern <+: c :: rest
    · rw [if_pos (List.isPrefixOf_iff_prefix.2 (hiff.2 hbegin)),
        if_pos (List.isPrefixOf_iff_prefix.2 hbegin)]
      have hlength : pattern.length ≤ rest.length + 1 := hbegin.length_le
      exact eraseFrom_append rest _ (by omega) hrest
    · rw [if_neg (by rwa [List.isPrefixOf_iff_prefix, hiff]),
        if_neg (by rwa [List.isPrefixOf_iff_prefix]), eraseFrom_append rest 0 (Nat.zero_le _) hrest,
        List.cons_append]

/-- **Erasing acts on texts side by side as on each alone**, when no occurrence of the pattern reaches from
the one into the other. -/
theorem erase_append (h : Apart pattern cs ds) :
    erase pattern (cs ++ ds) = erase pattern cs ++ erase pattern ds :=
  eraseFrom_append cs 0 (Nat.zero_le _) h

theorem exists_first_of_isInfix (hne : pattern ≠ []) (h : pattern <:+: cs) :
    ∃ before after, cs = before ++ pattern ++ after ∧ ¬pattern <:+: before := by
  induction cs with
  | nil => exact absurd (List.infix_nil.1 h) hne
  | cons c rest ih =>
    by_cases hbegin : pattern <+: c :: rest
    · obtain ⟨after, hafter⟩ := hbegin
      exact ⟨[], after, by simpa using hafter.symm, by simpa using hne⟩
    · obtain ⟨before, after, rfl, hfree⟩ := ih ((List.infix_cons_iff.1 h).resolve_left hbegin)
      refine ⟨c :: before, after, by simp, fun hoccurs => ?_⟩
      rcases List.infix_cons_iff.1 hoccurs with hoccurs | hoccurs
      · exact hbegin (hoccurs.trans ⟨pattern ++ after, by simp⟩)
      · exact hfree hoccurs

/-! ## The comment after a list -/

/-- The comment after a list, as characters. -/
def comment : List Char := endOfList.toList

theorem listSeparator_eq : listSeparator = comment ++ ['\n', '\n'] := rfl

theorem listSeparator_ne_nil : listSeparator ≠ [] := by decide

theorem not_lineEnd_mem_comment : '\n' ∉ comment := by decide

/-- A comment begins with a character that is in it only once. -/
theorem exists_comment_eq : ∃ rest, comment = '<' :: rest ∧ '<' ∉ rest ∧ '\n' ∉ rest :=
  ⟨comment.tail, by decide⟩

/-- A comment is apart from what stands before it: no other one reaches into it. -/
theorem apart_comment_append (cs ds : List Char) : Apart listSeparator cs (comment ++ ds) := by
  obtain ⟨rest, hcomment, hfirst, -⟩ := exists_comment_eq
  intro a b ha hb hab _ hbegin
  obtain ⟨x, a, rfl⟩ := List.exists_cons_of_ne_nil ha
  obtain ⟨y, b, rfl⟩ := List.exists_cons_of_ne_nil hb
  rw [hcomment, List.cons_append] at hbegin
  obtain ⟨rfl, -⟩ := List.cons_prefix_cons.1 hbegin
  rw [listSeparator_eq, hcomment, List.cons_append, List.cons_append] at hab
  have hmem : '<' ∈ rest ++ ['\n', '\n'] := (List.cons.inj hab).2 ▸ List.mem_append_right a List.mem_cons_self
  simp [hfirst] at hmem

/-- A comment is apart from what stands after it unless a blank line follows. -/
theorem apart_comment (h : ¬['\n', '\n'] <+: ds) : Apart listSeparator comment ds := by
  obtain ⟨rest, hcomment, hfirst, -⟩ := exists_comment_eq
  intro a b ha _ hab hsuffix hbegin
  obtain ⟨x, a, rfl⟩ := List.exists_cons_of_ne_nil ha
  have hx : x = '<' := by
    rw [listSeparator_eq, hcomment, List.cons_append, List.cons_append] at hab
    exact (List.cons.inj hab).1.symm
  subst hx
  rw [hcomment, List.suffix_cons_iff] at hsuffix
  rcases hsuffix with hsuffix | hsuffix
  · rw [hsuffix, ← hcomment, listSeparator_eq, List.append_cancel_left_eq] at hab
    exact h (hab ▸ hbegin)
  · exact hfirst (hsuffix.subset List.mem_cons_self)

/-- Where a separator goes on with a line end, its comment is over. -/
theorem exists_eq_comment_append {a b : List Char} (hab : listSeparator = a ++ b) (hb : b.head? = some '\n') :
    ∃ x, a = comment ++ x ∧ ∀ c ∈ x, c = '\n' := by
  obtain ⟨b, rfl⟩ := List.head?_eq_some_iff.1 hb
  rw [listSeparator_eq] at hab
  rcases List.append_eq_append_iff.1 hab with ⟨x, rfl, hrest⟩ | ⟨x, hx, hrest⟩
  · refine ⟨x, rfl, fun c hc => ?_⟩
    have hmem : c ∈ ['\n', '\n'] := hrest ▸ List.mem_append_left _ hc
    simpa using hmem
  · cases x with
    | nil => exact ⟨[], by rw [List.append_nil, hx, List.append_nil], List.forall_mem_nil _⟩
    | cons y x =>
      have hy : '\n' = y := (List.cons.inj hrest).1
      exact absurd (hx ▸ hy ▸ List.mem_append_right a List.mem_cons_self) not_lineEnd_mem_comment

theorem erase_comment : erase listSeparator comment = comment := by decide

/-- A comment with a blank line after it is deleted. -/
theorem erase_append_separator (cs ds : List Char) :
    erase listSeparator (cs ++ comment ++ '\n' :: '\n' :: ds) =
      erase listSeparator cs ++ erase listSeparator ds := by
  have hsplit : comment ++ '\n' :: '\n' :: ds = listSeparator ++ ds := by simp [listSeparator_eq]
  rw [List.append_assoc, erase_append (apart_comment_append cs _), hsplit,
    erase_pattern_append listSeparator_ne_nil]

/-- A comment without a blank line after it is kept. -/
theorem erase_append_comment (h : ¬['\n', '\n'] <+: ds) (cs : List Char) :
    erase listSeparator (cs ++ comment ++ ds) =
      erase listSeparator cs ++ comment ++ erase listSeparator ds := by
  rw [List.append_assoc, erase_append (apart_comment_append cs ds), erase_append (apart_comment h),
    erase_comment, List.append_assoc]

/-- A text without a comment is left as it is. -/
theorem erase_eq_self_of_free (h : ¬comment <:+: cs) : erase listSeparator cs = cs :=
  (erase_eq_self_iff listSeparator_ne_nil).2 fun hoccurs =>
    h ((List.prefix_append comment ['\n', '\n']).isInfix.trans hoccurs)

/-- Whether a text is empty or ends with a line end. -/
def EndsLine (cs : List Char) : Prop := cs = [] ∨ cs.getLast? = some '\n'

/-- No comment reaches out of ended lines. -/
theorem not_comment_isInfix_append (hends : EndsLine cs) (hcs : ¬comment <:+: cs) (hds : ¬comment <:+: ds) :
    ¬comment <:+: cs ++ ds := by
  intro hoccurs
  rcases List.infix_append_iff_ne_nil.1 hoccurs with hoccurs | hoccurs | ⟨a, b, ha, -, hab, hsuffix, -⟩
  · exact hcs hoccurs
  · exact hds hoccurs
  · rcases hends with rfl | hends
    · exact ha (List.suffix_nil.1 hsuffix)
    · obtain ⟨before, rfl⟩ := hsuffix
      rw [List.getLast?_append_of_ne_nil _ ha] at hends
      have hmem : '\n' ∈ a := List.mem_of_getLast? hends
      exact not_lineEnd_mem_comment (hab ▸ List.mem_append_left b hmem)

/-- Each comment with a blank line after it begins a line. -/
def SeparatorsBeginLines (cs : List Char) : Prop :=
  ∀ before after, cs = before ++ comment ++ '\n' :: '\n' :: after → EndsLine before

theorem EndsLine.of_append (hds : ds ≠ []) (h : EndsLine (cs ++ ds)) : EndsLine ds := by
  rw [EndsLine, List.getLast?_append_of_ne_nil cs hds] at h
  exact .inr (h.resolve_left (List.append_ne_nil_of_right_ne_nil cs hds))

theorem EndsLine.append (hcs : EndsLine cs) (hds : EndsLine ds) : EndsLine (cs ++ ds) := by
  rcases hds with rfl | hds
  · rwa [List.append_nil]
  · refine .inr ?_
    rw [List.getLast?_append, hds]
    rfl

/-- What stands after a separator. -/
theorem SeparatorsBeginLines.after {before rest : List Char}
    (h : SeparatorsBeginLines (before ++ comment ++ '\n' :: '\n' :: rest)) : SeparatorsBeginLines rest := by
  rintro u v rfl
  have hends := h (before ++ comment ++ ['\n', '\n'] ++ u) v (by simp)
  by_cases hu : u = []
  · exact .inl hu
  · exact hends.of_append hu


/-- When every comment begins a line and has a blank line after it, none is left. -/
theorem not_comment_isInfix_erase : ∀ {cs : List Char}, SeparatorsBeginLines cs →
    (∀ before after, cs = before ++ comment ++ after → ['\n', '\n'] <+: after) →
      ¬comment <:+: erase listSeparator cs := by
  intro cs hlines hblank
  by_cases hfree : comment <:+: cs
  · obtain ⟨before, after, rfl, hbefore⟩ := exists_first_of_isInfix (by decide) hfree
    obtain ⟨rest, rfl⟩ := hblank before after rfl
    rw [List.cons_append, List.cons_append, List.nil_append] at hlines ⊢
    rw [erase_append_separator, erase_eq_self_of_free hbefore]
    refine not_comment_isInfix_append (hlines before rest rfl) hbefore ?_
    refine not_comment_isInfix_erase hlines.after fun u v huv => ?_
    exact hblank (before ++ comment ++ ['\n', '\n'] ++ u) v (by simp [huv])
  · rwa [erase_eq_self_of_free hfree]
termination_by cs => cs.length

/-- **Which comments are left.** A comment is left in a text exactly when it occurs there without a blank line
after it, provided that the comments that are deleted begin a line. -/
theorem comment_isInfix_erase_iff (hlines : SeparatorsBeginLines cs) :
    comment <:+: erase listSeparator cs ↔
      ∃ before after, cs = before ++ comment ++ after ∧ ¬['\n', '\n'] <+: after := by
  constructor
  · intro hoccurs
    by_contra hnone
    refine not_comment_isInfix_erase hlines (fun before after hcs => ?_) hoccurs
    by_contra hblank
    exact hnone ⟨before, after, hcs, hblank⟩
  · rintro ⟨before, after, rfl, hblank⟩
    rw [erase_append_comment hblank]
    exact List.infix_append _ comment _

end BookCatalog.Markdown
