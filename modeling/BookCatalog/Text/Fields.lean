/-!
# Cutting text at separators

`runs` lists the maximal runs of a text without a separator. `splitFirst?` and `splitLast?` cut at
the first and at the last separator and fail when there is none.
-/

namespace BookCatalog.Text

variable {α : Type}

/-- The maximal non-empty runs of elements that do not satisfy `p`. -/
def runs (p : α → Bool) (xs : List α) : List (List α) :=
  (xs.splitOnP p).filter (!·.isEmpty)

/-- The part before the first element that satisfies `p` and the part after it; `none` when no
element does. -/
def splitFirst? (p : α → Bool) : List α → Option (List α × List α)
  | [] => none
  | a :: rest =>
    if p a then some ([], rest)
    else (splitFirst? p rest).map fun (before, after) => (a :: before, after)

/-- The part before the last element that satisfies `p` and the part after it; `none` when no
element does. -/
def splitLast? (p : α → Bool) : List α → Option (List α × List α)
  | [] => none
  | a :: rest =>
    match splitLast? p rest with
    | some (before, after) => some (a :: before, after)
    | none => if p a then some ([], rest) else none

theorem splitFirst?_eq_some {p : α → Bool} {before after : List α} :
    ∀ {xs : List α}, splitFirst? p xs = some (before, after) →
      ∃ a, p a = true ∧ xs = before ++ a :: after
  | [], h => by simp [splitFirst?] at h
  | a :: rest, h => by
    unfold splitFirst? at h
    split at h
    · rename_i ha
      simp only [Option.some.injEq, Prod.mk.injEq] at h
      exact ⟨a, ha, by simp [← h.1, ← h.2]⟩
    · obtain ⟨⟨b, c⟩, hb, he⟩ := Option.map_eq_some_iff.1 h
      simp only [Prod.mk.injEq] at he
      obtain ⟨d, hd, hx⟩ := splitFirst?_eq_some hb
      exact ⟨d, hd, by simp [← he.1, ← he.2, hx]⟩

theorem splitLast?_eq_some {p : α → Bool} {before after : List α} :
    ∀ {xs : List α}, splitLast? p xs = some (before, after) →
      ∃ a, p a = true ∧ xs = before ++ a :: after
  | [], h => by simp [splitLast?] at h
  | a :: rest, h => by
    unfold splitLast? at h
    split at h
    · rename_i b c hb
      simp only [Option.some.injEq, Prod.mk.injEq] at h
      obtain ⟨d, hd, hx⟩ := splitLast?_eq_some hb
      exact ⟨d, hd, by simp [← h.1, ← h.2, hx]⟩
    · split at h
      · rename_i ha
        simp only [Option.some.injEq, Prod.mk.injEq] at h
        exact ⟨a, ha, by simp [← h.1, ← h.2]⟩
      · simp at h

theorem splitFirst?_append_cons {p : α → Bool} {a : α} (ha : p a = true) (after : List α) :
    ∀ {before : List α}, (∀ x ∈ before, p x = false) →
      splitFirst? p (before ++ a :: after) = some (before, after)
  | [], _ => by simp [splitFirst?, ha]
  | b :: rest, h => by
    obtain ⟨hb, hrest⟩ := List.forall_mem_cons.1 h
    simp [splitFirst?, hb, splitFirst?_append_cons ha after hrest]

theorem splitFirst?_eq_none {p : α → Bool} : ∀ {xs : List α}, (∀ x ∈ xs, p x = false) →
    splitFirst? p xs = none
  | [], _ => rfl
  | a :: rest, h => by
    obtain ⟨ha, hrest⟩ := List.forall_mem_cons.1 h
    simp [splitFirst?, ha, splitFirst?_eq_none hrest]

theorem splitLast?_eq_none {p : α → Bool} : ∀ {xs : List α}, (∀ x ∈ xs, p x = false) →
    splitLast? p xs = none
  | [], _ => rfl
  | a :: rest, h => by
    obtain ⟨ha, hrest⟩ := List.forall_mem_cons.1 h
    simp [splitLast?, ha, splitLast?_eq_none hrest]

theorem splitLast?_append_cons {p : α → Bool} {a : α} (ha : p a = true) {after : List α}
    (h : ∀ x ∈ after, p x = false) :
    ∀ before : List α, splitLast? p (before ++ a :: after) = some (before, after)
  | [] => by simp [splitLast?, ha, splitLast?_eq_none h]
  | b :: rest => by simp [splitLast?, splitLast?_append_cons ha h rest]

theorem beq_eq_false_of_not_mem [BEq α] [LawfulBEq α] {a : α} {xs : List α} (h : a ∉ xs) :
    ∀ x ∈ xs, (x == a) = false := by
  rintro x hx
  exact beq_false_of_ne fun he => h (he ▸ hx)

/-- A text has no separator, or there is a last one. -/
theorem no_separator_or_last (p : α → Bool) : ∀ xs : List α,
    (∀ x ∈ xs, p x = false) ∨
      ∃ before a after, p a = true ∧ xs = before ++ a :: after ∧ ∀ x ∈ after, p x = false
  | [] => .inl (by simp)
  | b :: rest => by
    rcases no_separator_or_last p rest with h | ⟨before, a, after, ha, rfl, hafter⟩
    · cases hb : p b with
      | true => exact .inr ⟨[], b, rest, hb, rfl, h⟩
      | false => exact .inl (List.forall_mem_cons.2 ⟨hb, h⟩)
    · exact .inr ⟨b :: before, a, after, ha, rfl, hafter⟩

end BookCatalog.Text
