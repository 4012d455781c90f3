import BookCatalog.Text.Fields

/-!
# Runs between separators

The runs of a text are cut at every separator: what stands before a separator and what stands after it
are cut on their own (`runs_append_cons`). They are the maximal runs of the text without a separator
(`cutInto_iff`), and they are found again in what they are joined to (`runs_intercalate`). Cutting at more
separators leaves a run whole in which none of the new ones stands (`mem_runs_of_le`).
-/

namespace BookCatalog.Text

variable {α : Type} {p q : α → Bool}

theorem runs_append_cons (xs ys : List α) {a : α} (h : p a = true) :
    runs p (xs ++ a :: ys) = runs p xs ++ runs p ys := by
  simp [runs, List.splitOnP_append_cons _ _ h]

theorem runs_cons {a : α} (h : p a = true) (ys : List α) : runs p (a :: ys) = runs p ys := by
  simpa [runs] using runs_append_cons [] ys h

theorem runs_of_no_separator {xs : List α} (h : ∀ x ∈ xs, p x = false) (hne : xs ≠ []) :
    runs p xs = [xs] := by
  simp [runs, List.splitOnP_eq_singleton h, hne]

theorem no_separator_of_mem_splitOnP : ∀ {xs run : List α}, run ∈ xs.splitOnP p → ∀ x ∈ run, p x = false
  | [], run, h => by simp_all
  | a :: rest, run, h => by
    rw [List.splitOnP_cons_eq_if_modifyHead] at h
    split at h
    · rcases List.mem_cons.1 h with rfl | h
      · simp
      · exact no_separator_of_mem_splitOnP h
    · rename_i ha
      cases hs : rest.splitOnP p with
      | nil => exact absurd hs (List.splitOnP_ne_nil p rest)
      | cons first more =>
        rw [hs, List.modifyHead_cons] at h
        rcases List.mem_cons.1 h with rfl | h
        · intro x hx
          rcases List.mem_cons.1 hx with rfl | hx
          · simpa using ha
          · exact no_separator_of_mem_splitOnP (hs ▸ List.mem_cons_self) x hx
        · exact no_separator_of_mem_splitOnP (hs ▸ List.mem_cons_of_mem _ h)

theorem isPrefix_of_splitOnP_eq_cons : ∀ {xs first : List α} {more : List (List α)},
    xs.splitOnP p = first :: more → first <+: xs
  | [], first, more, h => by
    obtain ⟨rfl, -⟩ := List.cons.inj h
    exact List.prefix_rfl
  | a :: rest, first, more, h => by
    rw [List.splitOnP_cons_eq_if_modifyHead] at h
    split at h
    · obtain ⟨rfl, -⟩ := List.cons.inj h
      exact List.nil_prefix
    · obtain ⟨head, tail, hs⟩ := List.exists_cons_of_ne_nil (List.splitOnP_ne_nil p rest)
      rw [hs, List.modifyHead_cons] at h
      obtain ⟨rfl, -⟩ := List.cons.inj h
      exact List.cons_prefix_cons.2 ⟨rfl, isPrefix_of_splitOnP_eq_cons hs⟩

/-- A piece stands in what it is cut from. -/
theorem isInfix_of_mem_splitOnP : ∀ {xs run : List α}, run ∈ xs.splitOnP p → run <:+: xs
  | [], run, h => by simp_all
  | a :: rest, run, h => by
    obtain ⟨head, tail, hs⟩ := List.exists_cons_of_ne_nil (List.splitOnP_ne_nil p (a :: rest))
    rw [hs] at h
    rcases List.mem_cons.1 h with rfl | htail
    · exact (isPrefix_of_splitOnP_eq_cons hs).isInfix
    · -- a later piece is cut from what follows the first character
      have hrest : run ∈ rest.splitOnP p := by
        rw [List.splitOnP_cons_eq_if_modifyHead] at hs
        split at hs
        · obtain ⟨-, rfl⟩ := List.cons.inj hs
          exact htail
        · obtain ⟨first, more, hmore⟩ := List.exists_cons_of_ne_nil (List.splitOnP_ne_nil p rest)
          rw [hmore, List.modifyHead_cons] at hs
          obtain ⟨-, rfl⟩ := List.cons.inj hs
          exact hmore ▸ List.mem_cons_of_mem first htail
      exact (isInfix_of_mem_splitOnP hrest).trans (List.suffix_cons a rest).isInfix

theorem mem_of_mem_runs {xs run : List α} (h : run ∈ runs p xs) : ∀ x ∈ run, x ∈ xs :=
  fun _ hx => (isInfix_of_mem_splitOnP (List.mem_filter.1 h).1).subset hx

theorem no_separator_of_mem_runs {xs run : List α} (h : run ∈ runs p xs) : ∀ x ∈ run, p x = false :=
  no_separator_of_mem_splitOnP (List.mem_filter.1 h).1

theorem ne_nil_of_mem_runs {xs run : List α} (h : run ∈ runs p xs) : run ≠ [] := by
  simpa using (List.mem_filter.1 h).2

/-! ## Maximal runs -/

/-- A text cut into its maximal runs without a separator: only separators, or separators, a run up to the
end of the text or up to a separator, and the runs of what follows. -/
inductive CutInto (p : α → Bool) : List α → List (List α) → Prop where
  | gap {gap : List α} (hgap : ∀ x ∈ gap, p x = true) : CutInto p gap []
  | run {gap run rest : List α} {more : List (List α)} (hgap : ∀ x ∈ gap, p x = true) (hne : run ≠ [])
      (hrun : ∀ x ∈ run, p x = false) (hend : ∀ x ∈ rest.head?, p x = true)
      (hrest : CutInto p rest more) : CutInto p (gap ++ run ++ rest) (run :: more)

theorem runs_append_of_separators {gap : List α} (h : ∀ x ∈ gap, p x = true) (xs : List α) :
    runs p (gap ++ xs) = runs p xs := by
  induction gap with
  | nil => rfl
  | cons a gap ih =>
    obtain ⟨ha, hgap⟩ := List.forall_mem_cons.1 h
    rw [List.cons_append, runs_cons ha, ih hgap]

theorem CutInto.runs_eq {xs : List α} {parts : List (List α)} (h : CutInto p xs parts) :
    runs p xs = parts := by
  induction h with
  | gap hgap => simpa [runs] using runs_append_of_separators hgap []
  | @run gap run rest more hgap hne hrun hend _ ih =>
    rw [List.append_assoc, runs_append_of_separators hgap]
    cases rest with
    | nil =>
      have hmore : more = [] := by simpa [runs] using ih.symm
      rw [List.append_nil, runs_of_no_separator hrun hne, hmore]
    | cons a after =>
      have ha : p a = true := hend a rfl
      rw [runs_append_cons run after ha, runs_of_no_separator hrun hne, ← ih, runs_cons ha]
      rfl

theorem exists_cutInto (xs : List α) : ∃ parts, CutInto p xs parts := by
  induction xs with
  | nil => exact ⟨[], .gap (by simp)⟩
  | cons a rest ih =>
    obtain ⟨parts, h⟩ := ih
    by_cases ha : p a = true
    · -- one more separator in front
      cases h with
      | gap hgap => exact ⟨[], .gap (List.forall_mem_cons.2 ⟨ha, hgap⟩)⟩
      | run hgap hne hrun hend hrest =>
        exact ⟨_, .run (List.forall_mem_cons.2 ⟨ha, hgap⟩) hne hrun hend hrest⟩
    · have hink : p a = false := by simpa using ha
      have hhead : ∀ x ∈ [a], p x = false := by simp [hink]
      have hfirst {ys : List α} (hend : ∀ x ∈ ys.head?, p x = true) {more : List (List α)}
          (hys : CutInto p ys more) : CutInto p ([] ++ [a] ++ ys) ([a] :: more) :=
        .run (by simp) (by simp) hhead hend hys
      cases h with
      | gap hgap =>
        exact ⟨_, hfirst (fun x hx => hgap x (List.mem_of_head? hx)) (.gap hgap)⟩
      | @run gap run after more hgap hne hrun hend hrest =>
        cases gap with
        | nil =>
          -- the run in front begins one character earlier
          have hlonger : ∀ x ∈ a :: run, p x = false := List.forall_mem_cons.2 ⟨hink, hrun⟩
          have hcut : CutInto p ([] ++ (a :: run) ++ after) ((a :: run) :: more) :=
            .run (by simp) (by simp) hlonger hend hrest
          exact ⟨_, hcut⟩
        | cons b gap =>
          have hb : p b = true := hgap b List.mem_cons_self
          exact ⟨_, hfirst (by simp [hb]) (.run hgap hne hrun hend hrest)⟩

/-- The runs of a text are its maximal runs without a separator. -/
theorem cutInto_iff {xs : List α} {parts : List (List α)} : CutInto p xs parts ↔ parts = runs p xs := by
  refine ⟨fun h => h.runs_eq.symm, fun h => ?_⟩
  obtain ⟨parts', h'⟩ := exists_cutInto (p := p) xs
  rwa [h, h'.runs_eq]

/-! ## Joined runs -/

theorem mem_of_mem_intercalate {sep : List α} {x : α} : ∀ {parts : List (List α)},
    x ∈ sep.intercalate parts → x ∈ sep ∨ ∃ part ∈ parts, x ∈ part
  | [], h => by simp at h
  | [part], h => .inr ⟨part, List.mem_singleton_self part, by simpa using h⟩
  | part :: next :: rest, h => by
    rw [List.intercalate_cons_cons, List.append_assoc, List.mem_append, List.mem_append] at h
    obtain h | h | h := h
    · exact .inr ⟨part, List.mem_cons_self, h⟩
    · exact .inl h
    · exact (mem_of_mem_intercalate h).imp_right fun ⟨q, hq, hx⟩ => ⟨q, List.mem_cons_of_mem _ hq, hx⟩

/-- Joined by a separator, parts without one are found again, empty ones apart. -/
theorem runs_intercalate {s : α} (hs : p s = true) : ∀ {parts : List (List α)},
    (∀ part ∈ parts, ∀ x ∈ part, p x = false) → runs p ([s].intercalate parts) = parts.filter (!·.isEmpty)
  | [], _ => by simp [runs]
  | [part], h => by
    have hpart := h part List.mem_cons_self
    simp [runs, List.splitOnP_eq_singleton hpart]
  | part :: next :: rest, h => by
    obtain ⟨hpart, hrest⟩ := List.forall_mem_cons.1 h
    rw [List.intercalate_cons_cons, List.append_assoc, List.singleton_append, runs_append_cons _ _ hs,
      runs_intercalate hs hrest]
    cases part <;> simp [runs, List.splitOnP_eq_singleton hpart]

/-! ## Two sets of separators -/

/-- Cutting at more separators cuts the pieces further. -/
theorem splitOnP_of_le (h : ∀ x, p x = true → q x = true) (xs : List α) :
    xs.splitOnP q = (xs.splitOnP p).flatMap (·.splitOnP q) := by
  induction xs with
  | nil => simp
  | cons a rest ih =>
    obtain ⟨first, more, hs⟩ := List.exists_cons_of_ne_nil (List.splitOnP_ne_nil p rest)
    rw [hs, List.flatMap_cons] at ih
    rw [List.splitOnP_cons_eq_if_modifyHead, List.splitOnP_cons_eq_if_modifyHead, hs, ih]
    by_cases hp : p a = true
    · simp [hp, h a hp]
    · rw [if_neg hp, List.modifyHead_cons, List.flatMap_cons, List.splitOnP_cons_eq_if_modifyHead]
      obtain ⟨head, tail, ht⟩ := List.exists_cons_of_ne_nil (List.splitOnP_ne_nil q first)
      split <;> simp [ht]

theorem mem_runs_of_le (h : ∀ x, p x = true → q x = true) {xs run : List α} (hrun : run ∈ runs p xs)
    (hq : ∀ x ∈ run, q x = false) : run ∈ runs q xs := by
  obtain ⟨hmem, hne⟩ := List.mem_filter.1 hrun
  refine List.mem_filter.2 ⟨?_, hne⟩
  rw [splitOnP_of_le h]
  exact List.mem_flatMap.2 ⟨run, hmem, by simp [List.splitOnP_eq_singleton hq]⟩

end BookCatalog.Text
