import BookCatalog.Proofs.Runs
import BookCatalog.Text.Blank
import Mathlib.Data.List.Chain
import Mathlib.Data.List.DropRight

/-!
# Blanks of cleaned texts

In a collapsed text every blank is a space, and no two blanks stand next to each other; what stands between
the blanks is as it was (`runs_collapseFrom`). In a tidy text no blank stands at an edge, either (`isTidy_tidy`).
-/

namespace BookCatalog.Text

/-- Two characters that are not both blank. -/
def Apart (c d : Char) : Prop := isBlank c = false ∨ isBlank d = false

/-- A text with no blank at its edges and no two blanks next to each other. -/
structure IsTidy (cs : List Char) : Prop where
  start_ink : ∀ c ∈ cs.head?, isBlank c = false
  end_ink : ∀ c ∈ cs.getLast?, isBlank c = false
  apart : cs.IsChain Apart

/-! ## Collapsed texts -/

theorem eq_space_of_mem_collapseFrom {c : Char} (hblank : isBlank c = true) :
    ∀ {cs : List Char} {after : Bool}, c ∈ collapseFrom after cs → c = ' '
  | d :: rest, after, h => by
    cases hd : isBlank d with
    | true =>
      rw [collapseFrom_blank hd] at h
      split at h
      · exact eq_space_of_mem_collapseFrom hblank h
      · rcases List.mem_cons.1 h with rfl | h
        · rfl
        · exact eq_space_of_mem_collapseFrom hblank h
    | false =>
      rw [collapseFrom_ink hd] at h
      rcases List.mem_cons.1 h with rfl | h
      · exact absurd hblank (by simp [hd])
      · exact eq_space_of_mem_collapseFrom hblank h

/-- What is written after a blank begins with none, so that it may stand after a space. -/
theorem isChain_collapseFrom : ∀ cs : List Char,
    (collapseFrom false cs).IsChain Apart ∧ (' ' :: collapseFrom true cs).IsChain Apart
  | [] => ⟨.nil, .singleton ' '⟩
  | c :: rest => by
    obtain ⟨hink, hblank⟩ := isChain_collapseFrom rest
    cases hc : isBlank c with
    | true =>
      rw [collapseFrom_blank hc, collapseFrom_blank hc, if_neg Bool.false_ne_true, if_pos rfl]
      exact ⟨hblank, hblank⟩
    | false =>
      rw [collapseFrom_ink hc, collapseFrom_ink hc]
      have hchain : (c :: collapseFrom false rest).IsChain Apart :=
        List.isChain_cons.2 ⟨fun _ _ => .inl hc, hink⟩
      exact ⟨hchain, List.isChain_cons_cons.2 ⟨.inr hc, hchain⟩⟩

theorem eq_space_of_mem_collapseBlanks {s : String} {c : Char} (h : c ∈ (collapseBlanks s).toList)
    (hblank : isBlank c = true) : c = ' ' := by
  rw [collapseBlanks, String.toList_ofList] at h
  exact eq_space_of_mem_collapseFrom hblank h

/-- Collapsing the blanks in the middle of a text keeps its runs, blanks being among the separators. After a
blank that is already written nothing stands in front. -/
theorem runs_collapseFrom {p : Char → Bool} (hp : ∀ c, isBlank c = true → p c = true) (after : List Char) :
    ∀ cs before : List Char,
      runs p (before ++ collapseFrom false cs ++ after) = runs p (before ++ cs ++ after) ∧
        runs p (collapseFrom true cs ++ after) = runs p (cs ++ after)
  | [], _ => ⟨rfl, rfl⟩
  | c :: rest, before => by
    have hblank := (runs_collapseFrom hp after rest []).2
    cases hc : isBlank c with
    | true =>
      have hs := hp c hc
      constructor
      · rw [collapseFrom_blank hc, if_neg Bool.false_ne_true, List.append_assoc, List.append_assoc,
          List.cons_append, List.cons_append, runs_append_cons _ _ (hp ' ' (by decide)),
          runs_append_cons _ _ hs, hblank]
      · rw [collapseFrom_blank hc, if_pos rfl, List.cons_append, hblank, runs_cons hs]
    | false =>
      have hink (front : List Char) := (runs_collapseFrom hp after rest (front ++ [c])).1
      constructor
      · rw [collapseFrom_ink hc]
        simpa using hink before
      · rw [collapseFrom_ink hc]
        simpa using hink []

/-! ## Trimmed texts -/

theorem trim_prefix_dropWhile (cs : List Char) : trim cs <+: cs.dropWhile isBlank :=
  List.rdropWhile_prefix isBlank (cs.dropWhile isBlank)

theorem trim_isInfix (cs : List Char) : trim cs <:+: cs :=
  (trim_prefix_dropWhile cs).isInfix.trans (List.dropWhile_suffix isBlank).isInfix

theorem trim_eq_nil_iff {cs : List Char} : trim cs = [] ↔ ∀ c ∈ cs, isBlank c = true := by
  have hfront : trim cs = [] ↔ cs.dropWhile isBlank = [] := by
    refine ⟨fun h => ?_, fun h => by simp [trim, h]⟩
    by_contra hne
    -- the first character that is kept is ink
    have hall := List.rdropWhile_eq_nil_iff.1 h
    have hink := List.head_dropWhile_not isBlank hne
    rw [hall _ (List.head_mem hne)] at hink
    cases hink
  rw [hfront, List.dropWhile_eq_nil_iff]

/-- Nothing is left of a text exactly when all of it is blank. -/
theorem isEmpty_trimBlanks_eq_false_iff {s : String} :
    (trimBlanks s).isEmpty = false ↔ ∃ c ∈ s.toList, isBlank c = false := by
  have hempty : (trimBlanks s).isEmpty = true ↔ trim s.toList = [] := by
    rw [String.isEmpty_iff, trimBlanks, ← String.toList_eq_nil_iff, String.toList_ofList]
  rw [← Bool.not_eq_true, hempty, trim_eq_nil_iff]
  simp

theorem isTidy_trim {cs : List Char} (h : cs.IsChain Apart) : IsTidy (trim cs) where
  start_ink c hc := by
    obtain ⟨after, hafter⟩ := trim_prefix_dropWhile cs
    have hfront : (cs.dropWhile isBlank).head? = some c := by
      rw [← hafter, List.head?_append, Option.mem_def.1 hc, Option.some_or]
    simpa [hfront] using List.head?_dropWhile_not isBlank cs
  end_ink c hc := by
    obtain ⟨hne, rfl⟩ := List.mem_getLast?_eq_getLast hc
    exact Bool.eq_false_iff.2 (List.rdropWhile_last_not isBlank (cs.dropWhile isBlank) hne)
  apart := h.infix (trim_isInfix cs)

theorem isTidy_tidy (s : String) : IsTidy (tidy s).toList := by
  rw [tidy, String.toList_ofList]
  exact isTidy_trim (isChain_collapseFrom s.toList).1

theorem eq_space_of_mem_tidy {s : String} {c : Char} (h : c ∈ (tidy s).toList) (hblank : isBlank c = true) :
    c = ' ' := by
  rw [tidy, String.toList_ofList] at h
  exact eq_space_of_mem_collapseFrom hblank ((trim_isInfix _).subset h)

end BookCatalog.Text
