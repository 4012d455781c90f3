import BookCatalog.Text.Blank
import Mathlib.Data.List.Flatten

/-!
# The ink of a text

What is left of a text when its blanks are deleted is its ink. Cleaning a text moves and removes blanks only,
so it keeps the ink (`inkOf_collapseBlanks`, `inkOf_tidy`). The ink of texts in a row is the ink of the one
and then of the other; so leaving some of them out makes no difference exactly when these are blank
(`flatMap_inkOf_filter_eq_iff`).
-/

namespace BookCatalog.Text

/-- The characters that are not blank. -/
def ink (cs : List Char) : List Char := cs.filter (!isBlank ·)

/-- The characters of a string that are not blank. -/
def inkOf (s : String) : List Char := ink s.toList

theorem ink_append (cs ds : List Char) : ink (cs ++ ds) = ink cs ++ ink ds := List.filter_append ..

theorem ink_cons_blank {c : Char} (h : isBlank c = true) (rest : List Char) : ink (c :: rest) = ink rest :=
  List.filter_cons_of_neg (by simp [h])

theorem ink_cons_ink {c : Char} (h : isBlank c = false) (rest : List Char) :
    ink (c :: rest) = c :: ink rest := List.filter_cons_of_pos (by simp [h])

/-! ## Cleaned texts -/

theorem ink_collapseFrom (after : Bool) (cs : List Char) : ink (collapseFrom after cs) = ink cs := by
  induction cs generalizing after with
  | nil => rfl
  | cons c rest ih =>
    cases hc : isBlank c with
    | true =>
      rw [collapseFrom_blank hc, ink_cons_blank hc]
      split
      · exact ih true
      · rw [ink_cons_blank (by decide), ih true]
    | false => rw [collapseFrom_ink hc, ink_cons_ink hc, ink_cons_ink hc, ih false]

theorem ink_dropWhile_isBlank (cs : List Char) : ink (cs.dropWhile isBlank) = ink cs := by
  induction cs with
  | nil => rfl
  | cons c rest ih =>
    cases hc : isBlank c with
    | true => rw [List.dropWhile_cons_of_pos hc, ih, ink_cons_blank hc]
    | false => rw [List.dropWhile_cons_of_neg (by simp [hc])]

theorem ink_trim (cs : List Char) : ink (trim cs) = ink cs := by
  have hreverse (ds : List Char) : ink ds.reverse = (ink ds).reverse := List.filter_reverse
  rw [trim, hreverse, ink_dropWhile_isBlank, hreverse, List.reverse_reverse, ink_dropWhile_isBlank]

/-- Collapsing the blanks of a text keeps its ink. -/
theorem inkOf_collapseBlanks (s : String) : inkOf (collapseBlanks s) = inkOf s := by
  rw [inkOf, collapseBlanks, String.toList_ofList, collapse, ink_collapseFrom, inkOf]

/-- Cleaning a text keeps its ink. -/
theorem inkOf_tidy (s : String) : inkOf (tidy s) = inkOf s := by
  rw [inkOf, tidy, String.toList_ofList, ink_trim, collapse, ink_collapseFrom, inkOf]

/-! ## Texts in a row -/

theorem inkOf_join (texts : List String) : inkOf (String.join texts) = texts.flatMap inkOf := by
  induction texts with
  | nil => rfl
  | cons s rest ih =>
    rw [String.join_cons, inkOf, String.toList_append, ink_append, List.flatMap_cons, ← ih]
    rfl

/-- Of texts in a row some can be left out without loss of ink exactly when all of them are blank. -/
theorem flatMap_inkOf_filter_eq_iff {α : Type} (text : α → String) (p : α → Bool) : ∀ xs : List α,
    (xs.filter p).flatMap (inkOf ∘ text) = xs.flatMap (inkOf ∘ text) ↔
      ∀ x ∈ xs, p x = false → inkOf (text x) = []
  | [] => by simp
  | x :: rest => by
    rw [List.forall_mem_cons, ← flatMap_inkOf_filter_eq_iff text p rest, List.flatMap_cons]
    cases hp : p x with
    | true =>
      rw [List.filter_cons_of_pos hp, List.flatMap_cons, List.append_cancel_left_eq]
      simp
    | false =>
      rw [List.filter_cons_of_neg (by simp [hp])]
      refine ⟨fun h => ?_, fun ⟨hx, h⟩ => ?_⟩
      · -- what is kept of the rest is not longer than the rest, so nothing stands in front
        have hle : ((rest.filter p).flatMap (inkOf ∘ text)).length ≤
            (rest.flatMap (inkOf ∘ text)).length :=
          (List.filter_sublist.flatMap _).length_le
        have hx : (inkOf ∘ text) x = [] := by
          rw [h, List.length_append] at hle
          exact List.length_eq_zero_iff.1 (by omega)
        exact ⟨fun _ => hx, by rwa [hx, List.nil_append] at h⟩
      · have hx : (inkOf ∘ text) x = [] := hx rfl
        rw [hx, h, List.nil_append]

end BookCatalog.Text
