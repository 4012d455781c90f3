import BookCatalog.Proofs.Blanks
import BookCatalog.Slug

/-!
# Slugs of cleaned texts

The slug of a text is made of its pieces, and blanks do nothing but separate pieces. So it makes no
difference for the slug whether a text is cleaned as a whole, or run by run, or not at all
(`ofText_tidy`, `ofText_join_collapseBlanks`).
-/

namespace BookCatalog.Slug

open BookCatalog.Text

theorem isSeparator_of_isBlank {c : Char} (h : isBlank c = true) : isSeparator c = true := by
  simp [isSeparator, h]

/-! ## Pieces of cleaned texts -/

/-- Collapsing the blanks in the middle of a text keeps its pieces. -/
theorem pieces_collapse_within (before cs after : List Char) :
    pieces (before ++ collapse cs ++ after) = pieces (before ++ cs ++ after) :=
  (runs_collapseFrom (fun _ => isSeparator_of_isBlank) after cs before).1

theorem pieces_collapse (cs : List Char) : pieces (collapse cs) = pieces cs := by
  simpa using pieces_collapse_within [] cs []

theorem pieces_dropWhile_isBlank : ∀ cs : List Char, pieces (cs.dropWhile isBlank) = pieces cs
  | [] => rfl
  | c :: rest => by
    cases hc : isBlank c with
    | true =>
      rw [List.dropWhile_cons_of_pos hc, pieces_dropWhile_isBlank rest, pieces, pieces,
        runs_cons (isSeparator_of_isBlank hc)]
    | false => rw [List.dropWhile_cons_of_neg (by simp [hc])]

/-- Blanks at the end of a text belong to no piece. -/
theorem pieces_append_blanks (cs : List Char) : ∀ {blanks : List Char}, (∀ c ∈ blanks, isBlank c = true) →
    pieces (cs ++ blanks) = pieces cs
  | [], _ => by rw [List.append_nil]
  | c :: rest, h => by
    obtain ⟨hc, hrest⟩ := List.forall_mem_cons.1 h
    have hempty : pieces ([] ++ rest) = pieces [] := pieces_append_blanks [] hrest
    rw [pieces, runs_append_cons _ _ (isSeparator_of_isBlank hc)]
    simpa [pieces, runs] using hempty

theorem pieces_trim (cs : List Char) : pieces (trim cs) = pieces cs := by
  let front := cs.dropWhile isBlank
  have hsplit : front = trim cs ++ (front.reverse.takeWhile isBlank).reverse := by
    rw [trim, ← List.reverse_append, List.takeWhile_append_dropWhile, List.reverse_reverse]
  have hblanks : ∀ c ∈ (front.reverse.takeWhile isBlank).reverse, isBlank c = true := fun c hc =>
    List.all_eq_true.1 List.all_takeWhile c (List.mem_reverse.1 hc)
  rw [← pieces_dropWhile_isBlank cs, ← pieces_append_blanks (trim cs) hblanks, ← hsplit]

/-! ## Slugs of cleaned texts -/

theorem ofChars_congr {cs cs' : List Char} (h : pieces cs = pieces cs') : ofChars cs = ofChars cs' := by
  rw [ofChars, ofChars, h]

theorem ofText_congr {s s' : String} (h : pieces s.toList = pieces s'.toList) : ofText s = ofText s' := by
  rw [ofText, ofText, ofChars_congr h]

/-- Cleaning a text does not change its slug. -/
theorem ofText_tidy (s : String) : ofText (tidy s) = ofText s := by
  refine ofText_congr ?_
  rw [tidy, String.toList_ofList, pieces_trim, pieces_collapse]

theorem pieces_join_collapseBlanks : ∀ (runs : List String) (before : List Char),
    pieces (before ++ (String.join (runs.map collapseBlanks)).toList) =
      pieces (before ++ (String.join runs).toList)
  | [], _ => rfl
  | s :: rest, before => by
    have hs := pieces_collapse_within before s.toList (String.join (rest.map collapseBlanks)).toList
    have hrest := pieces_join_collapseBlanks rest (before ++ s.toList)
    simp only [List.map_cons, String.join_cons, String.toList_append, collapseBlanks, String.toList_ofList,
      ← List.append_assoc] at hs ⊢
    rw [hs, hrest]

/-- Collapsing the blanks of each run of a text on its own does not change its slug. -/
theorem ofText_join_collapseBlanks (runs : List String) :
    ofText (String.join (runs.map collapseBlanks)) = ofText (String.join runs) :=
  ofText_congr (by simpa using pieces_join_collapseBlanks runs [])

end BookCatalog.Slug
