import BookCatalog.Proofs.Chapter.LineText

/-!
# The text of cells and terms

A cell of a table and a term of a definition become a line. A paragraph that is the only element in it is
unwrapped, and then the text that stands beside the paragraph is lost (`isLost`). Nothing else is lost, what
is passed through as markup counted as the text that it was made from: the line has the text of the element
exactly when the lost text is blank (`cell_text_kept_iff`).
-/

namespace BookCatalog.Chapter

open BookCatalog.Html BookCatalog.Text

/-! ## Text that is lost -/

/-- Whether a run of text in a cell or in a term does not get into its line: it stands beside the paragraph
that is the only element, or in an image. -/
def isLost (cell : Element) (r : PlacedRun) : Bool :=
  (isSoleParagraph cell.contents && r.path.isEmpty) || !isRead r

/-- What is unwrapped is a paragraph that is the only element, or nothing. -/
theorem unwrapped_cases (e : Element) :
    isSoleParagraph e.contents = false ∧ unwrapped e = e ∨
    isSoleParagraph e.contents = true ∧ (unwrapped e).name = "p" ∧
      e.contents.filterMap Node.element? = [unwrapped e] := by
  unfold isSoleParagraph unwrapped Element.childElements
  cases hchildren : e.contents.filterMap Node.element? with
  | nil => exact .inl ⟨rfl, rfl⟩
  | cons only rest =>
    cases rest with
    | cons second more => exact .inl ⟨rfl, rfl⟩
    | nil =>
      by_cases hp : only.name = "p"
      · exact .inr (by simp [hp])
      · exact .inl (by simp [hp])

/-- A paragraph is opened, so that the text directly in it counts. -/
theorem filter_isRead_placedRuns {e : Element} (h : e.name = "p") :
    inkOfRuns (e.placedRuns.filter isRead) = inkOfRuns ((Node.placedRunsOf e.contents).filter isRead) := by
  cases e with
  | mk space name attrs contents =>
    obtain rfl : name = "p" := h
    have hinside : (isRead ∘ fun r => r.within "p") = isRead :=
      funext (isReading_isRead.inside "p" (.inr (.inr rfl)))
    rw [Element.placedRuns, List.filter_map, hinside, inkOfRuns_map_within]
    rfl

/-- The text of what is unwrapped is the text that is not lost. -/
theorem inkOfRuns_unwrapped (e : Element) :
    inkOfRuns ((Node.placedRunsOf (unwrapped e).contents).filter isRead) =
      inkOfRuns ((Node.placedRunsOf e.contents).filter (!isLost e ·)) := by
  obtain ⟨hsole, hunwrapped⟩ | ⟨hsole, hname, honly⟩ := unwrapped_cases e
  · have hlost : (fun r => !isLost e r) = isRead := funext fun r => by simp [isLost, hsole]
    rw [hunwrapped, hlost]
  · have hlost : (fun r => !isLost e r) = fun r => isRead r && !r.path.isEmpty := funext fun r => by
      simp [isLost, hsole, Bool.and_comm]
    rw [hlost, ← List.filter_filter, Node.filter_placedRunsOf, honly, List.flatMap_singleton,
      filter_isRead_placedRuns hname]

/-! ## The text of a line -/

/-- The elements that are passed through in the line of a cell or a term. -/
def keptInCell (cell : Element) : List Element := keptIn (unwrapped cell).contents

/-- **The line of a cell or a term has all text of the element exactly when the lost text is blank.** It has
all other text in any case, markup in the line counted as the text of the element that it was made from. -/
theorem cell_text_kept_iff {anchors : AnchorTable} {cell : Element} {line : List Inline}
    (h : unwrappedInlines anchors cell.contents = .ok line) :
    Inline.passed line = (keptInCell cell).map Element.outerMarkup ∧
    inkOf (Inline.saidWith ((keptInCell cell).map Element.wholeText) line) = inkOf (String.join
      (((Node.placedRunsOf cell.contents).filter (!isLost cell ·)).map (·.text))) ∧
    (inkOf (Inline.saidWith ((keptInCell cell).map Element.wholeText) line) = inkOf cell.wholeText ↔
      ∀ r ∈ Node.placedRunsOf cell.contents, isLost cell r = true → inkOf r.text = []) := by
  rw [unwrappedInlines_eq] at h
  have hink : inkOf (Inline.saidWith ((keptInCell cell).map Element.wholeText) line) =
      inkOfRuns ((Node.placedRunsOf cell.contents).filter (!isLost cell ·)) := by
    rw [keptInCell, inkOf_saidWith h, inkOfRuns_unwrapped]
  have hwhole : inkOf cell.wholeText = inkOfRuns (Node.placedRunsOf cell.contents) := by
    rw [inkOfRuns_placedRunsOf, Element.wholeText, inkOf_join]
    cases cell
    rfl
  refine ⟨passed_eq h, ?_, ?_⟩
  · rw [hink, inkOf_join_text]
  · rw [hink, hwhole, inkOfRuns, inkOfRuns, flatMap_inkOf_filter_eq_iff]
    simp

/-- A term with line ends around its paragraph, in which a superscript stands. -/
def wrappedTerm : Element :=
  .mk .html "dt" [] [.text "\n ", .element (.mk .html "p" [] [.text "tuple ",
    .element (.mk .html "sup" [] [.text "2"])]), .text "\n"]

theorem wrappedTerm_text_kept : ∃ line, unwrappedInlines ∅ wrappedTerm.contents = .ok line ∧
    Inline.passed line = ["<sup>2</sup>"] ∧
    inkOf (Inline.saidWith ((keptInCell wrappedTerm).map Element.wholeText) line) = "tuple2".toList := by
  obtain ⟨line, hline⟩ : ∃ line, unwrappedInlines ∅ wrappedTerm.contents = .ok line :=
    failure?_eq_none_iff.1 (failure?_unwrappedInlines ∅ wrappedTerm)
  obtain ⟨hpassed, -, hkept⟩ := cell_text_kept_iff hline
  refine ⟨line, hline, hpassed.trans (by decide), (hkept.2 (by decide)).trans (by decide)⟩

/-! ## Text beside a paragraph -/

/-- A cell in which text stands beside the only paragraph. -/
def besideCell : Element :=
  .mk .html "td" [] [.text "lost ", .element (.mk .html "p" [] [.text "kept"])]

/-- A table with that cell. -/
def besideTable : Element :=
  .mk .html "table" [] [.element (.mk .html "tbody" [] [.element (.mk .html "tr" [] [.element besideCell])])]

theorem text_beside_paragraph_lost : block ∅ false besideTable = .ok [.table [] [[[.text "kept"]]]] ∧
    inkOf (Inline.saidWith ((keptInCell besideCell).map Element.wholeText) [.text "kept"]) = "kept".toList ∧
    inkOf besideCell.wholeText = "lostkept".toList :=
  ⟨by rfl, by decide, by decide⟩

end BookCatalog.Chapter
