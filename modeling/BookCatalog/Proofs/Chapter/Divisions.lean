import BookCatalog.Chapter
import BookCatalog.Proofs.Results
import BookCatalog.Proofs.Runs
import Mathlib.Data.Bool.AllAny

/-!
# Elements among the blocks of a chapter

What becomes of a single element: a division of class `section` or `body` is spliced, its elements stand
where it stood (`IsSpliced`), and the other divisions are told apart by their classes and by their first
element. A paragraph that is the only element in a cell or in a term does not count (`unwrapped`). The blocks
of an element are part of the blocks of the nodes that it stands among (`exists_block_of_mem`).
-/

namespace BookCatalog

namespace Html

/-! ## Elements among nodes -/

theorem filterMap_element?_element (e : Element) (rest : List Node) :
    (.element e :: rest).filterMap Node.element? = e :: rest.filterMap Node.element? := rfl

theorem firstChild?_eq_head? (e : Element) : e.firstChild? = e.childElements.head? := by
  rw [Element.firstChild?, Element.childElements, List.head?_filterMap]

end Html

namespace Chapter

open BookCatalog.Html

/-! ## Classes -/

theorem isBlank_of_isHtmlBlank {c : Char} (h : isHtmlBlank c = true) : Text.isBlank c = true := by
  simp only [isHtmlBlank, Bool.or_eq_true, beq_iff_eq] at h
  rcases h with (((rfl | rfl) | rfl) | rfl) | rfl <;> decide

/-- A class that a selector finds is a class of the element: every blank of HTML is a blank. -/
theorem hasClass_of_isOfClass {e : Element} {cls : String} (h : e.isOfClass cls = true)
    (hcls : ∀ c ∈ cls.toList, Text.isBlank c = false) : e.hasClass cls = true := by
  simp only [Element.isOfClass, Element.hasClass, List.contains_iff_mem] at h ⊢
  unfold Element.classWords at h
  unfold Element.classes
  cases hvalue : e.attr? "class" with
  | none => rw [hvalue] at h; simp at h
  | some value =>
    rw [hvalue] at h
    obtain ⟨word, hword, rfl⟩ := List.mem_map.1 h
    rw [String.toList_ofList] at hcls
    exact List.mem_map_of_mem (Text.mem_runs_of_le (fun _ => isBlank_of_isHtmlBlank) hword hcls)

/-! ## Divisions that are spliced -/

/-- Whether an element is a division whose elements stand in its place. -/
def IsSpliced (e : Element) : Prop :=
  e.name = "div" ∧ (e.hasClass "section" = true ∨ e.hasClass "body" = true)

theorem isSpliced_of_section {e : Element} (hname : e.name = "div") (h : e.isOfClass "section" = true) :
    IsSpliced e :=
  ⟨hname, .inl (hasClass_of_isOfClass h (List.all_iff_forall_prop.1 (by decide)))⟩

/-! ## Kinds of divisions -/

theorem divisionKind_of_isSpliced {e : Element} (h : IsSpliced e) : DivisionKind.of e = .container := by
  unfold DivisionKind.of
  rw [if_pos (by simpa using h.2)]

theorem exists_title_of_admonition {e : Element} {title : String}
    (h : DivisionKind.of e = .admonition title) :
    ∃ first, e.firstChild? = some first ∧ title = first.ownText := by
  unfold DivisionKind.of at h
  split at h
  · cases h
  split at h
  · cases h
  split at h
  · rename_i first hfirst
    split at h
    · cases h
      exact ⟨first, hfirst, rfl⟩
    · cases h
  · cases h

section
variable {e : Element} (hname : e.name = "div") (hspliced : ¬IsSpliced e)
include hname hspliced

theorem not_section_or_body : ¬(e.hasClass "section" || e.hasClass "body") = true := fun h =>
  hspliced ⟨hname, by simpa using h⟩

theorem divisionKind_of_listing (h : e.hasClass "highlight-swift" = true) :
    DivisionKind.of e = .listing := by
  rw [DivisionKind.of, if_neg (not_section_or_body hname hspliced), if_pos h]

theorem divisionKind_of_admonition (h : e.hasClass "highlight-swift" = false) {title : Element}
    (hfirst : e.firstChild? = some title) (htitle : title.hasClass "admonition-title" = true) :
    DivisionKind.of e = .admonition title.ownText := by
  rw [DivisionKind.of, if_neg (not_section_or_body hname hspliced), if_neg (by simp [h]), hfirst]
  exact if_pos htitle

theorem divisionKind_of_kept (h : e.hasClass "highlight-swift" = false)
    (hfirst : ∀ title ∈ e.firstChild?, title.hasClass "admonition-title" = false) :
    DivisionKind.of e = .kept := by
  rw [DivisionKind.of, if_neg (not_section_or_body hname hspliced), if_neg (by simp [h])]
  cases hc : e.firstChild? with
  | none => rfl
  | some title => exact if_neg (by simp [hfirst title hc])

end

/-! ## Paragraphs that are unwrapped -/

section
variable (anchors : AnchorTable)

/-- The element whose content counts: the paragraph that is the only element in it, or the element
itself. -/
def unwrapped (e : Element) : Element :=
  match e.childElements with
  | [only] => if only.name = "p" then only else e
  | _ => e

theorem firstElementInlines_eq {first : Element} : ∀ nodes : List Node,
    (nodes.filterMap Node.element?).head? = some first →
      firstElementInlines anchors nodes = inlines anchors first.contents
  | .element e :: rest, h => by
    rw [filterMap_element?_element, List.head?_cons, Option.some.injEq] at h
    rw [firstElementInlines, inlineChildren, h]
  | .text _ :: rest, h | .comment _ :: rest, h | .fragment _ :: rest, h => firstElementInlines_eq rest h

theorem unwrappedInlines_eq (e : Element) :
    unwrappedInlines anchors e.contents = inlines anchors (unwrapped e).contents := by
  unfold unwrappedInlines isSoleParagraph unwrapped Element.childElements
  cases hchildren : e.contents.filterMap Node.element? with
  | nil => rfl
  | cons only rest =>
    cases rest with
    | cons second more => rfl
    | nil =>
      by_cases hp : only.name = "p"
      · simpa [hp] using firstElementInlines_eq anchors e.contents (by rw [hchildren, List.head?_cons])
      · simp [hp]

end

/-! ## Blocks of single elements -/

section
variable {anchors : AnchorTable} {inLines : Bool}

theorem block_of_isSpliced {e : Element} (h : IsSpliced e) :
    block anchors inLines e = blocks anchors inLines e.contents := by
  cases e with
  | mk space name attrs contents =>
    obtain rfl : name = "div" := h.1
    have hkind : BlockKind.ofName "div" = .division := rfl
    simp only [block, hkind, divisionKind_of_isSpliced h]
    rfl

theorem block_of_heading {e : Element} {level : Nat} (h : BlockKind.ofName e.name = .heading level) :
    block anchors inLines e = (do return [.heading level (← inlines anchors e.contents)]) := by
  cases e with
  | mk space name attrs contents =>
    have hkind : BlockKind.ofName name = .heading level := h
    simp only [block, hkind]
    rfl

theorem block_of_paragraph {e : Element} (h : BlockKind.ofName e.name = .paragraph) :
    block anchors inLines e = (do return [.paragraph (← inlines anchors e.contents)]) := by
  cases e with
  | mk space name attrs contents =>
    have hkind : BlockKind.ofName name = .paragraph := h
    simp only [block, hkind]
    rfl

/-- The blocks of an element stand among the blocks of the nodes that it stands among. -/
theorem exists_block_of_mem : ∀ {nodes : List Node} {bs : List Block} {e : Element},
    blocks anchors inLines nodes = .ok bs → .element e ∈ nodes →
      ∃ first, block anchors inLines e = .ok first ∧ first ⊆ bs
  | .element e :: rest, bs, e', h, he => by
    obtain ⟨first, hfirst, h⟩ := bind_eq_ok_iff.1 h
    obtain ⟨more, hmore, h⟩ := bind_eq_ok_iff.1 h
    cases h
    rcases List.mem_cons.1 he with he | he
    · cases he
      exact ⟨first, hfirst, List.subset_append_left first more⟩
    · obtain ⟨later, hlater, hsub⟩ := exists_block_of_mem hmore he
      exact ⟨later, hlater, List.Subset.trans hsub (List.subset_append_right first more)⟩
  | .text _ :: rest, bs, e', h, he | .comment _ :: rest, bs, e', h, he
  | .fragment _ :: rest, bs, e', h, he => by
    have hrest : .element e' ∈ rest := by simpa using he
    simp only [blocks] at h
    exact exists_block_of_mem h hrest

end

end Chapter

end BookCatalog
