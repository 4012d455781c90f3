import BookCatalog.Proofs.Chapter.Divisions

/-!
# Where the content of a chapter stands

A chapter has a document when its page has a body, one of the elements below the body is the division with
the content, and the elements in that division become blocks (`pageDocument_eq_ok_iff`). The division is
the first one in document order (`map_mainContent?`).
-/

namespace BookCatalog

namespace Html

/-! ## Positions and the elements at them -/

mutual

theorem Element.map_positionsFrom (before : List Element) (around : List Spot) : ∀ e : Element,
    (e.positionsFrom before around).map Position.element = e :: e.descendants
  | .mk space name attrs contents => by
    rw [Element.positionsFrom, List.map_cons, Node.map_positionsIn, Element.descendants]
    rfl

theorem Node.map_positionsIn (before : List Element) (around : List Spot) : ∀ nodes : List Node,
    (Node.positionsIn before around nodes).map Position.element = Node.elementsIn nodes
  | [] => rfl
  | .element e :: rest => by
    rw [Node.positionsIn, List.map_append, Element.map_positionsFrom, Node.map_positionsIn, Node.elementsIn]
    rfl
  | .fragment contents :: rest => by
    rw [Node.positionsIn, List.map_append, Node.map_positionsIn, Node.map_positionsIn, Node.elementsIn]
  | .text _ :: rest | .comment _ :: rest => by
    simp only [Node.positionsIn, Node.elementsIn]
    exact Node.map_positionsIn before around rest

end

/-- The positions below an element that has nothing around it. -/
def positionsBelow (e : Element) : List Position := Position.below ⟨⟨e, []⟩, []⟩

theorem map_positionsBelow (e : Element) : (positionsBelow e).map Position.element = e.descendants := by
  cases e with
  | mk space name attrs contents =>
    rw [positionsBelow, Position.below, Node.map_positionsIn, Element.descendants]
    rfl

/-- The first position at which an element is as it is wanted has the first such element. -/
theorem map_find?_positionsBelow (e : Element) (wanted : Element → Bool) :
    ((positionsBelow e).find? fun p => wanted p.element).map Position.element =
      e.descendants.find? wanted := by
  rw [← map_positionsBelow, List.find?_map]
  rfl

end Html

namespace Chapter

open BookCatalog.Html

/-! ## The content of a chapter -/

/-- Whether an element is the one that holds the content of a chapter, when it is the first one. -/
def isMainContent (e : Element) : Bool := e.name = "div" && e.isOfClass "body"

theorem map_mainContent? (b : Element) :
    (mainContent? b).map Position.element = b.descendants.find? isMainContent :=
  map_find?_positionsBelow b isMainContent

theorem isSpliced_of_isMainContent {e : Element} (h : isMainContent e = true) : IsSpliced e := by
  simp only [isMainContent, Bool.and_eq_true, decide_eq_true_eq] at h
  exact ⟨h.1, .inr (hasClass_of_isOfClass h.2 (List.all_iff_forall_prop.1 (by decide)))⟩

theorem body_eq_ok_iff {page : Page} {b : Element} : body page = .ok b ↔ page.body? = some b := by
  unfold body
  cases page.body? <;> simp

theorem pageDocument_eq_ok_iff {page : Page} {anchors : AnchorTable} {d : Document} :
    pageDocument page anchors = .ok d ↔ ∃ b content, page.body? = some b ∧ mainContent? b = some content ∧
      blocks anchors (standsInLines content) content.element.contents = .ok d.children := by
  unfold pageDocument
  simp only [bind_eq_ok_iff, body_eq_ok_iff]
  refine exists_congr fun b => ?_
  cases mainContent? b with
  | none => simp [throw, throwThe, MonadExceptOf.throw]
  | some content =>
    simp only [Option.some.injEq, bind_eq_ok_iff]
    constructor
    · rintro ⟨hb, children, hchildren, h⟩
      cases h
      exact ⟨content, hb, rfl, hchildren⟩
    · rintro ⟨_, hb, rfl, hchildren⟩
      exact ⟨hb, d.children, hchildren, rfl⟩

end Chapter

end BookCatalog
