import BookCatalog.Html.Element
import Mathlib.Data.List.Basic

/-!
# Text and the elements around it

A run of text stands in elements, and these in others. Here every run below an element is seen together with
the names of the elements that it stands in (`Node.placedRunsOf`), so that a rule on where text counts is a
rule on lists of names. `PlacedRun.isBelow` is the one that is needed: the text stands below an element with
one of some names, which itself is not inside an element with one of some other names.
-/

namespace BookCatalog.Html

/-- A run of text and the names of the elements that it stands in, the outermost first. -/
structure PlacedRun where
  path : List String
  text : String
  deriving DecidableEq

namespace PlacedRun

/-- The run seen from outside an element that it stands in. -/
def within (name : String) (r : PlacedRun) : PlacedRun := ⟨name :: r.path, r.text⟩

/-- Whether the run stands below an element named in `names` that is not inside one named in `outside`. -/
def isBelow (names outside : List String) (r : PlacedRun) : Bool :=
  (r.path.takeWhile fun name => !outside.contains name).any names.contains

section
variable {names outside : List String} {name : String}

theorem isBelow_within_of_outside (h : name ∈ outside) (r : PlacedRun) :
    (r.within name).isBelow names outside = false := by
  simp [isBelow, within, h]

theorem isBelow_within_of_named (h : name ∈ names) (houtside : name ∉ outside) (r : PlacedRun) :
    (r.within name).isBelow names outside = true := by
  simp [isBelow, within, h, houtside]

theorem isBelow_within_of_other (h : name ∉ names) (houtside : name ∉ outside) (r : PlacedRun) :
    (r.within name).isBelow names outside = r.isBelow names outside := by
  simp [isBelow, within, h, houtside]

theorem isBelow_congr {names' : List String} {r : PlacedRun}
    (h : ∀ name ∈ r.path, name ∈ names ↔ name ∈ names') :
    r.isBelow names outside = r.isBelow names' outside := by
  rw [isBelow, isBelow, Bool.eq_iff_iff, List.any_eq_true, List.any_eq_true]
  refine exists_congr fun name => and_congr_right fun hname => ?_
  simpa using h name ((List.takeWhile_prefix _).subset hname)

end

end PlacedRun

mutual

/-- The runs of text below an element, in document order, seen from outside the element. -/
def Element.placedRuns : Element → List PlacedRun
  | .mk _ name _ contents => (Node.placedRunsOf contents).map (·.within name)

/-- The runs of text among some nodes and below them, in document order. -/
def Node.placedRunsOf : List Node → List PlacedRun
  | [] => []
  | .text s :: rest => ⟨[], s⟩ :: Node.placedRunsOf rest
  | .element e :: rest => e.placedRuns ++ Node.placedRunsOf rest
  | .comment _ :: rest | .fragment _ :: rest => Node.placedRunsOf rest

end

mutual

theorem Element.map_text_placedRuns : ∀ e : Element, e.placedRuns.map (·.text) = e.textRuns
  | .mk space name attrs contents => by
    rw [Element.placedRuns, Element.textRuns, List.map_map, ← Node.map_text_placedRunsOf contents]
    rfl

/-- All runs of text have their place. -/
theorem Node.map_text_placedRunsOf : ∀ nodes : List Node,
    (Node.placedRunsOf nodes).map (·.text) = Node.textRunsOf nodes
  | [] => rfl
  | .text s :: rest => by
    rw [Node.placedRunsOf, Node.textRunsOf, List.map_cons, Node.map_text_placedRunsOf rest]
  | .element e :: rest => by
    rw [Node.placedRunsOf, Node.textRunsOf, List.map_append, Element.map_text_placedRuns e,
      Node.map_text_placedRunsOf rest]
  | .comment _ :: rest | .fragment _ :: rest => by
    simp only [Node.placedRunsOf, Node.textRunsOf]
    exact Node.map_text_placedRunsOf rest

end

/-! ## Runs that stand in elements -/

theorem Element.exists_within_of_mem_placedRuns {e : Element} {r : PlacedRun} (h : r ∈ e.placedRuns) :
    ∃ inner : PlacedRun, r = inner.within e.name := by
  cases e with
  | mk space name attrs contents =>
    rw [Element.placedRuns] at h
    obtain ⟨inner, -, rfl⟩ := List.mem_map.1 h
    exact ⟨inner, rfl⟩

section
variable {counts : PlacedRun → Bool} {e : Element}

theorem Element.filter_placedRuns_eq_self (h : ∀ r : PlacedRun, counts (r.within e.name) = true) :
    e.placedRuns.filter counts = e.placedRuns := by
  refine List.filter_eq_self.2 fun r hr => ?_
  obtain ⟨inner, rfl⟩ := exists_within_of_mem_placedRuns hr
  exact h inner

theorem Element.filter_placedRuns_eq_nil (h : ∀ r : PlacedRun, counts (r.within e.name) = false) :
    e.placedRuns.filter counts = [] := by
  refine List.filter_eq_nil_iff.2 fun r hr => ?_
  obtain ⟨inner, rfl⟩ := exists_within_of_mem_placedRuns hr
  simp [h inner]

end

/-- The runs of text that stand in an element are those below the elements among the nodes. -/
theorem Node.filter_placedRunsOf (nodes : List Node) : (Node.placedRunsOf nodes).filter (!·.path.isEmpty) =
    (nodes.filterMap Node.element?).flatMap Element.placedRuns := by
  induction nodes with
  | nil => rfl
  | cons node rest ih =>
    cases node with
    | element e =>
      rw [Node.placedRunsOf, List.filter_append, Element.filter_placedRuns_eq_self fun _ => rfl, ih]
      rfl
    | text s =>
      rw [Node.placedRunsOf, List.filter_cons_of_neg (by simp), ih]
      rfl
    | comment | fragment => exact ih

end BookCatalog.Html
