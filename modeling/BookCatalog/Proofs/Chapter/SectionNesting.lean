import BookCatalog.Proofs.Chapter.Divisions
import BookCatalog.Proofs.TreeEquality
import Mathlib.Logic.Relation

/-!
# Sections inside sections

A division of class `section` or `body` groups elements and is no block of its own. So it does not matter how
the elements of a chapter are grouped: putting the elements of one such division in its place (`Splices`)
leaves the blocks as they are, and the error too when there is one, and so does putting the elements of all
of them in their place at every depth (`flattened`). Two groupings can be regrouped into each other exactly
when they have the same elements flattened, and then they become the same (`sections_invisible`).
-/

namespace BookCatalog.Chapter

open BookCatalog.Html

/-! ## Sequences of elements -/

section
variable {anchors : AnchorTable} {inLines : Bool}

/-- The blocks that elements standing one after the other become. -/
def blocksOf (anchors : AnchorTable) (inLines : Bool) (es : List Element) :
    Except ConversionError (List Block) :=
  blocks anchors inLines (es.map .element)

theorem blocksOf_nil : blocksOf anchors inLines [] = .ok [] := rfl

theorem blocksOf_cons (e : Element) (es : List Element) :
    blocksOf anchors inLines (e :: es) = (do
      let first ← block anchors inLines e
      return first ++ (← blocksOf anchors inLines es)) := rfl

/-- Only the elements among some nodes become blocks. -/
theorem blocks_eq_blocksOf (nodes : List Node) :
    blocks anchors inLines nodes = blocksOf anchors inLines (nodes.filterMap Node.element?) := by
  induction nodes with
  | nil => rfl
  | cons node rest ih =>
    cases node with
    | element e => rw [filterMap_element?_element, blocksOf_cons, ← ih]; rfl
    | text | comment | fragment => exact ih

theorem blocksOf_append (es fs : List Element) :
    blocksOf anchors inLines (es ++ fs) = (do
      let first ← blocksOf anchors inLines es
      return first ++ (← blocksOf anchors inLines fs)) := by
  induction es with
  | nil =>
    rw [List.nil_append, blocksOf_nil]
    cases blocksOf anchors inLines fs <;> rfl
  | cons e es ih =>
    rw [List.cons_append, blocksOf_cons, blocksOf_cons, ih]
    cases block anchors inLines e with
    | error fault => rfl
    | ok first =>
      cases blocksOf anchors inLines es with
      | error fault => rfl
      | ok more =>
        cases blocksOf anchors inLines fs with
        | error fault => rfl
        | ok last => exact congrArg Except.ok (List.append_assoc first more last).symm

/-- A section becomes what its elements become. -/
theorem blocksOf_section {e : Element} (h : IsSpliced e) :
    blocksOf anchors inLines [e] = blocksOf anchors inLines e.childElements := by
  rw [blocksOf_cons, blocksOf_nil, block_of_isSpliced h, blocks_eq_blocksOf]
  show _ = blocksOf anchors inLines (e.contents.filterMap Node.element?)
  cases blocksOf anchors inLines (e.contents.filterMap Node.element?) with
  | error fault => rfl
  | ok bs => exact congrArg Except.ok (List.append_nil bs)

end

/-! ## One section -/

/-- The elements of one section are put in its place. -/
inductive Splices : List Element → List Element → Prop
  | intro (before : List Element) {e : Element} (after : List Element) : IsSpliced e →
      Splices (before ++ [e] ++ after) (before ++ e.childElements ++ after)

theorem Splices.append {es fs : List Element} (h : Splices es fs) (before after : List Element) :
    Splices (before ++ es ++ after) (before ++ fs ++ after) := by
  obtain ⟨front, back, he⟩ := h
  have hstep := Splices.intro (before ++ front) (back ++ after) he
  simpa only [List.append_assoc] using hstep

/-- **A section that is spliced changes nothing.** -/
theorem blocksOf_of_splices {es fs : List Element} (h : Splices es fs) (anchors : AnchorTable)
    (inLines : Bool) : blocksOf anchors inLines es = blocksOf anchors inLines fs := by
  obtain ⟨before, after, he⟩ := h
  simp only [blocksOf_append, blocksOf_section he]

/-! ## All sections -/

instance (e : Element) : Decidable (IsSpliced e) := inferInstanceAs (Decidable (_ ∧ _))

mutual

/-- The elements that an element groups: those in it and in the sections in it when it is a section, and
otherwise the element itself. -/
def leaves : Element → List Element
  | .mk space name attrs contents =>
    if IsSpliced (.mk space name attrs contents) then leavesIn contents else [.mk space name attrs contents]

/-- The elements that the elements among some nodes group. -/
def leavesIn : List Node → List Element
  | [] => []
  | .element e :: rest => leaves e ++ leavesIn rest
  | _ :: rest => leavesIn rest

end

/-- A sequence of elements in which every section is replaced by its elements, at every depth. -/
def flattened (es : List Element) : List Element := es.flatMap leaves

/-! ## From one section to all of them -/

/-- Sections are spliced one after the other. -/
abbrev SplicesTo : List Element → List Element → Prop := Relation.ReflTransGen Splices

theorem SplicesTo.append {es fs : List Element} (h : SplicesTo es fs) (before after : List Element) :
    SplicesTo (before ++ es ++ after) (before ++ fs ++ after) :=
  h.lift (before ++ · ++ after) fun _ _ hstep => hstep.append before after

theorem SplicesTo.append₂ {es es' fs fs' : List Element} (h : SplicesTo es es') (h' : SplicesTo fs fs') :
    SplicesTo (es ++ fs) (es' ++ fs') := by
  have hfirst : SplicesTo (es ++ fs) (es' ++ fs) := by simpa using h.append [] fs
  have hlast : SplicesTo (es' ++ fs) (es' ++ fs') := by simpa using h'.append es' []
  exact hfirst.trans hlast

mutual

theorem splicesTo_leaves : ∀ e : Element, SplicesTo [e] (leaves e)
  | .mk space name attrs contents => by
    rw [leaves]
    split
    · rename_i h
      have hstep := Splices.intro [] [] h
      rw [List.append_nil, List.append_nil] at hstep
      exact .head hstep (splicesTo_leavesIn contents)
    · exact .refl

theorem splicesTo_leavesIn : ∀ nodes : List Node,
    SplicesTo (nodes.filterMap Node.element?) (leavesIn nodes)
  | [] => .refl
  | .element e :: rest => by
    rw [filterMap_element?_element, leavesIn]
    exact (splicesTo_leaves e).append₂ (splicesTo_leavesIn rest)
  | .text _ :: rest | .comment _ :: rest | .fragment _ :: rest => splicesTo_leavesIn rest

end

theorem splicesTo_flattened (es : List Element) : SplicesTo es (flattened es) := by
  induction es with
  | nil => exact .refl
  | cons e es ih => exact (splicesTo_leaves e).append₂ ih

mutual

theorem not_isSpliced_of_mem_leaves {c : Element} : ∀ {e : Element}, c ∈ leaves e → ¬IsSpliced c
  | .mk space name attrs contents, hc => by
    rw [leaves] at hc
    split at hc
    · exact not_isSpliced_of_mem_leavesIn hc
    · rename_i h
      rw [List.mem_singleton.1 hc]
      exact h

theorem not_isSpliced_of_mem_leavesIn {c : Element} : ∀ {nodes : List Node},
    c ∈ leavesIn nodes → ¬IsSpliced c
  | .element e :: rest, hc => by
    rcases List.mem_append.1 hc with hc | hc
    · exact not_isSpliced_of_mem_leaves hc
    · exact not_isSpliced_of_mem_leavesIn hc
  | .text _ :: rest, hc | .comment _ :: rest, hc | .fragment _ :: rest, hc => by
    have hrest : c ∈ leavesIn rest := hc
    exact not_isSpliced_of_mem_leavesIn hrest

end

/-- **Sections that are spliced change nothing, however many.** -/
theorem blocksOf_of_splicesTo {es fs : List Element} (h : SplicesTo es fs) (anchors : AnchorTable)
    (inLines : Bool) : blocksOf anchors inLines es = blocksOf anchors inLines fs := by
  induction h with
  | refl => rfl
  | tail _ hstep ih => exact ih.trans (blocksOf_of_splices hstep anchors inLines)

/-- **The nesting of sections is invisible.** Elements that stand one after the other have the same outcome,
be it blocks or an error, as the elements that are left when sections are spliced until there is none. So two
groupings of the same elements have the same outcome. -/
theorem sections_invisible (anchors : AnchorTable) (inLines : Bool) (es : List Element) :
    blocksOf anchors inLines (flattened es) = blocksOf anchors inLines es ∧
      SplicesTo es (flattened es) ∧ (∀ e ∈ flattened es, ¬IsSpliced e) ∧
      ∀ fs, flattened fs = flattened es → blocksOf anchors inLines fs = blocksOf anchors inLines es := by
  have hflat (fs : List Element) :
      blocksOf anchors inLines (flattened fs) = blocksOf anchors inLines fs :=
    (blocksOf_of_splicesTo (splicesTo_flattened fs) anchors inLines).symm
  refine ⟨hflat es, splicesTo_flattened es, fun e he => ?_, fun fs hfs => ?_⟩
  · obtain ⟨around, -, he⟩ := List.mem_flatMap.1 he
    exact not_isSpliced_of_mem_leaves he
  · rw [← hflat fs, hfs, hflat es]

/-- A heading, and two paragraphs of which the first one has an element that no line may have. -/
def basicsLeaves : List Element :=
  [.mk .html "h2" [] [.text "The Basics"], .mk .html "p" [] [.element (.mk .html "kbd" [] [])],
    .mk .html "p" [] [.text "Constants"]]

/-- The elements as a book has them: a section in a section, which has the class of a listing, too. -/
def basicsSections : List Element :=
  [.mk .html "div" [⟨.plain, "class", "section"⟩]
      [.text "loose", .element (.mk .html "h2" [] [.text "The Basics"]),
        .element (.mk .html "div" [⟨.plain, "class", "section highlight-swift"⟩]
          [.element (.mk .html "p" [] [.element (.mk .html "kbd" [] [])])])],
    .mk .html "p" [] [.text "Constants"]]

/-- Both groupings fail, and with one error. -/
theorem sections_invisible_basics :
    flattened basicsLeaves = flattened basicsSections ∧
      blocksOf ∅ false basicsLeaves = blocksOf ∅ false basicsSections ∧
      blocksOf ∅ false basicsSections = .error (.unexpected "kbd" .inlineContent) ∧
      .mk .html "p" [] [.text "Constants"] ∈ flattened basicsSections ∧
      ¬IsSpliced (.mk .html "p" [] [.text "Constants"]) := by
  have hflat : flattened basicsLeaves = flattened basicsSections := by decide +kernel
  have hmem : .mk .html "p" [] [.text "Constants"] ∈ flattened basicsSections := by decide +kernel
  obtain ⟨-, -, hleaves, halike⟩ := sections_invisible ∅ false basicsSections
  have hsame := halike basicsLeaves hflat
  exact ⟨hflat, hsame, hsame ▸ rfl, hmem, hleaves _ hmem⟩

end BookCatalog.Chapter
