import BookCatalog.Proofs.Chapter.Divisions
import BookCatalog.Proofs.MarkupParts

/-!
# Loose text

Lists, definitions, sections and admonitions are made of the elements in their items, in their descriptions
and in themselves. Text that stands there directly is loose (`looseText`): it belongs to no element that
becomes a block. It neither gets into the blocks nor makes the conversion fail; an element and the same
element without its loose text (`bare`) have the same outcome (`block_bare`).
-/

namespace BookCatalog.Chapter

open BookCatalog.Html

/-! ## Elements without their loose text -/

mutual

/-- An element among the blocks of a chapter without its loose text. -/
def bare : Element → Element
  | .mk space name attrs contents =>
    let e := Element.mk space name attrs contents
    match BlockKind.ofName name with
    | .list _ => .mk space name attrs (bareParts "li" contents)
    | .definitions => .mk space name attrs (bareParts "dd" contents)
    | .division =>
      match DivisionKind.of e with
      | .container => .mk space name attrs (bareIn contents)
      | .admonition _ => .mk space name attrs (bareAfterFirst contents)
      | .listing | .kept => e
    | .heading _ | .paragraph | .table | .other => e

/-- The nodes of a container without the loose text. -/
def bareIn : List Node → List Node
  | [] => []
  | .text _ :: rest => bareIn rest
  | .element e :: rest => .element (bare e) :: bareIn rest
  | .comment s :: rest => .comment s :: bareIn rest
  | .fragment contents :: rest => .fragment contents :: bareIn rest

/-- The nodes of an admonition without the loose text. The title stays as it is. -/
def bareAfterFirst : List Node → List Node
  | [] => []
  | .text _ :: rest => bareAfterFirst rest
  | .element e :: rest => .element e :: bareIn rest
  | .comment s :: rest => .comment s :: bareAfterFirst rest
  | .fragment contents :: rest => .fragment contents :: bareAfterFirst rest

/-- The nodes of a list without the loose text in its parts, which are the elements named `part`. -/
def bareParts (part : String) : List Node → List Node
  | [] => []
  | .element (.mk space name attrs contents) :: rest =>
    .element (.mk space name attrs (if name = part then bareIn contents else contents)) :: bareParts part rest
  | .text s :: rest => .text s :: bareParts part rest
  | .comment s :: rest => .comment s :: bareParts part rest
  | .fragment contents :: rest => .fragment contents :: bareParts part rest

end

/-! ## The loose text -/

mutual

/-- The loose text of an element among the blocks of a chapter, in document order. -/
def looseText : Element → List String
  | .mk space name attrs contents =>
    match BlockKind.ofName name with
    | .list _ => looseTextOfParts "li" contents
    | .definitions => looseTextOfParts "dd" contents
    | .division =>
      match DivisionKind.of (.mk space name attrs contents) with
      | .container => looseTextIn contents
      | .admonition _ => looseTextAroundFirst contents
      | .listing | .kept => []
    | .heading _ | .paragraph | .table | .other => []

/-- The loose text among the nodes of a container and below them. -/
def looseTextIn : List Node → List String
  | [] => []
  | .text s :: rest => s :: looseTextIn rest
  | .element e :: rest => looseText e ++ looseTextIn rest
  | .comment _ :: rest | .fragment _ :: rest => looseTextIn rest

/-- The loose text among the nodes of an admonition and below them. None of it stands in the title. -/
def looseTextAroundFirst : List Node → List String
  | [] => []
  | .text s :: rest => s :: looseTextAroundFirst rest
  | .element _ :: rest => looseTextIn rest
  | .comment _ :: rest | .fragment _ :: rest => looseTextAroundFirst rest

/-- The loose text in the parts of a list, which are the elements named `part`. -/
def looseTextOfParts (part : String) : List Node → List String
  | [] => []
  | .element (.mk _ name _ contents) :: rest =>
    (if name = part then looseTextIn contents else []) ++ looseTextOfParts part rest
  | .text _ :: rest | .comment _ :: rest | .fragment _ :: rest => looseTextOfParts part rest

end

/-! ## Kinds of divisions without loose text -/

theorem divisionKind_eq_container_iff {e : Element} :
    DivisionKind.of e = .container ↔ (e.hasClass "section" || e.hasClass "body") = true := by
  unfold DivisionKind.of
  split
  · rename_i h
    exact iff_of_true rfl h
  · rename_i h
    refine iff_of_false ?_ h
    split
    · simp
    · split
      · split <;> simp
      · simp

/-- What a division stands for depends on its attributes and on the first element in it. -/
theorem divisionKind_congr {e f : Element} (hattrs : f.attrs = e.attrs)
    (hfirst : f.firstChild? = e.firstChild?) : DivisionKind.of f = DivisionKind.of e := by
  have hclass : ∀ cls, f.hasClass cls = e.hasClass cls := fun cls => by
    unfold Element.hasClass Element.classes Element.attr?
    rw [hattrs]
  unfold DivisionKind.of
  simp only [hclass, hfirst]

section
variable {space : Space} {name : String} {attrs : List Attr} {contents : List Node}

theorem divisionKind_bareIn (h : DivisionKind.of (.mk space name attrs contents) = .container) :
    DivisionKind.of (.mk space name attrs (bareIn contents)) = .container :=
  divisionKind_eq_container_iff.2 (divisionKind_eq_container_iff.1 h :)

theorem findSome?_bareAfterFirst (nodes : List Node) :
    (bareAfterFirst nodes).findSome? Node.element? = nodes.findSome? Node.element? := by
  induction nodes with
  | nil => rfl
  | cons node rest ih =>
    cases node with
    | element e => rfl
    | text | comment | fragment =>
      rw [bareAfterFirst]
      exact ih

theorem divisionKind_bareAfterFirst :
    DivisionKind.of (.mk space name attrs (bareAfterFirst contents)) =
      DivisionKind.of (.mk space name attrs contents) :=
  divisionKind_congr rfl (findSome?_bareAfterFirst contents)

end

/-! ## Loose text does not count -/

section
variable (anchors : AnchorTable)

theorem terms_of_not_term (inLines : Bool) {space : Space} {name : String} {attrs : List Attr}
    {contents rest : List Node} (hname : name ≠ "dt") :
    terms anchors inLines (.element (.mk space name attrs contents) :: rest) =
      .error (.unexpected name .definitionList) := by
  rw [terms, if_pos (by exact hname)]
  rfl

mutual

/-- **Loose text has no influence on what becomes of an element.** -/
theorem block_bare (inLines : Bool) : ∀ e : Element,
    block anchors inLines (bare e) = block anchors inLines e
  | .mk space name attrs contents => by
    simp only [bare]
    cases hkind : BlockKind.ofName name with
    | heading | paragraph | table | other => rfl
    | list =>
      simp only [block, hkind, items_bareParts]
      rfl
    | definitions => simp only [block, hkind, terms_bareParts]
    | division =>
      dsimp only
      cases hdivision : DivisionKind.of (.mk space name attrs contents) with
      | container => simp only [block, hkind, hdivision, divisionKind_bareIn hdivision, blocks_bareIn]
      | admonition =>
        simp only [block, hkind, hdivision, divisionKind_bareAfterFirst, blocksAfterFirst_bare]
      | listing | kept => rfl

theorem blocks_bareIn (inLines : Bool) : ∀ nodes : List Node,
    blocks anchors inLines (bareIn nodes) = blocks anchors inLines nodes
  | [] => rfl
  | .text _ :: rest => by
    rw [bareIn, blocks_bareIn]
    rfl
  | .element e :: rest => by
    simp only [bareIn, blocks, block_bare, blocks_bareIn]
  | .comment _ :: rest | .fragment _ :: rest => by
    simp only [bareIn, blocks]
    exact blocks_bareIn inLines rest

theorem blocksAfterFirst_bare (inLines : Bool) : ∀ nodes : List Node,
    blocksAfterFirst anchors inLines (bareAfterFirst nodes) = blocksAfterFirst anchors inLines nodes
  | [] => rfl
  | .text _ :: rest => by
    rw [bareAfterFirst, blocksAfterFirst_bare]
    rfl
  | .element e :: rest => by
    simp only [bareAfterFirst, blocksAfterFirst, blocks_bareIn]
  | .comment _ :: rest | .fragment _ :: rest => by
    simp only [bareAfterFirst, blocksAfterFirst]
    exact blocksAfterFirst_bare inLines rest

theorem items_bareParts (inLines : Bool) (list : String) : ∀ nodes : List Node,
    items anchors inLines list (bareParts "li" nodes) = items anchors inLines list nodes
  | [] => rfl
  | .element (.mk space name attrs contents) :: rest => by
    simp only [bareParts, items, items_bareParts]
    by_cases hname : name = "li"
    · rw [if_pos hname, blocks_bareIn]
    · rw [if_pos hname, if_pos hname]
      rfl
  | .text _ :: rest | .comment _ :: rest | .fragment _ :: rest => by
    simp only [bareParts, items]
    exact items_bareParts inLines list rest

theorem terms_bareParts (inLines : Bool) : ∀ nodes : List Node,
    terms anchors inLines (bareParts "dd" nodes) = terms anchors inLines nodes
  | [] => rfl
  | .element (.mk space name attrs contents) :: rest => by
    by_cases hname : name = "dt"
    · have hdd : name ≠ "dd" := by simp [hname]
      simp only [bareParts, terms, if_neg hdd, descriptions_bareParts]
    · rw [bareParts, terms_of_not_term anchors inLines hname, terms_of_not_term anchors inLines hname]
  | .text _ :: rest | .comment _ :: rest | .fragment _ :: rest => by
    simp only [bareParts, terms]
    exact terms_bareParts inLines rest

theorem descriptions_bareParts (inLines : Bool) (term : List Inline) (label : String) :
    ∀ nodes : List Node, descriptions anchors inLines term label (bareParts "dd" nodes) =
      descriptions anchors inLines term label nodes
  | [] => rfl
  | .element (.mk space name attrs contents) :: rest => by
    simp only [bareParts, descriptions, terms_bareParts]
    by_cases hname : name = "dd"
    · rw [if_pos hname, blocks_bareIn]
    · rw [if_pos hname, if_pos hname]
      rfl
  | .text _ :: rest | .comment _ :: rest | .fragment _ :: rest => by
    simp only [bareParts, descriptions]
    exact descriptions_bareParts inLines term label rest

end

end

/-! ## What stays -/

mutual

theorem looseText_bare : ∀ e : Element, looseText (bare e) = []
  | .mk space name attrs contents => by
    simp only [bare]
    cases hkind : BlockKind.ofName name with
    | heading | paragraph | table | other => simp only [looseText, hkind]
    | list | definitions => simp only [looseText, hkind, looseTextOfParts_bareParts]
    | division =>
      dsimp only
      cases hdivision : DivisionKind.of (.mk space name attrs contents) with
      | container => simp only [looseText, hkind, divisionKind_bareIn hdivision, looseTextIn_bareIn]
      | admonition =>
        simp only [looseText, hkind, hdivision, divisionKind_bareAfterFirst, looseTextAroundFirst_bare]
      | listing | kept => simp only [looseText, hkind, hdivision]

theorem looseTextIn_bareIn : ∀ nodes : List Node, looseTextIn (bareIn nodes) = []
  | [] => rfl
  | .element e :: rest => by
    rw [bareIn, looseTextIn, looseText_bare, looseTextIn_bareIn, List.nil_append]
  | .text _ :: rest | .comment _ :: rest | .fragment _ :: rest => by
    simp only [bareIn, looseTextIn]
    exact looseTextIn_bareIn rest

theorem looseTextAroundFirst_bare : ∀ nodes : List Node,
    looseTextAroundFirst (bareAfterFirst nodes) = []
  | [] => rfl
  | .element e :: rest => by
    simp only [bareAfterFirst, looseTextAroundFirst]
    exact looseTextIn_bareIn rest
  | .text _ :: rest | .comment _ :: rest | .fragment _ :: rest => by
    simp only [bareAfterFirst, looseTextAroundFirst]
    exact looseTextAroundFirst_bare rest

theorem looseTextOfParts_bareParts (part : String) : ∀ nodes : List Node,
    looseTextOfParts part (bareParts part nodes) = []
  | [] => rfl
  | .element (.mk space name attrs contents) :: rest => by
    simp only [bareParts, looseTextOfParts, looseTextOfParts_bareParts, List.append_nil]
    split
    · exact looseTextIn_bareIn contents
    · rfl
  | .text _ :: rest | .comment _ :: rest | .fragment _ :: rest => by
    simp only [bareParts, looseTextOfParts]
    exact looseTextOfParts_bareParts part rest

end

section
variable (s : String)

mutual

/-- Every other run of text is kept. -/
theorem count_textRuns_bare : ∀ e : Element,
    (bare e).textRuns.count s + (looseText e).count s = e.textRuns.count s
  | .mk space name attrs contents => by
    simp only [bare, looseText]
    cases BlockKind.ofName name with
    | heading | paragraph | table | other => rfl
    | list | definitions => exact count_textRuns_bareParts _ contents
    | division =>
      dsimp only
      cases DivisionKind.of (.mk space name attrs contents) with
      | container => exact count_textRuns_bareIn contents
      | admonition => exact count_textRuns_bareAfterFirst contents
      | listing | kept => rfl

theorem count_textRuns_bareIn : ∀ nodes : List Node,
    (Node.textRunsOf (bareIn nodes)).count s + (looseTextIn nodes).count s =
      (Node.textRunsOf nodes).count s
  | [] => rfl
  | .text t :: rest => by
    have ih := count_textRuns_bareIn rest
    simp only [bareIn, looseTextIn, Node.textRunsOf, List.count_cons]
    omega
  | .element e :: rest => by
    have he := count_textRuns_bare e
    have ih := count_textRuns_bareIn rest
    simp only [bareIn, looseTextIn, Node.textRunsOf, List.count_append]
    omega
  | .comment _ :: rest | .fragment _ :: rest => by
    simp only [bareIn, looseTextIn, Node.textRunsOf]
    exact count_textRuns_bareIn rest

theorem count_textRuns_bareAfterFirst : ∀ nodes : List Node,
    (Node.textRunsOf (bareAfterFirst nodes)).count s + (looseTextAroundFirst nodes).count s =
      (Node.textRunsOf nodes).count s
  | [] => rfl
  | .text t :: rest => by
    have ih := count_textRuns_bareAfterFirst rest
    simp only [bareAfterFirst, looseTextAroundFirst, Node.textRunsOf, List.count_cons]
    omega
  | .element e :: rest => by
    have ih := count_textRuns_bareIn rest
    simp only [bareAfterFirst, looseTextAroundFirst, Node.textRunsOf, List.count_append]
    omega
  | .comment _ :: rest | .fragment _ :: rest => by
    simp only [bareAfterFirst, looseTextAroundFirst, Node.textRunsOf]
    exact count_textRuns_bareAfterFirst rest

theorem count_textRuns_bareParts (part : String) : ∀ nodes : List Node,
    (Node.textRunsOf (bareParts part nodes)).count s + (looseTextOfParts part nodes).count s =
      (Node.textRunsOf nodes).count s
  | [] => rfl
  | .element (.mk space name attrs contents) :: rest => by
    have hcontents := count_textRuns_bareIn contents
    have ih := count_textRuns_bareParts part rest
    simp only [bareParts, looseTextOfParts, Node.textRunsOf, Element.textRuns, List.count_append]
    split
    · omega
    · rw [List.count_nil]
      omega
  | .text t :: rest => by
    have ih := count_textRuns_bareParts part rest
    simp only [bareParts, looseTextOfParts, Node.textRunsOf, List.count_cons]
    omega
  | .comment _ :: rest | .fragment _ :: rest => by
    simp only [bareParts, looseTextOfParts, Node.textRunsOf]
    exact count_textRuns_bareParts part rest

end

end

/-- **Loose text vanishes.** Every element has the same outcome, be it blocks or an error, as the element in
which none of the loose text stands and all other text does. -/
theorem loose_text_vanishes (anchors : AnchorTable) (inLines : Bool) (e : Element) :
    block anchors inLines (bare e) = block anchors inLines e ∧ looseText (bare e) = [] ∧
      ((bare e).textRuns ++ looseText e).Perm e.textRuns := by
  refine ⟨block_bare anchors inLines e, looseText_bare e, List.perm_iff_count.2 fun s => ?_⟩
  rw [List.count_append]
  exact count_textRuns_bare s e

/-! ## Text in an item -/

/-- A list with one item, which is a run of text. -/
def textItemList : Element := .mk .html "ul" [] [.element (.mk .html "li" [] [.text "lost"])]

theorem item_text_vanishes : looseText textItemList = ["lost"] ∧
    block ∅ false textItemList = .ok [.list false [[]]] ∧
    Block.partsOf [.list false [[]]] = [.list false [[]]] ∧ Block.inlinesOf [.list false [[]]] = [] :=
  ⟨by rfl, by rfl, rfl, rfl⟩

end BookCatalog.Chapter
