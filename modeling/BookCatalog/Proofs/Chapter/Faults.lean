import BookCatalog.Proofs.Chapter.MainContent

/-!
# What is wrong with a chapter

A conversion breaks off at the first thing that it cannot convert. Here a page is read to its end, and
everything that is wrong with it is noted in document order (`pageFaults`). A page on which nothing is noted
has a document, and any other one fails with what was noted first (`failure?_pageDocument`).
-/

namespace BookCatalog

/-! ## Why a chain of steps fails -/

section
variable {ε α β : Type}

/-- Why a step fails, if it does. -/
def failure? : Except ε α → Option ε
  | .ok _ => none
  | .error e => some e

theorem failure?_eq_some_iff {x : Except ε α} {e : ε} : failure? x = some e ↔ x = .error e := by
  cases x <;> simp [failure?]

theorem failure?_eq_none_iff {x : Except ε α} : failure? x = none ↔ ∃ a, x = .ok a := by
  cases x <;> simp [failure?]

/-- The faults of a chain are those of its first step and then those of the rest. -/
theorem failure?_bind {x : Except ε α} {g : α → Except ε β} {faults more : List ε}
    (hx : failure? x = faults.head?) (hg : ∀ a, failure? (g a) = more.head?) :
    failure? (x >>= g) = (faults ++ more).head? := by
  rw [List.head?_append, ← hx]
  cases x with
  | ok a => exact hg a
  | error e => rfl

/-- What is made of a result in the end adds no fault. -/
theorem failure?_bind_pure {x : Except ε α} {f : α → β} {faults : List ε}
    (hx : failure? x = faults.head?) : failure? (x >>= fun a => pure (f a)) = faults.head? := by
  rw [← hx]
  cases x <;> rfl

end

namespace Chapter

open BookCatalog.Html

/-! ## Inline content -/

mutual

/-- What is wrong with an element in a line. -/
def lineFaults : Element → List ConversionError
  | .mk _ name _ contents =>
    match InlineKind.ofName name with
    | .emphasis | .strong => lineFaultsIn contents
    | .unknown => [.unexpected name .inlineContent]
    | .link | .image | .code | .kept => []

/-- What is wrong with the elements among the nodes of a line. -/
def lineFaultsIn : List Node → List ConversionError
  | [] => []
  | .element e :: rest => lineFaults e ++ lineFaultsIn rest
  | _ :: rest => lineFaultsIn rest

end

section
variable (anchors : AnchorTable)

mutual

theorem failure?_inline : ∀ e : Element, failure? (inline anchors e) = (lineFaults e).head?
  | .mk space name attrs contents => by
    simp only [inline, lineFaults]
    cases InlineKind.ofName name with
    | link | image | code | kept | unknown => rfl
    | emphasis | strong => exact failure?_bind_pure (failure?_inlines contents)

theorem failure?_inlines : ∀ nodes : List Node,
    failure? (inlines anchors nodes) = (lineFaultsIn nodes).head?
  | [] => rfl
  | .text _ :: rest => by
    simp only [inlines, lineFaultsIn]
    exact failure?_bind_pure (failure?_inlines rest)
  | .element e :: rest => by
    simp only [inlines, lineFaultsIn]
    exact failure?_bind (failure?_inline e) fun _ => failure?_bind_pure (failure?_inlines rest)
  | .comment _ :: rest | .fragment _ :: rest => by
    simp only [inlines, lineFaultsIn]
    exact failure?_inlines rest

end

theorem failure?_unwrappedInlines (e : Element) :
    failure? (unwrappedInlines anchors e.contents) = (lineFaultsIn (unwrapped e).contents).head? := by
  rw [unwrappedInlines_eq, failure?_inlines]

end

/-! ## Tables -/

/-- What is wrong with a cell of a table. -/
def cellFaults (e : Element) : List ConversionError :=
  if e.name = "td" ∨ e.name = "th" then lineFaultsIn (unwrapped e).contents
  else [.unexpected e.name .tableRow]

/-- What is wrong with a row of a table. -/
def rowFaults (e : Element) : List ConversionError :=
  if e.name = "tr" then e.childElements.flatMap cellFaults else [.unexpected e.name .tableSection]

/-- What is wrong with a section of a table. Of a head only the first row counts. -/
def sectionFaults (e : Element) : List ConversionError :=
  if e.name = "thead" then e.firstChild?.toList.flatMap rowFaults
  else if e.name = "tbody" then e.childElements.flatMap rowFaults
  else []

/-- What is wrong with a table. -/
def tableFaults (e : Element) : List ConversionError := e.childElements.flatMap sectionFaults

section
variable (anchors : AnchorTable)

theorem failure?_cells (nodes : List Node) : failure? (cells anchors nodes) =
    ((nodes.filterMap Node.element?).flatMap cellFaults).head? := by
  induction nodes with
  | nil => rfl
  | cons node rest ih =>
    cases node with
    | element e =>
      simp only [cells, filterMap_element?_element, List.flatMap_cons, cellFaults]
      by_cases hname : e.name = "td" ∨ e.name = "th"
      · rw [if_pos hname, if_neg (by simpa [imp_iff_not_or] using hname)]
        exact failure?_bind (failure?_unwrappedInlines anchors e) fun _ => failure?_bind_pure ih
      · rw [if_neg hname, if_pos (by simpa [not_or] using hname)]
        rfl
    | text | comment | fragment => exact ih

theorem failure?_row (e : Element) : failure? (row anchors e) = (rowFaults e).head? := by
  unfold row rowFaults
  split
  · exact failure?_cells anchors e.contents
  · rfl

theorem failure?_rows (nodes : List Node) : failure? (rows anchors nodes) =
    ((nodes.filterMap Node.element?).flatMap rowFaults).head? := by
  induction nodes with
  | nil => rfl
  | cons node rest ih =>
    cases node with
    | element e => exact failure?_bind (failure?_row anchors e) fun _ => failure?_bind_pure ih
    | text | comment | fragment => exact ih

theorem failure?_firstRow? (nodes : List Node) : failure? (firstRow? anchors nodes) =
    ((nodes.filterMap Node.element?).head?.toList.flatMap rowFaults).head? := by
  induction nodes with
  | nil => rfl
  | cons node rest ih =>
    cases node with
    | element e =>
      rw [filterMap_element?_element, List.head?_cons, Option.toList_some, List.flatMap_singleton]
      exact failure?_bind_pure (failure?_row anchors e)
    | text | comment | fragment => exact ih

theorem failure?_tableParts (nodes : List Node) : failure? (tableParts anchors nodes) =
    ((nodes.filterMap Node.element?).flatMap sectionFaults).head? := by
  induction nodes with
  | nil => rfl
  | cons node rest ih =>
    cases node with
    | element e =>
      simp only [tableParts, filterMap_element?_element, List.flatMap_cons, sectionFaults]
      split
      · rw [firstChild?_eq_head?]
        exact failure?_bind (failure?_firstRow? anchors e.contents) fun _ => failure?_bind_pure ih
      · split
        · exact failure?_bind (failure?_rows anchors e.contents) fun _ => failure?_bind_pure ih
        · exact ih
    | text | comment | fragment => exact ih

theorem failure?_tableOf (e : Element) :
    failure? (tableOf anchors e.contents) = (tableFaults e).head? :=
  failure?_bind_pure (failure?_tableParts anchors e.contents)

end

/-! ## Blocks -/

mutual

/-- What is wrong with an element among the blocks of a chapter. -/
def faults : Element → List ConversionError
  | .mk space name attrs contents =>
    let e := Element.mk space name attrs contents
    match BlockKind.ofName name with
    | .heading _ | .paragraph => lineFaultsIn contents
    | .list _ => itemFaults name contents
    | .table => tableFaults e
    | .definitions => termFaults contents
    | .division =>
      match DivisionKind.of e with
      | .container => faultsIn contents
      | .admonition _ => faultsAfterFirst contents
      | .listing | .kept => []
    | .other => lineFaults e

/-- What is wrong with the elements among some nodes. -/
def faultsIn : List Node → List ConversionError
  | [] => []
  | .element e :: rest => faults e ++ faultsIn rest
  | _ :: rest => faultsIn rest

/-- What is wrong with the elements among some nodes, the first element apart. -/
def faultsAfterFirst : List Node → List ConversionError
  | [] => []
  | .element _ :: rest => faultsIn rest
  | _ :: rest => faultsAfterFirst rest

/-- What is wrong with the items of a list whose element is named `list`. -/
def itemFaults (list : String) : List Node → List ConversionError
  | [] => []
  | .element (.mk _ name _ contents) :: rest =>
    (if name = "li" then faultsIn contents else [.unexpected name (.list list)]) ++ itemFaults list rest
  | _ :: rest => itemFaults list rest

/-- What is wrong with a list of definitions, from where a term has to come. -/
def termFaults : List Node → List ConversionError
  | [] => []
  | .element e :: rest =>
    if e.name = "dt" then lineFaultsIn (unwrapped e).contents ++ descriptionFaults e.text rest
    else .unexpected e.name .definitionList :: termFaults rest
  | _ :: rest => termFaults rest

/-- What is wrong with a list of definitions, from where the description of a term has to come. -/
def descriptionFaults (label : String) : List Node → List ConversionError
  | [] => [.missing (.description label)]
  | .element (.mk _ name _ contents) :: rest =>
    (if name = "dd" then faultsIn contents else [.unexpected name (.afterTerm label)]) ++ termFaults rest
  | _ :: rest => descriptionFaults label rest

end

section
variable (anchors : AnchorTable) (inLines : Bool)

mutual

theorem failure?_block (inLines : Bool) : ∀ e : Element,
    failure? (block anchors inLines e) = (faults e).head?
  | .mk space name attrs contents => by
    simp only [block, faults]
    cases BlockKind.ofName name with
    | heading | paragraph => exact failure?_bind_pure (failure?_inlines anchors contents)
    | list => exact failure?_bind_pure (failure?_items _ name contents)
    | table => exact failure?_bind_pure (failure?_tableOf anchors (.mk space name attrs contents))
    | definitions => exact failure?_bind_pure (failure?_terms inLines contents)
    | division =>
      dsimp only
      cases DivisionKind.of (.mk space name attrs contents) with
      | container => exact failure?_blocks inLines contents
      | listing | kept => rfl
      | admonition => exact failure?_bind_pure (failure?_blocksAfterFirst inLines contents)
    | other => exact failure?_bind_pure (failure?_inline anchors (.mk space name attrs contents))

theorem failure?_blocks (inLines : Bool) : ∀ nodes : List Node,
    failure? (blocks anchors inLines nodes) = (faultsIn nodes).head?
  | [] => rfl
  | .element e :: rest => by
    simp only [blocks, faultsIn]
    exact failure?_bind (failure?_block inLines e) fun _ => failure?_bind_pure (failure?_blocks inLines rest)
  | .text _ :: rest | .comment _ :: rest | .fragment _ :: rest => by
    simp only [blocks, faultsIn]
    exact failure?_blocks inLines rest

theorem failure?_blocksAfterFirst (inLines : Bool) : ∀ nodes : List Node,
    failure? (blocksAfterFirst anchors inLines nodes) = (faultsAfterFirst nodes).head?
  | [] => rfl
  | .element _ :: rest => by
    simp only [blocksAfterFirst, faultsAfterFirst]
    exact failure?_blocks inLines rest
  | .text _ :: rest | .comment _ :: rest | .fragment _ :: rest => by
    simp only [blocksAfterFirst, faultsAfterFirst]
    exact failure?_blocksAfterFirst inLines rest

theorem failure?_items (inLines : Bool) (list : String) : ∀ nodes : List Node,
    failure? (items anchors inLines list nodes) = (itemFaults list nodes).head?
  | [] => rfl
  | .element (.mk _ name _ contents) :: rest => by
    simp only [items, itemFaults]
    by_cases hname : name = "li"
    · rw [if_pos hname, if_neg (not_not_intro hname)]
      exact failure?_bind (failure?_blocks inLines contents) fun _ =>
        failure?_bind_pure (failure?_items inLines list rest)
    · rw [if_neg hname, if_pos hname]
      rfl
  | .text _ :: rest | .comment _ :: rest | .fragment _ :: rest => by
    simp only [items, itemFaults]
    exact failure?_items inLines list rest

theorem failure?_terms (inLines : Bool) : ∀ nodes : List Node,
    failure? (terms anchors inLines nodes) = (termFaults nodes).head?
  | [] => by simp only [terms, termFaults]; rfl
  | .element e :: rest => by
    simp only [terms, termFaults]
    by_cases hname : e.name = "dt"
    · rw [if_pos hname, if_neg (not_not_intro hname)]
      exact failure?_bind (failure?_unwrappedInlines anchors e) fun term =>
        failure?_descriptions inLines term e.text rest
    · rw [if_neg hname, if_pos hname]
      rfl
  | .text _ :: rest | .comment _ :: rest | .fragment _ :: rest => by
    simp only [terms, termFaults]
    exact failure?_terms inLines rest

theorem failure?_descriptions (inLines : Bool) (term : List Inline) (label : String) :
    ∀ nodes : List Node,
      failure? (descriptions anchors inLines term label nodes) = (descriptionFaults label nodes).head?
  | [] => by simp only [descriptions, descriptionFaults]; rfl
  | .element (.mk _ name _ contents) :: rest => by
    simp only [descriptions, descriptionFaults]
    by_cases hname : name = "dd"
    · rw [if_pos hname, if_neg (not_not_intro hname)]
      exact failure?_bind (failure?_blocks inLines contents) fun _ =>
        failure?_bind_pure (failure?_terms inLines rest)
    · rw [if_neg hname, if_pos hname]
      rfl
  | .text _ :: rest | .comment _ :: rest | .fragment _ :: rest => by
    simp only [descriptions, descriptionFaults]
    exact failure?_descriptions inLines term label rest

end

end

/-! ## Pages -/

/-- What is wrong with a page that is to become a document. -/
def pageFaults (page : Page) : List ConversionError :=
  match page.body? with
  | none => [.missing .body]
  | some b =>
    match b.descendants.find? isMainContent with
    | none => [.missing .mainContent]
    | some content => faultsIn content.contents

/-- **A conversion fails with the first fault of its page,** and gives a document when there is none. -/
theorem failure?_pageDocument (page : Page) (anchors : AnchorTable) :
    failure? (pageDocument page anchors) = (pageFaults page).head? := by
  unfold pageDocument pageFaults body
  cases page.body? with
  | none => rfl
  | some b =>
    simp only [← map_mainContent?, bind, Except.bind]
    cases mainContent? b with
    | none => rfl
    | some content => exact failure?_bind_pure (failure?_blocks anchors _ content.element.contents)

end Chapter

end BookCatalog
