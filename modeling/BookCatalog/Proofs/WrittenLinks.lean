import BookCatalog.Chapter

/-!
# Links as they are written

The conversion of a chapter asks its table of anchors for the destinations of links and for nothing
else. So a chapter has one tree in which every link still leads where its page says, and the document
under a table is that tree with each destination resolved (`resolves_pageDocument`). Whether a chapter
can be converted at all, and the error if it cannot, do not depend on the table.
-/

namespace BookCatalog

/-- A part of a markup tree, whose links can be led elsewhere. -/
class HasLinks (α : Type) where
  /-- The part with `f` applied to the destination of every link. -/
  relink : (String → String) → α → α

open HasLinks (relink)

mutual

/-- Inline content with `f` applied to the destination of every link. -/
def Inline.relink (f : String → String) : Inline → Inline
  | .text literal => .text literal
  | .emphasis content => .emphasis (Inline.relinkAll f content)
  | .strong content => .strong (Inline.relinkAll f content)
  | .code literal => .code literal
  | .html literal => .html literal
  | .link destination content => .link (f destination) (Inline.relinkAll f content)
  | .image source => .image source
  | .symbolLink symbol => .symbolLink symbol

/-- A line with `f` applied to the destination of every link. -/
def Inline.relinkAll (f : String → String) : List Inline → List Inline
  | [] => []
  | i :: rest => i.relink f :: Inline.relinkAll f rest

end

mutual

/-- A block with `f` applied to the destination of every link. -/
def Block.relink (f : String → String) : Block → Block
  | .heading level content => .heading level (Inline.relinkAll f content)
  | .paragraph content => .paragraph (Inline.relinkAll f content)
  | .list ordered items => .list ordered (Block.relinkItems f items)
  | .table header rows =>
    .table (header.map (Inline.relinkAll f)) (rows.map (·.map (Inline.relinkAll f)))
  | .blockQuote children => .blockQuote (Block.relinkAll f children)
  | .codeBlock language literal => .codeBlock language literal
  | .htmlBlock literal => .htmlBlock literal

/-- A list of blocks with `f` applied to the destination of every link. -/
def Block.relinkAll (f : String → String) : List Block → List Block
  | [] => []
  | b :: rest => b.relink f :: Block.relinkAll f rest

/-- The items of a list with `f` applied to the destination of every link. -/
def Block.relinkItems (f : String → String) : List (List Block) → List (List Block)
  | [] => []
  | item :: rest => Block.relinkAll f item :: Block.relinkItems f rest

end

instance : HasLinks Inline := ⟨Inline.relink⟩
instance : HasLinks Block := ⟨Block.relink⟩
instance {α : Type} [HasLinks α] : HasLinks (List α) := ⟨fun f => List.map (relink f)⟩
instance {α : Type} [HasLinks α] : HasLinks (Option α) := ⟨fun f => Option.map (relink f)⟩
instance {α β : Type} [HasLinks α] [HasLinks β] : HasLinks (α × β) :=
  ⟨fun f => Prod.map (relink f) (relink f)⟩
instance : HasLinks Document := ⟨fun f d => ⟨relink f d.children⟩⟩

section
variable {α β : Type} [HasLinks α] [HasLinks β] (f : String → String)

@[simp] theorem relink_nil : relink f ([] : List α) = [] := rfl

@[simp] theorem relink_cons (a : α) (as : List α) :
    relink f (a :: as) = relink f a :: relink f as := rfl

@[simp] theorem relink_append (as bs : List α) :
    relink f (as ++ bs) = relink f as ++ relink f bs := List.map_append

@[simp] theorem relink_none : relink f (none : Option α) = none := rfl

@[simp] theorem relink_some (a : α) : relink f (some a) = some (relink f a) := rfl

@[simp] theorem relink_mk (a : α) (b : β) : relink f (a, b) = (relink f a, relink f b) := rfl

end

section
variable (f : String → String)

theorem relinkAll_inlines : ∀ content : List Inline, Inline.relinkAll f content = relink f content
  | [] => rfl
  | i :: rest => by rw [Inline.relinkAll, relinkAll_inlines rest]; rfl

theorem relinkAll_blocks : ∀ blocks : List Block, Block.relinkAll f blocks = relink f blocks
  | [] => rfl
  | b :: rest => by rw [Block.relinkAll, relinkAll_blocks rest]; rfl

theorem relinkItems_blocks : ∀ items : List (List Block), Block.relinkItems f items = relink f items
  | [] => rfl
  | item :: rest => by rw [Block.relinkItems, relinkAll_blocks, relinkItems_blocks rest]; rfl

/-! ## Links of single parts -/

@[simp] theorem relink_text (s : String) : relink f (Inline.text s) = .text s := rfl

@[simp] theorem relink_code (s : String) : relink f (Inline.code s) = .code s := rfl

@[simp] theorem relink_html (s : String) : relink f (Inline.html s) = .html s := rfl

@[simp] theorem relink_image (source : Option String) : relink f (Inline.image source) = .image source := rfl

@[simp] theorem relink_symbolLink (s : String) : relink f (Inline.symbolLink s) = .symbolLink s := rfl

@[simp] theorem relink_emphasis (content : List Inline) :
    relink f (Inline.emphasis content) = .emphasis (relink f content) :=
  congrArg Inline.emphasis (relinkAll_inlines f content)

@[simp] theorem relink_strong (content : List Inline) :
    relink f (Inline.strong content) = .strong (relink f content) :=
  congrArg Inline.strong (relinkAll_inlines f content)

@[simp] theorem relink_link (destination : String) (content : List Inline) :
    relink f (Inline.link destination content) = .link (f destination) (relink f content) :=
  congrArg (Inline.link (f destination)) (relinkAll_inlines f content)

@[simp] theorem relink_heading (level : Nat) (content : List Inline) :
    relink f (Block.heading level content) = .heading level (relink f content) :=
  congrArg (Block.heading level) (relinkAll_inlines f content)

@[simp] theorem relink_paragraph (content : List Inline) :
    relink f (Block.paragraph content) = .paragraph (relink f content) :=
  congrArg Block.paragraph (relinkAll_inlines f content)

@[simp] theorem relink_list (ordered : Bool) (items : List (List Block)) :
    relink f (Block.list ordered items) = .list ordered (relink f items) :=
  congrArg (Block.list ordered) (relinkItems_blocks f items)

@[simp] theorem relink_table (header : List Cell) (rows : List (List Cell)) :
    relink f (Block.table header rows) = .table (relink f header) (relink f rows) := by
  have h : Inline.relinkAll f = relink f := funext (relinkAll_inlines f)
  have ht : relink f (Block.table header rows) =
    .table (header.map (Inline.relinkAll f)) (rows.map (·.map (Inline.relinkAll f))) := rfl
  rw [ht, h]; rfl

@[simp] theorem relink_blockQuote (children : List Block) :
    relink f (Block.blockQuote children) = .blockQuote (relink f children) :=
  congrArg Block.blockQuote (relinkAll_blocks f children)

@[simp] theorem relink_codeBlock (language : Option String) (literal : String) :
    relink f (Block.codeBlock language literal) = .codeBlock language literal := rfl

@[simp] theorem relink_htmlBlock (literal : String) :
    relink f (Block.htmlBlock literal) = .htmlBlock literal := rfl

end

/-! ## Results that use the anchors for links only -/

/-- Whatever the table of anchors, the result is one and the same written form with the destination of
every link resolved against it. -/
def Resolves {α : Type} [HasLinks α] (x : AnchorTable → Except ConversionError α) : Prop :=
  ∃ written : Except ConversionError α, ∀ anchors,
    x anchors = written.map (relink (Link.destination · anchors))

namespace Resolves

variable {α β : Type} [HasLinks α] [HasLinks β]

theorem of_ok {x : AnchorTable → Except ConversionError α} (a : α)
    (h : ∀ anchors, x anchors = .ok (relink (Link.destination · anchors) a)) : Resolves x := ⟨.ok a, h⟩

theorem of_error {x : AnchorTable → Except ConversionError α} (e : ConversionError)
    (h : ∀ anchors, x anchors = .error e) : Resolves x := ⟨.error e, h⟩

theorem bind {x : AnchorTable → Except ConversionError α}
    {g : AnchorTable → α → Except ConversionError β} (hx : Resolves x)
    (hg : ∀ a, Resolves fun anchors => g anchors (relink (Link.destination · anchors) a)) :
    Resolves fun anchors => x anchors >>= g anchors := by
  obtain ⟨written, hw⟩ := hx
  cases written with
  | error e =>
    refine ⟨.error e, fun anchors => ?_⟩
    show x anchors >>= g anchors = _
    rw [hw]; rfl
  | ok a =>
    obtain ⟨w, h⟩ := hg a
    refine ⟨w, fun anchors => ?_⟩
    show x anchors >>= g anchors = _
    rw [hw, ← h]; rfl

/-- A result is given under all tables or under none, and the error is the same under all. -/
theorem ok_iff {x : AnchorTable → Except ConversionError α} (hx : Resolves x) (a b : AnchorTable) :
    (∃ y, x a = .ok y) ↔ ∃ y, x b = .ok y := by
  obtain ⟨written, hw⟩ := hx
  cases written with
  | error e => simp [hw, Except.map]
  | ok y => simp [hw, Except.map]

end Resolves

namespace Chapter

open BookCatalog.Html

/-! ## Inline content -/

theorem relink_textRuns (f : String → String) (runs : List String) :
    relink f (runs.map textRun) = runs.map textRun := by
  induction runs with
  | nil => rfl
  | cons s rest ih => simp only [List.map_cons, relink_cons, ih]; rfl

mutual

theorem resolves_inline : ∀ e : Element, Resolves fun anchors => inline anchors e
  | .mk space name attrs contents => by
    simp only [inline]
    cases InlineKind.ofName name with
    | link =>
      let e := Element.mk space name attrs contents
      refine .of_ok (.link ((e.attr? "href").getD "") (e.textRuns.map textRun)) fun anchors => ?_
      rw [relink_link, relink_textRuns]; rfl
    | image => exact .of_ok (imageOf (.mk space name attrs contents)) fun _ => rfl
    | emphasis =>
      refine (resolves_inlines contents).bind fun content => ?_
      exact .of_ok (.emphasis content) fun anchors => by rw [relink_emphasis]; rfl
    | strong =>
      refine (resolves_inlines contents).bind fun content => ?_
      exact .of_ok (.strong content) fun anchors => by rw [relink_strong]; rfl
    | code => exact .of_ok (.code _) fun _ => rfl
    | kept => exact .of_ok (.html _) fun _ => rfl
    | unknown => exact .of_error _ fun _ => rfl

theorem resolves_inlines : ∀ nodes : List Node, Resolves fun anchors => inlines anchors nodes
  | [] => .of_ok [] fun _ => rfl
  | .text s :: rest => by
    simp only [inlines]
    refine (resolves_inlines rest).bind fun content => ?_
    exact .of_ok (textRun s :: content) fun _ => rfl
  | .element e :: rest => by
    simp only [inlines]
    refine (resolves_inline e).bind fun first => (resolves_inlines rest).bind fun content => ?_
    exact .of_ok (first :: content) fun _ => rfl
  | .comment _ :: rest | .fragment _ :: rest => by
    simp only [inlines]
    exact resolves_inlines rest

end

theorem resolves_firstElementInlines (nodes : List Node) :
    Resolves fun anchors => firstElementInlines anchors nodes := by
  induction nodes with
  | nil => exact .of_ok [] fun _ => rfl
  | cons node rest ih =>
    cases node with
    | element e => exact resolves_inlines e.contents
    | text | comment | fragment => exact ih

theorem resolves_unwrappedInlines (nodes : List Node) :
    Resolves fun anchors => unwrappedInlines anchors nodes := by
  unfold unwrappedInlines
  split
  · exact resolves_firstElementInlines nodes
  · exact resolves_inlines nodes

/-! ## Tables -/

theorem resolves_cells (nodes : List Node) : Resolves fun anchors => cells anchors nodes := by
  induction nodes with
  | nil => exact .of_ok [] fun _ => rfl
  | cons node rest ih =>
    cases node with
    | element e =>
      simp only [cells]
      split
      · exact .of_error _ fun _ => rfl
      · refine (resolves_unwrappedInlines e.contents).bind fun first => ?_
        refine ih.bind fun more => ?_
        exact .of_ok (first :: more) fun _ => rfl
    | text | comment | fragment => exact ih

theorem resolves_row (e : Element) : Resolves fun anchors => row anchors e := by
  unfold row
  split
  · exact resolves_cells e.contents
  · exact .of_error _ fun _ => rfl

theorem resolves_rows (nodes : List Node) : Resolves fun anchors => rows anchors nodes := by
  induction nodes with
  | nil => exact .of_ok [] fun _ => rfl
  | cons node rest ih =>
    cases node with
    | element e =>
      refine (resolves_row e).bind fun first => ih.bind fun more => ?_
      exact .of_ok (first :: more) fun _ => rfl
    | text | comment | fragment => exact ih

theorem resolves_firstRow? (nodes : List Node) : Resolves fun anchors => firstRow? anchors nodes := by
  induction nodes with
  | nil => exact .of_ok none fun _ => rfl
  | cons node rest ih =>
    cases node with
    | element e => exact (resolves_row e).bind fun first => .of_ok (some first) fun _ => rfl
    | text | comment | fragment => exact ih

theorem resolves_tableParts (nodes : List Node) : Resolves fun anchors => tableParts anchors nodes := by
  induction nodes with
  | nil => exact .of_ok (none, []) fun _ => rfl
  | cons node rest ih =>
    cases node with
    | element e =>
      simp only [tableParts]
      split
      · refine (resolves_firstRow? e.contents).bind fun header => ?_
        refine ih.bind fun (later, more) => ?_
        exact .of_ok (later <|> header, more) fun _ => by cases later <;> rfl
      · split
        · refine (resolves_rows e.contents).bind fun first => ?_
          refine ih.bind fun (header, more) => ?_
          exact .of_ok (header, first ++ more) fun f => by simp only [relink_mk, relink_append]; rfl
        · exact ih
    | text | comment | fragment => exact ih

theorem resolves_tableOf (nodes : List Node) : Resolves fun anchors => tableOf anchors nodes := by
  unfold tableOf
  refine (resolves_tableParts nodes).bind fun (header, rows) => ?_
  refine .of_ok (.table (header.getD []) rows) fun _ => ?_
  rw [relink_table]
  cases header <;> rfl

/-! ## Blocks -/

theorem relink_withTitle (f : String → String) (title : String) (blocks : List Block) :
    relink f (withTitle title blocks) = withTitle title (relink f blocks) := by
  match blocks with
  | [] => rfl
  | .paragraph [] :: _ | .heading _ [] :: _ => rfl
  | .paragraph (i :: content) :: rest => cases i <;> simp [withTitle]
  | .heading level (i :: content) :: rest => cases i <;> simp [withTitle]
  | .list _ _ :: _ | .table _ _ :: _ | .blockQuote _ :: _ | .codeBlock _ _ :: _ | .htmlBlock _ :: _ =>
    simp [withTitle]

theorem relink_withTerm (f : String → String) (term : List Inline) (blocks : List Block) :
    relink f (withTerm term blocks) = withTerm (relink f term) (relink f blocks) := by
  match blocks with
  | [] => simp [withTerm, termLine]
  | b :: rest => cases b <;> simp [withTerm, termLine]

mutual

theorem resolves_block (inLines : Bool) : ∀ e : Element, Resolves fun anchors => block anchors inLines e
  | .mk space name attrs contents => by
    simp only [block]
    cases BlockKind.ofName name with
    | heading level =>
      refine (resolves_inlines contents).bind fun content => ?_
      exact .of_ok [.heading level content] fun _ => by rw [relink_cons, relink_heading]; rfl
    | list ordered =>
      refine (resolves_items _ name contents).bind fun items => ?_
      exact .of_ok [.list ordered items] fun _ => by rw [relink_cons, relink_list]; rfl
    | paragraph =>
      refine (resolves_inlines contents).bind fun content => ?_
      exact .of_ok [.paragraph content] fun _ => by rw [relink_cons, relink_paragraph]; rfl
    | table =>
      refine (resolves_tableOf contents).bind fun table => ?_
      exact .of_ok [table] fun _ => rfl
    | definitions =>
      refine (resolves_terms inLines contents).bind fun items => ?_
      exact .of_ok [.list false items] fun _ => by rw [relink_cons, relink_list]; rfl
    | division =>
      dsimp only
      cases DivisionKind.of (.mk space name attrs contents) with
      | container => exact resolves_blocks inLines contents
      | listing => exact .of_ok [.codeBlock _ _] fun _ => rfl
      | admonition title =>
        refine (resolves_blocksAfterFirst inLines contents).bind fun blocks => ?_
        refine .of_ok [.blockQuote (withTitle (title ++ ": ") blocks)] fun _ => ?_
        rw [relink_cons, relink_blockQuote, relink_withTitle]; rfl
      | kept => exact .of_ok [.htmlBlock _] fun _ => rfl
    | other =>
      refine (resolves_inline (.mk space name attrs contents)).bind fun i => ?_
      exact .of_ok [.paragraph [i]] fun _ => by rw [relink_cons, relink_paragraph]; rfl

theorem resolves_blocks (inLines : Bool) :
    ∀ nodes : List Node, Resolves fun anchors => blocks anchors inLines nodes
  | [] => .of_ok [] fun _ => rfl
  | .element e :: rest => by
    simp only [blocks]
    refine (resolves_block inLines e).bind fun first => ?_
    refine (resolves_blocks inLines rest).bind fun more => ?_
    exact .of_ok (first ++ more) fun _ => by rw [relink_append]; rfl
  | .text _ :: rest | .comment _ :: rest | .fragment _ :: rest => by
    simp only [blocks]
    exact resolves_blocks inLines rest

theorem resolves_blocksAfterFirst (inLines : Bool) :
    ∀ nodes : List Node, Resolves fun anchors => blocksAfterFirst anchors inLines nodes
  | [] => .of_ok [] fun _ => rfl
  | .element _ :: rest => by
    simp only [blocksAfterFirst]
    exact resolves_blocks inLines rest
  | .text _ :: rest | .comment _ :: rest | .fragment _ :: rest => by
    simp only [blocksAfterFirst]
    exact resolves_blocksAfterFirst inLines rest

theorem resolves_items (inLines : Bool) (list : String) :
    ∀ nodes : List Node, Resolves fun anchors => items anchors inLines list nodes
  | [] => .of_ok [] fun _ => rfl
  | .element (.mk _ name _ contents) :: rest => by
    simp only [items]
    split
    · exact .of_error _ fun _ => rfl
    · refine (resolves_blocks inLines contents).bind fun first => ?_
      refine (resolves_items inLines list rest).bind fun more => ?_
      exact .of_ok (first :: more) fun _ => rfl
  | .text _ :: rest | .comment _ :: rest | .fragment _ :: rest => by
    simp only [items]
    exact resolves_items inLines list rest

theorem resolves_terms (inLines : Bool) :
    ∀ nodes : List Node, Resolves fun anchors => terms anchors inLines nodes
  | [] => .of_ok [] fun _ => by simp only [terms]; rfl
  | .element e :: rest => by
    simp only [terms]
    split
    · exact .of_error _ fun _ => rfl
    · refine (resolves_unwrappedInlines e.contents).bind fun term => ?_
      exact resolves_descriptions inLines term e.text rest
  | .text _ :: rest | .comment _ :: rest | .fragment _ :: rest => by
    simp only [terms]
    exact resolves_terms inLines rest

theorem resolves_descriptions (inLines : Bool) (term : List Inline) (label : String) :
    ∀ nodes : List Node, Resolves fun anchors =>
      descriptions anchors inLines (relink (Link.destination · anchors) term) label nodes
  | [] => .of_error _ fun _ => by simp only [descriptions]; rfl
  | .element (.mk _ name _ contents) :: rest => by
    simp only [descriptions]
    split
    · exact .of_error _ fun _ => rfl
    · refine (resolves_blocks inLines contents).bind fun description => ?_
      refine (resolves_terms inLines rest).bind fun more => ?_
      refine .of_ok (withTerm term description :: more) fun _ => ?_
      rw [relink_cons, relink_withTerm]; rfl
  | .text _ :: rest | .comment _ :: rest | .fragment _ :: rest => by
    simp only [descriptions]
    exact resolves_descriptions inLines term label rest

end

/-- **The table of anchors resolves links and does nothing else.** -/
theorem resolves_pageDocument (page : Page) : Resolves fun anchors => pageDocument page anchors := by
  unfold pageDocument
  cases body page with
  | error e => exact .of_error e fun _ => rfl
  | ok b =>
    simp only [bind, Except.bind]
    cases mainContent? b with
    | none => exact .of_error _ fun _ => rfl
    | some content =>
      refine (resolves_blocks (standsInLines content) content.element.contents).bind fun blocks => ?_
      exact .of_ok (⟨blocks⟩ : Document) fun _ => rfl

end Chapter

end BookCatalog
