import BookCatalog.Proofs.Chapter.Faults
import BookCatalog.Proofs.TreeEquality

/-!
# The grammar of chapters

Which elements may stand where is said by a grammar: lines are made of inlines (`IsInline`), and a chapter
is made of blocks (`IsBlock`). Text and comments never count, and of a table only the sections do. A chapter
has a document when its page has a division with the content and all elements in it are blocks; otherwise
its conversion fails with the first fault of the page (`document_iff_grammar`).
-/

namespace BookCatalog.Chapter

open BookCatalog.Html

/-! ## The grammar -/

/-- The names of elements that may stand in a line whatever stands in them. -/
def wholeNames : List String := ["a", "img", "code", "sup", "span"]

/-- The names of elements that hold a line and may stand in one. -/
def formattingNames : List String := ["em", "strong"]

/-- An element that may stand in a line. -/
inductive IsInline : Element → Prop
  | whole {e : Element} : e.name ∈ wholeNames → IsInline e
  | formatting {e : Element} : e.name ∈ formattingNames → (∀ c ∈ e.childElements, IsInline c) → IsInline e

/-- An element that holds a line. -/
def IsLine (e : Element) : Prop := ∀ c ∈ e.childElements, IsInline c

/-- A cell of a table. A paragraph that is the only element in it does not count. -/
def IsCell (e : Element) : Prop := (e.name = "td" ∨ e.name = "th") ∧ IsLine (unwrapped e)

/-- A row of a table. -/
def IsRow (e : Element) : Prop := e.name = "tr" ∧ ∀ cell ∈ e.childElements, IsCell cell

/-- A table: the first element in a head is a row, and all elements in a body are rows. -/
def IsTable (e : Element) : Prop :=
  ∀ part ∈ e.childElements, (part.name = "thead" → ∀ row ∈ part.firstChild?, IsRow row) ∧
    (part.name = "tbody" → ∀ row ∈ part.childElements, IsRow row)

/-- The names of elements that hold a line. -/
def lineNames : List String := ["h1", "h2", "h3", "h4", "h5", "h6", "p"]

/-- The names of lists. -/
def listNames : List String := ["ul", "ol"]

/-- Terms and descriptions in turn, a term first and a description last, where all elements in a description
are as they are wanted. -/
inductive AreDefinitions (wanted : Element → Prop) : List Element → Prop
  | none : AreDefinitions wanted []
  | pair {term description : Element} {rest : List Element} : term.name = "dt" → IsLine (unwrapped term) →
      description.name = "dd" → (∀ c ∈ description.childElements, wanted c) → AreDefinitions wanted rest →
        AreDefinitions wanted (term :: description :: rest)

/-- An element that may stand among the blocks of a chapter. Of the rules for divisions the first one
counts that applies. -/
inductive IsBlock : Element → Prop
  | line {e : Element} : e.name ∈ lineNames → IsLine e → IsBlock e
  | list {e : Element} : e.name ∈ listNames → (∀ item ∈ e.childElements, item.name = "li") →
      (∀ item ∈ e.childElements, ∀ c ∈ item.childElements, IsBlock c) → IsBlock e
  | table {e : Element} : e.name = "table" → IsTable e → IsBlock e
  | definitions {e : Element} : e.name = "dl" → AreDefinitions IsBlock e.childElements → IsBlock e
  | spliced {e : Element} : IsSpliced e → (∀ c ∈ e.childElements, IsBlock c) → IsBlock e
  | listing {e : Element} : e.name = "div" → ¬IsSpliced e → e.hasClass "highlight-swift" = true → IsBlock e
  | admonition {e title : Element} : e.name = "div" → ¬IsSpliced e →
      e.hasClass "highlight-swift" = false → e.firstChild? = some title →
        title.hasClass "admonition-title" = true → (∀ c ∈ e.childElements.tail, IsBlock c) → IsBlock e
  | kept {e : Element} : e.name = "div" → ¬IsSpliced e → e.hasClass "highlight-swift" = false →
      (∀ title ∈ e.firstChild?, title.hasClass "admonition-title" = false) → IsBlock e
  | inline {e : Element} : IsInline e → IsBlock e

/-! ## Faults of lines -/

theorem lineFaults_of_whole {e : Element} (h : e.name ∈ wholeNames) : lineFaults e = [] := by
  cases e with
  | mk space name attrs contents =>
    simp only [Element.name, wholeNames, List.mem_cons, List.not_mem_nil, or_false] at h
    rcases h with rfl | rfl | rfl | rfl | rfl <;> rfl

theorem lineFaults_of_formatting {e : Element} (h : e.name ∈ formattingNames) :
    lineFaults e = lineFaultsIn e.contents := by
  cases e with
  | mk space name attrs contents =>
    simp only [Element.name, formattingNames, List.mem_cons, List.not_mem_nil, or_false] at h
    rcases h with rfl | rfl <;> rfl

theorem lineFaults_of_unknown {e : Element} (hwhole : e.name ∉ wholeNames)
    (hformatting : e.name ∉ formattingNames) : lineFaults e = [.unexpected e.name .inlineContent] := by
  cases e with
  | mk space name attrs contents =>
    have hkind : InlineKind.ofName name = .unknown := by
      unfold InlineKind.ofName
      split <;> simp_all [Element.name, wholeNames, formattingNames]
    simp only [lineFaults, hkind, Element.name]

theorem not_mem_wholeNames : ∀ name ∈ formattingNames, name ∉ wholeNames := by decide

theorem isInline_iff_isLine {e : Element} (h : e.name ∈ formattingNames) : IsInline e ↔ IsLine e := by
  refine ⟨fun hinline => ?_, IsInline.formatting h⟩
  cases hinline with
  | whole hname => exact absurd hname (not_mem_wholeNames e.name h)
  | formatting _ hline => exact hline

theorem not_isInline {e : Element} (hwhole : e.name ∉ wholeNames) (hformatting : e.name ∉ formattingNames) :
    ¬IsInline e
  | .whole h => hwhole h
  | .formatting h _ => hformatting h

mutual

theorem lineFaults_eq_nil_iff : ∀ e : Element, lineFaults e = [] ↔ IsInline e
  | .mk space name attrs contents => by
    by_cases hwhole : name ∈ wholeNames
    · exact iff_of_true (lineFaults_of_whole hwhole) (.whole hwhole)
    by_cases hformatting : name ∈ formattingNames
    · rw [lineFaults_of_formatting (e := .mk space name attrs contents) hformatting,
        isInline_iff_isLine (e := .mk space name attrs contents) hformatting]
      exact lineFaultsIn_eq_nil_iff contents
    · rw [lineFaults_of_unknown (e := .mk space name attrs contents) hwhole hformatting]
      exact iff_of_false (List.cons_ne_nil _ _) (not_isInline hwhole hformatting)

theorem lineFaultsIn_eq_nil_iff : ∀ nodes : List Node,
    lineFaultsIn nodes = [] ↔ ∀ c ∈ nodes.filterMap Node.element?, IsInline c
  | [] => by simp [lineFaultsIn]
  | .element e :: rest => by
    rw [lineFaultsIn, List.append_eq_nil_iff, lineFaults_eq_nil_iff, lineFaultsIn_eq_nil_iff,
      filterMap_element?_element, List.forall_mem_cons]
  | .text _ :: rest | .comment _ :: rest | .fragment _ :: rest => by
    simp only [lineFaultsIn]
    exact lineFaultsIn_eq_nil_iff rest

end

theorem lineFaultsIn_contents_eq_nil_iff (e : Element) : lineFaultsIn e.contents = [] ↔ IsLine e :=
  lineFaultsIn_eq_nil_iff e.contents

/-! ## Faults of tables -/

theorem cellFaults_eq_nil_iff (e : Element) : cellFaults e = [] ↔ IsCell e := by
  unfold cellFaults IsCell
  split
  · rename_i hname
    rw [lineFaultsIn_contents_eq_nil_iff, and_iff_right hname]
  · rename_i hname
    exact iff_of_false (List.cons_ne_nil _ _) fun h => hname h.1

theorem rowFaults_eq_nil_iff (e : Element) : rowFaults e = [] ↔ IsRow e := by
  unfold rowFaults IsRow
  split
  · rename_i hname
    simp only [List.flatMap_eq_nil_iff, cellFaults_eq_nil_iff, and_iff_right hname]
  · rename_i hname
    exact iff_of_false (List.cons_ne_nil _ _) fun h => hname h.1

theorem tableFaults_eq_nil_iff (e : Element) : tableFaults e = [] ↔ IsTable e := by
  rw [tableFaults, List.flatMap_eq_nil_iff]
  refine forall₂_congr fun part _ => ?_
  unfold sectionFaults
  split
  · rename_i hname
    simp [hname, rowFaults_eq_nil_iff]
  · rename_i hname
    split
    · rename_i hbody
      simp [hbody, rowFaults_eq_nil_iff]
    · rename_i hbody
      simp [hname, hbody]

/-! ## Faults of blocks -/

/-- The names of elements that a rule for blocks is about. -/
def blockNames : List String := lineNames ++ listNames ++ ["table", "dl", "div"]

theorem faults_of_line {e : Element} (h : e.name ∈ lineNames) : faults e = lineFaultsIn e.contents := by
  cases e with
  | mk space name attrs contents =>
    simp only [Element.name, lineNames, List.mem_cons, List.not_mem_nil, or_false] at h
    rcases h with rfl | rfl | rfl | rfl | rfl | rfl | rfl <;> simp only [faults] <;> rfl

theorem faults_of_list {e : Element} (h : e.name ∈ listNames) :
    faults e = itemFaults e.name e.contents := by
  cases e with
  | mk space name attrs contents =>
    simp only [Element.name, listNames, List.mem_cons, List.not_mem_nil, or_false] at h
    rcases h with rfl | rfl <;> simp only [faults] <;> rfl

theorem faults_of_table {e : Element} (h : e.name = "table") : faults e = tableFaults e := by
  cases e with
  | mk space name attrs contents =>
    obtain rfl : name = "table" := h
    simp only [faults]
    rfl

theorem faults_of_definitions {e : Element} (h : e.name = "dl") : faults e = termFaults e.contents := by
  cases e with
  | mk space name attrs contents =>
    obtain rfl : name = "dl" := h
    simp only [faults]
    rfl

section
variable {e : Element} (hname : e.name = "div")
include hname

theorem faults_of_container (h : DivisionKind.of e = .container) : faults e = faultsIn e.contents := by
  cases e with
  | mk space name attrs contents =>
    obtain rfl : name = "div" := hname
    have hkind : BlockKind.ofName "div" = .division := rfl
    simp only [faults, hkind, h]
    rfl

theorem faults_of_admonition {title : String} (h : DivisionKind.of e = .admonition title) :
    faults e = faultsAfterFirst e.contents := by
  cases e with
  | mk space name attrs contents =>
    obtain rfl : name = "div" := hname
    have hkind : BlockKind.ofName "div" = .division := rfl
    simp only [faults, hkind, h]
    rfl

theorem faults_of_whole_division (h : DivisionKind.of e = .listing ∨ DivisionKind.of e = .kept) :
    faults e = [] := by
  cases e with
  | mk space name attrs contents =>
    obtain rfl : name = "div" := hname
    have hkind : BlockKind.ofName "div" = .division := rfl
    rcases h with h | h <;> simp only [faults, hkind, h]

end

theorem faults_of_other {e : Element} (h : e.name ∉ blockNames) : faults e = lineFaults e := by
  cases e with
  | mk space name attrs contents =>
    have hkind : BlockKind.ofName name = .other := by
      unfold BlockKind.ofName
      split <;> simp_all [Element.name, blockNames, lineNames, listNames]
    simp only [faults, hkind]

/-! ## Faults of the elements in a block -/

theorem faultsIn_eq_nil_iff (nodes : List Node) :
    faultsIn nodes = [] ↔ ∀ c ∈ nodes.filterMap Node.element?, faults c = [] := by
  induction nodes with
  | nil => simp [faultsIn]
  | cons node rest ih =>
    cases node with
    | element e =>
      rw [faultsIn, List.append_eq_nil_iff, ih, filterMap_element?_element, List.forall_mem_cons]
    | text | comment | fragment =>
      simp only [faultsIn]
      exact ih

theorem faultsIn_contents_eq_nil_iff (e : Element) :
    faultsIn e.contents = [] ↔ ∀ c ∈ e.childElements, faults c = [] :=
  faultsIn_eq_nil_iff e.contents

theorem faultsAfterFirst_eq_nil_iff (nodes : List Node) :
    faultsAfterFirst nodes = [] ↔ ∀ c ∈ (nodes.filterMap Node.element?).tail, faults c = [] := by
  induction nodes with
  | nil => simp [faultsAfterFirst]
  | cons node rest ih =>
    cases node with
    | element e => rw [faultsAfterFirst, faultsIn_eq_nil_iff, filterMap_element?_element, List.tail_cons]
    | text | comment | fragment =>
      simp only [faultsAfterFirst]
      exact ih

theorem itemFaults_eq_nil_iff (list : String) (nodes : List Node) : itemFaults list nodes = [] ↔
    ∀ item ∈ nodes.filterMap Node.element?, item.name = "li" ∧ ∀ c ∈ item.childElements, faults c = [] := by
  induction nodes with
  | nil => simp [itemFaults]
  | cons node rest ih =>
    cases node with
    | element e =>
      obtain ⟨space, name, attrs, contents⟩ := e
      rw [itemFaults, List.append_eq_nil_iff, ih, filterMap_element?_element, List.forall_mem_cons,
        ← faultsIn_contents_eq_nil_iff, Element.name, Element.contents]
      refine and_congr_left fun _ => ?_
      by_cases hname : name = "li"
      · rw [if_pos hname, and_iff_right hname]
      · rw [if_neg hname]
        exact iff_of_false (List.cons_ne_nil _ _) fun h => hname h.1
    | text | comment | fragment =>
      simp only [itemFaults]
      exact ih

theorem areDefinitions_cons_iff {wanted : Element → Prop} {term : Element} {after : List Element} :
    AreDefinitions wanted (term :: after) ↔ term.name = "dt" ∧ IsLine (unwrapped term) ∧
      ∃ description rest, after = description :: rest ∧ description.name = "dd" ∧
        (∀ c ∈ description.childElements, wanted c) ∧ AreDefinitions wanted rest := by
  constructor
  · rintro (_ | ⟨hterm, hline, hdescription, hwanted, hrest⟩)
    exact ⟨hterm, hline, _, _, rfl, hdescription, hwanted, hrest⟩
  · rintro ⟨hterm, hline, description, rest, rfl, hdescription, hwanted, hrest⟩
    exact .pair hterm hline hdescription hwanted hrest

mutual

theorem termFaults_eq_nil_iff : ∀ nodes : List Node, termFaults nodes = [] ↔
    AreDefinitions (faults · = []) (nodes.filterMap Node.element?)
  | [] => by
    rw [termFaults]
    exact iff_of_true rfl .none
  | .element e :: rest => by
    rw [termFaults, filterMap_element?_element, areDefinitions_cons_iff]
    split
    · rename_i hname
      rw [List.append_eq_nil_iff, lineFaultsIn_contents_eq_nil_iff, descriptionFaults_eq_nil_iff,
        and_iff_right hname]
    · rename_i hname
      exact iff_of_false (List.cons_ne_nil _ _) fun h => hname h.1
  | .text _ :: rest | .comment _ :: rest | .fragment _ :: rest => by
    simp only [termFaults]
    exact termFaults_eq_nil_iff rest

theorem descriptionFaults_eq_nil_iff (label : String) : ∀ nodes : List Node,
    descriptionFaults label nodes = [] ↔ ∃ description rest,
      nodes.filterMap Node.element? = description :: rest ∧ description.name = "dd" ∧
        (∀ c ∈ description.childElements, faults c = []) ∧ AreDefinitions (faults · = []) rest
  | [] => by simp [descriptionFaults]
  | .element (.mk space name attrs contents) :: rest => by
    rw [descriptionFaults, List.append_eq_nil_iff, termFaults_eq_nil_iff, filterMap_element?_element]
    constructor
    · rintro ⟨hfirst, hrest⟩
      split at hfirst
      · rename_i hname
        exact ⟨_, _, rfl, hname, (faultsIn_eq_nil_iff contents).1 hfirst, hrest⟩
      · exact absurd hfirst (List.cons_ne_nil _ _)
    · rintro ⟨description, more, h, hname, hblocks, hrest⟩
      cases h
      rw [Element.name] at hname
      rw [if_pos hname]
      exact ⟨(faultsIn_eq_nil_iff contents).2 hblocks, hrest⟩
  | .text _ :: rest | .comment _ :: rest | .fragment _ :: rest => by
    simp only [descriptionFaults]
    exact descriptionFaults_eq_nil_iff label rest

end

/-! ## Blocks have no faults, and only they -/

theorem IsInline.name_not_mem_blockNames {e : Element} (h : IsInline e) : e.name ∉ blockNames := by
  have hwhole : ∀ name ∈ wholeNames, name ∉ blockNames := by decide
  have hformatting : ∀ name ∈ formattingNames, name ∉ blockNames := by decide
  cases h with
  | whole hname => exact hwhole e.name hname
  | formatting hname _ => exact hformatting e.name hname

mutual

-- By recursion on how the element came to be a block: each rule leaves the elements that it asks about.
theorem IsBlock.faults_eq_nil : ∀ {e : Element}, IsBlock e → faults e = []
  | e, .line hname hline => by
    rw [faults_of_line hname]
    exact (lineFaultsIn_contents_eq_nil_iff e).2 hline
  | e, .list hname hitems hblocks => by
    rw [faults_of_list hname]
    exact (itemFaults_eq_nil_iff _ _).2 fun item hitem =>
      ⟨hitems item hitem, fun c hc => (hblocks item hitem c hc).faults_eq_nil⟩
  | e, .table hname htable => by
    rw [faults_of_table hname]
    exact (tableFaults_eq_nil_iff e).2 htable
  | e, .definitions hname hdefinitions => by
    rw [faults_of_definitions hname]
    exact (termFaults_eq_nil_iff _).2 hdefinitions.without_faults
  | e, .spliced h hblocks => by
    rw [faults_of_container h.1 (divisionKind_of_isSpliced h)]
    exact (faultsIn_contents_eq_nil_iff e).2 fun c hc => (hblocks c hc).faults_eq_nil
  | e, .listing hname hspliced hclass =>
    faults_of_whole_division hname (.inl (divisionKind_of_listing hname hspliced hclass))
  | e, .admonition hname hspliced hclass hfirst htitle hblocks => by
    rw [faults_of_admonition hname (divisionKind_of_admonition hname hspliced hclass hfirst htitle)]
    exact (faultsAfterFirst_eq_nil_iff _).2 fun c hc => (hblocks c hc).faults_eq_nil
  | e, .kept hname hspliced hclass hfirst =>
    faults_of_whole_division hname (.inr (divisionKind_of_kept hname hspliced hclass hfirst))
  | e, .inline h => by
    rw [faults_of_other h.name_not_mem_blockNames]
    exact (lineFaults_eq_nil_iff e).2 h

theorem AreDefinitions.without_faults : ∀ {l : List Element}, AreDefinitions IsBlock l →
    AreDefinitions (faults · = []) l
  | _, .none => .none
  | _, .pair hterm hline hdescription hblocks hrest =>
    .pair hterm hline hdescription (fun c hc => (hblocks c hc).faults_eq_nil) hrest.without_faults

end

theorem sizeOf_lt_of_mem_childElements {c e : Element} (h : c ∈ e.childElements) : sizeOf c < sizeOf e := by
  cases e with
  | mk space name attrs contents =>
    obtain ⟨node, hnode, helement⟩ := List.mem_filterMap.1 h
    have hlt := List.sizeOf_lt_of_mem hnode
    cases node <;> cases helement
    simp only [Element.contents, Node.element.sizeOf_spec, Element.mk.sizeOf_spec] at hlt ⊢
    omega

theorem AreDefinitions.imp {wanted known : Element → Prop} {l : List Element} (h : AreDefinitions wanted l)
    (himp : ∀ description ∈ l, ∀ c ∈ description.childElements, wanted c → known c) :
    AreDefinitions known l := by
  induction h with
  | none => exact .none
  | pair hterm hline hdescription hwanted hrest ih =>
    simp only [List.forall_mem_cons] at himp
    exact .pair hterm hline hdescription (fun c hc => himp.2.1 c hc (hwanted c hc)) (ih himp.2.2)

/-- An element without faults is a block, by recursion on its size: the blocks in an item or in a description
stand two levels below the list, so the recursion is not structural. -/
theorem isBlock_of_faults_eq_nil (e : Element) (h : faults e = []) : IsBlock e := by
  by_cases hline : e.name ∈ lineNames
  · rw [faults_of_line hline] at h
    exact .line hline ((lineFaultsIn_contents_eq_nil_iff e).1 h)
  by_cases hlist : e.name ∈ listNames
  · rw [faults_of_list hlist, itemFaults_eq_nil_iff] at h
    exact .list hlist (fun item hitem => (h item hitem).1) fun item hitem c hc =>
      isBlock_of_faults_eq_nil c ((h item hitem).2 c hc)
  by_cases htable : e.name = "table"
  · rw [faults_of_table htable] at h
    exact .table htable ((tableFaults_eq_nil_iff e).1 h)
  by_cases hdefinitions : e.name = "dl"
  · rw [faults_of_definitions hdefinitions, termFaults_eq_nil_iff] at h
    exact .definitions hdefinitions (h.imp fun description hdescription c hc =>
      isBlock_of_faults_eq_nil c)
  by_cases hname : e.name = "div"
  · by_cases hspliced : IsSpliced e
    · rw [faults_of_container hname (divisionKind_of_isSpliced hspliced), faultsIn_contents_eq_nil_iff] at h
      exact .spliced hspliced fun c hc => isBlock_of_faults_eq_nil c (h c hc)
    by_cases hlisting : e.hasClass "highlight-swift" = true
    · exact .listing hname hspliced hlisting
    rw [Bool.not_eq_true] at hlisting
    by_cases hkept : ∀ title ∈ e.firstChild?, title.hasClass "admonition-title" = false
    · exact .kept hname hspliced hlisting hkept
    -- What is left is a division whose first element is a title.
    simp only [Option.mem_def, not_forall, Bool.not_eq_false] at hkept
    obtain ⟨title, hfirst, htitle⟩ := hkept
    rw [faults_of_admonition hname (divisionKind_of_admonition hname hspliced hlisting hfirst htitle),
      faultsAfterFirst_eq_nil_iff] at h
    exact .admonition hname hspliced hlisting hfirst htitle fun c hc => isBlock_of_faults_eq_nil c (h c hc)
  · have hother : e.name ∉ blockNames := by
      simp only [blockNames, List.mem_append, List.mem_cons, List.not_mem_nil, or_false, not_or]
      exact ⟨⟨hline, hlist⟩, htable, hdefinitions, hname⟩
    rw [faults_of_other hother] at h
    exact .inline ((lineFaults_eq_nil_iff e).1 h)
termination_by sizeOf e
decreasing_by
  · exact Nat.lt_trans (sizeOf_lt_of_mem_childElements hc) (sizeOf_lt_of_mem_childElements hitem)
  · exact Nat.lt_trans (sizeOf_lt_of_mem_childElements hc) (sizeOf_lt_of_mem_childElements hdescription)
  · exact sizeOf_lt_of_mem_childElements hc
  · exact sizeOf_lt_of_mem_childElements (List.mem_of_mem_tail hc)

/-- **Nothing is wrong with an element exactly when it is a block.** -/
theorem faults_eq_nil_iff (e : Element) : faults e = [] ↔ IsBlock e :=
  ⟨isBlock_of_faults_eq_nil e, IsBlock.faults_eq_nil⟩

/-! ## Chapters -/

theorem pageFaults_eq_nil_iff (page : Page) : pageFaults page = [] ↔ ∃ b content,
    page.body? = some b ∧ b.descendants.find? isMainContent = some content ∧
      ∀ c ∈ content.childElements, IsBlock c := by
  unfold pageFaults
  cases page.body? with
  | none => simp
  | some b =>
    cases hcontent : b.descendants.find? isMainContent with
    | none => simp [hcontent]
    | some content => simp [hcontent, faultsIn_contents_eq_nil_iff, faults_eq_nil_iff]

/-- **The conversion of a chapter accepts its grammar and nothing else.** A chapter has a document exactly
when its page has a body with a division for the content below it and all elements in the first such
division are blocks. Any other chapter fails with the first of all faults of its page. -/
theorem document_iff_grammar (source : String) (anchors : AnchorTable) :
    ((∃ d, document source anchors = .ok d) ↔ ∃ b content, (Page.ofText source).body? = some b ∧
      b.descendants.find? isMainContent = some content ∧ ∀ c ∈ content.childElements, IsBlock c) ∧
    ∀ fault, document source anchors = .error fault ↔
      (pageFaults (Page.ofText source)).head? = some fault := by
  have hfailure := failure?_pageDocument (Page.ofText source) anchors
  constructor
  · rw [← pageFaults_eq_nil_iff, ← List.head?_eq_none_iff, ← hfailure, failure?_eq_none_iff]
    rfl
  · intro fault
    rw [← hfailure, failure?_eq_some_iff]
    rfl

/-! ## A section that is a listing -/

/-- A chapter with one division in it, which is a section and has the class of a listing, too. -/
def listingSectionPage : String :=
  "<div class='body'><div class='section highlight-swift'><kbd>x</kbd></div></div>"

/-- The division. -/
def listingSection : Element :=
  .mk .html "div" [⟨.plain, "class", "section highlight-swift"⟩]
    [.element (.mk .html "kbd" [] [.text "x"])]

/-- The body of the page. -/
def listingSectionBody : Element :=
  .mk .html "body" [] [.element (.mk .html "div" [⟨.plain, "class", "body"⟩] [.element listingSection])]

/-- Not every division of the class of a listing is one: a section is spliced first, and then what stands
in it has to be blocks. -/
theorem listing_class_not_enough : ∃ content,
    (Page.ofText listingSectionPage).body? = some listingSectionBody ∧
    listingSectionBody.descendants.find? isMainContent = some content ∧
    content.childElements = [listingSection] ∧ listingSection.name = "div" ∧
    listingSection.hasClass "highlight-swift" = true ∧
    document listingSectionPage ∅ = .error (.unexpected "kbd" .inlineContent) := by
  have hbody : (Page.ofText listingSectionPage).body? = some listingSectionBody := by decide +kernel
  have hfaults : (pageFaults (Page.ofText listingSectionPage)).head? =
      some (.unexpected "kbd" .inlineContent) := by decide +kernel
  refine ⟨_, hbody, by rfl, rfl, rfl, by decide +kernel, ?_⟩
  rw [← failure?_eq_some_iff, ← hfaults]
  exact failure?_pageDocument (Page.ofText listingSectionPage) ∅

end BookCatalog.Chapter
