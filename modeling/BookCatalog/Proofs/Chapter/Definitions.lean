import BookCatalog.Proofs.Chapter.SectionNesting

/-!
# Definitions and their terms

In a list of definitions terms and descriptions stand in turn. Each term with its description becomes one
item: the blocks of the description, and in front of them a line with the term, which is put into the
first block when that is a paragraph (`IsDefinition`). The list becomes an unordered list of these items, in
order; it breaks off at the first element that is no term where a term has to come, no description where a
description has to come, or has a fault of its own (`BreaksOff`, `definitions_paired`).
-/

namespace BookCatalog.Chapter

open BookCatalog.Html

/-! ## One definition -/

/-- Blocks with a line in front of them: it begins the first block when that is a paragraph, and stands in a
paragraph of its own otherwise. -/
inductive Led (lead : List Inline) : List Block → List Block → Prop
  | paragraph (line : List Inline) (rest : List Block) :
      Led lead (.paragraph line :: rest) (.paragraph (lead ++ line) :: rest)
  | apart {bs : List Block} : (∀ line rest, bs ≠ .paragraph line :: rest) →
      Led lead bs (.paragraph lead :: bs)

/-- There is one way to put a term in front of a description. -/
theorem led_iff {term : List Inline} {bs item : List Block} :
    Led ([.text "term "] ++ term ++ [.text ": "]) bs item ↔ item = withTerm term bs := by
  have hapart (h : ∀ line rest, bs ≠ .paragraph line :: rest) :
      withTerm term bs = .paragraph (termLine term) :: bs := by
    unfold withTerm
    split
    · exact absurd rfl (h _ _)
    · rfl
  constructor
  · intro h
    cases h with
    | paragraph => rfl
    | apart hno => exact (hapart hno).symm
  · rintro rfl
    by_cases hno : ∀ line rest, bs ≠ .paragraph line :: rest
    · rw [hapart hno]
      exact .apart hno
    · simp only [not_forall, not_not] at hno
      obtain ⟨line, rest, rfl⟩ := hno
      exact .paragraph line rest

section
variable (anchors : AnchorTable) (inLines : Bool)

/-- A term and a description, in this order, which both can be converted. -/
def Converts (p : Element × Element) : Prop :=
  p.1.name = "dt" ∧ p.2.name = "dd" ∧ (∃ term, inlines anchors (unwrapped p.1).contents = .ok term) ∧
    ∃ bs, blocksOf anchors inLines p.2.childElements = .ok bs

/-- The item that a term and its description become. -/
def IsDefinition (p : Element × Element) (item : List Block) : Prop :=
  p.1.name = "dt" ∧ p.2.name = "dd" ∧ ∃ term bs,
    inlines anchors (unwrapped p.1).contents = .ok term ∧
    blocksOf anchors inLines p.2.childElements = .ok bs ∧
    Led ([.text "term "] ++ term ++ [.text ": "]) bs item

/-- Why the conversion of a list of definitions breaks off at the elements that are left, where a term has
to come. -/
inductive BreaksOff : List Element → ConversionError → Prop
  | term {e : Element} (rest : List Element) : e.name ≠ "dt" →
      BreaksOff (e :: rest) (.unexpected e.name .definitionList)
  | termContent {e : Element} {fault : ConversionError} (rest : List Element) : e.name = "dt" →
      inlines anchors (unwrapped e).contents = .error fault → BreaksOff (e :: rest) fault
  | missing {e : Element} {term : List Inline} : e.name = "dt" →
      inlines anchors (unwrapped e).contents = .ok term → BreaksOff [e] (.missing (.description e.text))
  | description {e d : Element} {term : List Inline} (rest : List Element) : e.name = "dt" →
      inlines anchors (unwrapped e).contents = .ok term → d.name ≠ "dd" →
        BreaksOff (e :: d :: rest) (.unexpected d.name (.afterTerm e.text))
  | descriptionContent {e d : Element} {term : List Inline} {fault : ConversionError}
      (rest : List Element) : e.name = "dt" → inlines anchors (unwrapped e).contents = .ok term →
        d.name = "dd" → blocksOf anchors inLines d.childElements = .error fault →
          BreaksOff (e :: d :: rest) fault

/-! ## Terms and descriptions among nodes -/

/-- What the elements of a list of definitions become. -/
def definitionsOf (es : List Element) : Except ConversionError (List (List Block)) :=
  terms anchors inLines (es.map .element)

mutual

/-- Only the elements of a list of definitions count. -/
theorem terms_eq_definitionsOf : ∀ nodes : List Node,
    terms anchors inLines nodes = definitionsOf anchors inLines (nodes.filterMap Node.element?)
  | [] => rfl
  | .element e :: rest => by
    rw [definitionsOf, filterMap_element?_element, List.map_cons, terms, terms]
    simp only [descriptions_eq_map_element rest]
  | .text _ :: rest | .comment _ :: rest | .fragment _ :: rest => by
    rw [terms]
    · exact terms_eq_definitionsOf rest
    · exact nofun

theorem descriptions_eq_map_element : ∀ (nodes : List Node) (term : List Inline) (label : String),
    descriptions anchors inLines term label nodes =
      descriptions anchors inLines term label ((nodes.filterMap Node.element?).map .element)
  | [], _, _ => rfl
  | .element (.mk space name attrs contents) :: rest, term, label => by
    rw [filterMap_element?_element, List.map_cons, descriptions, descriptions]
    simp only [terms_eq_definitionsOf rest]
    rfl
  | .text _ :: rest, term, label | .comment _ :: rest, term, label
  | .fragment _ :: rest, term, label => by
    rw [descriptions]
    · exact descriptions_eq_map_element rest term label
    · exact nofun

end

/-! ## One round -/

/-- The item of a term and a description, or what is wrong with them. -/
def definition (p : Element × Element) : Except ConversionError (List Block) := do
  if p.1.name ≠ "dt" then throw (.unexpected p.1.name .definitionList)
  let term ← inlines anchors (unwrapped p.1).contents
  if p.2.name ≠ "dd" then throw (.unexpected p.2.name (.afterTerm p.1.text))
  return withTerm term (← blocksOf anchors inLines p.2.childElements)

theorem descriptions_cons (d : Element) (rest : List Element) (term : List Inline) (label : String) :
    descriptions anchors inLines term label ((d :: rest).map .element) = (do
      if d.name ≠ "dd" then throw (.unexpected d.name (.afterTerm label))
      let description ← blocksOf anchors inLines d.childElements
      return withTerm term description :: (← definitionsOf anchors inLines rest)) := by
  cases d with
  | mk space name attrs contents =>
    rw [List.map_cons, descriptions, blocks_eq_blocksOf]
    rfl

theorem definitionsOf_cons (e : Element) (rest : List Element) :
    definitionsOf anchors inLines (e :: rest) = (do
      if e.name ≠ "dt" then throw (.unexpected e.name .definitionList)
      let term ← inlines anchors (unwrapped e).contents
      descriptions anchors inLines term e.text (rest.map .element)) := by
  rw [definitionsOf, List.map_cons, terms, unwrappedInlines_eq]

/-- One round takes a term and a description. -/
theorem definitionsOf_pair (e d : Element) (rest : List Element) :
    definitionsOf anchors inLines (e :: d :: rest) = (do
      let item ← definition anchors inLines (e, d)
      return item :: (← definitionsOf anchors inLines rest)) := by
  rw [definitionsOf_cons]
  simp only [descriptions_cons, definition]
  by_cases hterm : e.name = "dt"
  · simp only [if_neg (not_not_intro hterm)]
    cases inlines anchors (unwrapped e).contents with
    | error fault => rfl
    | ok term =>
      by_cases hdescription : d.name = "dd"
      · simp only [if_neg (not_not_intro hdescription)]
        cases blocksOf anchors inLines d.childElements <;> rfl
      · simp only [if_pos hdescription]
        rfl
  · simp only [if_pos hterm]
    rfl

theorem definition_eq_ok_iff {p : Element × Element} {item : List Block} :
    definition anchors inLines p = .ok item ↔ IsDefinition anchors inLines p item := by
  unfold definition IsDefinition
  simp only [check_eq_ok_iff, bind_eq_ok_iff, not_not, led_iff]
  constructor
  · rintro ⟨hterm, term, hline, hdescription, bs, hbs, h⟩
    cases h
    exact ⟨hterm, hdescription, term, bs, hline, hbs, rfl⟩
  · rintro ⟨hterm, hdescription, term, bs, hline, hbs, rfl⟩
    exact ⟨hterm, term, hline, hdescription, bs, hbs, rfl⟩

theorem converts_iff {p : Element × Element} :
    Converts anchors inLines p ↔ ∃ item, IsDefinition anchors inLines p item := by
  constructor
  · rintro ⟨hterm, hdescription, ⟨term, hline⟩, bs, hbs⟩
    exact ⟨_, hterm, hdescription, term, bs, hline, hbs, led_iff.2 rfl⟩
  · rintro ⟨item, hterm, hdescription, term, bs, hline, hbs, -⟩
    exact ⟨hterm, hdescription, ⟨term, hline⟩, bs, hbs⟩

theorem definition_eq_error_iff {e d : Element} {rest : List Element} {fault : ConversionError} :
    definition anchors inLines (e, d) = .error fault ↔ BreaksOff anchors inLines (e :: d :: rest) fault := by
  unfold definition
  simp only [check_eq_error_iff, bind_eq_error_iff, not_not]
  constructor
  · rintro (⟨hterm, rfl⟩ | ⟨hterm, hline | ⟨term, hline, ⟨hdescription, rfl⟩ | ⟨hdescription, h⟩⟩⟩)
    · exact .term _ hterm
    · exact .termContent _ hterm hline
    · exact .description _ hterm hline hdescription
    · rcases h with hbs | ⟨bs, -, h⟩
      · exact .descriptionContent _ hterm hline hdescription hbs
      · cases h
  · intro h
    cases h with
    | term _ hterm => exact .inl ⟨hterm, rfl⟩
    | termContent _ hterm hline => exact .inr ⟨hterm, .inl hline⟩
    | description _ hterm hline hdescription =>
      exact .inr ⟨hterm, .inr ⟨_, hline, .inl ⟨hdescription, rfl⟩⟩⟩
    | descriptionContent _ hterm hline hdescription hbs =>
      exact .inr ⟨hterm, .inr ⟨_, hline, .inr ⟨hdescription, .inl hbs⟩⟩⟩

/-- A term that nothing follows. -/
theorem definitionsOf_singleton_eq_error_iff {e : Element} {fault : ConversionError} :
    definitionsOf anchors inLines [e] = .error fault ↔ BreaksOff anchors inLines [e] fault := by
  rw [definitionsOf_cons]
  simp only [check_eq_error_iff, bind_eq_error_iff, not_not, List.map_nil, descriptions]
  constructor
  · rintro (⟨hterm, rfl⟩ | ⟨hterm, hline | ⟨term, hline, h⟩⟩)
    · exact .term _ hterm
    · exact .termContent _ hterm hline
    · cases h
      exact .missing hterm hline
  · intro h
    cases h with
    | term _ hterm => exact .inl ⟨hterm, rfl⟩
    | termContent _ hterm hline => exact .inr ⟨hterm, .inl hline⟩
    | missing hterm hline => exact .inr ⟨hterm, .inr ⟨_, hline, rfl⟩⟩

theorem definitionsOf_singleton_ne_ok (e : Element) (items : List (List Block)) :
    definitionsOf anchors inLines [e] ≠ .ok items := by
  rw [definitionsOf_cons]
  simp only [ne_eq, check_eq_ok_iff, bind_eq_ok_iff, List.map_nil, descriptions]
  rintro ⟨-, term, -, h⟩
  cases h

/-! ## All rounds -/

/-- Terms and their descriptions in turn. -/
def inTurn (pairs : List (Element × Element)) : List Element := pairs.flatMap fun p => [p.1, p.2]

-- By induction on the elements, two at a time: a round takes a term and its description.
theorem definitionsOf_eq_ok_iff : ∀ {es : List Element} {items : List (List Block)},
    definitionsOf anchors inLines es = .ok items ↔
      ∃ pairs, es = inTurn pairs ∧ List.Forall₂ (IsDefinition anchors inLines) pairs items
  | [], items => by
    constructor
    · intro h
      cases h
      exact ⟨[], rfl, .nil⟩
    · rintro ⟨_ | ⟨p, pairs⟩, hes, hitems⟩
      · cases hitems
        rfl
      · cases hes
  | [e], items => by
    refine iff_of_false (definitionsOf_singleton_ne_ok anchors inLines e items) ?_
    rintro ⟨_ | ⟨p, pairs⟩, hes, -⟩ <;> cases hes
  | e :: d :: rest, items => by
    rw [definitionsOf_pair]
    simp only [bind_eq_ok_iff, definition_eq_ok_iff]
    constructor
    · rintro ⟨item, hitem, more, hmore, h⟩
      cases h
      obtain ⟨pairs, rfl, hpairs⟩ := definitionsOf_eq_ok_iff.1 hmore
      exact ⟨(e, d) :: pairs, rfl, .cons hitem hpairs⟩
    · rintro ⟨_ | ⟨p, pairs⟩, hes, hitems⟩
      · cases hes
      · cases hes
        cases hitems with
        | cons hitem hpairs => exact ⟨_, hitem, _, definitionsOf_eq_ok_iff.2 ⟨pairs, rfl, hpairs⟩, rfl⟩

theorem definitionsOf_eq_error_iff : ∀ {es : List Element} {fault : ConversionError},
    definitionsOf anchors inLines es = .error fault ↔
      ∃ pairs rest, es = inTurn pairs ++ rest ∧ (∀ p ∈ pairs, Converts anchors inLines p) ∧
        BreaksOff anchors inLines rest fault
  | [], fault => by
    refine iff_of_false (fun h => by cases h) ?_
    rintro ⟨_ | ⟨p, pairs⟩, rest, hes, -, hrest⟩
    · cases hes
      cases hrest
    · cases hes
  | [e], fault => by
    rw [definitionsOf_singleton_eq_error_iff]
    constructor
    · intro h
      exact ⟨[], [e], rfl, by simp, h⟩
    · rintro ⟨_ | ⟨p, pairs⟩, rest, hes, -, hrest⟩
      · cases hes
        exact hrest
      · cases hes
  | e :: d :: after, fault => by
    have hround : definition anchors inLines (e, d) = .error fault ↔
        BreaksOff anchors inLines (e :: d :: after) fault := definition_eq_error_iff anchors inLines
    rw [definitionsOf_pair]
    simp only [bind_eq_error_iff, definition_eq_ok_iff, hround]
    constructor
    · rintro (h | ⟨item, hitem, h | ⟨more, -, h⟩⟩)
      · exact ⟨[], _, rfl, by simp, h⟩
      · obtain ⟨pairs, rest, rfl, hpairs, hrest⟩ := definitionsOf_eq_error_iff.1 h
        have hfirst : Converts anchors inLines (e, d) := (converts_iff anchors inLines).2 ⟨item, hitem⟩
        exact ⟨(e, d) :: pairs, rest, rfl, List.forall_mem_cons.2 ⟨hfirst, hpairs⟩, hrest⟩
      · cases h
    · rintro ⟨_ | ⟨p, pairs⟩, rest, hes, hpairs, hrest⟩
      · cases hes
        exact .inl hrest
      · cases hes
        obtain ⟨hfirst, hpairs⟩ := List.forall_mem_cons.1 hpairs
        obtain ⟨item, hitem⟩ := (converts_iff anchors inLines).1 hfirst
        exact .inr ⟨item, hitem, .inl (definitionsOf_eq_error_iff.2 ⟨pairs, rest, rfl, hpairs, hrest⟩)⟩

theorem exists_definitionsOf_iff {es : List Element} :
    (∃ items, definitionsOf anchors inLines es = .ok items) ↔
      ∃ pairs, es = inTurn pairs ∧ ∀ p ∈ pairs, Converts anchors inLines p := by
  have hitems (pairs : List (Element × Element)) :
      (∃ items, List.Forall₂ (IsDefinition anchors inLines) pairs items) ↔
        ∀ p ∈ pairs, Converts anchors inLines p := by
    simpa only [mapM_eq_ok_iff, definition_eq_ok_iff, ← converts_iff] using
      exists_mapM_eq_ok_iff (definition anchors inLines) pairs
  simp only [definitionsOf_eq_ok_iff, ← hitems]
  constructor
  · rintro ⟨items, pairs, hes, h⟩
    exact ⟨pairs, hes, items, h⟩
  · rintro ⟨pairs, hes, items, h⟩
    exact ⟨items, pairs, hes, h⟩

end

/-! ## Lists of definitions -/

section
variable (anchors : AnchorTable) (inLines : Bool)

theorem block_of_definitions {e : Element} (hname : e.name = "dl") : block anchors inLines e =
    (do return [.list false (← definitionsOf anchors inLines e.childElements)]) := by
  cases e with
  | mk space name attrs contents =>
    obtain rfl : name = "dl" := hname
    have hkind : BlockKind.ofName "dl" = .definitions := rfl
    simp only [block, hkind, terms_eq_definitionsOf]
    rfl

/-- **A list of definitions neither drops nor mispairs anything.** It can be converted exactly when its
elements are terms and descriptions in turn which all can. Then it becomes one unordered list, which has the
item of each term and its description, in order. Otherwise some terms and their descriptions can be converted
and the conversion breaks off at what follows them. -/
theorem definitions_paired {e : Element} (hname : e.name = "dl") :
    ((∃ out, block anchors inLines e = .ok out) ↔
      ∃ pairs, e.childElements = inTurn pairs ∧ ∀ p ∈ pairs, Converts anchors inLines p) ∧
    (∀ out, block anchors inLines e = .ok out ↔ ∃ pairs items, e.childElements = inTurn pairs ∧
      List.Forall₂ (IsDefinition anchors inLines) pairs items ∧ out = [.list false items]) ∧
    (∀ fault, block anchors inLines e = .error fault ↔ ∃ pairs rest,
      e.childElements = inTurn pairs ++ rest ∧ (∀ p ∈ pairs, Converts anchors inLines p) ∧
        BreaksOff anchors inLines rest fault) := by
  rw [block_of_definitions anchors inLines hname, ← exists_definitionsOf_iff]
  simp only [← definitionsOf_eq_error_iff]
  refine ⟨?_, fun out => ?_, fun fault => ?_⟩
  · cases definitionsOf anchors inLines e.childElements with
    | error fault => simp [bind, Except.bind]
    | ok items => exact iff_of_true ⟨_, rfl⟩ ⟨_, rfl⟩
  · rw [bind_eq_ok_iff]
    constructor
    · rintro ⟨items, hitems, h⟩
      cases h
      obtain ⟨pairs, hpairs, hall⟩ := (definitionsOf_eq_ok_iff anchors inLines).1 hitems
      exact ⟨pairs, items, hpairs, hall, rfl⟩
    · rintro ⟨pairs, items, hpairs, hall, rfl⟩
      exact ⟨items, (definitionsOf_eq_ok_iff anchors inLines).2 ⟨pairs, hpairs, hall⟩, rfl⟩
  · rw [bind_eq_error_iff]
    constructor
    · rintro (h | ⟨items, -, h⟩)
      · exact h
      · cases h
    · exact .inl

end

/-- A term in a paragraph, and a description of two paragraphs. -/
def minimum : Element × Element :=
  (.mk .html "dt" [] [.element (.mk .html "p" [] [.element (.mk .html "code" [] [.text "min"])])],
    .mk .html "dd" [] [.element (.mk .html "p" [] [.text "The smallest."]),
      .element (.mk .html "p" [] [.text "More."])])

/-- A term, and a description that begins with a list. -/
def maximum : Element × Element :=
  (.mk .html "dt" [] [.text "max"],
    .mk .html "dd" [] [.element (.mk .html "ul" [] [.element (.mk .html "li" [] [])])])

/-- A list of definitions with the given elements, and text that does not count. -/
def definitionList (es : List Element) : Element :=
  .mk .html "dl" [] (.text "\n" :: es.map .element)

/-- A list of two definitions, and a list that ends with a term. -/
theorem definitions_paired_minimum_maximum :
    (definitionList []).name = "dl" ∧
    block ∅ false (definitionList (inTurn [minimum, maximum])) = .ok [.list false
      [[.paragraph [.text "term ", .code "min", .text ": ", .text "The smallest."],
          .paragraph [.text "More."]],
        [.paragraph [.text "term ", .text "max", .text ": "], .list false [[]]]]] ∧
    block ∅ false (definitionList (inTurn [minimum] ++ [maximum.1])) =
      .error (.missing (.description "max")) := by
  have hpaired (es : List Element) := definitions_paired ∅ false (e := definitionList es) rfl
  have hminimum : IsDefinition ∅ false minimum
      [.paragraph [.text "term ", .code "min", .text ": ", .text "The smallest."],
        .paragraph [.text "More."]] :=
    ⟨rfl, rfl, [.code "min"], _, by rfl, by rfl, .paragraph [.text "The smallest."] _⟩
  have hmaximum : IsDefinition ∅ false maximum
      [.paragraph [.text "term ", .text "max", .text ": "], .list false [[]]] :=
    ⟨rfl, rfl, [.text "max"], _, by rfl, by rfl, .apart nofun⟩
  refine ⟨rfl, ?_, ?_⟩
  · exact ((hpaired _).2.1 _).2 ⟨[minimum, maximum], _, rfl, .cons hminimum (.cons hmaximum .nil), rfl⟩
  · refine ((hpaired _).2.2 _).2 ⟨[minimum], [maximum.1], rfl, ?_, .missing rfl rfl⟩
    exact List.forall_mem_singleton.2 ((converts_iff ∅ false).2 ⟨_, hminimum⟩)

end BookCatalog.Chapter
