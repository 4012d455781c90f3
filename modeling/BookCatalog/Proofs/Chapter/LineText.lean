import BookCatalog.Proofs.Chapter.Faults
import BookCatalog.Proofs.Ink
import BookCatalog.Proofs.MarkupParts
import BookCatalog.Proofs.PlacedText

/-!
# The text of a line

A line is read from left to right as pieces: the texts and the code in it, and the markup that is passed
through. So is the content of an element in the page, and each piece there becomes one piece of the line, in
its place (`becomes_inlines`). Text keeps its ink, whichever of the three ways it takes: run by run, flattened
below a link, or cleaned as a whole in code. What is left is which text of the page the pieces are. The answer
depends on the elements around a run only, and is a rule on runs in their places (`IsReading`). A line then
says the visible text of the page (`line_says_visible_text`).
-/

namespace BookCatalog.Chapter

open BookCatalog.Html BookCatalog.Text

/-- What is read in a line of a page: a run of text, or an element that is passed through. -/
inductive LinePiece where
  | run (s : String)
  | kept (e : Element)

mutual

/-- What is read of an element in a line. -/
def linePieces : Element → List LinePiece
  | .mk space name attrs contents =>
    match InlineKind.ofName name with
    | .link => (Node.textRunsOf contents).map .run
    | .code => [.run (String.join (Node.textRunsOf contents))]
    | .kept => [.kept (.mk space name attrs contents)]
    | .image => []
    | .emphasis | .strong | .unknown => linePiecesIn contents

/-- What is read of the nodes of a line. -/
def linePiecesIn : List Node → List LinePiece
  | [] => []
  | .text s :: rest => .run s :: linePiecesIn rest
  | .element e :: rest => linePieces e ++ linePiecesIn rest
  | .comment _ :: rest | .fragment _ :: rest => linePiecesIn rest

end

/-- What becomes of a piece of a page: text keeps its ink, and an element is written as markup. -/
inductive Becomes : LinePiece → Inline.Piece → Prop
  | run {s t : String} (h : inkOf t = inkOf s) : Becomes (.run s) (.said t)
  | kept (e : Element) : Becomes (.kept e) (.passed e.outerMarkup)

theorem becomes_label (runs : List String) :
    List.Forall₂ Becomes (runs.map .run) (Inline.pieces (runs.map textRun)) := by
  induction runs with
  | nil => exact .nil
  | cons s rest ih => exact .cons (.run (inkOf_collapseBlanks s)) ih

section
variable (anchors : AnchorTable)

mutual

theorem becomes_inline : ∀ e : Element,
    Yields (inline anchors e) fun i => List.Forall₂ Becomes (linePieces e) (Inline.pieces [i])
  | .mk space name attrs contents => by
    simp only [inline, linePieces]
    cases InlineKind.ofName name with
    | link =>
      refine .ok ?_
      rw [Inline.pieces_of_inner rfl]
      exact becomes_label _
    | image => exact .ok .nil
    | emphasis | strong =>
      refine (becomes_inlines contents).bind fun line hline => .ok ?_
      rw [Inline.pieces_of_inner rfl]
      exact hline
    | code => exact .ok (.cons (.run (inkOf_tidy _)) .nil)
    | kept => exact .ok (.cons (.kept _) .nil)
    | unknown => exact .error _

/-- **Each piece of a line in the page becomes one piece of the line, in its place.** -/
theorem becomes_inlines : ∀ nodes : List Node,
    Yields (inlines anchors nodes) fun line => List.Forall₂ Becomes (linePiecesIn nodes) (Inline.pieces line)
  | [] => .ok .nil
  | .text s :: rest => by
    refine (becomes_inlines rest).bind fun line hline => .ok ?_
    exact .cons (.run (inkOf_collapseBlanks s)) hline
  | .element e :: rest => by
    refine (becomes_inline e).bind fun i hi => (becomes_inlines rest).bind fun line hline => .ok ?_
    rw [linePiecesIn, Inline.pieces_cons]
    exact List.rel_append hi hline
  | .comment _ :: rest | .fragment _ :: rest => by
    simp only [inlines, linePiecesIn]
    exact becomes_inlines rest

end

end

/-! ## Text that counts -/

theorem ofName_eq_link_iff {name : String} : InlineKind.ofName name = .link ↔ name = "a" := by
  unfold InlineKind.ofName
  split <;> simp_all

theorem ofName_eq_code_iff {name : String} : InlineKind.ofName name = .code ↔ name = "code" := by
  unfold InlineKind.ofName
  split <;> simp_all

theorem ofName_eq_image_iff {name : String} : InlineKind.ofName name = .image ↔ name = "img" := by
  unfold InlineKind.ofName
  split <;> simp_all

theorem ofName_eq_kept_iff {name : String} :
    InlineKind.ofName name = .kept ↔ name = "sup" ∨ name = "span" := by
  unfold InlineKind.ofName
  split <;> simp_all

/-- The ink of some runs. -/
def inkOfRuns (runs : List PlacedRun) : List Char := runs.flatMap (inkOf ∘ PlacedRun.text)

/-- The ink of a piece of a page, when `view` is read in place of an element that is passed through. -/
def LinePiece.inkWith (view : Element → List Char) : LinePiece → List Char
  | .run s => inkOf s
  | .kept e => view e

/-- A rule on which text of a line counts that goes together with what is read in place of an element that is
passed through. -/
structure IsReading (counts : PlacedRun → Bool) (view : Element → List Char) : Prop where
  direct : ∀ s, counts ⟨[], s⟩ = true
  whole : ∀ name, InlineKind.ofName name = .link ∨ InlineKind.ofName name = .code →
    ∀ r : PlacedRun, counts (r.within name) = true
  image : ∀ name, InlineKind.ofName name = .image → ∀ r : PlacedRun, counts (r.within name) = false
  kept : ∀ e : Element, InlineKind.ofName e.name = .kept → view e = inkOfRuns (e.placedRuns.filter counts)
  inside : ∀ name, InlineKind.ofName name = .emphasis ∨ InlineKind.ofName name = .strong ∨
    InlineKind.ofName name = .unknown → ∀ r : PlacedRun, counts (r.within name) = counts r

theorem inkOf_join_text (runs : List PlacedRun) :
    inkOf (String.join (runs.map (·.text))) = inkOfRuns runs := by
  rw [inkOf_join, List.flatMap_map]
  rfl

theorem inkOfRuns_append (runs more : List PlacedRun) :
    inkOfRuns (runs ++ more) = inkOfRuns runs ++ inkOfRuns more := List.flatMap_append

/-- The place of runs does not count for their ink. -/
theorem inkOfRuns_placedRunsOf (nodes : List Node) :
    inkOfRuns (Node.placedRunsOf nodes) = (Node.textRunsOf nodes).flatMap inkOf := by
  rw [inkOfRuns, ← Node.map_text_placedRunsOf, List.flatMap_map]
  rfl

theorem inkOfRuns_placedRuns (e : Element) : inkOfRuns e.placedRuns = e.textRuns.flatMap inkOf := by
  rw [inkOfRuns, ← Element.map_text_placedRuns, List.flatMap_map]
  rfl

theorem inkOfRuns_map_within (name : String) (runs : List PlacedRun) :
    inkOfRuns (runs.map (·.within name)) = inkOfRuns runs := by
  rw [inkOfRuns, List.flatMap_map]
  rfl

namespace IsReading

variable {counts : PlacedRun → Bool} {view : Element → List Char}

/-- All text in a link or in code counts. -/
theorem ink_of_whole (h : IsReading counts view) (e : Element)
    (hkind : InlineKind.ofName e.name = .link ∨ InlineKind.ofName e.name = .code) :
    inkOfRuns (e.placedRuns.filter counts) = e.textRuns.flatMap inkOf := by
  rw [Element.filter_placedRuns_eq_self (h.whole e.name hkind), inkOfRuns_placedRuns]

/-- No text in an image counts. -/
theorem ink_of_image (h : IsReading counts view) (e : Element) (hkind : InlineKind.ofName e.name = .image) :
    inkOfRuns (e.placedRuns.filter counts) = [] := by
  rw [Element.filter_placedRuns_eq_nil (h.image e.name hkind)]
  rfl

mutual

theorem ink_linePieces (h : IsReading counts view) : ∀ e : Element,
    (linePieces e).flatMap (LinePiece.inkWith view) = inkOfRuns (e.placedRuns.filter counts)
  | .mk space name attrs contents => by
    -- an element that is opened passes the rule on to what stands in it
    have hopen : InlineKind.ofName name = .emphasis ∨ InlineKind.ofName name = .strong ∨
        InlineKind.ofName name = .unknown → (linePiecesIn contents).flatMap (LinePiece.inkWith view) =
          inkOfRuns ((Element.mk space name attrs contents).placedRuns.filter counts) := fun hkind => by
      have hcounts : (counts ∘ fun r => r.within name) = counts := funext (h.inside name hkind)
      rw [Element.placedRuns, List.filter_map, hcounts, inkOfRuns_map_within, ink_linePiecesIn h contents]
    simp only [linePieces]
    cases hkind : InlineKind.ofName name with
    | link =>
      rw [h.ink_of_whole (.mk space name attrs contents) (.inl hkind), List.flatMap_map]
      rfl
    | code =>
      rw [h.ink_of_whole (.mk space name attrs contents) (.inr hkind), Element.textRuns, ← inkOf_join]
      exact List.append_nil _
    | image =>
      rw [h.ink_of_image (.mk space name attrs contents) hkind]
      rfl
    | kept =>
      rw [← h.kept (.mk space name attrs contents) hkind]
      exact List.append_nil _
    | emphasis => exact hopen (.inl hkind)
    | strong => exact hopen (.inr (.inl hkind))
    | unknown => exact hopen (.inr (.inr hkind))

theorem ink_linePiecesIn (h : IsReading counts view) : ∀ nodes : List Node,
    (linePiecesIn nodes).flatMap (LinePiece.inkWith view) =
      inkOfRuns ((Node.placedRunsOf nodes).filter counts)
  | [] => rfl
  | .text s :: rest => by
    rw [linePiecesIn, Node.placedRunsOf, List.filter_cons_of_pos (h.direct s), List.flatMap_cons,
      ink_linePiecesIn h rest]
    rfl
  | .element e :: rest => by
    rw [linePiecesIn, Node.placedRunsOf, List.filter_append, List.flatMap_append, inkOfRuns_append,
      ink_linePieces h e, ink_linePiecesIn h rest]
  | .comment _ :: rest | .fragment _ :: rest => by
    simp only [linePiecesIn, Node.placedRunsOf]
    exact ink_linePiecesIn h rest

end

end IsReading

/-! ## The two readings -/

/-- Whether a run belongs to what a line says: it is in no image, and in nothing that is passed through. -/
def isSaid (r : PlacedRun) : Bool := !r.isBelow ["sup", "span", "img"] ["a", "code"]

/-- Whether a run belongs to what a line says with the markup that is passed through: it is in no image. -/
def isRead (r : PlacedRun) : Bool := !r.isBelow ["img"] ["a", "code", "sup", "span"]

/-- The elements that decide whether the text in them counts. -/
def decidingNames : List String := ["a", "code", "sup", "span", "img"]

/-- An element that is opened does not decide whether the text in it counts. -/
theorem not_mem_decidingNames {name : String} (h : InlineKind.ofName name = .emphasis ∨
    InlineKind.ofName name = .strong ∨ InlineKind.ofName name = .unknown) : name ∉ decidingNames := by
  intro hmem
  simp only [decidingNames, List.mem_cons, List.not_mem_nil, or_false] at hmem
  rcases hmem with rfl | rfl | rfl | rfl | rfl <;> simp [InlineKind.ofName] at h

section
variable {hidden outside : List String} {view : Element → List Char}

/-- Text in images does not count, and all text in links and in code does. -/
theorem isReading_of_isBelow (hnames : ∀ name ∈ hidden ++ outside, name ∈ decidingNames)
    (hwhole : ∀ name ∈ ["a", "code"], name ∈ outside) (himage : "img" ∈ hidden ∧ "img" ∉ outside)
    (hkept : ∀ e : Element, InlineKind.ofName e.name = .kept →
      view e = inkOfRuns (e.placedRuns.filter (!·.isBelow hidden outside))) :
    IsReading (!·.isBelow hidden outside) view where
  direct s := rfl
  whole name hkind r := by
    have hname : name ∈ ["a", "code"] := by
      simpa [ofName_eq_link_iff, ofName_eq_code_iff] using hkind
    rw [PlacedRun.isBelow_within_of_outside (hwhole name hname), Bool.not_false]
  image name hkind r := by
    obtain rfl := ofName_eq_image_iff.1 hkind
    rw [PlacedRun.isBelow_within_of_named himage.1 himage.2, Bool.not_true]
  kept := hkept
  inside name hkind r := by
    have hname := not_mem_decidingNames hkind
    rw [PlacedRun.isBelow_within_of_other]
    · exact fun hmem => hname (hnames name (List.mem_append_left outside hmem))
    · exact fun hmem => hname (hnames name (List.mem_append_right hidden hmem))

end

theorem isReading_isSaid : IsReading isSaid fun _ => [] := by
  refine isReading_of_isBelow (by decide) (by decide) (by decide) fun e hkind => ?_
  have hname : e.name ∈ ["sup", "span", "img"] ∧ e.name ∉ ["a", "code"] := by
    rcases ofName_eq_kept_iff.1 hkind with hname | hname <;> rw [hname] <;> decide
  rw [Element.filter_placedRuns_eq_nil fun r => by
    rw [PlacedRun.isBelow_within_of_named hname.1 hname.2, Bool.not_true]]
  rfl

theorem isReading_isRead : IsReading isRead fun e => inkOf e.wholeText := by
  refine isReading_of_isBelow (by decide) (by decide) (by decide) fun e hkind => ?_
  have hname : e.name ∈ ["a", "code", "sup", "span"] := by
    rcases ofName_eq_kept_iff.1 hkind with hname | hname <;> rw [hname] <;> decide
  rw [Element.filter_placedRuns_eq_self fun r => by
    rw [PlacedRun.isBelow_within_of_outside hname, Bool.not_false],
    inkOfRuns_placedRuns, Element.wholeText, inkOf_join]

/-! ## What a line says -/

/-- The element that a piece of a page is. -/
def LinePiece.kept? : LinePiece → Option Element
  | .run _ => none
  | .kept e => some e

/-- The elements that are passed through in a line, in document order. -/
def keptIn (nodes : List Node) : List Element := (linePiecesIn nodes).filterMap LinePiece.kept?

section
variable {xs : List LinePiece} {ys : List Inline.Piece} (h : List.Forall₂ Becomes xs ys)
include h

theorem ink_said_of_becomes : (ys.filterMap Inline.Piece.said?).flatMap inkOf =
    xs.flatMap (LinePiece.inkWith fun _ => []) := by
  induction h with
  | nil => rfl
  | cons hxy _ ih =>
    cases hxy with
    | run hink =>
      simp only [List.filterMap_cons, Inline.Piece.said?, List.flatMap_cons, LinePiece.inkWith, hink, ih]
    | kept e =>
      simp only [List.filterMap_cons, Inline.Piece.said?, List.flatMap_cons, LinePiece.inkWith,
        List.nil_append, ih]

theorem passed_of_becomes : ys.filterMap Inline.Piece.passed? =
    (xs.filterMap LinePiece.kept?).map Element.outerMarkup := by
  induction h with
  | nil => rfl
  | cons hxy _ ih =>
    cases hxy with
    | run => exact ih
    | kept e => exact congrArg (e.outerMarkup :: ·) ih

theorem ink_textsWith_of_becomes :
    (Inline.textsWith ((xs.filterMap LinePiece.kept?).map Element.wholeText) ys).flatMap inkOf =
      xs.flatMap (LinePiece.inkWith fun e => inkOf e.wholeText) := by
  induction h with
  | nil => rfl
  | cons hxy _ ih =>
    cases hxy with
    | run hink =>
      simp only [List.filterMap_cons, LinePiece.kept?, Inline.textsWith, List.flatMap_cons,
        LinePiece.inkWith, hink, ih]
    | kept e =>
      simp only [List.filterMap_cons, LinePiece.kept?, List.map_cons, Inline.textsWith, List.flatMap_cons,
        LinePiece.inkWith, ih]

end

section
variable {anchors : AnchorTable} {nodes : List Node} {line : List Inline}
  (h : inlines anchors nodes = .ok line)
include h

theorem inkOf_said : inkOf (Inline.said line) = inkOfRuns ((Node.placedRunsOf nodes).filter isSaid) := by
  rw [Inline.said, inkOf_join,
    ink_said_of_becomes (becomes_inlines anchors nodes line h), ← isReading_isSaid.ink_linePiecesIn]

theorem passed_eq : Inline.passed line = (keptIn nodes).map Element.outerMarkup :=
  passed_of_becomes (becomes_inlines anchors nodes line h)

theorem inkOf_saidWith : inkOf (Inline.saidWith ((keptIn nodes).map Element.wholeText) line) =
    inkOfRuns ((Node.placedRunsOf nodes).filter isRead) := by
  rw [Inline.saidWith, inkOf_join, keptIn,
    ink_textsWith_of_becomes (becomes_inlines anchors nodes line h), ← isReading_isRead.ink_linePiecesIn]

end

/-- **A line says the visible text of the page**: every run of text once and in order, but for those below a
superscript, a span or an image that is itself in no link and in no code. Images hold no text, and then they
need not be named. Headings and paragraphs are such lines. -/
theorem line_says_visible_text {anchors : AnchorTable} {e : Element} {line : List Inline}
    (h : inlineChildren anchors e = .ok line) :
    inkOf (Inline.said line) = inkOf (String.join
      (((Node.placedRunsOf e.contents).filter isSaid).map (·.text))) ∧
    ((∀ r ∈ Node.placedRunsOf e.contents, "img" ∉ r.path) →
      inkOf (Inline.said line) = inkOf (String.join (((Node.placedRunsOf e.contents).filter
        (!·.isBelow ["sup", "span"] ["a", "code"])).map (·.text)))) ∧
    (∀ inLines level, BlockKind.ofName e.name = .heading level →
      block anchors inLines e = .ok [.heading level line]) ∧
    ∀ inLines, BlockKind.ofName e.name = .paragraph → block anchors inLines e = .ok [.paragraph line] := by
  have hsaid : inkOf (Inline.said line) = inkOf (String.join
      (((Node.placedRunsOf e.contents).filter isSaid).map (·.text))) := by
    rw [inkOf_said h, inkOf_join_text]
  refine ⟨hsaid, fun himages => ?_, fun inLines level hkind => ?_, fun inLines hkind => ?_⟩
  · have hcounts : (Node.placedRunsOf e.contents).filter isSaid =
        (Node.placedRunsOf e.contents).filter (!·.isBelow ["sup", "span"] ["a", "code"]) :=
      List.filter_congr fun r hr => by
        have himage := himages r hr
        rw [isSaid, PlacedRun.isBelow_congr]
        intro name hname
        have hne : name ≠ "img" := fun he => himage (he ▸ hname)
        simp [hne]
    rw [hsaid, hcounts]
  · rw [block_of_heading hkind, ← inlineChildren, h]
    rfl
  · rw [block_of_paragraph hkind, ← inlineChildren, h]
    rfl

/-- A paragraph with formatting, a superscript in a link, a span, code and an image. -/
def mixedParagraph : Element :=
  let inside (name : String) (contents : List Node) : Node := .element (.mk .html name [] contents)
  .mk .html "p" [] [.text "See ",
    inside "em" [.text "the ", inside "a" [.text "gui", inside "sup" [.text "de"]]],
    inside "span" [.text "aside ", inside "code" [.text "g"]], inside "img" [],
    inside "strong" [inside "code" [.text " f  (x) "]], .text "."]

theorem mixedParagraph_says_visible_text : ∃ line, inlineChildren ∅ mixedParagraph = .ok line ∧
    (∀ r ∈ Node.placedRunsOf mixedParagraph.contents, "img" ∉ r.path) ∧
    inkOf (Inline.said line) = "Seetheguidef(x).".toList ∧
    block ∅ false mixedParagraph = .ok [.paragraph line] := by
  obtain ⟨line, hline⟩ : ∃ line, inlineChildren ∅ mixedParagraph = .ok line :=
    failure?_eq_none_iff.1 (failure?_inlines ∅ mixedParagraph.contents)
  have himages : ∀ r ∈ Node.placedRunsOf mixedParagraph.contents, "img" ∉ r.path := by decide
  obtain ⟨-, hsaid, -, hblock⟩ := line_says_visible_text hline
  refine ⟨line, hline, himages, (hsaid himages).trans ?_, hblock false rfl⟩
  decide

end BookCatalog.Chapter
