import BookCatalog.Html.TableMode
import BookCatalog.Html.Lexer

/-!
# The tree of a page from its text

`Store.ofText` reads a text as a page. Whatever the text is, the result is a tree: markup that does not
fit is repaired the way browsers agree on. The tokens of the text go one after the other to the step
of the insertion mode, or, inside elements of another vocabulary, to `foreignStep`.
-/

namespace BookCatalog.Html.Builder

/-! ## The remaining modes -/

/-- A token before anything else. -/
def initialStep (token : Token) (b : Builder) : Stepped :=
  match token with
  | .blanks _ => b.done
  | .comment text => (b.appendCommentTo Store.documentId text).done
  | .doctype _ quirky => { b with quirky, mode := .beforeHtml }.done
  | _ => { b with quirky := true }.again .beforeHtml token

/-- A token before the outermost element. -/
def beforeHtmlStep (token : Token) (b : Builder) : Stepped :=
  let go : Stepped := (b.openRoot []).again .beforeHead token
  match token with
  | .blanks _ => b.done
  | .comment text => (b.appendCommentTo Store.documentId text).done
  | .startTag t => if t.name = "html" then { b.openRoot t.attrs with mode := .beforeHead }.done else go
  | .endTag t => if ["head", "body", "html", "br"].contains t.name then go else b.done
  | _ => go

/-- Opens the head. -/
def openHead (b : Builder) (t : Tag) : Builder :=
  let (id, b) := b.openElement .html "head" t.attrs
  { b with head := some id }

/-- A token before the head. -/
def beforeHeadStep (token : Token) (b : Builder) : Stepped :=
  let go : Stepped := (b.openHead (Tag.plain "head")).again .inHead token
  match token with
  | .blanks _ => b.done
  | .comment text => (b.appendComment text).done
  | .startTag t =>
    if t.name = "html" then (b.mergeRoot t).done
    else if t.name = "head" then { b.openHead t with mode := .inHead }.done
    else go
  | .endTag t => if ["head", "body", "html", "br"].contains t.name then go else b.done
  | _ => go

/-- A token after the head. -/
def afterHeadStep (token : Token) (b : Builder) : Stepped :=
  let go : Stepped := (b.openImplied "body").again .inBody token
  match token with
  | .blanks text => (b.appendText text).done
  | .comment text => (b.appendComment text).done
  | .startTag t =>
    match t.name with
    | "html" => (b.mergeRoot t).done
    | "body" => { b.openTag t with framesetOk := false, mode := .inBody }.done
    | "frameset" => { b.openTag t with mode := .inFrameset }.done
    | "head" => b.done
    | _ =>
      match b.head with
      | some head =>
        match (b.push head).headTag? t with
        | some next => (next.removeOpen head).done
        | none => go
      | none => go
  | .endTag t =>
    if t.name = "template" then b.endTemplate.done
    else if ["body", "html", "br"].contains t.name then go
    else b.done
  | _ => go

/-- A token in the raw text of an element. -/
def textStep (token : Token) (b : Builder) : Stepped :=
  match token with
  | .blanks text => (b.appendText text).done
  | .text text => (b.appendText text).done
  | .eof => b.pop.again b.returnMode token
  | .endTag _ => { b.pop with mode := b.returnMode }.done
  | _ => b.done

/-- A token in a list of choices. -/
def selectStep (token : Token) (b : Builder) : Stepped :=
  let leaveOption (b : Builder) : Builder := if b.currentIn ["option"] then b.pop else b
  let leaveGroup (b : Builder) : Builder := if b.currentIn ["optgroup"] then b.pop else b
  let inSelect := b.inScopeNamed .select "select"
  match token with
  | .blanks text => (b.appendText text).done
  | .text text => (b.appendText text).done
  | .comment text => (b.appendComment text).done
  | .startTag t =>
    match t.name with
    | "html" => (b.mergeRoot t).done
    | "option" => ((leaveOption b).openTag t).done
    | "optgroup" => ((leaveGroup (leaveOption b)).openTag t).done
    | "hr" => ((leaveGroup (leaveOption b)).addTag t).done
    | "select" => (if inSelect then (b.popThrough ["select"]).resetMode else b).done
    | "script" => headStep token b
    | "template" => headStep token b
    | name =>
      if ["input", "keygen", "textarea"].contains name && inSelect then
        let b := (b.popThrough ["select"]).resetMode
        b.again b.mode token
      else b.done
  | .endTag t =>
    match t.name with
    | "optgroup" =>
      let inGroup := (b.opened[1]?).any (b.isNamed "optgroup")
      (leaveGroup (if b.currentIn ["option"] && inGroup then b.pop else b)).done
    | "option" => (leaveOption b).done
    | "select" => (if inSelect then (b.popThrough ["select"]).resetMode else b).done
    | "template" => b.endTemplate.done
    | _ => b.done
  | .eof => b.bodyStep token
  | _ => b.done

/-- A token in a list of choices in a table. -/
def selectInTableStep (token : Token) (b : Builder) : Stepped :=
  let names := ["caption", "table", "tbody", "tfoot", "thead", "tr", "td", "th"]
  let leave : Stepped :=
    let b := (b.popThrough ["select"]).resetMode
    b.again b.mode token
  match token with
  | .startTag t => if names.contains t.name then leave else b.selectStep token
  | .endTag t =>
    if names.contains t.name then if b.inScopeNamed .table t.name then leave else b.done
    else b.selectStep token
  | _ => b.selectStep token

/-- A token in a template. -/
def templateStep (token : Token) (b : Builder) : Stepped :=
  let go (mode : Mode) : Stepped :=
    { b with templateModes := mode :: b.templateModes.drop 1 }.again mode token
  match token with
  | .startTag t =>
    match b.headTag? t with
    | some next => next.done
    | none =>
      match t.name with
      | "col" => go .inColumnGroup
      | "tr" => go .inTableBody
      | "td" => go .inRow
      | "th" => go .inRow
      | name =>
        if ["caption", "colgroup", "tbody", "tfoot", "thead"].contains name then go .inTable
        else go .inBody
  | .endTag t => if t.name = "template" then b.endTemplate.done else b.done
  | .eof => b.endOfTemplates
  | .null => b.done
  | _ => b.bodyStep token

/-- A token after the body. -/
def afterBodyStep (token : Token) (b : Builder) : Stepped :=
  match token with
  | .blanks _ => b.bodyStep token
  | .comment text => (b.appendCommentTo b.rootElement text).done
  | .startTag t => if t.name = "html" then (b.mergeRoot t).done else b.again .inBody token
  | .endTag t =>
    if t.name = "html" then { b with mode := .afterAfterBody }.done else b.again .inBody token
  | .eof => b.done
  | _ => b.again .inBody token

/-- A token in a frameset. -/
def framesetStep (token : Token) (b : Builder) : Stepped :=
  match token with
  | .blanks text => (b.appendText text).done
  | .comment text => (b.appendComment text).done
  | .startTag t =>
    match t.name with
    | "html" => (b.mergeRoot t).done
    | "frameset" => (b.openTag t).done
    | "frame" => (b.addTag t).done
    | "noframes" => headStep token b
    | _ => b.done
  | .endTag t =>
    if t.name = "frameset" && b.opened.length ≠ 1 then
      let b := b.pop
      (if b.currentIn ["frameset"] then b else { b with mode := .afterFrameset }).done
    else b.done
  | _ => b.done

/-- A token after a frameset. -/
def afterFramesetStep (token : Token) (b : Builder) : Stepped :=
  match token with
  | .blanks text => (b.appendText text).done
  | .comment text => (b.appendComment text).done
  | .startTag t =>
    match t.name with
    | "html" => (b.mergeRoot t).done
    | "noframes" => headStep token b
    | _ => b.done
  | .endTag t => (if t.name = "html" then { b with mode := .afterAfterFrameset } else b).done
  | _ => b.done

/-- A token after the page. -/
def afterAfterBodyStep (token : Token) (b : Builder) : Stepped :=
  match token with
  | .blanks _ => b.bodyStep token
  | .comment text => (b.appendCommentTo Store.documentId text).done
  | .startTag t => if t.name = "html" then (b.mergeRoot t).done else b.again .inBody token
  | .eof => b.done
  | _ => b.again .inBody token

/-- A token after a page with a frameset. -/
def afterAfterFramesetStep (token : Token) (b : Builder) : Stepped :=
  match token with
  | .blanks _ => b.bodyStep token
  | .comment text => (b.appendCommentTo Store.documentId text).done
  | .startTag t =>
    match t.name with
    | "html" => (b.mergeRoot t).done
    | "noframes" => headStep token b
    | _ => b.done
  | _ => b.done

/-- A token as the insertion mode takes it. -/
def modeStep (token : Token) (b : Builder) : Stepped :=
  match b.mode with
  | .initial => b.initialStep token
  | .beforeHtml => b.beforeHtmlStep token
  | .beforeHead => b.beforeHeadStep token
  | .inHead => b.headStep token
  | .afterHead => b.afterHeadStep token
  | .inBody => b.bodyStep token
  | .inText => b.textStep token
  | .inTable => b.tableStep token
  | .inTableText => b.tableTextWait token
  | .inCaption => b.captionStep token
  | .inColumnGroup => b.columnStep token
  | .inTableBody => b.sectionStep token
  | .inRow => b.rowStep token
  | .inCell => b.cellStep token
  | .inSelect => b.selectStep token
  | .inSelectInTable => b.selectInTableStep token
  | .inTemplate => b.templateStep token
  | .afterBody => b.afterBodyStep token
  | .inFrameset => b.framesetStep token
  | .afterFrameset => b.afterFramesetStep token
  | .afterAfterBody => b.afterAfterBodyStep token
  | .afterAfterFrameset => b.afterAfterFramesetStep token

/-! ## Other vocabularies -/

/-- Whether a token counts by the rules of the vocabulary of the innermost element. -/
def isForeign (b : Builder) (token : Token) : Bool :=
  let n := b.currentName
  let isText := match token with
    | .blanks _ => true
    | .text _ => true
    | .null => true
    | _ => false
  let startName? := match token with
    | .startTag t => some t.name
    | _ => none
  if b.opened.isEmpty || n.1 = .html then false
  else
    match token with
    | .eof => false
    | .doctype .. => false
    | _ =>
      if isMathText n && (isText || startName?.any fun s => s != "mglyph" && s != "malignmark") then
        false
      else if isSvgContainer n && (isText || startName?.isSome) then false
      else if n = (.mathml, "annotation-xml") && startName? = some "svg" then false
      else true

/-- A start tag inside an element of another vocabulary. -/
def foreignStartTag (b : Builder) (t : Tag) : Builder :=
  let space := b.currentName.1
  let name := if space = .svg then restoreCase svgElementNames t.name else t.name
  b.addForeign space name t

/-- Closes the elements of other vocabularies, up to one whose contents belong to HTML. -/
def leaveForeign (b : Builder) : Builder :=
  { b with opened := b.opened.dropWhile fun id =>
      let n := b.nameOf id
      !(n.1 = .html || isMathText n || isSvgContainer n) }

/-- What an end tag inside elements of another vocabulary closes, looking outwards: the elements that
stay open, or `none` when an element of HTML is met, where the mode decides. -/
def foreignEnd (b : Builder) (name : String) (isFirst : Bool) : List NodeId → Option (List NodeId)
  | [] => some b.opened
  | [_] => some b.opened
  | id :: outer =>
    let n := b.nameOf id
    if !isFirst && n.1 = .html then none
    else if n.2.toLower = name then some outer
    else b.foreignEnd name false outer

/-- A token inside an element of another vocabulary. -/
def foreignStep (token : Token) (b : Builder) : Stepped :=
  let breakOut : Stepped := b.leaveForeign.modeStep token
  match token with
  | .null => (b.appendText ['\uFFFD']).done
  | .blanks text => (b.appendText text).done
  | .text text => { b.appendText text with framesetOk := false }.done
  | .comment text => (b.appendComment text).done
  | .startTag t =>
    let sized := t.attrs.any fun a => ["color", "face", "size"].contains a.name
    if breakoutNames.contains t.name || (t.name = "font" && sized) then breakOut
    else (b.foreignStartTag t).done
  | .endTag t =>
    if t.name = "br" || t.name = "p" then breakOut
    else
      match b.foreignEnd t.name true b.opened with
      | some opened => { b with opened }.done
      | none => b.modeStep token
  | _ => b.done

/-! ## The page -/

/-- A token until it is dealt with. Each time it counts again an element was closed or a mode was
left, so `rounds` bounds how often. -/
def take (token : Token) : (rounds : Nat) → Builder → Builder
  | 0, b => b
  | rounds + 1, b =>
    match if b.isForeign token then b.foreignStep token else b.modeStep token with
    | (b, .done) => b
    | (b, .again token) => b.take token rounds

/-- How often a token may count again: every open element and every open template can be left in a
few modes. -/
def roundsFor (b : Builder) : Nat := 16 + 8 * (b.opened.length + b.templateModes.length)

/-- A token of the page. A line feed at the start of certain elements does not count. -/
def accept (b : Builder) (token : Token) : Builder :=
  let skip := b.skipLineFeed
  let b := { b with skipLineFeed := false, textModel := match token with
    | .endTag _ => .markup
    | _ => b.textModel }
  match token with
  | .blanks text =>
    let text := if skip && text.head? = some '\n' then text.drop 1 else text
    if text.isEmpty then b else b.take (.blanks text) b.roundsFor
  | .doctype .. => if b.mode = .initial then b.take token b.roundsFor else b
  | _ => b.take token b.roundsFor

/-- Reads a text to its end. Every round takes at least one character, so `fuel` may be the length of
the text and one round for its end. -/
def readAll (fuel : Nat) (cs : List Char) (b : Builder) : Builder :=
  match fuel with
  | 0 => b
  | fuel + 1 =>
    let (_, name) := b.currentName
    let inForeign := !b.opened.isEmpty && b.currentName.1 ≠ .html
    let (tokens, rest) := nextTokens b.textModel name inForeign cs
    let b := tokens.foldl accept b
    if cs.isEmpty then b else readAll fuel rest b

end BookCatalog.Html.Builder

namespace BookCatalog.Html

/-- The nodes of the page that a text is read as. -/
def Store.ofText (text : String) : Store :=
  let cs := normalizedInput text
  (Builder.readAll (cs.length + 1) cs {}).store

end BookCatalog.Html
