import BookCatalog.Html.Builder

/-!
# Tokens in the head and in the body

How a token counts in the head of a page (`headStep`) and in its body (`bodyStep`), the mode that most
others fall back to. A step gives the next builder, and either the token is dealt with or it counts
again in the mode that the step has set.
-/

namespace BookCatalog.Html

/-- What has become of a token. -/
inductive Outcome where
  | done
  /-- The token counts again, in the mode that is set now. -/
  | again (t : Token)
  deriving Inhabited

/-- A builder after a step, and what has become of the token. -/
abbrev Stepped := Builder × Outcome

namespace Builder

/-- The token is dealt with. -/
def done (b : Builder) : Stepped := (b, .done)

/-- The token counts again in another mode. -/
def again (b : Builder) (mode : Mode) (t : Token) : Stepped := ({ b with mode }, .again t)

/-! ## In the head -/

/-- Gives the outermost element the attributes of another start tag for it. -/
def mergeRoot (b : Builder) (t : Tag) : Builder :=
  if b.hasOpen "template" then b
  else { b with store := b.store.addMissingAttrs b.rootElement t.attrs }

/-- Ends a template. -/
def endTemplate (b : Builder) : Builder :=
  if b.hasOpen "template" then
    let b := ((b.closeImplied templateImpliedEndNames).popThrough ["template"]).clearFormatting
    { b with templateModes := b.templateModes.drop 1 }.resetMode
  else b

/-- Opens a template. -/
def openTemplate (b : Builder) (t : Tag) : Builder :=
  let b := { b.markFormatting with
    framesetOk := false
    mode := .inTemplate
    templateModes := .inTemplate :: b.templateModes }
  b.openTag t

/-- A start tag that counts in the body as in the head, or none. -/
def headTag? (b : Builder) (t : Tag) : Option Builder :=
  match t.name with
  | "base" => some (b.addTag t)
  | "basefont" => some (b.addTag t)
  | "bgsound" => some (b.addTag t)
  | "link" => some (b.addTag t)
  | "meta" => some (b.addTag t)
  | "title" => some (b.openText t .escapable)
  | "noframes" => some (b.openText t .raw)
  | "style" => some (b.openText t .raw)
  | "script" => some (b.openText t .script)
  | "template" => some (b.openTemplate t)
  | _ => none

/-- A token in the head. -/
def headStep (token : Token) (b : Builder) : Stepped :=
  let leave : Stepped := b.pop.again .afterHead token
  match token with
  | .blanks text => (b.appendText text).done
  | .comment text => (b.appendComment text).done
  | .startTag t =>
    match b.headTag? t with
    | some next => next.done
    | none =>
      match t.name with
      | "html" => (b.mergeRoot t).done
      | "noscript" => (b.openText t .raw).done
      | "head" => b.done
      | _ => leave
  | .endTag t =>
    match t.name with
    | "head" => { b.pop with mode := .afterHead }.done
    | "template" => b.endTemplate.done
    | "body" => leave
    | "html" => leave
    | "br" => leave
    | _ => b.done
  | _ => leave

/-! ## In the body -/

/-- Start tags of blocks that close a paragraph. -/
def blockNames : List String :=
  ["address", "article", "aside", "blockquote", "center", "details", "dialog", "dir", "div", "dl",
    "fieldset", "figcaption", "figure", "footer", "header", "hgroup", "main", "menu", "nav", "ol",
    "p", "search", "section", "summary", "ul"]

/-- End tags of blocks. -/
def blockEndNames : List String :=
  ["address", "article", "aside", "blockquote", "button", "center", "details", "dialog", "dir",
    "div", "dl", "fieldset", "figcaption", "figure", "footer", "header", "hgroup", "listing", "main",
    "menu", "nav", "ol", "pre", "search", "section", "summary", "ul"]

/-- Formatting elements. -/
def formattingNames : List String :=
  ["b", "big", "code", "em", "font", "i", "s", "small", "strike", "strong", "tt", "u"]

/-- Start tags that count in tables only. -/
def tableOnlyNames : List String :=
  ["caption", "col", "colgroup", "frame", "head", "tbody", "td", "tfoot", "th", "thead", "tr"]

/-- Whether an input field is hidden. -/
def isHidden (t : Tag) : Bool :=
  (t.attr? "type").any fun v => v.toLower = "hidden"

/-- The item that an item of the same list closes, looking outwards: a special element other than
`address`, `div` and `p` ends the search. -/
def itemToClose? (b : Builder) (names : List String) : List NodeId → Option String
  | [] => none
  | id :: outer =>
    let n := b.nameOf id
    if isHtmlIn names n then some n.2
    else if isHtmlIn specialNames n && !isHtmlIn ["address", "div", "p"] n then none
    else b.itemToClose? names outer

/-- Opens an item of a list. -/
def openItem (b : Builder) (t : Tag) : Builder :=
  let b := { b with framesetOk := false }
  let names := if t.name = "li" then ["li"] else ["dd", "dt"]
  let b := match b.itemToClose? names b.opened with
    | some name => (b.closeImpliedExcept name).popThrough [name]
    | none => b
  b.closeParagraphInScope.openTag t

/-- Opens a link; a link that is open is closed first. -/
def openLink (b : Builder) (t : Tag) : Builder :=
  let openLink? := b.recentFormatting.findSome? fun f => match f with
    | .element id _ => if b.isNamed "a" id then some id else none
    | .marker => none
  let b := match openLink? with
    | some id => ((b.endFormatting "a").removeFormatting id).removeOpen id
    | none => b
  b.restoreFormatting.openFormatting t

/-- Adds an element of another vocabulary. -/
def addForeign (b : Builder) (space : Space) (name : String) (t : Tag) : Builder :=
  let attrs := adjustedAttrs space t.attrs
  if t.selfClosing then (b.addElement space name attrs).2 else (b.openElement space name attrs).2

/-- An embedded element without contents. -/
def addEmbedded (b : Builder) (t : Tag) : Builder :=
  let b := b.restoreFormatting.addTag t
  if t.name = "input" && isHidden t then b else { b with framesetOk := false }

/-- The mode of a list of choices that is opened in a mode. -/
def selectMode (mode : Mode) : Mode :=
  if [Mode.inTable, .inCaption, .inTableBody, .inRow, .inCell].contains mode then .inSelectInTable
  else .inSelect

/-- A start tag in the body. -/
def bodyStartTag (t : Tag) (b : Builder) : Builder :=
  let name := t.name
  let noFrameset (b : Builder) : Builder := { b with framesetOk := false }
  if blockNames.contains name then b.closeParagraphInScope.openTag t
  else if headingNames.contains name then
    let b := b.closeParagraphInScope
    (if b.currentIn headingNames then b.pop else b).openTag t
  else if formattingNames.contains name then b.restoreFormatting.openFormatting t
  else if tableOnlyNames.contains name then b
  else
    match b.headTag? t with
    | some next => next
    | none =>
      match name with
      | "html" => b.mergeRoot t
      | "body" =>
        match b.bodyElement? with
        | some body =>
          if b.hasOpen "template" then b
          else noFrameset { b with store := b.store.addMissingAttrs body t.attrs }
        | none => b
      | "frameset" =>
        match b.bodyElement? with
        | some body =>
          if b.framesetOk then
            let b := { b with store := b.store.detach body, opened := [b.rootElement] }
            { b.openTag t with mode := .inFrameset }
          else b
        | none => b
      | "pre" => noFrameset { b.closeParagraphInScope.openTag t with skipLineFeed := true }
      | "listing" => noFrameset { b.closeParagraphInScope.openTag t with skipLineFeed := true }
      | "form" =>
        let inTemplate := b.hasOpen "template"
        if b.form.isSome && !inTemplate then b
        else
          let (id, b) := b.closeParagraphInScope.openElement .html name t.attrs
          if inTemplate then b else { b with form := some id }
      | "li" => b.openItem t
      | "dd" => b.openItem t
      | "dt" => b.openItem t
      | "plaintext" => { b.closeParagraphInScope.openTag t with textModel := .plain }
      | "button" =>
        let b :=
          if b.inScopeNamed .general "button" then
            (b.closeImplied impliedEndNames).popThrough ["button"]
          else b
        noFrameset (b.restoreFormatting.openTag t)
      | "a" => b.openLink t
      | "nobr" =>
        let b := b.restoreFormatting
        let b :=
          if b.inScopeNamed .general "nobr" then (b.endFormatting "nobr").restoreFormatting else b
        b.openFormatting t
      | "applet" => noFrameset (b.restoreFormatting.openTag t).markFormatting
      | "marquee" => noFrameset (b.restoreFormatting.openTag t).markFormatting
      | "object" => noFrameset (b.restoreFormatting.openTag t).markFormatting
      | "table" =>
        let b := if b.quirky then b else b.closeParagraphInScope
        { noFrameset (b.openTag t) with mode := .inTable }
      | "area" => b.addEmbedded t
      | "br" => b.addEmbedded t
      | "embed" => b.addEmbedded t
      | "img" => b.addEmbedded t
      | "keygen" => b.addEmbedded t
      | "wbr" => b.addEmbedded t
      | "input" => b.addEmbedded t
      | "image" => b.addEmbedded { t with name := "img" }
      | "param" => b.addTag t
      | "source" => b.addTag t
      | "track" => b.addTag t
      | "hr" => noFrameset (b.closeParagraphInScope.addTag t)
      | "textarea" => { noFrameset (b.openText t .escapable) with skipLineFeed := true }
      | "xmp" => noFrameset (b.closeParagraphInScope.restoreFormatting.openText t .raw)
      | "iframe" => noFrameset (b.openText t .raw)
      | "noembed" => b.openText t .raw
      | "noscript" => b.openText t .raw
      | "select" =>
        let b := noFrameset (b.restoreFormatting.openTag t)
        { b with mode := selectMode b.mode }
      | "optgroup" => (if b.currentIn ["option"] then b.pop else b).restoreFormatting.openTag t
      | "option" => (if b.currentIn ["option"] then b.pop else b).restoreFormatting.openTag t
      | "rb" =>
        (if b.inScopeNamed .general "ruby" then b.closeImplied impliedEndNames else b).openTag t
      | "rtc" =>
        (if b.inScopeNamed .general "ruby" then b.closeImplied impliedEndNames else b).openTag t
      | "rp" =>
        (if b.inScopeNamed .general "ruby" then b.closeImpliedExcept "rtc" else b).openTag t
      | "rt" =>
        (if b.inScopeNamed .general "ruby" then b.closeImpliedExcept "rtc" else b).openTag t
      | "math" => b.addForeign .mathml "math" t
      | "svg" => b.addForeign .svg "svg" t
      | _ => b.restoreFormatting.openTag t

/-- Ends a form. -/
def endForm (b : Builder) : Builder :=
  if b.hasOpen "template" then
    if b.inScopeNamed .general "form" then (b.closeImplied impliedEndNames).popThrough ["form"] else b
  else
    match b.form with
    | none => b
    | some id =>
      let b := { b with form := none }
      if b.inScope .general (· = id) then (b.closeImplied impliedEndNames).removeOpen id else b

/-- Ends an element that formatting does not reach out of. -/
def endMarked (b : Builder) (name : String) : Builder :=
  if b.inScopeNamed .general name then
    ((b.closeImplied impliedEndNames).popThrough [name]).clearFormatting
  else b

/-- An end tag in the body, those of the body and the page apart. -/
def bodyEndTag (t : Tag) (b : Builder) : Builder :=
  let name := t.name
  if blockEndNames.contains name then
    if b.inScopeNamed .general name then (b.closeImplied impliedEndNames).popThrough [name] else b
  else if headingNames.contains name then
    if b.inScope .general fun id => isHtmlIn headingNames (b.nameOf id) then
      (b.closeImplied impliedEndNames).popThrough headingNames
    else b
  else if formattingNames.contains name then b.endFormatting name
  else
    match name with
    | "template" => b.endTemplate
    | "form" => b.endForm
    | "p" => (if b.inScopeNamed .button "p" then b else b.openImplied "p").closeParagraph
    | "li" =>
      if b.inScopeNamed .listItem "li" then (b.closeImpliedExcept "li").popThrough ["li"] else b
    | "dd" =>
      if b.inScopeNamed .general "dd" then (b.closeImpliedExcept "dd").popThrough ["dd"] else b
    | "dt" =>
      if b.inScopeNamed .general "dt" then (b.closeImpliedExcept "dt").popThrough ["dt"] else b
    | "a" => b.endFormatting "a"
    | "nobr" => b.endFormatting "nobr"
    | "applet" => b.endMarked name
    | "marquee" => b.endMarked name
    | "object" => b.endMarked name
    | "br" => b.addEmbedded (Tag.plain "br")
    | _ => b.closeOrdinary name

/-- The end of the page inside a template. -/
def endOfTemplates (b : Builder) : Stepped :=
  if b.hasOpen "template" then
    let b := (b.popThrough ["template"]).clearFormatting
    let b := { b with templateModes := b.templateModes.drop 1 }.resetMode
    b.again b.mode .eof
  else b.done

/-- A token in the body. -/
def bodyStep (token : Token) (b : Builder) : Stepped :=
  match token with
  | .null => b.done
  | .blanks text => (b.restoreFormatting.appendText text).done
  | .text text => { b.restoreFormatting.appendText text with framesetOk := false }.done
  | .comment text => (b.appendComment text).done
  | .startTag t => (b.bodyStartTag t).done
  | .endTag t =>
    match t.name with
    | "body" => (if b.inScopeNamed .general "body" then { b with mode := .afterBody } else b).done
    | "html" => if b.inScopeNamed .general "body" then b.again .afterBody token else b.done
    | _ => (b.bodyEndTag t).done
  | .eof => if b.templateModes.isEmpty then b.done else b.endOfTemplates
  | .doctype .. => b.done

/-- A token that does not belong into a table counts as in the body, but goes in front of it. -/
def fosterStep (token : Token) (b : Builder) : Stepped :=
  let (b, outcome) := bodyStep token { b with fostering := true }
  ({ b with fostering := false }, outcome)

end Builder

end BookCatalog.Html
