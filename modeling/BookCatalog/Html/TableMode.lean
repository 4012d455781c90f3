import BookCatalog.Html.BodyMode

/-!
# Tokens in tables

How a token counts in a table, in its caption, columns, sections, rows and cells. What does not belong
into a table goes in front of it.
-/

namespace BookCatalog.Html.Builder

/-- Closes elements up to the table. -/
def toTable (b : Builder) : Builder := b.popTo ["table", "template", "html"]

/-- Closes elements up to the section of a table. -/
def toSection (b : Builder) : Builder := b.popTo ["tbody", "tfoot", "thead", "template", "html"]

/-- Closes elements up to the row of a table. -/
def toRow (b : Builder) : Builder := b.popTo ["tr", "template", "html"]

/-- Text in a table waits until it is known to be all blank or not. -/
def tableTextStep (token : Token) (b : Builder) : Stepped :=
  if b.currentIn ["table", "tbody", "tfoot", "thead", "tr"] then
    { b with returnMode := b.mode, tableText := [] }.again .inTableText token
  else b.fosterStep token

/-- A token in a table. -/
def tableStep (token : Token) (b : Builder) : Stepped :=
  match token with
  | .null => b.tableTextStep token
  | .blanks _ => b.tableTextStep token
  | .text _ => b.tableTextStep token
  | .comment text => (b.appendComment text).done
  | .startTag t =>
    match t.name with
    | "caption" => { b.toTable.markFormatting.openTag t with mode := .inCaption }.done
    | "colgroup" => { b.toTable.openTag t with mode := .inColumnGroup }.done
    | "col" => (b.toTable.openImplied "colgroup").again .inColumnGroup token
    | "tbody" => { b.toTable.openTag t with mode := .inTableBody }.done
    | "tfoot" => { b.toTable.openTag t with mode := .inTableBody }.done
    | "thead" => { b.toTable.openTag t with mode := .inTableBody }.done
    | "td" => (b.toTable.openImplied "tbody").again .inTableBody token
    | "th" => (b.toTable.openImplied "tbody").again .inTableBody token
    | "tr" => (b.toTable.openImplied "tbody").again .inTableBody token
    | "table" =>
      if b.inScopeNamed .table "table" then
        let b := (b.popThrough ["table"]).resetMode
        b.again b.mode token
      else b.done
    | "style" => headStep token b
    | "script" => headStep token b
    | "template" => headStep token b
    | "input" => if isHidden t then (b.addTag t).done else b.fosterStep token
    | "form" =>
      if b.form.isNone && !b.hasOpen "template" then
        let (id, b) := b.addElement .html "form" t.attrs
        { b with form := some id }.done
      else b.done
    | _ => b.fosterStep token
  | .endTag t =>
    match t.name with
    | "table" =>
      (if b.inScopeNamed .table "table" then (b.popThrough ["table"]).resetMode else b).done
    | "template" => b.endTemplate.done
    | name =>
      if ["body", "caption", "col", "colgroup", "html", "tbody", "td", "tfoot", "th", "thead",
          "tr"].contains name then b.done
      else b.fosterStep token
  | .eof => b.bodyStep token
  | .doctype .. => b.done

/-- A token while text in a table waits. -/
def tableTextWait (token : Token) (b : Builder) : Stepped :=
  match token with
  | .null => b.done
  | .blanks _ => { b with tableText := token :: b.tableText }.done
  | .text _ => { b with tableText := token :: b.tableText }.done
  | _ =>
    let waiting := b.tableText.reverse
    let allBlank := waiting.all fun t => match t with
      | .blanks _ => true
      | _ => false
    let b := waiting.foldl (fun b t =>
      match t with
      | .blanks text => if allBlank then b.appendText text else (b.fosterStep t).1
      | _ => (b.fosterStep t).1) { b with tableText := [] }
    b.again b.returnMode token

/-- A token in a caption. -/
def captionStep (token : Token) (b : Builder) : Stepped :=
  let close (b : Builder) : Builder :=
    ((b.closeImplied impliedEndNames).popThrough ["caption"]).clearFormatting
  let leave : Stepped :=
    if b.inScopeNamed .table "caption" then (close b).again .inTable token else b.done
  match token with
  | .startTag t =>
    if ["caption", "col", "colgroup", "tbody", "td", "tfoot", "th", "thead", "tr"].contains t.name
    then leave else b.bodyStep token
  | .endTag t =>
    if t.name = "table" then leave
    else if t.name = "caption" then
      (if b.inScopeNamed .table "caption" then { close b with mode := .inTable } else b).done
    else if ["body", "col", "colgroup", "html", "tbody", "td", "tfoot", "th", "thead",
        "tr"].contains t.name then b.done
    else b.bodyStep token
  | _ => b.bodyStep token

/-- A token among the columns of a table. -/
def columnStep (token : Token) (b : Builder) : Stepped :=
  let leave : Stepped := if b.currentIn ["colgroup"] then b.pop.again .inTable token else b.done
  match token with
  | .blanks text => (b.appendText text).done
  | .comment text => (b.appendComment text).done
  | .startTag t =>
    match t.name with
    | "html" => (b.mergeRoot t).done
    | "col" => (b.addTag t).done
    | "template" => headStep token b
    | _ => leave
  | .endTag t =>
    match t.name with
    | "colgroup" => (if b.currentIn ["colgroup"] then { b.pop with mode := .inTable } else b).done
    | "col" => b.done
    | "template" => b.endTemplate.done
    | _ => leave
  | .eof => b.bodyStep token
  | _ => leave

/-- A token in a section of a table. -/
def sectionStep (token : Token) (b : Builder) : Stepped :=
  let leave : Stepped :=
    if b.inScope .table fun id => isHtmlIn ["table", "tbody", "tfoot"] (b.nameOf id) then
      b.toSection.pop.again .inTable token
    else b.done
  match token with
  | .startTag t =>
    match t.name with
    | "tr" => { b.toSection.openTag t with mode := .inRow }.done
    | "th" => (b.toSection.openImplied "tr").again .inRow token
    | "td" => (b.toSection.openImplied "tr").again .inRow token
    | name =>
      if ["caption", "col", "colgroup", "tbody", "tfoot", "thead"].contains name then leave
      else b.tableStep token
  | .endTag t =>
    if ["tbody", "tfoot", "thead"].contains t.name then
      (if b.inScopeNamed .table t.name then { b.toSection.pop with mode := .inTable } else b).done
    else if t.name = "table" then leave
    else if ["body", "caption", "col", "colgroup", "html", "td", "th", "tr"].contains t.name then
      b.done
    else b.tableStep token
  | _ => b.tableStep token

/-- A token in a row. -/
def rowStep (token : Token) (b : Builder) : Stepped :=
  let leave : Stepped :=
    if b.inScopeNamed .table "tr" then b.toRow.pop.again .inTableBody token else b.done
  match token with
  | .startTag t =>
    if ["th", "td"].contains t.name then
      { (b.toRow.openTag t).markFormatting with mode := .inCell }.done
    else if ["caption", "col", "colgroup", "tbody", "tfoot", "thead", "tr"].contains t.name then
      leave
    else b.tableStep token
  | .endTag t =>
    if t.name = "tr" then
      (if b.inScopeNamed .table "tr" then { b.toRow.pop with mode := .inTableBody } else b).done
    else if t.name = "table" then leave
    else if ["tbody", "tfoot", "thead"].contains t.name then
      if b.inScopeNamed .table t.name then leave else b.done
    else if ["body", "caption", "col", "colgroup", "html", "td", "th"].contains t.name then b.done
    else b.tableStep token
  | _ => b.tableStep token

/-- A token in a cell. -/
def cellStep (token : Token) (b : Builder) : Stepped :=
  match token with
  | .startTag t =>
    if ["caption", "col", "colgroup", "tbody", "td", "tfoot", "th", "thead", "tr"].contains t.name
    then
      if b.inScope .table fun id => isHtmlIn ["td", "th"] (b.nameOf id) then
        b.closeCell.again .inRow token
      else b.done
    else b.bodyStep token
  | .endTag t =>
    if ["td", "th"].contains t.name then
      if b.inScopeNamed .table t.name then
        let b := ((b.closeImplied impliedEndNames).popThrough [t.name]).clearFormatting
        { b with mode := .inRow }.done
      else b.done
    else if ["body", "caption", "col", "colgroup", "html"].contains t.name then b.done
    else if ["table", "tbody", "tfoot", "thead", "tr"].contains t.name then
      if b.inScopeNamed .table t.name then b.closeCell.again .inRow token else b.done
    else b.bodyStep token
  | _ => b.bodyStep token

end BookCatalog.Html.Builder
