import BookCatalog.Markup
import BookCatalog.Json

/-!
# Markup trees as JSON

Every node is an object that names its kind in the member `type`. A block has its parts beside it, an
inline has its one part in the member `value`.
-/

namespace BookCatalog

open BookCatalog.Json

/-- An optional string: the string or `null`. -/
def Json.ofOption : Option String → Json
  | none => .null
  | some s => .string s

/-- The object of an inline of the given kind. -/
def Inline.tagged (kind : String) (value : Json) : Json :=
  .object [("type", .string kind), ("value", value)]

mutual

/-- An inline as JSON. -/
def Inline.toJson : Inline → Json
  | .text s => Inline.tagged "text" (.string s)
  | .emphasis content => Inline.tagged "emphasis" (.array (Inline.listToJson content))
  | .strong content => Inline.tagged "strong" (.array (Inline.listToJson content))
  | .code s => Inline.tagged "code" (.string s)
  | .html s => Inline.tagged "html" (.string s)
  | .link destination content =>
    Inline.tagged "link" (.object [("destination", .string destination),
      ("content", .array (Inline.listToJson content))])
  | .image source => Inline.tagged "image" (.object [("source", Json.ofOption source)])
  | .symbolLink s => Inline.tagged "symbol_link" (.string s)

/-- The inlines of a list as JSON, in order. -/
def Inline.listToJson : List Inline → List Json
  | [] => []
  | i :: rest => i.toJson :: Inline.listToJson rest

end

/-- A table cell as JSON. -/
def Cell.toJson (c : Cell) : Json := .object [("content", .array (Inline.listToJson c))]

/-- A table row as JSON. -/
def Block.rowToJson (row : List Cell) : Json := .object [("cells", .array (row.map Cell.toJson))]

mutual

/-- A block as JSON. -/
def Block.toJson : Block → Json
  | .heading level content =>
    .object [("type", .string "heading"), ("level", .number level),
      ("content", .array (Inline.listToJson content))]
  | .paragraph content =>
    .object [("type", .string "paragraph"), ("content", .array (Inline.listToJson content))]
  | .list ordered items =>
    .object [("type", .string "list"), ("ordered", .bool ordered),
      ("items", .array (Block.itemsToJson items))]
  | .table header rows =>
    .object [("type", .string "table"), ("header", .array (header.map Cell.toJson)),
      ("rows", .array (rows.map Block.rowToJson))]
  | .blockQuote children =>
    .object [("type", .string "block_quote"), ("children", .array (Block.listToJson children))]
  | .codeBlock language literal =>
    .object [("type", .string "code_block"), ("language", Json.ofOption language),
      ("literal", .string literal)]
  | .htmlBlock literal =>
    .object [("type", .string "html_block"), ("literal", .string literal)]

/-- The blocks of a list as JSON, in order. -/
def Block.listToJson : List Block → List Json
  | [] => []
  | b :: rest => b.toJson :: Block.listToJson rest

/-- The items of a list as JSON, in order. -/
def Block.itemsToJson : List (List Block) → List Json
  | [] => []
  | item :: rest =>
    .object [("children", .array (Block.listToJson item))] :: Block.itemsToJson rest

end

/-- A document as JSON. -/
def Document.toJson (d : Document) : Json :=
  .object [("children", .array (Block.listToJson d.children))]

/-- A document as indented JSON text. -/
def Document.jsonText (d : Document) : String := d.toJson.pretty

end BookCatalog
