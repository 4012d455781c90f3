import BookCatalog.Format
import BookCatalog.Proofs.JsonReading

/-!
# Reading markup trees from JSON

A value is read as the inline, block or document that it stands for. The kind that a node names in its member
`type` says what its other parts are: an inline has them in the member `value`, a block beside its kind. What a
tree is written as is read as the tree (`Inline.ofJson?_toJson`, `Block.ofJson?_toJson`), so JSON text says all
that there is in a document (`Format.json_lossless`).
-/

namespace BookCatalog

/-! ## Inlines -/

/-- The optional string that a value stands for. -/
def Json.toOption? : Json → Option (Option String)
  | .null => some none
  | .string s => some (some s)
  | _ => none

theorem Json.toOption?_ofOption (s : Option String) : (Json.ofOption s).toOption? = some s := by
  cases s <;> rfl

/-- The inline of a kind that holds a text. -/
def Inline.ofText? (kind literal : String) : Option Inline :=
  if kind = "text" then some (.text literal)
  else if kind = "code" then some (.code literal)
  else if kind = "html" then some (.html literal)
  else if kind = "symbol_link" then some (.symbolLink literal)
  else none

/-- The inline of a kind that holds inlines. -/
def Inline.ofContent? (kind : String) (content : List Inline) : Option Inline :=
  if kind = "emphasis" then some (.emphasis content)
  else if kind = "strong" then some (.strong content)
  else none

mutual

/-- The inline that a value stands for. -/
def Inline.ofJson? : Json → Option Inline
  | .object [("type", .string kind), ("value", .string literal)] => Inline.ofText? kind literal
  | .object [("type", .string kind), ("value", .array content)] =>
    (Inline.listOfJson? content).bind (Inline.ofContent? kind)
  | .object [("type", .string "link"),
      ("value", .object [("destination", .string destination), ("content", .array content)])] =>
    (Inline.listOfJson? content).map (.link destination)
  | .object [("type", .string "image"), ("value", .object [("source", source)])] =>
    source.toOption?.map .image
  | _ => none

/-- The inlines that values stand for. -/
def Inline.listOfJson? : List Json → Option (List Inline)
  | [] => some []
  | j :: rest => (Inline.ofJson? j).bind fun i => (Inline.listOfJson? rest).map (i :: ·)

end

theorem Inline.listOfJson?_of_forall {content : List Inline}
    (h : ∀ i ∈ content, Inline.ofJson? i.toJson = some i) :
    Inline.listOfJson? (Inline.listToJson content) = some content := by
  induction content with
  | nil => rw [Inline.listToJson, Inline.listOfJson?]
  | cons i rest ih =>
    obtain ⟨hi, hrest⟩ := List.forall_mem_cons.1 h
    rw [Inline.listToJson, Inline.listOfJson?, hi, ih hrest]
    rfl

/-- An inline is read as it was written. -/
theorem Inline.ofJson?_toJson : ∀ i : Inline, Inline.ofJson? i.toJson = some i
  | .text s | .code s | .html s | .symbolLink s => by
    rw [Inline.toJson, Inline.tagged, Inline.ofJson?]
    rfl
  | .emphasis content | .strong content => by
    have hcontent := Inline.listOfJson?_of_forall fun i (_ : i ∈ content) => Inline.ofJson?_toJson i
    rw [Inline.toJson, Inline.tagged, Inline.ofJson?, hcontent]
    rfl
  | .link destination content => by
    have hcontent := Inline.listOfJson?_of_forall fun i (_ : i ∈ content) => Inline.ofJson?_toJson i
    rw [Inline.toJson, Inline.tagged, Inline.ofJson?, hcontent]
    rfl
  | .image source => by
    rw [Inline.toJson, Inline.tagged, Inline.ofJson?, Json.toOption?_ofOption]
    rfl

theorem Inline.listOfJson?_listToJson (content : List Inline) :
    Inline.listOfJson? (Inline.listToJson content) = some content :=
  Inline.listOfJson?_of_forall fun i _ => Inline.ofJson?_toJson i

/-! ## Tables -/

/-- The table cell that a value stands for. -/
def Cell.ofJson? : Json → Option Cell
  | .object [("content", .array content)] => Inline.listOfJson? content
  | _ => none

/-- The table row that a value stands for. -/
def Block.rowOfJson? : Json → Option (List Cell)
  | .object [("cells", .array cells)] => cells.mapM Cell.ofJson?
  | _ => none

/-- What is read as it was written one by one is read as a list. -/
theorem mapM_map_eq_some {α : Type} {write : α → Json} {read : Json → Option α}
    (h : ∀ a, read (write a) = some a) (l : List α) : (l.map write).mapM read = some l := by
  rw [List.mapM_map, show read ∘ write = some from funext h]
  exact (List.mapM_pure (m := Option)).trans (congrArg some l.map_id)

theorem Cell.ofJson?_toJson (c : Cell) : Cell.ofJson? c.toJson = some c :=
  Inline.listOfJson?_listToJson c

theorem Block.rowOfJson?_rowToJson (row : List Cell) : Block.rowOfJson? (Block.rowToJson row) = some row :=
  mapM_map_eq_some Cell.ofJson?_toJson row

/-! ## Blocks -/

mutual

/-- The block that a value stands for. -/
def Block.ofJson? : Json → Option Block
  | .object [("type", .string "heading"), ("level", .number level), ("content", .array content)] =>
    (Inline.listOfJson? content).map (.heading level)
  | .object [("type", .string "paragraph"), ("content", .array content)] =>
    (Inline.listOfJson? content).map .paragraph
  | .object [("type", .string "list"), ("ordered", .bool ordered), ("items", .array items)] =>
    (Block.itemsOfJson? items).map (.list ordered)
  | .object [("type", .string "table"), ("header", .array header), ("rows", .array rows)] =>
    (header.mapM Cell.ofJson?).bind fun header => (rows.mapM Block.rowOfJson?).map (.table header)
  | .object [("type", .string "block_quote"), ("children", .array children)] =>
    (Block.listOfJson? children).map .blockQuote
  | .object [("type", .string "code_block"), ("language", language), ("literal", .string literal)] =>
    language.toOption?.map (.codeBlock · literal)
  | .object [("type", .string "html_block"), ("literal", .string literal)] => some (.htmlBlock literal)
  | _ => none

/-- The blocks that values stand for. -/
def Block.listOfJson? : List Json → Option (List Block)
  | [] => some []
  | j :: rest => (Block.ofJson? j).bind fun b => (Block.listOfJson? rest).map (b :: ·)

/-- The items that values stand for. -/
def Block.itemsOfJson? : List Json → Option (List (List Block))
  | [] => some []
  | .object [("children", .array children)] :: rest =>
    (Block.listOfJson? children).bind fun item => (Block.itemsOfJson? rest).map (item :: ·)
  | _ => none

end

theorem Block.listOfJson?_of_forall {blocks : List Block}
    (h : ∀ b ∈ blocks, Block.ofJson? b.toJson = some b) :
    Block.listOfJson? (Block.listToJson blocks) = some blocks := by
  induction blocks with
  | nil => rw [Block.listToJson, Block.listOfJson?]
  | cons b rest ih =>
    obtain ⟨hb, hrest⟩ := List.forall_mem_cons.1 h
    rw [Block.listToJson, Block.listOfJson?, hb, ih hrest]
    rfl

theorem Block.itemsOfJson?_of_forall {items : List (List Block)}
    (h : ∀ item ∈ items, ∀ b ∈ item, Block.ofJson? b.toJson = some b) :
    Block.itemsOfJson? (Block.itemsToJson items) = some items := by
  induction items with
  | nil => rw [Block.itemsToJson, Block.itemsOfJson?]
  | cons item rest ih =>
    obtain ⟨hitem, hrest⟩ := List.forall_mem_cons.1 h
    rw [Block.itemsToJson, Block.itemsOfJson?, Block.listOfJson?_of_forall hitem, ih hrest]
    rfl

/-- A block is read as it was written. -/
theorem Block.ofJson?_toJson : ∀ b : Block, Block.ofJson? b.toJson = some b
  | .heading level content => by
    rw [Block.toJson, Block.ofJson?, Inline.listOfJson?_listToJson]
    rfl
  | .paragraph content => by
    rw [Block.toJson, Block.ofJson?, Inline.listOfJson?_listToJson]
    rfl
  | .list ordered items => by
    have hitems := Block.itemsOfJson?_of_forall fun item (_ : item ∈ items) b (_ : b ∈ item) =>
      Block.ofJson?_toJson b
    rw [Block.toJson, Block.ofJson?, hitems]
    rfl
  | .table header rows => by
    rw [Block.toJson, Block.ofJson?, mapM_map_eq_some Cell.ofJson?_toJson,
      mapM_map_eq_some Block.rowOfJson?_rowToJson]
    rfl
  | .blockQuote children => by
    have hchildren := Block.listOfJson?_of_forall fun b (_ : b ∈ children) => Block.ofJson?_toJson b
    rw [Block.toJson, Block.ofJson?, hchildren]
    rfl
  | .codeBlock language literal => by
    rw [Block.toJson, Block.ofJson?, Json.toOption?_ofOption]
    rfl
  | .htmlBlock literal => by rw [Block.toJson, Block.ofJson?]
decreasing_by
  · have hitem := List.sizeOf_lt_of_mem ‹item ∈ items›
    have hb := List.sizeOf_lt_of_mem ‹b ∈ item›
    rw [Block.list.sizeOf_spec]
    omega
  · have hb := List.sizeOf_lt_of_mem ‹b ∈ children›
    rw [Block.blockQuote.sizeOf_spec]
    omega

/-! ## Documents -/

/-- The document that a value stands for. -/
def Document.ofJson? : Json → Option Document
  | .object [("children", .array children)] => (Block.listOfJson? children).map .mk
  | _ => none

/-- The document that a JSON text stands for. -/
def Document.read? (text : String) : Option Document := (Json.read? text).bind Document.ofJson?

theorem Document.ofJson?_toJson (d : Document) : Document.ofJson? d.toJson = some d := by
  have hchildren := Block.listOfJson?_of_forall fun b (_ : b ∈ d.children) => Block.ofJson?_toJson b
  rw [Document.toJson, Document.ofJson?, hchildren]
  rfl

theorem Document.read?_jsonText (d : Document) : Document.read? d.jsonText = some d := by
  rw [Document.read?, Document.jsonText, Json.read?_pretty, Option.bind_some, Document.ofJson?_toJson]

/-- **JSON text loses nothing.** Every document is rendered as a JSON text from which it can be read again, so
two documents are rendered as one text only when they are the same. -/
theorem Format.json_lossless :
    (∀ d : Document, ∃ text, Format.json.render d = .ok text ∧ Document.read? text = some d) ∧
      ∀ d d' : Document, Format.json.render d = Format.json.render d' ↔ d = d' := by
  refine ⟨fun d => ⟨d.jsonText, rfl, d.read?_jsonText⟩, fun d d' => ⟨fun h => ?_, congrArg _⟩⟩
  have htext : d.jsonText = d'.jsonText := Except.ok.inj h
  exact Option.some.inj (by rw [← d.read?_jsonText, htext, d'.read?_jsonText])

end BookCatalog
