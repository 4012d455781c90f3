/-!
# The markup tree

What a chapter says, without its page: a document is a list of blocks, and blocks hold inline
content. Transcoders build these trees, and every output format renders them.
-/

namespace BookCatalog

/-- Content inside a line of text. -/
inductive Inline where
  | text (literal : String)
  | emphasis (content : List Inline)
  | strong (content : List Inline)
  | code (literal : String)
  /-- Markup that is passed through as it stands. -/
  | html (literal : String)
  | link (destination : String) (content : List Inline)
  /-- An image by its logical asset name; `none` for a placeholder without a source. -/
  | image (source : Option String)
  /-- A reference to a documented symbol. -/
  | symbolLink (symbol : String)
  deriving Inhabited, Repr, BEq

/-- The content of a table cell. -/
abbrev Cell := List Inline

/-- A block-level part of a document. -/
inductive Block where
  | heading (level : Nat) (content : List Inline)
  | paragraph (content : List Inline)
  /-- A list; each item is the list of its blocks. -/
  | list (ordered : Bool) (items : List (List Block))
  | table (header : List Cell) (rows : List (List Cell))
  | blockQuote (children : List Block)
  | codeBlock (language : Option String) (literal : String)
  | htmlBlock (literal : String)
  deriving Inhabited, Repr, BEq

/-- A document: its blocks in order. -/
structure Document where
  children : List Block
  deriving Inhabited, Repr, BEq

end BookCatalog
