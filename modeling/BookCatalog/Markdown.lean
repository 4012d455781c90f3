import BookCatalog.Markdown.Writer

/-!
# Documents as Markdown

The Markdown text of a document: its CommonMark tree, written, and without the comments that would
separate a list from the list or the code block after it.
-/

namespace BookCatalog.Markdown

/-- Removes every occurrence of `pattern`, from left to right; `skip` characters of an occurrence are
still to be passed over. -/
def eraseFrom (pattern : List Char) (skip : Nat) : List Char → List Char
  | [] => []
  | c :: rest =>
    match skip with
    | skip + 1 => eraseFrom pattern skip rest
    | 0 =>
      if pattern.isPrefixOf (c :: rest) then eraseFrom pattern (pattern.length - 1) rest
      else c :: eraseFrom pattern 0 rest

/-- The text without any occurrence of `pattern`. -/
def erase (pattern : List Char) (cs : List Char) : List Char := eraseFrom pattern 0 cs

/-- The comment after a list, with the blank line that follows it. -/
def listSeparator : List Char := endOfList.toList ++ ['\n', '\n']

/-- The Markdown text of a document, or none when it holds an empty code span. -/
def render? (d : Document) : Option String :=
  let chunks := chunksOf d.children
  if Chunk.anyEmptyCode chunks then none
  else some (String.ofList (erase listSeparator (renderText chunks)))

end BookCatalog.Markdown
