/-!
# Blank characters

Which characters count as blank, and the two ways of cleaning a run of text: `collapse` turns every
maximal run of blanks into one space and keeps the runs at the edges, `trim` removes the runs at the
edges and keeps the others. Both work on the list of characters; `collapseBlanks` and `trimBlanks` are
the same operations on strings.
-/

namespace BookCatalog.Text

/-- A character with the Unicode property `White_Space`. -/
def isBlank (c : Char) : Bool :=
  let n := c.toNat
  (0x09 ≤ n && n ≤ 0x0D) || n == 0x20 || n == 0x85 || n == 0xA0 || n == 0x1680 ||
    (0x2000 ≤ n && n ≤ 0x200A) || n == 0x2028 || n == 0x2029 || n == 0x202F || n == 0x205F ||
    n == 0x3000

/-- Blanks turned into one space per run; `after` tells that the character before was blank, so a
blank here belongs to a run that is already written. -/
def collapseFrom (after : Bool) : List Char → List Char
  | [] => []
  | c :: rest =>
    if isBlank c then
      if after then collapseFrom true rest else ' ' :: collapseFrom true rest
    else c :: collapseFrom false rest

/-- Every maximal run of blanks becomes a single space. -/
def collapse (cs : List Char) : List Char := collapseFrom false cs

/-- The text without the blanks at its start and at its end. -/
def trim (cs : List Char) : List Char :=
  ((cs.dropWhile isBlank).reverse.dropWhile isBlank).reverse

/-- Every maximal run of blanks in a string becomes a single space. -/
def collapseBlanks (s : String) : String := String.ofList (collapse s.toList)

/-- A string without the blanks at its start and at its end. -/
def trimBlanks (s : String) : String := String.ofList (trim s.toList)

/-- Collapsed, then trimmed: the words of the text with one space between two of them. -/
def tidy (s : String) : String := String.ofList (trim (collapse s.toList))

@[simp] theorem collapseFrom_nil (after : Bool) : collapseFrom after [] = [] := rfl

theorem collapseFrom_blank {c : Char} (h : isBlank c = true) (after : Bool) (rest : List Char) :
    collapseFrom after (c :: rest) =
      if after then collapseFrom true rest else ' ' :: collapseFrom true rest := by
  simp [collapseFrom, h]

theorem collapseFrom_ink {c : Char} (h : isBlank c = false) (after : Bool) (rest : List Char) :
    collapseFrom after (c :: rest) = c :: collapseFrom false rest := by
  simp [collapseFrom, h]

end BookCatalog.Text
