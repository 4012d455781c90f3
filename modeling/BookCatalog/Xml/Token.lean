import BookCatalog.Text.CodePoints
import BookCatalog.Text.Source

/-!
# Cutting a document into tokens

`tokens?` cuts the text of a document into tags, runs of text, comments and instructions. It fails when
a piece is not well formed. A document type is refused.
-/

namespace BookCatalog.Xml

/-! ## Characters

Which characters a document may hold and which its names are made of. -/

/-- A blank: a space, a tab, a line end. -/
def isBlank (c : Char) : Bool := c == ' ' || c == '\t' || c == '\n' || c == '\r'

/-- A character that a document may hold. -/
def isAllowed (c : Char) : Bool :=
  if c.toNat < 0x20 then isBlank c else c.toNat ≠ 0xFFFE && c.toNat ≠ 0xFFFF

/-- Code points beyond ASCII that a name may begin with. -/
def nameStartRanges : Array (Nat × Nat) := #[
  (0xC0, 0xD6), (0xD8, 0xF6), (0xF8, 0x2FF), (0x370, 0x37D), (0x37F, 0x1FFF), (0x200C, 0x200D),
  (0x2070, 0x218F), (0x2C00, 0x2FEF), (0x3001, 0xD7FF), (0xF900, 0xFDCF), (0xFDF0, 0xFFFD),
  (0x10000, 0xEFFFF)]

/-- Code points beyond ASCII that a name may hold, though not begin with. -/
def nameMoreRanges : Array (Nat × Nat) := #[(0xB7, 0xB7), (0x300, 0x36F), (0x203F, 0x2040)]

/-- A character that a name may begin with. -/
def isNameStart (c : Char) : Bool :=
  c.isAlpha || c == ':' || c == '_' || Text.inRanges nameStartRanges c.toNat

/-- A character of a name. -/
def isNameChar (c : Char) : Bool :=
  isNameStart c || c.isDigit || c == '-' || c == '.' || Text.inRanges nameMoreRanges c.toNat

/-! ## Tokens -/

/-- A name as it is written: what stands before the colon and what stands after it. -/
structure WrittenName where
  lead : String
  base : String
  deriving DecidableEq, Repr

/-- An attribute as it is written, its value without references. -/
structure WrittenAttr where
  name : WrittenName
  value : String
  deriving DecidableEq, Repr

/-- A piece of a document. -/
inductive Token where
  | startTag (name : WrittenName) (attrs : List WrittenAttr) (selfClosing : Bool)
  | endTag (name : WrittenName)
  /-- A run of text; `blank` tells that it was written as blanks. -/
  | text (s : String) (blank : Bool)
  | comment (s : String)
  | instruction (target content : String)
  deriving Repr

/-! ## References -/

/-- The character of a number of at most 32 bits. Numbers that no character has stand for the
replacement character. -/
def numberedChar? (base : Nat) (digits : List Char) : Option Char :=
  let n := (Text.number? base digits).getD 0
  if digits.isEmpty || 0x100000000 ≤ n then none
  else
    let c := if n < 0xD800 || (0xDFFF < n && n ≤ 0x10FFFF) then Char.ofNat n else '\uFFFD'
    if isAllowed c then some c else none

/-- The character that a name stands for. -/
def namedChar? : String → Option Char
  | "quot" => some '"'
  | "amp" => some '&'
  | "apos" => some '\''
  | "lt" => some '<'
  | "gt" => some '>'
  | _ => none

/-- The character that a reference stands for, from what follows the ampersand, and how much of that is
used. -/
def reference? (cs : List Char) : Option (Char × Nat) := do
  let (char, length) ← match cs with
    | '#' :: 'x' :: rest =>
      let digits := rest.takeWhile (Text.isDigitOf 16)
      (numberedChar? 16 digits).map (·, digits.length + 2)
    | '#' :: rest =>
      let digits := rest.takeWhile (Text.isDigitOf 10)
      (numberedChar? 10 digits).map (·, digits.length + 1)
    | _ =>
      let name := cs.takeWhile isNameChar
      (namedChar? (String.ofList name)).map (·, name.length)
  if (cs.drop length).head? = some ';' then return (char, length + 1) else none

/-- A text without references; each other character becomes what `plain` makes of it. `skip`
characters of a reference are still to be passed over. -/
def resolve? (plain : Char → Char) (skip : Nat) : List Char → Option (List Char)
  | [] => some []
  | c :: rest =>
    match skip with
    | skip + 1 => resolve? plain skip rest
    | 0 =>
      if c = '&' then do
        let (char, used) ← reference? rest
        return char :: (← resolve? plain used rest)
      else return plain c :: (← resolve? plain 0 rest)

/-- The value of an attribute: blanks in it are spaces. -/
def attrValue? (cs : List Char) : Option String :=
  (resolve? (fun c => if isBlank c then ' ' else c) 0 cs).map String.ofList

/-! ## Pieces -/

/-- The text before the first occurrence of a mark, and what follows the mark. -/
def untilMark? (mark : List Char) : List Char → Option (List Char × List Char)
  | [] => if mark.isEmpty then some ([], []) else none
  | c :: rest =>
    if mark.isPrefixOf (c :: rest) then some ([], (c :: rest).drop mark.length)
    else (untilMark? mark rest).map fun (before, after) => (c :: before, after)

/-- The text before a mark, as `untilMark?` gives it, when all of it is allowed. -/
def allowedUntil? (mark : String) (cs : List Char) : Option (List Char × List Char) :=
  (untilMark? mark.toList cs).filter fun (before, _) => before.all isAllowed

/-- Whether a text holds a mark. -/
def holdsMark (mark : String) (cs : List Char) : Bool := (untilMark? mark.toList cs).isSome

/-- A name with at most one colon. Each part begins as a name has to, and only the first part may be
missing. -/
def writtenName? (cs : List Char) : Option (WrittenName × List Char) :=
  let run := cs.takeWhile isNameChar
  let starts (part : List Char) : Bool := part.head?.any isNameStart
  match run.splitOnP (· == ':') with
  | [base] => if starts base then some (⟨"", String.ofList base⟩, cs.drop run.length) else none
  | [lead, base] =>
    if (lead.isEmpty || starts lead) && starts base then
      some (⟨String.ofList lead, String.ofList base⟩, cs.drop run.length)
    else none
  | _ => none

/-- An attribute: a name, an equals sign and a quoted value without `<`. -/
def attribute? (cs : List Char) : Option (WrittenAttr × List Char) := do
  let (name, rest) ← writtenName? cs
  match rest.dropWhile isBlank with
  | '=' :: rest =>
    match rest.dropWhile isBlank with
    | quote :: rest =>
      if quote ≠ '"' && quote ≠ '\'' then none
      let value := rest.takeWhile fun c => c != quote && c != '<'
      if value.all isAllowed && (rest.drop value.length).head? = some quote then
        return (⟨name, ← attrValue? value⟩, rest.drop (value.length + 1))
      else none
    | [] => none
  | _ => none

/-- The attributes of a start tag, whether it closes itself, and what follows it. A blank stands in
front of every attribute. At most `fuel` attributes are read. -/
def attributes? (fuel : Nat) (cs : List Char) : Option (List WrittenAttr × Bool × List Char) :=
  match fuel with
  | 0 => none
  | fuel + 1 =>
    match cs.dropWhile isBlank with
    | '/' :: '>' :: rest => some ([], true, rest)
    | '>' :: rest => some ([], false, rest)
    | more =>
      if cs.head?.any isBlank then do
        let (attr, rest) ← attribute? more
        let (attrs, selfClosing, rest) ← attributes? fuel rest
        return (attr :: attrs, selfClosing, rest)
      else none

/-- An instruction, from what follows its `<?`. A declaration is no instruction. -/
def instruction? (cs : List Char) : Option (Token × List Char) := do
  let target := cs.takeWhile isNameChar
  let rest := cs.drop target.length
  if !target.head?.any isNameStart || (target = "xml".toList && rest.head? = some ' ') then none
  let (content, rest) ← allowedUntil? "?>" (rest.dropWhile isBlank)
  return (.instruction (String.ofList target) (String.ofList content), rest)

/-- A comment, from what follows its `<!--`. It holds no two hyphens in a row and does not end with
one. -/
def comment? (cs : List Char) : Option (Token × List Char) := do
  let (text, rest) ← allowedUntil? "-->" cs
  if holdsMark "--" text || text.getLast? = some '-' then none
  return (.comment (String.ofList text), rest)

/-- A piece that begins with `<`, from what follows. -/
def markup? (cs : List Char) : Option (Token × List Char) :=
  match cs with
  | '!' :: '-' :: '-' :: rest => comment? rest
  | '!' :: rest =>
    if "[CDATA[".toList.isPrefixOf rest then do
      let (text, rest) ← allowedUntil? "]]>" (rest.drop 7)
      return (.text (String.ofList text) false, rest)
    else none
  | '?' :: rest => instruction? rest
  | '/' :: rest => do
    let (name, rest) ← writtenName? rest
    match rest.dropWhile isBlank with
    | '>' :: rest => return (.endTag name, rest)
    | _ => none
  | _ => do
    let (name, rest) ← writtenName? cs
    let (attrs, selfClosing, rest) ← attributes? (rest.length + 1) rest
    return (.startTag name attrs selfClosing, rest)

/-- The first piece of a text that is not empty, and what follows it. -/
def token? (cs : List Char) : Option (Token × List Char) :=
  match cs with
  | '<' :: rest => markup? rest
  | _ => do
    let text := cs.takeWhile (· != '<')
    if !text.all isAllowed || holdsMark "]]>" text then none
    let resolved ← resolve? id 0 text
    return (.text (String.ofList resolved) (text.all isBlank), cs.drop text.length)

/-- All pieces of a text, of which there are at most `fuel`. -/
def tokensFrom? (fuel : Nat) (cs : List Char) : Option (List Token) :=
  match fuel with
  | 0 => if cs.isEmpty then some [] else none
  | fuel + 1 =>
    if cs.isEmpty then some []
    else do
      let (token, rest) ← token? cs
      return token :: (← tokensFrom? fuel rest)

/-! ## The declaration -/

/-- Passes over blanks, which have to stand here unless the declaration ends. -/
def declarationGap? (cs : List Char) : Option (List Char) :=
  if cs.head?.any isBlank then some (cs.dropWhile isBlank)
  else if cs.isEmpty || ['?', '>'].isPrefixOf cs then some cs
  else none

/-- Passes over an attribute of the declaration whose name begins with a word, when it stands here. -/
def declarationPart? (word : String) (cs : List Char) : Option (List Char) :=
  if word.toList.isPrefixOf cs then (attribute? cs).map (·.2) else some cs

/-- Passes over a declaration when the text begins with one. It has a version, and may have an encoding
and a note on whether it stands alone. -/
def afterDeclaration? (cs : List Char) : Option (List Char) :=
  if "<?xml ".toList.isPrefixOf cs then do
    let cs ← declarationGap? (cs.drop 5)
    if !"version".toList.isPrefixOf cs then none
    let cs ← declarationGap? (← declarationPart? "version" cs)
    let cs ←
      if "encoding".toList.isPrefixOf cs then declarationPart? "encoding" cs >>= declarationGap?
      else some cs
    let cs := (← declarationPart? "standalone" cs).dropWhile isBlank
    if ['?', '>'].isPrefixOf cs then return cs.drop 2 else none
  else some cs

/-- The pieces of a document after its declaration. -/
def tokens? (text : String) : Option (List Token) := do
  let cs ← afterDeclaration? (Text.lineFeeds (Text.withoutByteOrderMark text.toList))
  tokensFrom? cs.length cs

end BookCatalog.Xml
