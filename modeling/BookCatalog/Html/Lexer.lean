import BookCatalog.Html.Reference
import BookCatalog.Html.Token
import BookCatalog.Text.Fields
import BookCatalog.Text.Source

/-!
# Cutting a page into tokens

`nextTokens` takes the first tokens from a text, given how the text of the open element is read. Nothing
in a page is an error: a `<` that starts no tag is text, a tag that is cut off by the end of the page
is left out, and markup of an unknown kind is a comment.
-/

namespace BookCatalog.Html

/-- The text as it is read: line ends are single line feeds, and a byte order mark in front does not
count. -/
def normalizedInput (text : String) : List Char :=
  Text.lineFeeds (Text.withoutByteOrderMark text.toList)

/-- A character of a name: U+0000 is replaced, letters are in lower case. -/
def nameChar (c : Char) : Char := if c = '\x00' then '\uFFFD' else c.toLower

/-- A character of a value or of raw text: U+0000 is replaced. -/
def safeChar (c : Char) : Char := if c = '\x00' then '\uFFFD' else c

/-! ## Tags -/

/-- Where the reading of a tag stands; text is kept with its last character first. -/
inductive TagPlace where
  | tagName (name : List Char)
  | beforeAttr
  | attrName (name : List Char)
  | afterAttrName (name : List Char)
  | beforeValue (name : List Char)
  | quotedValue (quote : Char) (name value : List Char)
  | bareValue (name value : List Char)
  | afterQuoted
  | slash

/-- The tag with an attribute added, unless it has one of that name. -/
def Tag.addAttr (t : Tag) (name value : List Char) : Tag :=
  let name := String.ofList name.reverse
  if t.attrs.any (·.name = name) then t
  else { t with attrs := t.attrs ++ [⟨.plain, name, String.ofList value.reverse⟩] }

/-- What a character does to a tag. -/
inductive TagStep where
  | go (place : TagPlace) (tag : Tag)
  | finish (tag : Tag)
  /-- An ampersand of a value. -/
  | reference (place : List Char → TagPlace) (tag : Tag)

/-- A character where an attribute may begin. -/
def attrStart (c : Char) (t : Tag) : TagStep :=
  if isHtmlBlank c then .go .beforeAttr t
  else if c = '/' then .go .slash t
  else if c = '>' then .finish t
  else .go (.attrName [nameChar c]) t

/-- A character of a value without quotes. -/
def bareStep (name value : List Char) (c : Char) (t : Tag) : TagStep :=
  if isHtmlBlank c then .go .beforeAttr (t.addAttr name value)
  else if c = '>' then .finish (t.addAttr name value)
  else if c = '&' then .reference (fun chars => .bareValue name (chars ++ value)) t
  else .go (.bareValue name (safeChar c :: value)) t

/-- A character of a tag. -/
def tagStep (place : TagPlace) (c : Char) (t : Tag) : TagStep :=
  match place with
  | .tagName name =>
    let named := { t with name := String.ofList name.reverse }
    if isHtmlBlank c then .go .beforeAttr named
    else if c = '/' then .go .slash named
    else if c = '>' then .finish named
    else .go (.tagName (nameChar c :: name)) t
  | .beforeAttr => attrStart c t
  | .attrName name =>
    if isHtmlBlank c then .go (.afterAttrName name) t
    else if c = '/' then .go .slash (t.addAttr name [])
    else if c = '=' then .go (.beforeValue name) t
    else if c = '>' then .finish (t.addAttr name [])
    else .go (.attrName (nameChar c :: name)) t
  | .afterAttrName name =>
    if isHtmlBlank c then .go (.afterAttrName name) t
    else if c = '=' then .go (.beforeValue name) t
    else attrStart c (t.addAttr name [])
  | .beforeValue name =>
    if isHtmlBlank c then .go (.beforeValue name) t
    else if c = '"' || c = '\'' then .go (.quotedValue c name []) t
    else bareStep name [] c t
  | .quotedValue quote name value =>
    if c = quote then .go .afterQuoted (t.addAttr name value)
    else if c = '&' then .reference (fun chars => .quotedValue quote name (chars ++ value)) t
    else .go (.quotedValue quote name (safeChar c :: value)) t
  | .bareValue name value => bareStep name value c t
  | .afterQuoted => attrStart c t
  | .slash => if c = '>' then .finish { t with selfClosing := true } else attrStart c t

/-- Reads a tag to its end; `skip` characters of a reference are still to be passed over. A tag that
is cut off is no tag. -/
def readTag (place : TagPlace) (skip : Nat) (t : Tag) : List Char → Option (Tag × List Char)
  | [] => none
  | c :: rest =>
    match skip with
    | skip + 1 => readTag place skip t rest
    | 0 =>
      match tagStep place c t with
      | .go place t => readTag place 0 t rest
      | .finish t => some (t, rest)
      | .reference place t =>
        let (chars, used) := readReference true rest
        readTag (place chars.reverse) used t rest

/-! ## Comments -/

/-- Where the reading of a comment stands. -/
inductive CommentPlace where
  | start
  | startDash
  | inside
  | endDash
  | closing
  | closingBang

/-- What a character does to a comment: the next place and the characters it adds, last one first, or
none when it ends the comment. -/
def commentStep (place : CommentPlace) (c : Char) : Option (CommentPlace × List Char) :=
  let inside (before : List Char) : CommentPlace × List Char :=
    if c = '-' then (.endDash, before) else (.inside, safeChar c :: before)
  match place with
  | .start => if c = '-' then some (.startDash, []) else if c = '>' then none else some (inside [])
  | .startDash =>
    if c = '-' then some (.closing, []) else if c = '>' then none else some (inside ['-'])
  | .inside => some (inside [])
  | .endDash => if c = '-' then some (.closing, []) else some (inside ['-'])
  | .closing =>
    if c = '>' then none
    else if c = '!' then some (.closingBang, [])
    else if c = '-' then some (.closing, ['-'])
    else some (inside ['-', '-'])
  | .closingBang =>
    if c = '-' then some (.endDash, ['!', '-', '-'])
    else if c = '>' then none
    else some (inside ['!', '-', '-'])

/-- Reads a comment to its end, or to the end of the page. -/
def readComment (place : CommentPlace) (text : List Char) : List Char → List Char × List Char
  | [] => (text.reverse, [])
  | c :: rest =>
    match commentStep place c with
    | none => (text.reverse, rest)
    | some (place, added) => readComment place (added ++ text) rest

/-- Markup of an unknown kind, up to the next `>`, read as a comment. -/
def readBogus (cs : List Char) : Token × List Char :=
  (.comment (String.ofList ((cs.takeWhile (· != '>')).map safeChar)), (cs.dropWhile (· != '>')).drop 1)

/-! ## The document type -/

/-- Public identifiers, in lower case, whose documents are laid out like old pages when the
identifier begins with them. -/
def quirkyPublicPrefixes : List String := [
  "-//ietf//dtd html 2.0 level 1//", "-//ietf//dtd html 2.0 level 2//",
  "-//ietf//dtd html 2.0 strict level 1//", "-//ietf//dtd html 2.0 strict level 2//",
  "-//ietf//dtd html 2.0 strict//", "-//ietf//dtd html 2.0//", "-//ietf//dtd html 2.1e//",
  "-//ietf//dtd html 3.0//", "-//ietf//dtd html 3.2 final//", "-//ietf//dtd html 3.2//",
  "-//ietf//dtd html 3//", "-//ietf//dtd html level 0//", "-//ietf//dtd html level 1//",
  "-//ietf//dtd html level 2//", "-//ietf//dtd html level 3//",
  "-//ietf//dtd html strict level 0//", "-//ietf//dtd html strict level 1//",
  "-//ietf//dtd html strict level 2//", "-//ietf//dtd html strict level 3//",
  "-//ietf//dtd html strict//", "-//ietf//dtd html//",
  "-//w3c//dtd html 3 1995-03-24//", "-//w3c//dtd html 3.2 draft//",
  "-//w3c//dtd html 3.2 final//", "-//w3c//dtd html 3.2//", "-//w3c//dtd html 3.2s draft//",
  "-//w3c//dtd html 4.0 frameset//", "-//w3c//dtd html 4.0 transitional//",
  "-//w3c//dtd html experimental 19960712//", "-//w3c//dtd html experimental 970421//",
  "-//w3c//dtd w3 html//", "-//w3o//dtd w3 html 3.0//"]

/-- Public identifiers, in lower case, whose documents are laid out like old pages. -/
def quirkyPublicIds : List String :=
  ["-//w3o//dtd w3 html strict 3.0//en//", "-/w3c/dtd html 4.0 transitional/en", "html"]

/-- Prefixes of public identifiers that count as old when there is no system identifier. -/
def quirkyAlonePrefixes : List String :=
  ["-//w3c//dtd html 4.01 frameset//", "-//w3c//dtd html 4.01 transitional//"]

/-- Whether a document type of this name and with these identifiers asks for the layout of old
pages. -/
def isQuirky (name : String) (publicId systemId : Option (List Char)) : Bool :=
  let lower := publicId.map fun cs => cs.map Char.toLower
  let begins (p : String) : Bool := lower.any fun cs => p.toList.isPrefixOf cs
  name != "html" || quirkyPublicPrefixes.any begins ||
    quirkyPublicIds.any (fun p => lower == some p.toList) ||
    (systemId.isNone && quirkyAlonePrefixes.any begins)

/-- A quoted text, and what follows it; `none` for its end when the quote is not closed. -/
def readQuoted : List Char → Option (List Char × Option (List Char))
  | c :: rest =>
    if c = '"' || c = '\'' then
      some (rest.takeWhile (· != c), match rest.dropWhile (· != c) with
        | _ :: after => some after
        | [] => none)
    else none
  | [] => none

/-- The document type written in `cs`, the text between the keyword and the closing `>`; `cut` tells
that the page ended before that. -/
def readDoctype (cs : List Char) (cut : Bool) : Token :=
  let cs := cs.dropWhile isHtmlBlank
  let name := cs.takeWhile (!isHtmlBlank ·)
  let rest := (cs.dropWhile (!isHtmlBlank ·)).dropWhile isHtmlBlank
  let nameText := String.ofList (name.map nameChar)
  let keyword := (rest.take 6).map Char.toLower
  let after := (rest.drop 6).dropWhile isHtmlBlank
  let quirky :=
    if name.isEmpty then true
    else if rest.isEmpty then isQuirky nameText none none
    else if keyword = "public".toList then
      match readQuoted after with
      | some (publicId, some more) =>
        let more := more.dropWhile isHtmlBlank
        if more.isEmpty then isQuirky nameText (some publicId) none
        else match readQuoted more with
          | some (systemId, some _) => isQuirky nameText (some publicId) (some systemId)
          | _ => true
      | _ => true
    else if keyword = "system".toList then
      match readQuoted after with
      | some (systemId, some _) => isQuirky nameText none (some systemId)
      | _ => true
    else true
  .doctype nameText (quirky || cut)

/-! ## Text -/

/-- A run of text with its references resolved, up to a `<` or a U+0000, and what follows it; `skip`
characters of a reference are still to be passed over. -/
def readText (skip : Nat) : List Char → List Char × List Char
  | [] => ([], [])
  | c :: rest =>
    match skip with
    | skip + 1 => readText skip rest
    | 0 =>
      if c = '<' || c = '\x00' then ([], c :: rest)
      else if c = '&' then
        let (chars, used) := readReference false rest
        let (more, after) := readText used rest
        (chars ++ more, after)
      else
        let (more, after) := readText 0 rest
        (c :: more, after)

/-- Whether an end tag of the given name starts here: `</`, the name, and a blank, a slash or a
`>`. -/
def closesElement (name : String) (cs : List Char) : Bool :=
  let n := name.length
  (cs.take 2 == ['<', '/']) && ((cs.drop 2).take n).map Char.toLower == name.toList &&
    (cs.drop (2 + n)).head?.any fun c => isHtmlBlank c || c == '/' || c == '>'

/-- The text of an element whose markup does not count, up to its end tag, and what follows it. -/
def readRaw (escapable : Bool) (name : String) (skip : Nat) : List Char → List Char × List Char
  | [] => ([], [])
  | c :: rest =>
    match skip with
    | skip + 1 => readRaw escapable name skip rest
    | 0 =>
      if closesElement name (c :: rest) then ([], c :: rest)
      else if escapable && c = '&' then
        let (chars, used) := readReference false rest
        let (more, after) := readRaw escapable name used rest
        (chars ++ more, after)
      else
        let (more, after) := readRaw escapable name 0 rest
        (safeChar c :: more, after)

/-- Where the reading of a script stands: outside a comment, inside one, or inside a script that
stands in a comment. -/
inductive ScriptPlace where
  | outside
  | commented
  | nested
  deriving DecidableEq

/-- Whether a word follows `lead` here, in any case, and a blank, a slash or a `>` follows it. -/
def startsWithWord (lead word : String) (cs : List Char) : Bool :=
  lead.toList.isPrefixOf cs &&
    ((cs.drop lead.length).take word.length).map Char.toLower == word.toList &&
    (cs.drop (lead.length + word.length)).head?.any fun c => isHtmlBlank c || c == '/' || c == '>'

/-- The place before the text `cs`; `dashes` is the number of hyphens just read in a comment. -/
def scriptPlace (place : ScriptPlace) (dashes : Nat) (cs : List Char) : ScriptPlace :=
  match place with
  | .outside => if "<!--".toList.isPrefixOf cs then .commented else .outside
  | .commented =>
    if 2 ≤ dashes && cs.head? = some '>' then .outside
    else if startsWithWord "<" "script" cs then .nested
    else .commented
  | .nested =>
    if 2 ≤ dashes && cs.head? = some '>' then .outside
    else if startsWithWord "</" "script" cs then .commented
    else .nested

/-- The text of a script up to its end tag, and what follows it. An end tag inside a script that
stands in a comment does not count. `skip` characters belong to the mark that opened a comment. -/
def readScript (place : ScriptPlace) (dashes skip : Nat) : List Char → List Char × List Char
  | [] => ([], [])
  | c :: rest =>
    let dashes := if place ≠ .outside && c = '-' then dashes + 1 else dashes
    match skip with
    | skip + 1 =>
      let (more, after) := readScript place dashes skip rest
      (safeChar c :: more, after)
    | 0 =>
      if place ≠ .nested && closesElement "script" (c :: rest) then ([], c :: rest)
      else
        let next := scriptPlace place dashes (c :: rest)
        let opens := place = .outside && next = .commented
        let dashes := if c = '-' then dashes else 0
        let (more, after) := readScript next dashes (if opens then 3 else 0) rest
        (safeChar c :: more, after)

/-! ## Tokens -/

/-- A run of text as a token: it is cut where blanks begin or end. -/
def textToken (cs : List Char) : Token × List Char :=
  match cs with
  | [] => (.eof, [])
  | c :: _ =>
    if isHtmlBlank c then (.blanks (cs.takeWhile isHtmlBlank), cs.dropWhile isHtmlBlank)
    else (.text (cs.takeWhile (!isHtmlBlank ·)), cs.dropWhile (!isHtmlBlank ·))

/-- A run of text as tokens of blanks and of other characters; `fuel` bounds their number. -/
def textTokens (fuel : Nat) (cs : List Char) : List Token :=
  match fuel with
  | 0 => []
  | fuel + 1 =>
    if cs.isEmpty then []
    else
      let (t, rest) := textToken cs
      t :: textTokens fuel rest

/-- Markup that begins with `<!`, from what follows. Marked sections count in foreign elements
only. -/
def readDeclaration (inForeign : Bool) (cs : List Char) : List Token × List Char :=
  if ['-', '-'].isPrefixOf cs then
    let (text, rest) := readComment .start [] (cs.drop 2)
    ([.comment (String.ofList text)], rest)
  else if (cs.take 7).map Char.toLower == "doctype".toList then
    let body := cs.drop 7
    ([readDoctype (body.takeWhile (· != '>')) (!body.contains '>')],
      (body.dropWhile (· != '>')).drop 1)
  else if inForeign && "[CDATA[".toList.isPrefixOf cs then
    let (text, rest) := readSection (cs.drop 7)
    (sectionTokens text, rest)
  else
    let (t, rest) := readBogus cs
    ([t], rest)
where
  /-- The text of a marked section, up to `]]>`. -/
  readSection : List Char → List Char × List Char
    | [] => ([], [])
    | c :: rest =>
      if [']', ']', '>'].isPrefixOf (c :: rest) then ([], rest.drop 2)
      else
        let (more, after) := readSection rest
        (c :: more, after)
  /-- The text of a marked section as tokens. -/
  sectionTokens (text : List Char) : List Token :=
    (text.splitOnP (· == '\x00')).map (fun run => textTokens run.length run)
      |> List.intercalate [.null]

/-- Markup that begins with `<`, from what follows: the tokens and the rest. A `<` that begins no
markup is text. -/
def readMarkup (inForeign : Bool) (cs : List Char) : List Token × List Char :=
  match cs with
  | '!' :: rest => readDeclaration inForeign rest
  | '?' :: _ =>
    let (t, rest) := readBogus cs
    ([t], rest)
  | '/' :: c :: rest =>
    if isLetter c then
      match readTag (.tagName [c.toLower]) 0 (Tag.plain "") rest with
      | some (t, after) => ([.endTag t], after)
      | none => ([], [])
    else if c = '>' then ([], rest)
    else
      let (t, after) := readBogus (c :: rest)
      ([t], after)
  | ['/'] => ([.text ['<', '/']], [])
  | c :: rest =>
    if isLetter c then
      match readTag (.tagName [c.toLower]) 0 (Tag.plain "") rest with
      | some (t, after) => ([.startTag t], after)
      | none => ([], [])
    else ([.text ['<']], cs)
  | [] => ([.text ['<']], [])

/-- The first tokens of a text and the rest, the element that is open being read by `model` and, where
markup does not count, being named `name`. No tokens come from markup that is left out. -/
def nextTokens (model : TextModel) (name : String) (inForeign : Bool) (cs : List Char) :
    List Token × List Char :=
  let elementText (read : List Char × List Char) : List Token × List Char :=
    match read with
    | ([], after) =>
      match readTag (.tagName []) 0 (Tag.plain "") (after.drop 2) with
      | some (t, rest) => ([.endTag t], rest)
      | none => ([], [])
    | (text, after) => (textTokens text.length text, after)
  match cs with
  | [] => ([.eof], [])
  | c :: rest =>
    match model with
    | .markup =>
      if c = '<' then readMarkup inForeign rest
      else if c = '\x00' then ([.null], rest)
      else
        let (text, after) := readText 0 cs
        (textTokens text.length text, after)
    | .escapable => elementText (readRaw true name 0 cs)
    | .raw => elementText (readRaw false name 0 cs)
    | .script => elementText (readScript .outside 0 0 cs)
    | .plain => (textTokens cs.length (cs.map safeChar), [])

end BookCatalog.Html
