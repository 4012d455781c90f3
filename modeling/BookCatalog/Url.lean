import BookCatalog.Url.Host

/-!
# URLs

`Url.parse?` reads a text as a URL of its own, `Url.resolve?` reads it as a reference from a page of
a site. Blanks and control characters around the text and tabs and line ends inside it do not count.
In the special schemes a backslash separates like a slash.
-/

namespace BookCatalog

open BookCatalog.Text

/-- The path of a URL: opaque text, as in `mailto:someone`, or segments between slashes. Segments are
kept as they were written, escapes included. -/
inductive Url.Path where
  | opaqueText (text : String)
  | segments (parts : List String)
  deriving DecidableEq, Repr

/-- The parts of a URL that tell where it leads. A fragment is kept with its escapes. -/
structure Url where
  scheme : String
  host : Option Url.Host
  path : Url.Path
  fragment : Option String
  deriving DecidableEq, Repr

namespace Url

/-- What kind of scheme a URL has: files, the other special schemes, or any other scheme. -/
inductive SchemeKind where
  | file
  | special
  | other
  deriving DecidableEq, Repr

/-- The kind of a scheme in lower case. -/
def schemeKind (scheme : String) : SchemeKind :=
  if scheme = "file" then .file
  else if ["http", "https", "ws", "wss", "ftp"].contains scheme then .special
  else .other

/-- Whether `c` ends a part of a URL of this kind as a slash does. -/
def SchemeKind.isSlash (kind : SchemeKind) (c : Char) : Bool :=
  c == '/' || (c == '\\' && kind != .other)

/-! ## Cleaning the text -/

/-- A control character or a space. -/
def isControlOrSpace (c : Char) : Bool := c.toNat ≤ 0x20

/-- A tab or a line end. -/
def isTabOrLineEnd (c : Char) : Bool := c == '\t' || c == '\n' || c == '\r'

/-- The characters that count: without the controls and spaces around the text and without tabs and
line ends inside it. -/
def cleaned (text : String) : List Char :=
  let trimmed := ((text.toList.dropWhile isControlOrSpace).reverse.dropWhile isControlOrSpace).reverse
  trimmed.filter (!isTabOrLineEnd ·)

/-! ## The scheme -/

/-- An ASCII letter. -/
def isLetter (c : Char) : Bool := ('a' ≤ c && c ≤ 'z') || ('A' ≤ c && c ≤ 'Z')

/-- A character of a scheme after its first letter. -/
def isSchemeChar (c : Char) : Bool :=
  isLetter c || ('0' ≤ c && c ≤ '9') || c == '+' || c == '-' || c == '.'

/-- The scheme, in lower case, and what follows its colon. -/
def splitScheme? (cs : List Char) : Option (String × List Char) :=
  match cs with
  | [] => none
  | c :: _ =>
    if isLetter c then
      match cs.dropWhile isSchemeChar with
      | ':' :: rest => some (String.ofList ((cs.takeWhile isSchemeChar).map Char.toLower), rest)
      | _ => none
    else none

/-! ## The path -/

/-- `.` or an escaped form of it. -/
def isSingleDot (segment : List Char) : Bool :=
  let s := segment.map Char.toLower
  s = ['.'] || s = ['%', '2', 'e']

/-- `..` or an escaped form of it. -/
def isDoubleDot (segment : List Char) : Bool :=
  let s := segment.map Char.toLower
  s = ['.', '.'] || s = ['.', '%', '2', 'e'] || s = ['%', '2', 'e', '.'] ||
    s = ['%', '2', 'e', '%', '2', 'e']

/-- A letter and a colon or a bar. -/
def isDriveLetter : List Char → Bool
  | [c, d] => isLetter c && (d == ':' || d == '|')
  | _ => false

/-- Whether the path of a file is a drive and nothing else. -/
def isDrive : List String → Bool
  | [part] => match part.toList with
    | [c, ':'] => isLetter c
    | _ => false
  | _ => false

/-- The path one level up; the drive of a file stays. -/
def shorten (kind : SchemeKind) (path : List String) : List String :=
  if kind = .file && isDrive path then path else path.dropLast

/-- A segment as it is appended: a drive letter at the start of a file's path gets a colon. -/
def normalSegment (kind : SchemeKind) (path : List String) (segment : List Char) : String :=
  if kind = .file && path.isEmpty && isDriveLetter segment then
    String.ofList (segment.take 1 ++ [':'])
  else String.ofList segment

/-- The path after a segment; `last` tells that no slash follows it. -/
def appendSegment (kind : SchemeKind) (path : List String) (segment : List Char) (last : Bool) :
    List String :=
  if isDoubleDot segment then
    let up := shorten kind path
    if last then up ++ [""] else up
  else if isSingleDot segment then if last then path ++ [""] else path
  else path ++ [normalSegment kind path segment]

/-- The path after all segments of a list. -/
def appendSegments (kind : SchemeKind) (path : List String) : List (List Char) → List String
  | [] => path
  | [segment] => appendSegment kind path segment true
  | segment :: more => appendSegments kind (appendSegment kind path segment false) more

/-- A character that ends the path. -/
def endsPath (c : Char) : Bool := c == '?' || c == '#'

/-- The path that begins with `path` and goes on with the text up to a query or fragment. -/
def readPath (kind : SchemeKind) (path : List String) (cs : List Char) : List String :=
  appendSegments kind path ((cs.takeWhile (!endsPath ·)).splitOnP kind.isSlash)

/-- A file's path without empty segments at its start. -/
def withoutLeadingEmpty (path : List String) : List String :=
  match path.dropWhile (· = "") with
  | [] => [""]
  | parts => parts

/-! ## The fragment -/

/-- The fragment of the text from the path on: what follows the first `#`. -/
def readFragment (cs : List Char) : Option String :=
  (splitFirst? (· == '#') cs).map fun (_, fragment) =>
    String.ofList (Percent.encode Percent.inFragmentSet fragment)

/-! ## The authority -/

/-- A character that ends the authority. -/
def SchemeKind.endsAuthority (kind : SchemeKind) (c : Char) : Bool := kind.isSlash c || endsPath c

/-- The part of the authority that holds the host and the port, and whether a user name or a password
stands before it; fails when an `@` is followed by no host but by more of the URL. -/
def withoutUser? (authority : List Char) (isLast : Bool) : Option (List Char × Bool) :=
  match splitLast? (· == '@') authority with
  | none => some (authority, false)
  | some ([], host) => if host.isEmpty && !isLast then none else some (host, false)
  | some (user, host) => some (host, user != [':'])

/-- The host text and what follows it: a colon ends the host, unless it stands in brackets. -/
def splitHost (inBrackets : Bool) : List Char → List Char × List Char
  | [] => ([], [])
  | c :: rest =>
    if c = ':' && !inBrackets then ([], c :: rest)
    else
      let inside := if c = '[' then true else if c = ']' then false else inBrackets
      let (host, more) := splitHost inside rest
      (c :: host, more)

/-- Whether the text after the host is nothing or a colon and a port number of 16 bits. -/
def isPort : List Char → Bool
  | [] => true
  | _ :: digits => ((Text.number? 10 digits).filter (· ≤ 65535)).isSome

/-- The host of an authority: `some none` when it has none, which only a scheme that is not special
allows. `isLast` tells that the URL ends with the authority. -/
def readAuthority? (kind : SchemeKind) (authority : List Char) (isLast : Bool) :
    Option (Option Host) := do
  let (rest, hasUser) ← withoutUser? authority isLast
  let (host, port) := splitHost false rest
  if kind = .other then
    let parsed ← Host.parseOpaque? host
    if host.isEmpty then
      if port.isEmpty && !hasUser then some none else none
    else if isPort port then some (some parsed) else none
  else
    let parsed ← Host.parse? host
    if isPort port then some (some parsed) else none

/-- A URL from the text after the two slashes that follow its scheme. -/
def afterDoubleSlash? (scheme : String) (kind : SchemeKind) (cs : List Char) : Option Url := do
  let authority := cs.takeWhile (!kind.endsAuthority ·)
  let rest := cs.dropWhile (!kind.endsAuthority ·)
  let host ← readAuthority? kind authority rest.isEmpty
  let parts :=
    match rest with
    | c :: more =>
      if kind.isSlash c then readPath kind [] more
      else if kind = .other then [] else [""]
    | [] => if kind = .other then [] else [""]
  some ⟨scheme, host, .segments parts, readFragment rest⟩

/-! ## Whole URLs -/

/-- Whether the first segment of a file's path is a drive letter, before which a host is dropped. -/
def startsWithDrive (cs : List Char) : Bool :=
  isDriveLetter (cs.takeWhile fun c => !SchemeKind.file.isSlash c && !endsPath c)

/-- The URL of a file, from the text after its scheme. -/
def file? (cs : List Char) : Option Url :=
  let local? (cs : List Char) : Option Url :=
    some ⟨"file", none, .segments (withoutLeadingEmpty (readPath .file [] cs)), readFragment cs⟩
  match cs with
  | c :: d :: rest =>
    if SchemeKind.file.isSlash c && SchemeKind.file.isSlash d then
      let name := rest.takeWhile (!SchemeKind.file.endsAuthority ·)
      let more := rest.dropWhile (!SchemeKind.file.endsAuthority ·)
      if isDriveLetter name then local? rest
      else do
        let host ← if name.isEmpty then some none else (Host.parse? name).map some
        let path := match more with
          | e :: after => if SchemeKind.file.isSlash e then after else more
          | [] => []
        let host := if host = some (.domain "localhost") || startsWithDrive path then none else host
        some ⟨"file", host, .segments (withoutLeadingEmpty (readPath .file [] path)),
          readFragment more⟩
    else if SchemeKind.file.isSlash c then local? (d :: rest)
    else local? cs
  | [c] => if SchemeKind.file.isSlash c then local? [] else local? cs
  | [] => local? []

/-- A URL of a scheme without rules of its own, from the text after its colon. -/
def generic? (scheme : String) (cs : List Char) : Option Url :=
  match cs with
  | '/' :: '/' :: rest => afterDoubleSlash? scheme .other rest
  | '/' :: rest => some ⟨scheme, none, .segments (readPath .other [] rest), readFragment rest⟩
  | _ =>
    some ⟨scheme, none, .opaqueText (String.ofList (cs.takeWhile (!endsPath ·))), readFragment cs⟩

/-- A URL from its scheme and the text after the colon. -/
def withScheme? (scheme : String) (rest : List Char) : Option Url :=
  match schemeKind scheme with
  | .file => file? rest
  | .special =>
    afterDoubleSlash? scheme .special (rest.dropWhile SchemeKind.special.isSlash)
  | .other => generic? scheme rest

/-- A text read as a URL of its own; it needs a scheme. -/
def parse? (text : String) : Option Url :=
  (splitScheme? (cleaned text)).bind fun (scheme, rest) => withScheme? scheme rest

/-- A site whose pages refer to each other: a special scheme other than files, a host, and the path
of the page that a reference is read from. -/
structure Site where
  scheme : String
  host : Host
  path : List String
  isSpecial : schemeKind scheme = .special := by decide

/-- A reference without a scheme, or with the scheme of the site, read from a page of the site. -/
def relative? (site : Site) (cs : List Char) : Option Url :=
  let here (parts : List String) : Url := ⟨site.scheme, some site.host, .segments parts, readFragment cs⟩
  match cs with
  | [] => some (here site.path)
  | c :: rest =>
    if endsPath c then some (here site.path)
    else if SchemeKind.special.isSlash c then
      match rest with
      | d :: more =>
        if SchemeKind.special.isSlash d then
          if c = '/' && d = '/' then afterDoubleSlash? site.scheme .special more
          else afterDoubleSlash? site.scheme .special (cs.dropWhile SchemeKind.special.isSlash)
        else some (here (readPath .special [] rest))
      | [] => some (here (readPath .special [] rest))
    else some (here (readPath .special site.path.dropLast cs))

/-- How many slashes and backslashes a text begins with. -/
def leadingSlashes (cs : List Char) : Nat := (cs.takeWhile SchemeKind.special.isSlash).length

/-- A text read as a reference from a page of a site. -/
def resolve? (site : Site) (text : String) : Option Url :=
  let cs := cleaned text
  match splitScheme? cs with
  | none => relative? site cs
  | some (scheme, rest) =>
    if scheme = site.scheme && leadingSlashes rest < 2 then relative? site rest
    else withScheme? scheme rest

/-- The last segment of the path that is not empty, with its escapes undone; empty when there is
none. -/
def lastSegment (url : Url) : String :=
  match url.path with
  | .opaqueText _ => ""
  | .segments parts =>
    match (parts.filter (· ≠ "")).getLast? with
    | some part => String.ofList (Percent.decodeText part.toList)
    | none => ""

end Url

end BookCatalog
