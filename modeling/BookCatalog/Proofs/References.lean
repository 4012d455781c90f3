import BookCatalog.Link
import BookCatalog.Proofs.Escapes
import BookCatalog.Proofs.Paths

/-!
# References inside the book

A reference from one page of the book to another is a path and possibly a fragment. Whatever its path
goes through, it leads to the document that the last segment of its path names (`id_of_file`), and its
fragment is looked up as it is written with escapes (`destination_eq`). It is never read as a link out of
the book.
-/

namespace BookCatalog.Url

open BookCatalog.Text BookCatalog.FilePath

/-! ## Paths -/

theorem appendSegments_concat (kind : SchemeKind) (last : List Char) :
    ∀ (segments : List (List Char)) (path : List String),
      ∃ before, appendSegments kind path (segments ++ [last]) = appendSegment kind before last true
  | [], path => ⟨path, rfl⟩
  | segment :: more, path => by
    obtain ⟨before, h⟩ := appendSegments_concat kind last more (appendSegment kind path segment false)
    refine ⟨before, ?_⟩
    rw [← h]
    cases more <;> rfl

/-- A segment that is no step to a directory is kept as it is. -/
theorem appendSegment_of_name {segment : List Char} (h : isSingleDot segment = false)
    (h' : isDoubleDot segment = false) (path : List String) (last : Bool) :
    appendSegment .special path segment last = path ++ [String.ofList segment] := by
  simp [appendSegment, h, h', normalSegment]

theorem exists_splitOnP_eq {dir file : List Char} (hdir : EndsDirectory dir)
    (hfile : ∀ c ∈ file, SchemeKind.special.isSlash c = false) :
    ∃ segments, (dir ++ file).splitOnP SchemeKind.special.isSlash = segments ++ [file] := by
  rcases hdir with rfl | hslash
  · exact ⟨[], List.splitOnP_eq_singleton hfile⟩
  · obtain ⟨front, rfl⟩ := List.getLast?_eq_some_iff.1 hslash
    refine ⟨front.splitOnP SchemeKind.special.isSlash, ?_⟩
    rw [List.append_assoc, List.singleton_append, List.splitOnP_append_cons _ _ (by rfl),
      List.splitOnP_eq_singleton hfile]

/-- What may follow a path: nothing, or a query or a fragment. -/
def FollowsPath (tail : List Char) : Prop := ∀ c ∈ tail.head?, endsPath c = true

/-- The last segment of a path is the one that is appended last. -/
theorem exists_readPath_eq {dir file tail : List Char} (hdir : EndsDirectory dir)
    (hfile : ∀ c ∈ file, SchemeKind.special.isSlash c = false)
    (hpath : ∀ c ∈ dir ++ file, endsPath c = false) (htail : FollowsPath tail) (path : List String) :
    ∃ before, readPath .special path (dir ++ file ++ tail) =
      appendSegment .special before file true := by
  have htake : (dir ++ file ++ tail).takeWhile (!endsPath ·) = dir ++ file := by
    rw [List.takeWhile_append_of_pos (by simpa using hpath)]
    cases tail with
    | nil => simp
    | cons c rest => simp [htail c rfl]
  obtain ⟨segments, hs⟩ := exists_splitOnP_eq hdir hfile
  rw [readPath, htake, hs]
  exact appendSegments_concat .special file segments path

/-! ## Schemes and fragments -/

theorem dropWhile_eq_self {p : Char → Bool} {cs : List Char} (h : ∀ c ∈ cs, p c = false) :
    cs.dropWhile p = cs := by
  cases cs with
  | nil => rfl
  | cons c rest => simp [h c List.mem_cons_self]

/-- A text without spaces and control characters is read as a whole. -/
theorem cleaned_eq_self {text : String} (h : ∀ c ∈ text.toList, isControlOrSpace c = false) :
    cleaned text = text.toList := by
  have hinside : ∀ c ∈ text.toList, (!isTabOrLineEnd c) = true := fun c hc => by
    have hcontrol := h c hc
    simp only [isTabOrLineEnd, Bool.not_eq_true', Bool.or_eq_false_iff, beq_eq_false_iff_ne]
    refine ⟨⟨?_, ?_⟩, ?_⟩ <;> rintro rfl <;> exact absurd hcontrol (by decide)
  simp only [cleaned]
  rw [dropWhile_eq_self h, dropWhile_eq_self (by simpa using h), List.reverse_reverse,
    List.filter_eq_self.2 hinside]

theorem splitScheme?_eq_none_iff {cs : List Char} :
    splitScheme? cs = none ↔
      (∀ c ∈ cs.head?, isLetter c = true → (cs.dropWhile isSchemeChar).head? ≠ some ':') := by
  unfold splitScheme?
  cases cs with
  | nil => simp
  | cons c rest =>
    by_cases hc : isLetter c = true
    · simp only [hc, if_true, List.head?_cons, Option.mem_def, Option.some.injEq, forall_eq', true_implies]
      split
      · rename_i more h; simp [h]
      · rename_i h
        refine iff_of_true rfl fun hcolon => ?_
        obtain ⟨more, hmore⟩ := List.head?_eq_some_iff.1 hcolon
        exact h more hmore
    · simp [hc]

theorem splitScheme?_of_no_colon {cs : List Char} (h : ':' ∉ cs) : splitScheme? cs = none := by
  refine splitScheme?_eq_none_iff.2 fun _ _ _ hcolon => h ?_
  exact (List.dropWhile_sublist isSchemeChar).subset (List.mem_of_mem_head? hcolon)

/-- A path without a scheme has none with a query or a fragment after it. -/
theorem splitScheme?_append {path tail : List Char} (h : splitScheme? path = none)
    (htail : FollowsPath tail) : splitScheme? (path ++ tail) = none := by
  have hend : ∀ c ∈ tail.head?, isLetter c = false ∧ isSchemeChar c = false ∧ c ≠ ':' := fun c hc => by
    have hc : c = '?' ∨ c = '#' := by simpa [endsPath] using htail c hc
    rcases hc with rfl | rfl <;> decide
  rw [splitScheme?_eq_none_iff] at h ⊢
  intro c hc hletter
  cases path with
  | nil => rw [(hend c hc).1] at hletter; cases hletter
  | cons d rest =>
    rw [List.dropWhile_append]
    split
    · -- all of the path could belong to a scheme, and what follows it ends the scheme without a colon
      cases tail with
      | nil => simp
      | cons e more =>
        obtain ⟨-, hscheme, hcolon⟩ := hend e rfl
        simpa [hscheme] using hcolon
    · rename_i hne
      obtain ⟨e, more, he⟩ := List.exists_cons_of_ne_nil fun hnil => hne (List.isEmpty_iff.2 hnil)
      have hcolon := h c hc hletter
      rw [he] at hcolon ⊢
      exact hcolon

theorem readFragment_append {path : List Char} (h : ∀ c ∈ path, (c == '#') = false)
    (fragment : List Char) : readFragment (path ++ '#' :: fragment) =
      some (String.ofList (Percent.encode Percent.inFragmentSet fragment)) := by
  rw [readFragment, splitFirst?_append_cons (by rfl) fragment h]
  rfl

theorem readFragment_eq_none {path : List Char} (h : ∀ c ∈ path, (c == '#') = false) :
    readFragment path = none := by
  rw [readFragment, splitFirst?_eq_none h]
  rfl

end BookCatalog.Url

namespace BookCatalog.Link

open BookCatalog.Text BookCatalog.Url BookCatalog.FilePath

/-! ## References read from a page of the book -/

/-- The URL of a page of the book. -/
def bookUrl (parts : List String) (fragment : Option String) : Url :=
  ⟨bookSite.scheme, some bookSite.host, .segments parts, fragment⟩

theorem relative?_of_slash {c : Char} {rest : List Char} (hc : SchemeKind.special.isSlash c = true)
    (h : ∀ d ∈ rest.head?, SchemeKind.special.isSlash d = false) :
    relative? bookSite (c :: rest) =
      some (bookUrl (readPath .special [] rest) (readFragment (c :: rest))) := by
  have hend : endsPath c = false := by
    have hc : c = '/' ∨ c = '\\' := by simpa [SchemeKind.isSlash] using hc
    rcases hc with rfl | rfl <;> rfl
  cases rest with
  | nil => simp [relative?, hend, hc, bookUrl]
  | cons d more => simp [relative?, hend, hc, h d rfl, bookUrl]

theorem relative?_of_name {c : Char} {rest : List Char} (hend : endsPath c = false)
    (hslash : SchemeKind.special.isSlash c = false) :
    relative? bookSite (c :: rest) =
      some (bookUrl (readPath .special [] (c :: rest)) (readFragment (c :: rest))) := by
  have hdir : bookSite.path.dropLast = [] := rfl
  simp [relative?, hend, hslash, hdir, bookUrl]

theorem relative?_of_tail {tail : List Char} (h : FollowsPath tail) :
    relative? bookSite tail = some (bookUrl [""] (readFragment tail)) := by
  cases tail with
  | nil => rfl
  | cons c rest =>
    have hpath : bookSite.path = [""] := rfl
    simp [relative?, h c rfl, hpath, bookUrl]

/-- A path that does not name a host: it does not begin with two slashes. -/
def NamesNoHost (path : List Char) : Prop := path.take 2 ≠ ['/', '/']

instance (path : List Char) : Decidable (NamesNoHost path) := inferInstanceAs (Decidable (_ ≠ _))

theorem namesNoHost_of_relative {path : String} (h : isAbsolute path = false) :
    NamesNoHost path.toList := by
  intro he
  cases hp : path.toList with
  | nil => simp [hp] at he
  | cons c rest =>
    have hc : c ≠ '/' := by simpa [isAbsolute, hp] using h
    simp [hp, hc] at he

/-- A character that has a meaning of its own in the path of a reference. -/
def isMark (c : Char) : Bool := c == '?' || c == '#' || c == '\\'

theorem endsPath_of_isMark {c : Char} (h : isMark c = false) : endsPath c = false := by
  simp_all [isMark, endsPath]

theorem isSlash_iff_of_isMark {c : Char} (h : isMark c = false) :
    SchemeKind.special.isSlash c = true ↔ c = '/' := by
  simp_all [isMark, SchemeKind.isSlash]

theorem endsDirectory_of_cons {c : Char} {dir : List Char} (h : EndsDirectory (c :: dir)) :
    EndsDirectory dir := by
  cases dir with
  | nil => exact .inl rfl
  | cons d rest => exact .inr (by simpa [EndsDirectory] using h)

/-- What follows a first slash is no second one. -/
theorem head?_append_not_slash {path tail : List Char} (hhost : NamesNoHost ('/' :: path))
    (hmark : ∀ c ∈ path, isMark c = false) (htail : FollowsPath tail) :
    ∀ c ∈ (path ++ tail).head?, SchemeKind.special.isSlash c = false := by
  intro c hc
  cases path with
  | nil =>
    have hend : endsPath c = true := htail c hc
    have hc : c = '?' ∨ c = '#' := by simpa [endsPath] using hend
    rcases hc with rfl | rfl <;> rfl
  | cons d rest =>
    obtain rfl : d = c := by simpa using hc
    rw [Bool.eq_false_iff, Ne, isSlash_iff_of_isMark (hmark d List.mem_cons_self)]
    rintro rfl
    exact hhost rfl

/-- A reference with a path and no host leads below the book, to what the last segment names. -/
theorem exists_relative?_eq {dir file tail : List Char} (hdir : EndsDirectory dir) (hfile : '/' ∉ file)
    (hmark : ∀ c ∈ dir ++ file, isMark c = false) (hhost : NamesNoHost (dir ++ file))
    (htail : FollowsPath tail) :
    ∃ before, relative? bookSite (dir ++ file ++ tail) =
      some (bookUrl (appendSegment .special before file true) (readFragment (dir ++ file ++ tail))) := by
  have hend : ∀ c ∈ dir ++ file, endsPath c = false := fun c hc => endsPath_of_isMark (hmark c hc)
  have hslash : ∀ c ∈ file, SchemeKind.special.isSlash c = false := fun c hc => by
    rw [Bool.eq_false_iff, Ne, isSlash_iff_of_isMark (hmark c (List.mem_append_right _ hc))]
    exact fun he => hfile (he ▸ hc)
  cases hd : dir with
  | nil =>
    cases hf : file with
    | nil => exact ⟨[], relative?_of_tail htail⟩
    | cons c rest =>
      subst hd hf
      obtain ⟨before, hb⟩ := exists_readPath_eq hdir hslash hend htail []
      refine ⟨before, ?_⟩
      rw [← hb]
      exact relative?_of_name (hend c List.mem_cons_self) (hslash c List.mem_cons_self)
  | cons c rest =>
    subst hd
    by_cases hc : c = '/'
    · subst hc
      -- a slash at the start leads to the site itself
      obtain ⟨before, hb⟩ := exists_readPath_eq (endsDirectory_of_cons hdir) hslash
        (fun c hc => hend c (List.mem_cons_of_mem _ hc)) htail []
      refine ⟨before, ?_⟩
      rw [← hb]
      exact relative?_of_slash rfl (head?_append_not_slash hhost
        (fun c hc => hmark c (List.mem_cons_of_mem _ hc)) htail)
    · obtain ⟨before, hb⟩ := exists_readPath_eq hdir hslash hend htail []
      refine ⟨before, ?_⟩
      rw [← hb]
      refine relative?_of_name (hend c List.mem_cons_self) ?_
      rw [Bool.eq_false_iff, Ne, isSlash_iff_of_isMark (hmark c List.mem_cons_self)]
      exact hc

/-! ## Documents that references lead to -/

/-- A name with its escapes undone. -/
def unescaped (name : String) : String := String.ofList (Percent.decodeText name.toList)

/-- A fragment as it is looked up. -/
def escaped (fragment : String) : String :=
  String.ofList (Percent.encode Percent.inFragmentSet fragment.toList)

/-- The id of the document that a file name stands for. -/
def idOfName (name : String) : String :=
  match FilePath.stem? name with
  | some stem => if stem = "." then rootId else stem
  | none => rootId

theorem documentId_eq (url : Url) : documentId url = idOfName url.lastSegment := rfl

/-- A reference of the catalog: a document, and a section of it when its slug is known. -/
def catalogReference (id : String) (slug : Option String) : String :=
  catalogScheme ++ id ++ slug.elim "" ("#" ++ ·)

theorem reference_eq (url : Url) (anchors : AnchorTable) :
    reference url anchors = catalogReference (documentId url) (url.fragment.bind anchors.get?) := by
  unfold reference knownSlug catalogReference
  cases url.fragment.bind anchors.get? <;> simp [String.append_assoc]

/-- References to one document differ when the slugs do. -/
theorem catalogReference_inj {id : String} {slug slug' : Option String} :
    catalogReference id slug = catalogReference id slug' ↔ slug = slug' := by
  refine ⟨fun h => ?_, fun h => by rw [h]⟩
  rw [← String.toList_inj] at h
  cases slug <;> cases slug' <;> simp_all [catalogReference, ← String.toList_inj]

/-- The last segment of a path when it names a file: it is not empty, and no step to a directory. -/
def NamesFile (segment : String) : Prop :=
  segment ≠ "" ∧ isSingleDot segment.toList = false ∧ isDoubleDot segment.toList = false

instance (segment : String) : Decidable (NamesFile segment) :=
  inferInstanceAs (Decidable (_ ∧ _ ∧ _))

/-- A path and a fragment, as they stand in a page. -/
def written (path : String) (fragment : Option String) : String :=
  path ++ fragment.elim "" ("#" ++ ·)

/-- A reference from one page of the book to another: the directories, each with a slash after it, the
name of the file, and possibly a fragment. It has no scheme, no host and no query, and nothing in it is
left out when it is read. -/
structure PageReference where
  directory : String
  file : String
  fragment : Option String
  directory_ends : EndsDirectory directory.toList
  no_slash : '/' ∉ file.toList
  no_mark : ∀ c ∈ (directory ++ file).toList, isMark c = false
  no_host : NamesNoHost (directory ++ file).toList
  no_scheme : splitScheme? (directory ++ file).toList = none
  clean : cleaned (written (directory ++ file) fragment) =
    (written (directory ++ file) fragment).toList

namespace PageReference

/-- The reference as it stands in a page. -/
def text (r : PageReference) : String := written (r.directory ++ r.file) r.fragment

/-- What follows the path. -/
def tail (r : PageReference) : List Char := (r.fragment.elim "" ("#" ++ ·)).toList

theorem toList_text (r : PageReference) :
    r.text.toList = r.directory.toList ++ r.file.toList ++ r.tail := by
  simp [text, written, tail]

theorem followsPath_tail (r : PageReference) : FollowsPath r.tail := by
  unfold tail FollowsPath
  cases r.fragment with
  | none => simp
  | some f => simp [endsPath]

theorem splitScheme?_text (r : PageReference) : splitScheme? r.text.toList = none := by
  have hpath : splitScheme? (r.directory.toList ++ r.file.toList) = none := by
    simpa using r.no_scheme
  rw [toList_text]
  exact splitScheme?_append hpath r.followsPath_tail

theorem readFragment_text (r : PageReference) : readFragment r.text.toList = r.fragment.map escaped := by
  have hpath : ∀ c ∈ r.directory.toList ++ r.file.toList, (c == '#') = false := fun c hc => by
    have hmark := r.no_mark c (by simpa using hc)
    simp_all [isMark]
  rw [toList_text, tail]
  cases r.fragment with
  | none => simpa using readFragment_eq_none hpath
  | some f => simpa [escaped] using readFragment_append hpath f.toList

theorem isExternal_text (r : PageReference) : isExternal r.text = false := by
  have hclean : cleaned r.text = r.text.toList := r.clean
  simp [isExternal, parse?, hclean, r.splitScheme?_text]

/-- A reference is read below the book, to what its last segment names. -/
theorem exists_resolve?_eq (r : PageReference) :
    ∃ before, resolve? bookSite r.text =
      some (bookUrl (appendSegment .special before r.file.toList true) (r.fragment.map escaped)) := by
  have hclean : cleaned r.text = r.text.toList := r.clean
  obtain ⟨before, hb⟩ := exists_relative?_eq r.directory_ends r.no_slash
    (by simpa using r.no_mark) (by simpa using r.no_host) r.followsPath_tail
  refine ⟨before, ?_⟩
  rw [← r.readFragment_text, r.toList_text, ← hb]
  simp only [resolve?, hclean, r.splitScheme?_text]
  rw [r.toList_text]

/-- The id of the document that a reference leads to. -/
def id (r : PageReference) : String := ((resolve? bookSite r.text).map documentId).getD rootId

/-- **A reference leads to one document, whatever the anchors.** They are only asked for the fragment, as it
is written with escapes. -/
theorem destination_eq (r : PageReference) (anchors : AnchorTable) :
    destination r.text anchors =
      catalogReference r.id ((r.fragment.map escaped).bind anchors.get?) := by
  obtain ⟨before, hb⟩ := r.exists_resolve?_eq
  simp [destination, isExternal_text, hb, id, reference_eq, bookUrl]

/-- The document is the one that the last segment of the path names. -/
theorem id_of_file (r : PageReference) (h : NamesFile r.file) : r.id = idOfName (unescaped r.file) := by
  obtain ⟨hne, hstep, hup⟩ := h
  obtain ⟨before, hb⟩ := r.exists_resolve?_eq
  rw [appendSegment_of_name hstep hup] at hb
  simp [id, hb, documentId_eq, bookUrl, lastSegment, hne, unescaped]

end PageReference

/-! ## Ids of documents -/

theorem idOfName_ne_empty (name : String) : idOfName name ≠ "" := by
  unfold idOfName
  split
  · rename_i stem h
    split
    · decide
    · exact fun he => FilePath.stem?_ne_empty name (he ▸ h)
  · decide

theorem idOfName_ne_dot (name : String) : idOfName name ≠ "." := by
  unfold idOfName
  split
  · split
    · decide
    · assumption
  · decide

theorem idOfName_cases (name : String) :
    idOfName name = rootId ∨ stem? name = some (idOfName name) := by
  unfold idOfName
  split
  · rename_i stem h
    split
    · exact .inl rfl
    · exact .inr h
  · exact .inl rfl

/-- A file name stands for the id that is its stem, unless the stem is a dot. -/
theorem idOfName_eq_iff {name id : String} (h : '/' ∉ id.toList) :
    idOfName name = id ↔ FilePath.stem? name = some id ∧ id ≠ "." := by
  have hroot : rootId ≠ id := by rintro rfl; exact h (by decide)
  unfold idOfName
  cases hs : FilePath.stem? name with
  | none => simp [hroot]
  | some stem =>
    by_cases hd : stem = "."
    · subst hd
      simp [hroot, eq_comm]
    · simp only [hd, if_false, Option.some.injEq]
      exact ⟨fun he => ⟨he, he ▸ hd⟩, fun he => he.1⟩

end BookCatalog.Link
