import BookCatalog.Proofs.EscapedMarks
import BookCatalog.Proofs.LeavingLinks
import BookCatalog.Proofs.References
import Mathlib.Data.List.TakeWhile

/-!
# Documents and sections of destinations

The destination of a reference inside the book is the id of a document, possibly followed by a number sign
and the slug of a section. Every reference without a scheme and a host has one, whatever its path goes
through: the path alone decides the document, and the fragment alone whether there is a section. The id is
never empty and has no slash, except that of the book itself.

A reader gets both parts back by cutting at the first number sign exactly if the id has none
(`destination_readsAs_iff`). An id can have one, since the escapes of a file name are undone, but only `%23`
in the path brings it there. Then a whole document is read as a section of another one
(`document_read_as_section`).
-/

namespace BookCatalog.Url

open BookCatalog.Text

/-! ## Segments of a path -/

/-- A segment that is appended is left out, or leaves an empty one, or is kept as it is. -/
theorem mem_appendSegment {part : String} {path : List String} {segment : List Char} {last : Bool}
    (h : part ∈ appendSegment .special path segment last) :
    part ∈ path ∨ part = "" ∨ part = String.ofList segment := by
  unfold appendSegment at h
  split at h
  · have hup {p : String} (hp : p ∈ shorten .special path) : p ∈ path := List.dropLast_subset path hp
    split at h
    · rcases List.mem_append.1 h with h | h
      · exact .inl (hup h)
      · exact .inr (.inl (List.mem_singleton.1 h))
    · exact .inl (hup h)
  · split at h
    · split at h
      · rcases List.mem_append.1 h with h | h
        · exact .inl h
        · exact .inr (.inl (List.mem_singleton.1 h))
      · exact .inl h
    · rcases List.mem_append.1 h with h | h
      · exact .inl h
      · exact .inr (.inr (List.mem_singleton.1 h))

theorem mem_appendSegments {part : String} : ∀ {segments : List (List Char)} {path : List String},
    part ∈ appendSegments .special path segments →
      part ∈ path ∨ part = "" ∨ ∃ segment ∈ segments, part = String.ofList segment
  | [], path, h => .inl h
  | [segment], path, h =>
    (mem_appendSegment h).imp_right (·.imp_right fun hpart => ⟨segment, List.mem_singleton_self _, hpart⟩)
  | segment :: next :: more, path, h => by
    have hmore : part ∈
        appendSegments .special (appendSegment .special path segment false) (next :: more) := h
    rcases mem_appendSegments hmore with h | h | ⟨kept, hkept, hpart⟩
    · rcases mem_appendSegment h with h | h | hpart
      · exact .inl h
      · exact .inr (.inl h)
      · exact .inr (.inr ⟨segment, List.mem_cons_self, hpart⟩)
    · exact .inr (.inl h)
    · exact .inr (.inr ⟨kept, List.mem_cons_of_mem segment hkept, hpart⟩)

/-- What stands in a path that is read stands in the text. -/
theorem isInfix_of_mem_readPath {part : String} {cs : List Char}
    (h : part ∈ readPath .special [] cs) : part.toList <:+: cs.takeWhile (!endsPath ·) := by
  rcases mem_appendSegments h with h | rfl | ⟨segment, hsegment, rfl⟩
  · cases h
  · exact List.nil_infix
  · rw [String.toList_ofList]
    exact isInfix_of_mem_splitOnP hsegment

theorem readPath_takeWhile (kind : SchemeKind) (path : List String) (cs : List Char) :
    readPath kind path (cs.takeWhile (!endsPath ·)) = readPath kind path cs := by
  rw [readPath, List.takeWhile_idem, ← readPath]

/-- Only an escape of it brings a number sign into the last segment of a path without one. -/
theorem numberSign_of_mem_lastSegment {url : Url} {parts : List String} (hparts : url.path = .segments parts)
    (h : '#' ∈ url.lastSegment.toList) :
    ∃ part ∈ parts, '#' ∈ part.toList ∨ ['%', '2', '3'] <:+: part.toList := by
  rw [lastSegment, hparts] at h
  dsimp only at h
  split at h
  · rename_i part hpart
    rw [String.toList_ofList] at h
    exact ⟨part, (List.mem_filter.1 (List.mem_of_getLast? hpart)).1, Percent.numberSign_of_mem_decodeText h⟩
  · simp at h

end BookCatalog.Url

namespace BookCatalog.Link

open BookCatalog.Text BookCatalog.Url

/-! ## References without a scheme and a host -/

/-- A reference without a scheme and a host: a host would stand after two slashes. -/
def IsRelative (href : String) : Prop := splitScheme? (cleaned href) = none ∧ ¬TakesScheme href

instance (href : String) : Decidable (IsRelative href) := inferInstanceAs (Decidable (_ ∧ _))

/-- The path of a reference: what stands before a query and a fragment. -/
def pathOf (href : String) : List Char := (cleaned href).takeWhile (!endsPath ·)

/-- The segments of a path without a host. -/
def segmentsOf : List Char → List String
  | [] => [""]
  | c :: rest => readPath .special [] (if SchemeKind.special.isSlash c then rest else c :: rest)

/-- The id of the document that a path leads to. -/
def idOfPath (path : List Char) : String := documentId (bookUrl (segmentsOf path) none)

theorem relative?_eq_bookUrl {cs : List Char} (h : leadingSlashes cs < 2) :
    relative? bookSite cs =
      some (bookUrl (segmentsOf (cs.takeWhile (!endsPath ·))) (readFragment cs)) := by
  cases cs with
  | nil => rfl
  | cons c rest =>
    cases hend : endsPath c with
    | true =>
      rw [relative?_of_tail (by simpa [FollowsPath] using hend), List.takeWhile_cons_of_neg (by simp [hend])]
      rfl
    | false =>
      rw [List.takeWhile_cons_of_pos (by simp [hend])]
      cases hslash : SchemeKind.special.isSlash c with
      | true =>
        have hrest : ∀ d ∈ rest.head?, SchemeKind.special.isSlash d = false := fun d hd => by
          obtain ⟨more, rfl⟩ := List.head?_eq_some_iff.1 hd
          refine Bool.eq_false_iff.2 fun hslash' => ?_
          rw [leadingSlashes_cons hslash, leadingSlashes_cons hslash'] at h
          omega
        rw [relative?_of_slash hslash hrest, segmentsOf, if_pos hslash, readPath_takeWhile]
      | false =>
        have hpath := readPath_takeWhile .special [] (c :: rest)
        rw [List.takeWhile_cons_of_pos (by simp [hend])] at hpath
        rw [relative?_of_name hend hslash, segmentsOf, hslash, if_neg Bool.false_ne_true, hpath]

/-- A reference is read below the book, along its path. -/
theorem resolve?_of_isRelative {href : String} (h : IsRelative href) :
    resolve? bookSite href =
      some (bookUrl (segmentsOf (pathOf href)) (readFragment (cleaned href))) := by
  obtain ⟨hscheme, hhost⟩ := h
  simp only [resolve?, hscheme]
  exact relative?_eq_bookUrl (Nat.not_le.1 hhost)

theorem isExternal_of_isRelative {href : String} (h : IsRelative href) : isExternal href = false := by
  simp [isExternal, parse?, h.1]

theorem documentId_bookUrl (parts : List String) (fragment : Option String) :
    documentId (bookUrl parts fragment) = documentId (bookUrl parts none) := by
  simp only [documentId, lastSegment, bookUrl]

theorem destination_of_isRelative {href : String} (h : IsRelative href) {url : Url}
    (hurl : resolve? bookSite href = some url) (anchors : AnchorTable) :
    destination href anchors = catalogReference (idOfPath (pathOf href)) (knownSlug url anchors) := by
  have hid : documentId url = idOfPath (pathOf href) := by
    rw [resolve?_of_isRelative h, Option.some.injEq] at hurl
    rw [← hurl, documentId_bookUrl, idOfPath]
  rw [destination, isExternal_of_isRelative h, hurl, ← hid]
  exact reference_eq url anchors

/-! ## Marks in ids -/

/-- The id of the book itself, or an id that is not empty and has no slash. -/
theorem idOfPath_cases (path : List Char) :
    idOfPath path = rootId ∨ idOfPath path ≠ "" ∧ '/' ∉ (idOfPath path).toList := by
  rw [idOfPath, documentId_eq]
  refine (idOfName_cases _).imp_right fun hstem => ⟨idOfName_ne_empty _, ?_⟩
  exact FilePath.no_slash_of_stem? hstem

theorem isInfix_of_mem_segmentsOf {part : String} {path : List Char} (h : part ∈ segmentsOf path) :
    part.toList <:+: path := by
  cases path with
  | nil =>
    obtain rfl := List.mem_singleton.1 h
    exact List.nil_infix
  | cons c rest =>
    have hpart := (isInfix_of_mem_readPath h).trans (List.takeWhile_prefix _).isInfix
    split at hpart
    · exact hpart.trans (List.suffix_cons c rest).isInfix
    · exact hpart

/-- Only an escape of it brings a number sign into an id. -/
theorem escape_of_numberSign_mem_id {href : String} (h : '#' ∈ (idOfPath (pathOf href)).toList) :
    ['%', '2', '3'] <:+: pathOf href := by
  rw [idOfPath, documentId_eq] at h
  have hname : '#' ∈ (bookUrl (segmentsOf (pathOf href)) none).lastSegment.toList := by
    rcases idOfName_cases (bookUrl (segmentsOf (pathOf href)) none).lastSegment with hroot | hstem
    · rw [hroot] at h
      exact absurd h (by decide)
    · exact FilePath.mem_of_mem_stem? hstem h
  obtain ⟨part, hpart, hmark | hescape⟩ := numberSign_of_mem_lastSegment rfl hname
  · have hmem : '#' ∈ pathOf href := (isInfix_of_mem_segmentsOf hpart).subset hmark
    exact absurd (List.mem_takeWhile_imp hmem) (by decide)
  · exact hescape.trans (isInfix_of_mem_segmentsOf hpart)

/-! ## Destinations read back -/

/-- What a reader takes from a destination: the text before the first number sign is the document, and a
number sign tells that there is a section. -/
structure ReadsAs (destination id : String) (slug : Option String) : Prop where
  section_iff : '#' ∈ destination.toList ↔ slug.isSome = true
  document : destination.toList.takeWhile (· != '#') = (catalogScheme ++ id).toList

theorem toList_catalogReference (id : String) (slug : Option String) :
    (catalogReference id slug).toList =
      (catalogScheme ++ id).toList ++ slug.elim [] ('#' :: ·.toList) := by
  cases slug <;> simp [catalogReference]

/-- The parts of a destination are read back exactly if the id has no number sign. -/
theorem readsAs_catalogReference_iff {id : String} {slug : Option String} :
    ReadsAs (catalogReference id slug) id slug ↔ '#' ∉ id.toList := by
  constructor
  · intro h hmark
    have hdocument : '#' ∈ (catalogReference id slug).toList.takeWhile (· != '#') := by
      rw [h.document, String.toList_append]
      exact List.mem_append_right _ hmark
    exact absurd (List.mem_takeWhile_imp hdocument) (by decide)
  · intro hmark
    have hid : '#' ∉ (catalogScheme ++ id).toList := by
      rw [String.toList_append, List.mem_append, not_or]
      exact ⟨by decide, hmark⟩
    have htake : ∀ c ∈ (catalogScheme ++ id).toList, (c != '#') = true := fun c hc =>
      bne_iff_ne.2 fun he => hid (he ▸ hc)
    refine ⟨?_, ?_⟩
    · rw [toList_catalogReference, List.mem_append, or_iff_right hid]
      cases slug <;> simp
    · rw [toList_catalogReference, List.takeWhile_append_of_pos htake]
      cases slug <;> simp

/-- **The path decides the document and the fragment the section.** The destination is read back as the two
exactly if the id has no number sign, as it has none unless one stands in the path as an escape. -/
theorem destination_readsAs_iff (href : String) (h : IsRelative href) :
    ∃ url, resolve? bookSite href = some url ∧
      (∀ anchors, destination href anchors =
        catalogReference (idOfPath (pathOf href)) (knownSlug url anchors)) ∧
      (idOfPath (pathOf href) = rootId ∨
        idOfPath (pathOf href) ≠ "" ∧ '/' ∉ (idOfPath (pathOf href)).toList) ∧
      (∀ anchors, ReadsAs (destination href anchors) (idOfPath (pathOf href)) (knownSlug url anchors) ↔
        '#' ∉ (idOfPath (pathOf href)).toList) ∧
      ('#' ∈ (idOfPath (pathOf href)).toList → ['%', '2', '3'] <:+: pathOf href) := by
  have hurl := resolve?_of_isRelative h
  refine ⟨_, hurl, destination_of_isRelative h hurl, idOfPath_cases _, fun anchors => ?_,
    escape_of_numberSign_mem_id⟩
  rw [destination_of_isRelative h hurl]
  exact readsAs_catalogReference_iff

/-- A section of a chapter in another directory. -/
theorem destination_readsAs_iff_guide : IsRelative "../LanguageGuide/foo.xhtml#bar" ∧
    ∀ anchors, destination "../LanguageGuide/foo.xhtml#bar" anchors =
        catalogReference "foo" (anchors.get? "bar") ∧
      ReadsAs (destination "../LanguageGuide/foo.xhtml#bar" anchors) "foo" (anchors.get? "bar") := by
  have hrelative : IsRelative "../LanguageGuide/foo.xhtml#bar" := by decide
  have hread : resolve? bookSite "../LanguageGuide/foo.xhtml#bar" =
      some (bookUrl ["LanguageGuide", "foo.xhtml"] (some "bar")) := by decide
  have hid : idOfPath (pathOf "../LanguageGuide/foo.xhtml#bar") = "foo" := by decide +kernel
  obtain ⟨url, hurl, hdestination, -, hreads, -⟩ := destination_readsAs_iff _ hrelative
  obtain rfl := Option.some.inj (hurl.symm.trans hread)
  rw [hid] at hdestination hreads
  exact ⟨hrelative, fun anchors => ⟨hdestination anchors, (hreads anchors).2 (by decide)⟩⟩

/-- A chapter whose name has a number sign is read as a section of another chapter, though no section is
asked for. -/
theorem document_read_as_section : ∃ anchors : AnchorTable,
    IsRelative "a%23b.xhtml" ∧ IsRelative "a.xhtml#s" ∧ anchors.get? "s" = some "b" ∧
    resolve? bookSite "a%23b.xhtml" = some (bookUrl ["a%23b.xhtml"] none) ∧
    idOfPath (pathOf "a%23b.xhtml") = "a#b" ∧ idOfPath (pathOf "a.xhtml#s") = "a" ∧
    destination "a%23b.xhtml" anchors = "doc:a#b" ∧ destination "a.xhtml#s" anchors = "doc:a#b" := by
  refine ⟨AnchorTable.ofList [("s", "b")], ?_⟩
  decide +kernel

end BookCatalog.Link
