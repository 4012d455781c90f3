import BookCatalog.Book
import BookCatalog.Proofs.FileTree
import BookCatalog.Proofs.References
import Mathlib.Data.Bool.AllAny

/-!
# Three names of one chapter

The landing page names a chapter by the text of its link, a link in a chapter by the file name that its
URL has when the escapes are undone, and the file that is written by the file name of the path in the
package. For a reference to a file the first two agree exactly when undoing the escapes leaves the stem of
the file name alone and the stem is no dot, as long as a fragment has no dot and no slash
(`target_eq_destination_iff`). Under the same condition a link leads to the file that is written
(`link_leads_to_file_iff`).
-/

namespace BookCatalog.Link

open BookCatalog.Text BookCatalog.Url BookCatalog.FilePath BookCatalog.TableOfContents

/-! ## Names on the landing page -/

/-- The text up to its last dot. -/
theorem targetOf_of_no_slash {file : String} (h : '/' ∉ file.toList) :
    targetOf file = match splitLast? (· == '.') file.toList with
      | some (stem, _) => String.ofList stem
      | none => file := by
  unfold targetOf
  rw [splitLast?_eq_none (beq_eq_false_of_not_mem h)]
  cases hdot : splitLast? (· == '.') file.toList <;> simp [hdot]

/-- The directories of a link do not count. -/
theorem targetOf_append {dir file : String} (hdir : EndsDirectory dir.toList)
    (hfile : '/' ∉ file.toList) : targetOf (dir ++ file) = targetOf file := by
  have hslash := beq_eq_false_of_not_mem hfile
  rcases hdir with hnil | hend
  · obtain rfl := String.toList_eq_nil_iff.1 hnil
    simp
  · obtain ⟨front, rfl⟩ := exists_eq_append_slash hend
    have hsplit : splitLast? (· == '/') (front ++ "/" ++ file).toList =
        some (front.toList, file.toList) := by
      simpa using splitLast?_append_cons (p := (· == '/')) (a := '/') rfl hslash front.toList
    unfold targetOf
    rw [hsplit, splitLast?_eq_none hslash]

theorem no_slash_targetOf (href : String) : '/' ∉ (targetOf href).toList := by
  obtain ⟨dir, file, rfl, hdir, hfile⟩ := exists_directory_file href
  rw [targetOf_append hdir hfile, targetOf_of_no_slash hfile]
  split
  · rename_i stem after hsplit
    obtain ⟨dot, -, hstem⟩ := splitLast?_eq_some hsplit
    rw [String.toList_ofList]
    exact fun hs => hfile (hstem ▸ List.mem_append_left _ hs)
  · exact hfile

/-- Neither does a fragment without dots, when the file name has one. -/
theorem targetOf_fragment {file fragment : String} (hfile : '/' ∉ file.toList) (hdot : '.' ∈ file.toList)
    (hfragment : '.' ∉ fragment.toList) (hslash : '/' ∉ fragment.toList) :
    targetOf (file ++ "#" ++ fragment) = targetOf file := by
  have hno : '/' ∉ (file ++ "#" ++ fragment).toList := by simp [hfile, hslash]
  rw [targetOf_of_no_slash hno, targetOf_of_no_slash hfile]
  rcases no_separator_or_last (· == '.') file.toList with h | ⟨stem, c, after, hc, hsplit, hafter⟩
  · simpa using h _ hdot
  · obtain rfl : c = '.' := by simpa using hc
    have hfirst : splitLast? (· == '.') file.toList = some (stem, after) := by
      rw [hsplit]
      exact splitLast?_append_cons (p := (· == '.')) hc hafter stem
    have hrest : ∀ c ∈ after ++ '#' :: fragment.toList, (c == '.') = false := by
      intro c hc
      rcases List.mem_append.1 hc with hc | hc
      · exact hafter c hc
      · have hne : c ≠ '.' := fun he => by
          rw [he] at hc
          simp [hfragment] at hc
        simpa using hne
    have hsecond : splitLast? (· == '.') (file ++ "#" ++ fragment).toList =
        some (stem, after ++ '#' :: fragment.toList) := by
      simpa [hsplit] using splitLast?_append_cons (p := (· == '.')) hc hrest stem
    rw [hfirst, hsecond]

namespace PageReference

theorem exists_id_eq (r : PageReference) : ∃ name, r.id = idOfName name := by
  obtain ⟨before, hb⟩ := r.exists_resolve?_eq
  have hid : r.id = documentId (bookUrl (appendSegment .special before r.file.toList true)
      (r.fragment.map escaped)) := by simp [id, hb]
  exact ⟨_, hid.trans (documentId_eq _)⟩

theorem id_ne_empty (r : PageReference) : r.id ≠ "" := by
  obtain ⟨name, hid⟩ := r.exists_id_eq
  exact hid ▸ idOfName_ne_empty name

theorem id_ne_dot (r : PageReference) : r.id ≠ "." := by
  obtain ⟨name, hid⟩ := r.exists_id_eq
  exact hid ▸ idOfName_ne_dot name

/-- Without anchors a link leads to the document alone. -/
theorem destination_empty (r : PageReference) : destination r.text ∅ = catalogScheme ++ r.id := by
  rw [r.destination_eq]
  have hnone : (r.fragment.map escaped).bind (∅ : AnchorTable).get? = none := by
    cases r.fragment <;> rfl
  rw [hnone]
  simp [catalogReference]

/-- The target that the landing page has for a reference. -/
theorem targetOf_text (r : PageReference) (hfragment : ∀ f ∈ r.fragment,
    '.' ∈ r.file.toList ∧ '.' ∉ f.toList ∧ '/' ∉ f.toList) : targetOf r.text = targetOf r.file := by
  unfold text written
  cases hf : r.fragment with
  | none => simpa using targetOf_append r.directory_ends r.no_slash
  | some f =>
    obtain ⟨hdot, hno, hslash⟩ := hfragment f hf
    have hfile : '/' ∉ (r.file ++ "#" ++ f).toList := by simp [r.no_slash, hslash]
    rw [← targetOf_fragment r.no_slash hdot hno hslash, ← targetOf_append r.directory_ends hfile]
    simp [String.append_assoc]

/-- **The landing page and the chapters name a document alike exactly when escapes do not touch its stem.**
A reference to a file leads to one document from both exactly when its target on the landing page is the stem
of the file name with the escapes undone, and no dot. A fragment does not count for the target when it has
no dot and no slash and stands after a file name with an extension. A reference to a directory never leads
to one document from both. -/
theorem target_eq_destination_iff (r : PageReference) :
    (NamesFile r.file →
      (catalogScheme ++ targetOf r.text = destination r.text ∅ ↔
          stem? (unescaped r.file) = some (targetOf r.text) ∧ targetOf r.text ≠ ".") ∧
        ((∀ f ∈ r.fragment, '.' ∈ r.file.toList ∧ '.' ∉ f.toList ∧ '/' ∉ f.toList) →
          targetOf r.text = targetOf r.file)) ∧
      (r.file = "" ∨ r.file = "." ∨ r.file = ".." → r.fragment = none →
        catalogScheme ++ targetOf r.text ≠ destination r.text ∅) := by
  have halike : catalogScheme ++ targetOf r.text = destination r.text ∅ ↔ r.id = targetOf r.text := by
    rw [r.destination_empty]
    simp [eq_comm]
  refine ⟨fun hname => ⟨?_, r.targetOf_text⟩, fun hstep hnone => ?_⟩
  · rw [halike, r.id_of_file hname]
    exact idOfName_eq_iff (no_slash_targetOf _)
  · rw [Ne, halike, r.targetOf_text (by simp [hnone])]
    rcases hstep with hempty | hdot | hdots
    · rw [hempty]
      exact r.id_ne_empty
    · rw [hdot]
      exact r.id_ne_empty
    · rw [hdots]
      exact r.id_ne_dot

/-- A chapter reached through other directories, with a fragment. -/
def basicsFromTour : PageReference where
  directory := "../Guided%20Tour/./../LanguageGuide/"
  file := "TheBasics.xhtml"
  fragment := some "ID461"
  directory_ends := .inr (by decide)
  no_slash := by decide
  no_mark := List.all_iff_forall_prop.1 (by decide)
  no_host := by decide
  no_scheme := by decide
  clean := by decide

/-- A directory, with its slash. -/
def tour : PageReference where
  directory := "GuidedTour/"
  file := ""
  fragment := none
  directory_ends := .inr (by decide)
  no_slash := by decide
  no_mark := List.all_iff_forall_prop.1 (by decide)
  no_host := by decide
  no_scheme := by decide
  clean := by decide

theorem target_eq_destination_iff_basics :
    (NamesFile basicsFromTour.file ∧ (∀ f ∈ basicsFromTour.fragment,
      '.' ∈ basicsFromTour.file.toList ∧ '.' ∉ f.toList ∧ '/' ∉ f.toList) ∧
      (catalogScheme ++ targetOf basicsFromTour.text = destination basicsFromTour.text ∅ ↔
        stem? (unescaped basicsFromTour.file) = some (targetOf basicsFromTour.text) ∧
          targetOf basicsFromTour.text ≠ ".") ∧
      targetOf basicsFromTour.text = targetOf basicsFromTour.file) ∧
    tour.file = "" ∧ tour.fragment = none ∧
      catalogScheme ++ targetOf tour.text ≠ destination tour.text ∅ := by
  have hname : NamesFile basicsFromTour.file := by decide
  obtain ⟨halike, htarget⟩ := basicsFromTour.target_eq_destination_iff.1 hname
  exact ⟨⟨hname, by decide, halike, htarget (by decide)⟩, rfl, rfl,
    tour.target_eq_destination_iff.2 (.inl rfl) rfl⟩

/-- A link to a section whose id has a dot: the landing page takes the dot for that of the extension. -/
theorem fragment_with_dot_in_target :
    ∃ r : PageReference, r.text = "GuidedTour/AboutSwift.xhtml#v1.0" ∧
      catalogScheme ++ targetOf r.text = "doc:AboutSwift.xhtml#v1" ∧
      destination r.text ∅ = "doc:AboutSwift" :=
  ⟨⟨"GuidedTour/", "AboutSwift.xhtml", some "v1.0", .inr (by decide), by decide,
    List.all_iff_forall_prop.1 (by decide), by decide, by decide, by decide⟩,
    by decide, by decide, by decide +kernel⟩

end PageReference

/-! ## Names of files -/

/-- A path that is read as a reference to what it names: it has no scheme, no query, no fragment and no
backslash, and nothing in it is left out when it is read. -/
structure IsReference (path : String) : Prop where
  relative : isAbsolute path = false
  no_mark : ∀ c ∈ path.toList, isMark c = false
  no_scheme : splitScheme? path.toList = none
  clean : cleaned path = path.toList

/-- The path of a file is a reference to the file. -/
theorem exists_reference_of_isFile {t : FileTree} {root path : String}
    (hfile : t.isFile (join root path) = true) (hpath : IsReference path) :
    ∃ r : PageReference, r.text = path ∧ r.fragment = none ∧ IsName r.file ∧
      fileName? path = some r.file := by
  obtain ⟨c, hread⟩ := FileTree.isFile_iff.1 hfile
  obtain ⟨name, hname, hlast⟩ := FileTree.exists_getLast?_names_of_read hread
  obtain ⟨dir, file, rfl, hdir, hslash⟩ := exists_directory_file path
  have hne : file ≠ "" := by
    -- a path that ends with a slash is no path of a file
    rintro rfl
    rw [String.append_empty] at hread hlast
    rcases hdir with hnil | hend
    · rw [String.toList_eq_nil_iff.1 hnil, names_empty] at hlast
      cases hlast
    · have hslash : FileTree.endsInSlash (join root dir) = true :=
        FileTree.endsInSlash_join (by simp [FileTree.endsInSlash, hend])
      rw [(FileTree.read_eq_ok_iff.1 hread).1] at hslash
      cases hslash
  obtain rfl : name = file := by
    rw [getLast?_names hdir hslash hne] at hlast
    exact (Option.some.inj hlast).symm
  have hwritten : written (dir ++ name) none = dir ++ name := by simp [written]
  exact ⟨⟨dir, name, none, hdir, hslash, hpath.no_mark, namesNoHost_of_relative hpath.relative,
    hpath.no_scheme, by rw [hwritten, hpath.clean]⟩, hwritten, rfl, hname,
    fileName?_eq_some hlast hname.ne_dot hname.ne_dots⟩

/-- **A link leads to the file that is written for a chapter exactly when escapes do not touch its stem.** The
path of a chapter, taken as a link, leads to the document of the file that is written for the chapter,
exactly when the stem of the file name is the same with the escapes undone, and is no dot. -/
theorem link_leads_to_file_iff {t : FileTree} {root path name : String} (output : String)
    (hfile : t.isFile (join root path) = true) (hpath : IsReference path)
    (hname : fileName? path = some name) (hnames : NamesFile name) :
    ∃ stem, stem? path = some stem ∧ Book.chapterPath output path = join output (stem ++ ".md") ∧
      ((∀ anchors, destination path anchors = catalogScheme ++ stem) ↔
        stem? (unescaped name) = some stem ∧ stem ≠ ".") := by
  obtain ⟨r, rfl, hfragment, hisName, hfileName⟩ := exists_reference_of_isFile hfile hpath
  obtain rfl : r.file = name := Option.some.inj (hfileName.symm.trans hname)
  have hstem : stem? r.text = some (splitName r.file).1 := by simp [stem?, hname]
  have hlink : ∀ anchors, destination r.text anchors = catalogScheme ++ r.id := fun anchors => by
    simp [r.destination_eq, hfragment, catalogReference]
  refine ⟨(splitName r.file).1, hstem, by simp [Book.chapterPath, hstem], ?_⟩
  rw [← idOfName_eq_iff (no_slash_splitName hisName), ← r.id_of_file hnames]
  simp [hlink]

/-- A book with a space, an escape and nothing but a dot in the stems of its chapters. -/
def oddlyNamedBook : FileTree := .ofList
  [(["book", "LanguageGuide", "The Basics.xhtml"], .file (.text "")),
    (["book", "Caf%C3%A9.xhtml"], .file (.text "")), (["book", "..xhtml"], .file (.text ""))]

theorem link_leads_to_file_iff_basics :
    (oddlyNamedBook.isFile (join "book" "LanguageGuide/The Basics.xhtml") = true ∧
      IsReference "LanguageGuide/The Basics.xhtml" ∧
      fileName? "LanguageGuide/The Basics.xhtml" = some "The Basics.xhtml" ∧
      NamesFile "The Basics.xhtml") ∧
    ∃ stem, stem? "LanguageGuide/The Basics.xhtml" = some stem ∧
      Book.chapterPath "out" "LanguageGuide/The Basics.xhtml" = join "out" (stem ++ ".md") ∧
      ((∀ anchors, destination "LanguageGuide/The Basics.xhtml" anchors = catalogScheme ++ stem) ↔
        stem? (unescaped "The Basics.xhtml") = some stem ∧ stem ≠ ".") := by
  have hfile : oddlyNamedBook.isFile (join "book" "LanguageGuide/The Basics.xhtml") = true := by
    decide +kernel
  have hpath : IsReference "LanguageGuide/The Basics.xhtml" :=
    ⟨by decide, List.all_iff_forall_prop.1 (by decide), by decide, by decide⟩
  exact ⟨⟨hfile, hpath, by decide, by decide⟩,
    link_leads_to_file_iff "out" hfile hpath (by decide) (by decide)⟩

/-- Chapters whose files no link leads to: the escape is undone in the link alone, and the stem that is a dot
is taken for the book itself. -/
theorem files_missed_by_links :
    (oddlyNamedBook.isFile (join "book" "Caf%C3%A9.xhtml") = true ∧
      Book.chapterPath "out" "Caf%C3%A9.xhtml" = join "out" ("Caf%C3%A9" ++ ".md") ∧
      destination "Caf%C3%A9.xhtml" ∅ = "doc:Café") ∧
    (oddlyNamedBook.isFile (join "book" "..xhtml") = true ∧
      Book.chapterPath "out" "..xhtml" = join "out" ("." ++ ".md") ∧
      destination "..xhtml" ∅ = "doc:/") := by
  decide +kernel

end BookCatalog.Link
