import BookCatalog.Book
import BookCatalog.Proofs.AssetNames
import BookCatalog.Proofs.Blanks
import BookCatalog.Proofs.References

/-!
# Sources of images and names of copied files

A chapter refers to an image by a URL, and the catalog holds a copy of the image. The name of the asset is
read from the URL for the chapter and from the directory for the copy. Both give one logical name
(`exists_logical_name`): whatever way a source takes to a file, it is that name, unless the source is all
blank; the copy adds the mark of the high resolution and the extension, and the high-resolution form of an
image has the logical name of the image itself.

A source that is all blank is read as no source at all, even if it is the name of a file
(`blank_source_of_image`).
-/

namespace BookCatalog.FilePath

/-- What follows the name that is joined comes last. -/
theorem join_append {path more : String} (h : isAbsolute (path ++ more) = false) (base : String) :
    join base (path ++ more) = join base path ++ more := by
  have hpath : isAbsolute path = false := by
    by_cases hp : path = ""
    · subst hp
      rfl
    · rwa [isAbsolute_append hp] at h
  simp only [join, h, hpath, Bool.false_or, decide_eq_true_eq]
  split
  · rfl
  · split <;> simp [String.append_assoc]

/-- A stem, with the extension of a name after it. -/
def withExtensionOf (name stem : String) : String := stem ++ (splitName name).2.elim "" ("." ++ ·)

/-- What is put after the stem of a name becomes a part of the stem. -/
theorem splitName_withExtensionOf {mark : String} (h : '.' ∉ mark.toList) (name : String) :
    splitName (withExtensionOf name ((splitName name).1 ++ mark)) =
      ((splitName name).1 ++ mark, (splitName name).2) := by
  unfold withExtensionOf
  rcases name_cases name with hno | ⟨more, hno, rfl⟩ | ⟨stem, ext, hne, hno, rfl⟩
  · have hmark : '.' ∉ (name ++ mark).toList := by simp [hno, h]
    simp [splitName_of_no_dot hno, splitName_of_no_dot hmark]
  · have hmark : '.' ∉ (more ++ mark).toList := by simp [hno, h]
    simp [splitName_dot_append hno, String.append_assoc, splitName_dot_append hmark]
  · have hmark : stem ++ mark ≠ "" := by simp [hne]
    rw [splitName_append_dot hne hno, ← splitName_append_dot hmark hno]
    simp [String.append_assoc]

end BookCatalog.FilePath

namespace BookCatalog.AssetName

open BookCatalog.Text BookCatalog.FilePath

/-! ## The high-resolution form of an image -/

/-- What a high-resolution image has after the stem of the image. -/
def hiResEnding : String := "_2x"

/-- The name of the file with the high-resolution form of the image in the file `name`. -/
def hiResForm (name : String) : String := withExtensionOf name ((splitName name).1 ++ hiResEnding)

theorem segments_hiResEnding (stem : String) :
    segments (stem ++ hiResEnding) = segments stem ++ [hiResMark] := by
  have hmark : runs (· == '_') ['2', 'x'] = [hiResMark] := by decide
  have hsplit : (stem ++ hiResEnding).toList = stem.toList ++ '_' :: ['2', 'x'] := by
    simp [hiResEnding]
  rw [segments, hsplit, runs_append_cons _ _ (by rfl), hmark]
  rfl

/-- The two forms of an image have one logical name. -/
theorem ofStem_hiResEnding {stem : String} (h : (segments stem).getLast? ≠ some hiResMark) :
    ofStem (stem ++ hiResEnding) = ⟨(ofStem stem).name, true⟩ := by
  have hstandard : ((segments stem).getLast? == some hiResMark) = false := beq_false_of_ne h
  simp [ofStem, segments_hiResEnding, hstandard]

theorem isName_hiResForm {name : String} (h : IsName name) : IsName (hiResForm name) := by
  have hext : '/' ∉ ((splitName name).2.elim "" ("." ++ ·)).toList := by
    cases hsplit : (splitName name).2 with
    | none => decide
    | some ext => simpa using no_slash_of_mem_splitName h ext hsplit
  refine isName_of_three_le ?_ ?_
  · simp only [hiResForm, withExtensionOf, hiResEnding, String.toList_append, List.length_append]
    have hending : "_2x".toList.length = 3 := rfl
    omega
  · simp [hiResForm, withExtensionOf, hiResEnding, no_slash_splitName h, hext]

/-- A copied file has its logical name first. -/
theorem assetPath_eq {name : String} (h : IsName name) (assets : String) :
    Book.assetPath assets name =
      join assets (ofStem (splitName name).1).name ++
        (if (segments (splitName name).1).getLast? = some hiResMark then "@2x" else "") ++
        (if (splitName name).2.getD "" = "" then "" else "." ++ (splitName name).2.getD "") := by
  have hsuffix : extensionSuffix (splitName name).2 =
      if (splitName name).2.getD "" = "" then "" else "." ++ (splitName name).2.getD "" := by
    cases (splitName name).2 <;> rfl
  have hmark : resolutionSuffix (ofStem (splitName name).1).hiRes =
      if (segments (splitName name).1).getLast? = some hiResMark then "@2x" else "" := by
    simp [resolutionSuffix, ofStem]
  have habs := isAbsolute_of_no_slash
    (no_slash_fileName (no_slash_splitName h) (no_slash_of_mem_splitName h))
  rw [← hsuffix, ← hmark, String.append_assoc]
  rw [fileName, String.append_assoc] at habs
  exact (congrArg (join assets) (String.append_assoc ..)).trans (join_append habs assets)

example : Book.assetPath "out/Assets" "map_1_2x.png" = "out/Assets/map_1@2x.png" := by decide +kernel

end BookCatalog.AssetName

namespace BookCatalog.Link

open BookCatalog.Text BookCatalog.FilePath BookCatalog.AssetName

/-! ## Sources -/

/-- A source leads to the file of the given name: it is a URL, read from the book, and the last segment of
its path that is not empty is the name when its escapes are undone. -/
def LeadsToFile (src name : String) : Prop :=
  ∃ url parts part, Url.resolve? bookSite src = some url ∧ url.path = .segments parts ∧
    (parts.filter (· ≠ "")).getLast? = some part ∧ unescaped part = name

/-- A source gives the logical name of the file that it leads to, unless it is blank. -/
theorem imageSource?_eq_some_iff {src name : String} (hname : IsName name) (h : LeadsToFile src name) :
    imageSource? src = some (ofStem (splitName name).1).name ↔ ∃ c ∈ src.toList, isBlank c = false := by
  obtain ⟨url, parts, part, hurl, hpath, hlast, rfl⟩ := h
  have hsegment : url.lastSegment = unescaped part := by simp only [Url.lastSegment, hpath, hlast, unescaped]
  rw [← isEmpty_trimBlanks_eq_false_iff]
  cases hblank : (trimBlanks src).isEmpty <;>
    simp [imageSource?, hblank, hurl, hsegment, stem?_of_isName hname]

/-- **Images and their copies have one logical name.** Every source with some ink in it that leads to a file
gives the name that the copy of the file begins with; the copy goes on with the mark of the high resolution
when the last segment of the stem says so, and with the extension unless it is empty. A blank source never
gives it. For an image in the standard resolution, the sources that lead to its high-resolution form give
the same name, and so does the copy of that form. -/
theorem exists_logical_name {name : String} (hname : IsName name) :
    ∃ logical,
      (∀ src, LeadsToFile src name →
        (imageSource? src = some logical ↔ ∃ c ∈ src.toList, isBlank c = false)) ∧
      (∀ assets, Book.assetPath assets name =
        join assets logical ++
          (if (segments (splitName name).1).getLast? = some hiResMark then "@2x" else "") ++
          (if (splitName name).2.getD "" = "" then "" else "." ++ (splitName name).2.getD "")) ∧
      ((segments (splitName name).1).getLast? ≠ some hiResMark →
        (∀ src, LeadsToFile src (hiResForm name) →
          (imageSource? src = some logical ↔ ∃ c ∈ src.toList, isBlank c = false)) ∧
        ∀ assets, Book.assetPath assets (hiResForm name) =
          join assets logical ++ "@2x" ++
            (if (splitName name).2.getD "" = "" then "" else "." ++ (splitName name).2.getD "")) := by
  refine ⟨(ofStem (splitName name).1).name, fun src => imageSource?_eq_some_iff hname,
    assetPath_eq hname, fun hstandard => ?_⟩
  have hhiRes := isName_hiResForm hname
  have hsplit : splitName (hiResForm name) = ((splitName name).1 ++ hiResEnding, (splitName name).2) :=
    splitName_withExtensionOf (by decide) name
  have hlogical : (ofStem (splitName (hiResForm name)).1).name = (ofStem (splitName name).1).name := by
    rw [hsplit, ofStem_hiResEnding hstandard]
  refine ⟨fun src hsrc => hlogical ▸ imageSource?_eq_some_iff hhiRes hsrc, fun assets => ?_⟩
  rw [assetPath_eq hhiRes, hlogical, hsplit, segments_hiResEnding, List.getLast?_concat, if_pos rfl]

theorem exists_logical_name_cafe :
    IsName "café.png" ∧
      LeadsToFile "../_images/caf%C3%A9.png" "café.png" ∧
      LeadsToFile "/café_2x.png?large" (hiResForm "café.png") ∧
      ∃ logical, imageSource? "../_images/caf%C3%A9.png" = some logical ∧
        imageSource? "/café_2x.png?large" = some logical ∧
        Book.assetPath "out/Assets" "café.png" = join "out/Assets" logical ++ ".png" ∧
        Book.assetPath "out/Assets" "café_2x.png" = join "out/Assets" logical ++ "@2x" ++ ".png" := by
  have hname : IsName "café.png" := by decide
  have hsrc : LeadsToFile "../_images/caf%C3%A9.png" "café.png" :=
    ⟨bookUrl ["_images", "caf%C3%A9.png"] none, ["_images", "caf%C3%A9.png"], "caf%C3%A9.png",
      by decide +kernel, rfl, by decide, by decide +kernel⟩
  have hhiRes : LeadsToFile "/café_2x.png?large" (hiResForm "café.png") :=
    ⟨bookUrl ["café_2x.png"] none, ["café_2x.png"], "café_2x.png",
      by decide +kernel, rfl, by decide, by decide +kernel⟩
  obtain ⟨logical, hsources, hcopies, hform⟩ := exists_logical_name hname
  obtain ⟨hsources', hcopies'⟩ := hform (by decide)
  refine ⟨hname, hsrc, hhiRes, logical, (hsources _ hsrc).2 ⟨'.', by decide, by decide⟩,
    (hsources' _ hhiRes).2 ⟨'c', by decide, by decide⟩, ?_, ?_⟩
  · rw [hcopies, if_neg (by decide), if_neg (by decide), String.append_empty]
    rfl
  · exact hcopies' "out/Assets"

/-- A book with one image, whose name is a blank. -/
def blankImageBook : FileTree := .ofList
  [(["book", "_images", "\u3000"], .file (.text "ink"))]

/-- A file that its own name leads to, and a source that is read as none. -/
theorem blank_source_of_image :
    blankImageBook.isFile (join "book/_images" "\u3000") = true ∧ IsName "\u3000" ∧
      LeadsToFile "\u3000" "\u3000" ∧ imageSource? "\u3000" = none :=
  ⟨by decide +kernel, by decide, ⟨bookUrl ["\u3000"] none, ["\u3000"], "\u3000",
    by decide +kernel, rfl, by decide, by decide +kernel⟩, by decide +kernel⟩

end BookCatalog.Link
