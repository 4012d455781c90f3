import BookCatalog.Proofs.AssetNames
import BookCatalog.Proofs.Book.FailFast
import BookCatalog.Proofs.FileNames

/-!
# A conversion stays in its catalog

The paths of chapters and the names of images come from the book and may be anything: a chapter may be read
at an absolute path or above the directory of the book, and the name of an image need not be text. Whatever
they are, the files that a conversion makes or changes are those of a catalog (`IsCatalogPath`): two files
that do not depend on the book, the landing page, files that stand directly in the directory of the assets,
and Markdown files that stand directly in the directory of the catalog. A name that would lead out of its
directory cannot be written to, and a chapter whose path has no file name cannot be read
(`run_stays_in_catalog`).
-/

namespace BookCatalog.Book

open BookCatalog.FilePath Work Relation

variable {t t' : FileTree} {root output : String} {options : BookOptions} {files : FileTree}

/-! ## Files of a catalog -/

/-- The paths that a catalog has files at. -/
inductive IsCatalogPath (output : String) (options : BookOptions) : String → Prop where
  | propertyList : IsCatalogPath output options (join output "Info.plist")
  | symbolGraph : IsCatalogPath output options (join output "Documentation.symbols.json")
  | landingPage : IsCatalogPath output options (join output options.landingPage)
  | asset {name : String} (hname : FilePath.IsName name) :
      IsCatalogPath output options (join (join output options.assets) name)
  | chapter {stem : String} (hname : FilePath.IsName (stem ++ ".md")) :
      IsCatalogPath output options (join output (stem ++ ".md"))

/-! ## Names that come from the book -/

/-- An image goes to a file directly in the directory of the assets, whatever its name is. -/
theorem isCatalogPath_assetPath {name : FileName} {c : FileContent} (hname : name.IsName)
    (hw : t.write (assetPath (join output options.assets) name) c = .ok t') :
    IsCatalogPath output options (assetPath (join output options.assets) name) := by
  refine .asset (FileTree.isName_of_write_join ?_ hw)
  obtain ⟨hstem, hextension⟩ := FileName.no_slash_split hname
  exact AssetName.no_slash_fileName hstem hextension

/-- What a conversion of a book in `files` has made so far are directories and files of the catalog. -/
def InCatalog (output : String) (options : BookOptions) (files t : FileTree) : Prop :=
  FileTree.ConfinedTo (directories output options) (IsCatalogPath output options) files t

/-- Before the chapters nothing is written outside the catalog, and all names stay file names. -/
theorem FrontStep.inCatalog (h : FrontStep root output options t t') (hnamed : t.WellNamed)
    (hin : InCatalog output options files t) : t'.WellNamed ∧ InCatalog output options files t' := by
  cases h with
  | @staticFile path text hfile hwrite =>
    refine ⟨FileTree.wellNamed_of_write hwrite hnamed, hin.write ?_ hwrite⟩
    unfold staticFiles at hfile
    split at hfile
    · simp only [List.mem_cons, Prod.mk.injEq, List.not_mem_nil, or_false] at hfile
      obtain ⟨rfl, -⟩ | ⟨rfl, -⟩ := hfile
      · exact .propertyList
      · exact .symbolGraph
    · cases hfile
  | @image name hname hcopy =>
    obtain ⟨c, -, hwrite⟩ := FileTree.copy_eq_ok_iff.1 hcopy
    refine ⟨FileTree.wellNamed_of_write hwrite hnamed, hin.write ?_ hwrite⟩
    exact isCatalogPath_assetPath (FileTree.isName_of_mem_filesIn hnamed hname) hwrite
  | landingPage hsource hparts hpage hwrite =>
    exact ⟨FileTree.wellNamed_of_write hwrite hnamed, hin.write .landingPage hwrite⟩

theorem inCatalog_of_beforeChapters (h : BeforeChapters root output options files t)
    (hnamed : files.WellNamed) : InCatalog output options files t := by
  obtain ⟨made, hadds, hsteps⟩ := h
  have hboth : t.WellNamed ∧ InCatalog output options files t := by
    induction hsteps with
    | refl => exact ⟨FileTree.wellNamed_of_addsDirectories hadds hnamed, hadds.confinedTo _⟩
    | tail _ hstep ih => exact hstep.inCatalog ih.1 ih.2
  exact hboth.2

/-! ## Chapters -/

/-- A path without a file name cannot be read, wherever it is seen from. -/
theorem read_ne_ok_of_stem?_eq_none {chapter : String} (h : FilePath.stem? chapter = none)
    (root : String) (t : FileTree) (c : FileContent) : t.read (join root chapter) ≠ .ok c := by
  intro hread
  obtain ⟨name, -, hfile⟩ := FileTree.exists_fileName?_of_read hread
  simp [stem?, hfile] at h

/-- All chapters have a file name when the files of the chapters are about to be written. -/
theorem chapterPaths_of_prepare {p : Prepared}
    (h : (prepare root output options).on files = (.ok p, t)) :
    p.chapters.map (·.1) = (chaptersRead root output options files).map (chapterPath output) ∧
      ∀ chapter ∈ chaptersRead root output options files, ∃ stem, FilePath.stem? chapter = some stem ∧
        IsName (stem ++ ".md") ∧ chapterPath output chapter = join output (stem ++ ".md") := by
  obtain ⟨spine, sources, hlay, hspine, hsources, hchapters⟩ := on_prepare_eq_ok_iff.1 h
  obtain ⟨-, hpaths, hread⟩ := on_readChapters_eq_ok_iff.1 hsources
  rw [chaptersRead_eq hlay hspine, map_fst_of_renderChapters hchapters, ← hpaths]
  refine ⟨by simp only [List.map_map, Function.comp_def], fun chapter hchapter => ?_⟩
  obtain ⟨c, hc, rfl⟩ := List.mem_map.1 hchapter
  exact chapterPath_of_readText output (hread c hc)

/-- The files of the chapters are files of the catalog. -/
theorem inCatalog_writeTexts {p : Prepared} (hprepare : (prepare root output options).on files = (.ok p, t))
    (hin : InCatalog output options files t) :
    InCatalog output options files ((writeTexts p.chapters).on t).2 := by
  obtain ⟨hpaths, hstems⟩ := chapterPaths_of_prepare hprepare
  have hwrites : (writeTexts p.chapters).Within fun t t' =>
      InCatalog output options files t → InCatalog output options files t' := by
    refine .writeTexts (fun _ => id) (fun h h' hc => h' (h hc)) fun w hw t t' hwrite hc => ?_
    have hmem : w.1 ∈ p.chapters.map (·.1) := List.mem_map_of_mem hw
    rw [hpaths] at hmem
    obtain ⟨chapter, hchapter, heq⟩ := List.mem_map.1 hmem
    obtain ⟨stem, -, hname, hpath⟩ := hstems chapter hchapter
    refine hc.write ?_ hwrite
    rw [← heq, hpath]
    exact .chapter hname
  exact hwrites t hin

/-- **A conversion stays in its catalog.** Whatever the files of the book hold and whatever comes of the
conversion, the files that it makes or changes are files of the catalog. When the files of the chapters are
written, each of them is named by the file name of its chapter, because a path that has no file name
cannot be read. -/
theorem run_stays_in_catalog (root output : String) (options : BookOptions) {files : FileTree}
    (hnamed : files.WellNamed) :
    InCatalog output options files (run root output options files).2 ∧
      (∀ p tree, (prepare root output options).on files = (.ok p, tree) →
        p.chapters.map (·.1) = (chaptersRead root output options files).map (chapterPath output) ∧
          ∀ chapter ∈ chaptersRead root output options files, ∃ stem,
            FilePath.stem? chapter = some stem ∧ IsName (stem ++ ".md") ∧
              chapterPath output chapter = join output (stem ++ ".md")) ∧
      ∀ chapter, FilePath.stem? chapter = none → ∀ (t : FileTree) c,
        t.read (join root chapter) ≠ .ok c := by
  refine ⟨?_, fun p tree => chapterPaths_of_prepare, fun chapter h t c =>
    read_ne_ok_of_stem?_eq_none h root t c⟩
  have hfront := inCatalog_of_beforeChapters (beforeChapters_prepare root output options files) hnamed
  show InCatalog output options files ((convert root output options).on files).2
  unfold convert
  rw [on_bind]
  cases hprepare : (prepare root output options).on files with
  | mk result tree =>
    rw [hprepare] at hfront
    cases result with
    | error e => exact hfront
    | ok p =>
      have hchapters := inCatalog_writeTexts hprepare hfront
      simp only [on_bind]
      cases hwritten : (writeTexts p.chapters).on tree with
      | mk result final =>
        rw [hwritten] at hchapters
        cases result <;> exact hchapters

/-- A name that is no text. -/
def strayName : RawName := ⟨[0xFF, 0x2E, 0x70, 0x6E, 0x67], by decide, by decide⟩

/-- A book of a library with chapters outside of it, an image whose name is no text, and a second directory
of images, with one whose name stands for a directory once it is copied. -/
def strayBook : FileTree where
  toSurroundings :=
    { workingDirectory := ["home"]
      unspelled := [((["library", "book", "_images"], strayName), .file (.bytes [137, 80]))] }
  entries := [
    (["home"], .directory),
    (["library"], .directory),
    (["library", "book"], .directory),
    (["library", "book", "_images"], .directory),
    (["library", "book", "odd"], .directory),
    (["library", "book", "odd", "..."], .file (.bytes [137, 80])),
    (["library", "book", "nav.xhtml"], .file (.text "<nav><ol></ol></nav>")),
    (["library", "book", "content.opf"], .file (.text ("<package><manifest>" ++
      "<item id='x' href='../x.xhtml'/><item id='y' href='/archive/y.xhtml'/></manifest>" ++
      "<spine><itemref idref='x'/><itemref idref='y'/></spine></package>"))),
    (["library", "x.xhtml"], .file (.text (smallChapter "one"))),
    (["archive"], .directory),
    (["archive", "y.xhtml"], .file (.text (smallChapter "two")))]

/-- A catalog whose assets and landing page stand outside of its directory. -/
def strayOptions : BookOptions := { assets := "/srv/pictures", landingPage := "../start.md" }

/-- What is made of the book before its chapters are written. -/
def strayPrepared : Prepared where
  chapters := [("/srv/catalog/x.md", "one\n"), ("/srv/catalog/y.md", "two\n")]
  assetsCopied := 1
  anchorsCollected := 0

/-- The book and a catalog with the files that do not depend on the book. -/
def strayLaid : FileTree := ((setUp "/srv/catalog" strayOptions).on strayBook).2

/-- The book and a catalog with the image. -/
def strayIllustrated : FileTree :=
  ((copyFiles "../library/book/_images" "/srv/pictures" [.raw strayName]).on strayLaid).2

/-- The book and a catalog that lacks only the chapters. -/
def strayTree : FileTree :=
  ((write "/srv/catalog/../start.md" "# ``Swift``\n\n## Topics\n").on strayIllustrated).2

/-- The book and its catalog. -/
def strayFinal : FileTree := ((writeTexts strayPrepared.chapters).on strayTree).2

theorem paths_strayBook :
    join "../library/book" strayOptions.images = "../library/book/_images" ∧
      join "/srv/catalog" strayOptions.assets = "/srv/pictures" ∧
      join "/srv/catalog" strayOptions.landingPage = "/srv/catalog/../start.md" := by
  decide +kernel

theorem steps_strayBook :
    ((setUp "/srv/catalog" strayOptions).on strayBook).1 = .ok () ∧
    ((copyFiles "../library/book/_images" "/srv/pictures" [.raw strayName]).on strayLaid).1 = .ok () ∧
    strayIllustrated.readText (join "../library/book" strayOptions.contents) =
      .ok "<nav><ol></ol></nav>" ∧
    ((write "/srv/catalog/../start.md" "# ``Swift``\n\n## Topics\n").on strayIllustrated).1 = .ok () ∧
    ((writeTexts strayPrepared.chapters).on strayTree).1 = .ok () := by
  decide +kernel

theorem filesIn_strayLaid :
    strayLaid.filesIn (join "../library/book" strayOptions.images) = [.raw strayName] := by
  have hfind : strayLaid.find "../library/book/_images" =
      .ok (.directory ["library", "book", "_images"]) :=
    FileTree.find_eq_directory_iff.2 ⟨by decide +kernel, by decide +kernel⟩
  have hnames : strayLaid.namesAt ["library", "book", "_images"] = [.raw strayName] := by decide +kernel
  rw [paths_strayBook.1, FileTree.filesIn_of_sorted hfind hnames (by decide +kernel)]
  decide +kernel

theorem on_prepare_strayBook :
    (prepare "../library/book" "/srv/catalog" strayOptions).on strayBook =
      (.ok strayPrepared, strayTree) := by
  obtain ⟨hset, hcopy, hcontents, hlanding, -⟩ := steps_strayBook
  obtain ⟨himages, hassets, hpage⟩ := paths_strayBook
  have hlay : (layOut "../library/book" "/srv/catalog" strayOptions).on strayBook =
      (.ok 1, strayTree) := by
    refine on_layOut_of_emptyContents (by rw [strayLaid, ← hset]) filesIn_strayLaid ?_ hcontents rfl ?_
    · rw [himages, hassets, strayIllustrated, ← hcopy]
    · rw [hpage, strayTree, ← hlanding]
  have hspine : (readSpine "../library/book" strayOptions).on strayTree =
      (.ok ["../x.xhtml", "/archive/y.xhtml"], strayTree) := by
    have hread : strayTree.readText (join "../library/book" strayOptions.manifest) =
        .ok ("<package><manifest>" ++
          "<item id='x' href='../x.xhtml'/><item id='y' href='/archive/y.xhtml'/></manifest>" ++
          "<spine><itemref idref='x'/><itemref idref='y'/></spine></package>") := by
      decide +kernel
    exact on_readSpine_eq_ok_iff.2 ⟨rfl, _, hread, by decide +kernel⟩
  have hread : ∀ c ∈ [("../x.xhtml", smallChapter "one"), ("/archive/y.xhtml", smallChapter "two")],
      strayTree.readText (join "../library/book" c.1) = .ok c.2 := by decide +kernel
  refine on_prepare_eq_ok_iff.2 ⟨_, _, hlay, hspine, on_readChapters_eq_ok_iff.2 ⟨rfl, rfl, hread⟩, ?_⟩
  decide +kernel

theorem run_strayBook : run "../library/book" "/srv/catalog" strayOptions strayBook =
    (.ok strayPrepared.report, strayFinal) := by
  obtain ⟨-, -, -, -, hwrite⟩ := steps_strayBook
  refine run_eq_ok_iff.2 ⟨strayPrepared, strayTree, on_prepare_strayBook, ?_, rfl⟩
  rw [← on_writeTexts_eq_ok_iff, strayFinal, ← hwrite]

/-- The book and a catalog with the files that do not depend on the book, the assets in their usual
place. -/
def oddLaid : FileTree := ((setUp "/srv/catalog" { images := "odd" }).on strayBook).2

/-- What copying the other images leaves. -/
def oddCopied : FileTree :=
  ((copyFiles "../library/book/odd" "/srv/catalog/Assets" [.text "..."]).on oddLaid).2

theorem steps_oddImages :
    ((setUp "/srv/catalog" { images := "odd" }).on strayBook).1 = .ok () ∧
    oddLaid.namesAt ["library", "book", "odd"] = [.text "..."] ∧
    oddLaid.isFileIn "../library/book/odd" "..." = true ∧
    ((copyFiles "../library/book/odd" "/srv/catalog/Assets" [.text "..."]).on oddLaid).1 =
      .error (.file "/srv/catalog/Assets/.." .isADirectory) := by
  decide +kernel

/-- An image whose name stands for a directory once it is copied ends the conversion. -/
theorem run_oddImages : (run "../library/book" "/srv/catalog" { images := "odd" } strayBook).1 =
    .error (.file "/srv/catalog/Assets/.." .isADirectory) := by
  obtain ⟨hset, hnames, hfile, hcopy⟩ := steps_oddImages
  have hpaths : join "../library/book" "odd" = "../library/book/odd" ∧
      join "/srv/catalog" "Assets" = "/srv/catalog/Assets" := by decide +kernel
  have hlaid : (setUp "/srv/catalog" { images := "odd" }).on strayBook = (.ok (), oddLaid) := by
    rw [oddLaid, ← hset]
  have hfind : oddLaid.find "../library/book/odd" = .ok (.directory ["library", "book", "odd"]) :=
    FileTree.find_eq_directory_iff.2 ⟨by decide +kernel, by decide +kernel⟩
  have hfiles : oddLaid.filesIn "../library/book/odd" = [.text "..."] := by
    rw [FileTree.filesIn_of_sorted hfind hnames (by decide +kernel)]
    simp [hfile]
  have hcopied : (copyFiles "../library/book/odd" "/srv/catalog/Assets" [.text "..."]).on oddLaid =
      (.error (.file "/srv/catalog/Assets/.." .isADirectory), oddCopied) := by rw [oddCopied, ← hcopy]
  show ((convert "../library/book" "/srv/catalog" { images := "odd" }).on strayBook).1 = _
  simp only [convert, prepare, layOut, on_bind, hlaid, hpaths, on_copyImages, hfiles, hcopied]

/-- The book is converted, with chapters that are read at an absolute path and above its directory and with
the image whose name is no text. With the other directory of images the conversion fails. Both stay in
their catalogs. -/
theorem run_strayBook_stays_in_catalog :
    strayBook.WellNamed ∧
      run "../library/book" "/srv/catalog" strayOptions strayBook = (.ok strayPrepared.report, strayFinal) ∧
      InCatalog "/srv/catalog" strayOptions strayBook
        (run "../library/book" "/srv/catalog" strayOptions strayBook).2 ∧
      (∀ p tree, (prepare "../library/book" "/srv/catalog" strayOptions).on strayBook = (.ok p, tree) →
        p.chapters.map (·.1) = (chaptersRead "../library/book" "/srv/catalog" strayOptions strayBook).map
            (chapterPath "/srv/catalog") ∧
          ∀ chapter ∈ chaptersRead "../library/book" "/srv/catalog" strayOptions strayBook, ∃ stem,
            FilePath.stem? chapter = some stem ∧ IsName (stem ++ ".md") ∧
              chapterPath "/srv/catalog" chapter = join "/srv/catalog" (stem ++ ".md")) ∧
      (∀ chapter, FilePath.stem? chapter = none → ∀ (t : FileTree) c,
        t.read (join "../library/book" chapter) ≠ .ok c) ∧
      (run "../library/book" "/srv/catalog" { images := "odd" } strayBook).1 =
        .error (.file "/srv/catalog/Assets/.." .isADirectory) ∧
      InCatalog "/srv/catalog" { images := "odd" } strayBook
        (run "../library/book" "/srv/catalog" { images := "odd" } strayBook).2 := by
  have h : strayBook.WellNamed := by decide +kernel
  obtain ⟨hin, hchapters, hunread⟩ :=
    run_stays_in_catalog "../library/book" "/srv/catalog" strayOptions h
  exact ⟨h, run_strayBook, hin, hchapters, hunread, run_oddImages,
    (run_stays_in_catalog "../library/book" "/srv/catalog" { images := "odd" } h).1⟩

end BookCatalog.Book
