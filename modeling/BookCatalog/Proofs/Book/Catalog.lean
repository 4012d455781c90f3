import BookCatalog.Proofs.Book.Stages
import Mathlib

/-!
# What a conversion makes of a book

A conversion works on files in six stages. Here its result is described without them: what the files of
the book hold (`BookFiles.HeldBy`) determines the files of the catalog (`BookFiles.catalog`), and these
are written into a tree that has gained the directories of the catalog and nothing else
(`run_writes_catalog`). This holds of every conversion that does not write the files it reads
(`ReadsApart`).
-/

namespace BookCatalog

open BookCatalog.FilePath

/-! ## Books and catalogs -/

/-- The files of a catalog that come before the chapters, in the order in which they are written. -/
def Book.frontFiles (output : String) (options : BookOptions) (images : List (FileName × FileContent))
    (landingPage : String) : List (String × FileContent) :=
  textFiles (staticFiles output options) ++
    images.map (fun i => (assetPath (join output options.assets) i.1, i.2)) ++
      [(join output options.landingPage, .text landingPage)]

/-- What the files of a book hold. -/
structure BookFiles where
  /-- The images under their file names. -/
  images : List (FileName × FileContent)
  /-- The text of the table of contents. -/
  contents : String
  /-- The texts of the chapters under their paths, in reading order. -/
  chapters : List (String × String)

namespace BookFiles

/-- A tree holds the files of a book. -/
structure HeldBy (b : BookFiles) (root : String) (options : BookOptions) (t : FileTree) : Prop where
  images_eq : b.images.map (·.1) = t.filesIn (join root options.images)
  read_image : ∀ i ∈ b.images, t.readIn (join root options.images) i.1 = .ok i.2
  read_contents : t.readText (join root options.contents) = .ok b.contents
  spine_eq : ∃ manifest, t.readText (join root options.manifest) = .ok manifest ∧
    Spine.ofText manifest = .ok (b.chapters.map (·.1))
  read_chapter : ∀ c ∈ b.chapters, t.readText (join root c.1) = .ok c.2

/-- The files of the catalog of a book, in the order in which they are written. -/
def catalog (b : BookFiles) (output : String) (options : BookOptions) :
    Except ConversionError (List (String × FileContent)) := do
  let parts ← TableOfContents.parts b.contents
  let page ← Book.render (TableOfContents.landingPage parts options.moduleName)
  let documents ← Chapters.documents b.chapters
  let chapters ← documents.mapM fun d => do
    return (Book.chapterPath output d.1, ← Book.render d.2)
  return Book.frontFiles output options b.images page ++ Book.textFiles chapters

/-- What is reported of the catalog of a book. -/
def report (b : BookFiles) (output : String) : BookReport where
  chapters := b.chapters.map fun c => Book.chapterPath output c.1
  assetsCopied := b.images.length
  anchorsCollected := ((Chapters.elements b.chapters).filterMap Chapters.linkId?).dedup.length

end BookFiles

namespace Book

open Work

/-! ## The files that are read and written -/

section
variable (root output : String) (options : BookOptions) (files : FileTree)

/-- The directories of a catalog. -/
def directories : List String := [output, join output options.assets]

/-- The tree when the directories of the catalog have been made. -/
def madeFrom : FileTree :=
  ((files.makeDirectories output).2.makeDirectories (join output options.assets)).2

/-- The file names of the images that a conversion copies. -/
def copiedImages : List FileName :=
  ((setUp output options).on files).2.filesIn (join root options.images)

/-- The paths of the chapters that a conversion reads. -/
def chaptersRead : List String :=
  match ((layOut root output options >>= fun _ => readSpine root options).on files).1 with
  | .ok spine => spine
  | .error _ => []

/-- The paths of the files that a conversion reads. An image whose name is no text has none, and nothing can
be written where it is. -/
def reads : List String :=
  (copiedImages root output options files).filterMap (FileName.pathIn? (join root options.images)) ++
    join root options.contents :: join root options.manifest ::
      (chaptersRead root output options files).map (join root)

/-- The paths of the files that a conversion writes. -/
def writes : List String :=
  (staticFiles output options).map (·.1) ++
    (copiedImages root output options files).map (assetPath (join output options.assets)) ++
      join output options.landingPage :: (chaptersRead root output options files).map (chapterPath output)

/-- No file that a conversion reads is one that it writes. -/
def ReadsApart : Prop :=
  ∀ r ∈ reads root output options files, ∀ w ∈ writes root output options files, ∀ loc,
    (madeFrom output options files).location? r = some loc →
      (madeFrom output options files).location? w ≠ some loc

end

/-! ## Copied images -/

/-- When no image is written over, the images are copied with what they held at first. -/
theorem exists_images_of_on_copyFiles {images assets : String} :
    ∀ {names : List FileName} {t t' : FileTree}, (copyFiles images assets names).on t = (.ok (), t') →
      (∀ name ∈ names, ∀ name' ∈ names, ∀ loc, t.locationIn? images name = some loc →
        t.location? (assetPath assets name') ≠ some loc) →
      ∃ held : List (FileName × FileContent), held.map (·.1) = names ∧
        (∀ i ∈ held, t.readIn images i.1 = .ok i.2) ∧
        t.writeAll (held.map fun i => (assetPath assets i.1, i.2)) = .ok t'
  | [], t, t', h, _ => by
    cases h
    exact ⟨[], rfl, by simp, rfl⟩
  | name :: rest, t, t', h, hapart => by
    rw [copyFiles_cons] at h
    obtain ⟨m, hcopy, hrest⟩ := on_then_eq_ok_iff.1 h
    obtain ⟨c, hr, hw⟩ := FileTree.copy_eq_ok_iff.1 (on_copy_eq_ok_iff.1 hcopy)
    have hsame := FileTree.sameDirectories_of_write hw
    rw [FileTree.copied, if_neg] at hw
    swap
    · intro heq
      obtain ⟨-, loc, hl, -⟩ := FileTree.write_eq_ok_iff.1 hw
      exact hapart name List.mem_cons_self name List.mem_cons_self loc (heq.trans hl) hl
    obtain ⟨held, hnames, hheld, hwrite⟩ := exists_images_of_on_copyFiles hrest
      fun n hn n' hn' loc hl => by
        rw [← FileTree.locationIn?_congr hsame] at hl
        rw [← FileTree.location?_congr hsame]
        exact hapart n (List.mem_cons_of_mem _ hn) n' (List.mem_cons_of_mem _ hn') loc hl
    refine ⟨(name, c) :: held, by rw [List.map_cons, hnames], fun i hi => ?_, ?_⟩
    · rcases List.mem_cons.1 hi with rfl | hi
      · exact hr
      · have hin : i.1 ∈ rest := hnames ▸ List.mem_map_of_mem hi
        refine (FileTree.readIn_of_write_ne hw (fun loc hl => ?_) i.2).1 (hheld i hi)
        exact hapart i.1 (List.mem_cons_of_mem _ hin) name List.mem_cons_self loc hl
    · rw [List.map_cons, FileTree.writeAll_cons_eq_ok_iff]
      dsimp only
      exact ⟨m, hw, hwrite⟩

/-! ## What is read -/

section
variable {root output : String} {options : BookOptions} {files : FileTree}

theorem madeFrom_eq {outer made : FileTree} (houter : files.makeDirectories output = (.ok (), outer))
    (hmade : outer.makeDirectories (join output options.assets) = (.ok (), made)) :
    madeFrom output options files = made := by
  simp [madeFrom, houter, hmade]

theorem copiedImages_eq {laid : FileTree} (hset : (setUp output options).on files = (.ok (), laid)) :
    copiedImages root output options files = laid.filesIn (join root options.images) := by
  simp [copiedImages, hset]

theorem chaptersRead_eq {tree : FileTree} {n : Nat} {spine : List String}
    (hlay : (layOut root output options).on files = (.ok n, tree))
    (hspine : (readSpine root options).on tree = (.ok spine, tree)) :
    chaptersRead root output options files = spine := by
  simp [chaptersRead, on_bind, hlay, hspine]

theorem mem_reads_image {name : FileName} {path : String}
    (h : name ∈ copiedImages root output options files)
    (hpath : name.pathIn? (join root options.images) = some path) :
    path ∈ reads root output options files := by
  simp only [reads, List.mem_append]
  exact .inl (List.mem_filterMap.2 ⟨name, h, hpath⟩)

/-- No image is written over. -/
theorem ReadsApart.image_ne (hapart : ReadsApart root output options files) {name : FileName}
    (hname : name ∈ copiedImages root output options files) {w : String}
    (hw : w ∈ writes root output options files) (loc : Location)
    (hl : (madeFrom output options files).locationIn? (join root options.images) name = some loc) :
    (madeFrom output options files).location? w ≠ some loc := by
  obtain ⟨path, hpath, hl⟩ := Option.bind_eq_some_iff.1 hl
  exact hapart path (mem_reads_image hname hpath) w hw loc hl

/-- Writes of a conversion do not change what it reads. -/
theorem ReadsApart.read_iff (hapart : ReadsApart root output options files)
    {written : List (String × FileContent)} {t : FileTree}
    (hw : (madeFrom output options files).writeAll written = .ok t)
    (hwritten : ∀ w ∈ written, w.1 ∈ writes root output options files) {r : String}
    (hr : r ∈ reads root output options files) (c : FileContent) :
    t.read r = .ok c ↔ (madeFrom output options files).read r = .ok c :=
  FileTree.read_of_writeAll_ne hw (fun w hmem => hapart r hr w.1 (hwritten w hmem)) c

theorem ReadsApart.readText_iff (hapart : ReadsApart root output options files)
    {written : List (String × FileContent)} {t : FileTree}
    (hw : (madeFrom output options files).writeAll written = .ok t)
    (hwritten : ∀ w ∈ written, w.1 ∈ writes root output options files) {r : String}
    (hr : r ∈ reads root output options files) (text : String) :
    t.readText r = .ok text ↔ (madeFrom output options files).readText r = .ok text := by
  rw [FileTree.readText_eq_ok_iff, FileTree.readText_eq_ok_iff, hapart.read_iff hw hwritten hr]

/-- Nor do they change the images. -/
theorem ReadsApart.readIn_iff (hapart : ReadsApart root output options files)
    {written : List (String × FileContent)} {t : FileTree}
    (hw : (madeFrom output options files).writeAll written = .ok t)
    (hwritten : ∀ w ∈ written, w.1 ∈ writes root output options files) {name : FileName}
    (hname : name ∈ copiedImages root output options files) (c : FileContent) :
    t.readIn (join root options.images) name = .ok c ↔
      (madeFrom output options files).readIn (join root options.images) name = .ok c :=
  FileTree.readIn_of_writeAll_ne hw (fun w hmem => hapart.image_ne hname (hwritten w hmem)) c

theorem mem_writes_of_mem_frontFiles {images : List (FileName × FileContent)} {page : String}
    (himages : images.map (·.1) = copiedImages root output options files) :
    ∀ w ∈ frontFiles output options images page, w.1 ∈ writes root output options files := by
  intro w hw
  unfold writes
  rw [← himages]
  unfold frontFiles textFiles at hw
  rw [List.mem_append, List.mem_append, List.mem_singleton] at hw
  obtain (hw | hw) | rfl := hw
  · obtain ⟨file, hfile, rfl⟩ := List.mem_map.1 hw
    exact List.mem_append_left _ (List.mem_append_left _ (List.mem_map_of_mem hfile))
  · obtain ⟨i, hi, rfl⟩ := List.mem_map.1 hw
    have hname : i.1 ∈ images.map (·.1) := List.mem_map_of_mem hi
    dsimp only
    exact List.mem_append_left _ (List.mem_append_right _ (List.mem_map.2 ⟨i.1, hname, rfl⟩))
  · exact List.mem_append_right _ List.mem_cons_self

theorem mem_writes_image {name : FileName} (h : name ∈ copiedImages root output options files) :
    assetPath (join output options.assets) name ∈ writes root output options files := by
  simp only [writes, List.mem_append]
  exact .inl (.inr (List.mem_map_of_mem h))

theorem mem_reads_manifest : join root options.manifest ∈ reads root output options files :=
  List.mem_append_right _ (List.mem_cons_of_mem _ List.mem_cons_self)

theorem mem_reads_chapter {chapter : String} (h : chapter ∈ chaptersRead root output options files) :
    join root chapter ∈ reads root output options files :=
  List.mem_append_right _ (List.mem_cons_of_mem _ (List.mem_cons_of_mem _ (List.mem_map_of_mem h)))

theorem mem_writes_chapter {chapter : String} (h : chapter ∈ chaptersRead root output options files) :
    chapterPath output chapter ∈ writes root output options files :=
  List.mem_append_right _ (List.mem_cons_of_mem _ (List.mem_map_of_mem h))

/-- The images and the landing page of a catalog are those of the book in a tree. -/
structure IsFront (root : String) (options : BookOptions) (t : FileTree)
    (images : List (FileName × FileContent)) (text page : String) : Prop where
  images_eq : images.map (·.1) = t.filesIn (join root options.images)
  read_image : ∀ i ∈ images, t.readIn (join root options.images) i.1 = .ok i.2
  read_contents : t.readText (join root options.contents) = .ok text
  page_eq : ∃ parts, TableOfContents.parts text = .ok parts ∧
    render (TableOfContents.landingPage parts options.moduleName) = .ok page

/-- When nothing is written over, what comes before the chapters is made of the book as it was. -/
theorem exists_front_of_on_layOut {n : Nat} {tree : FileTree}
    (hlay : (layOut root output options).on files = (.ok n, tree))
    (hapart : ReadsApart root output options files) :
    ∃ images text page, IsFront root options (madeFrom output options files) images text page ∧
      images.map (·.1) = copiedImages root output options files ∧ n = images.length ∧
      (madeFrom output options files).writeAll (frontFiles output options images page) = .ok tree := by
  obtain ⟨laid, illustrated, hset, rfl, hcopy, hpage⟩ := on_layOut_eq_ok_iff.1 hlay
  obtain ⟨outer, made, houter, hmade, hstatic⟩ := on_setUp_eq_ok_iff.1 hset
  rw [← madeFrom_eq houter hmade] at hstatic
  have hc := @copiedImages_eq root _ _ _ _ hset
  have hsame := FileTree.sameDirectories_of_writeAll hstatic
  have hapart' : ∀ name ∈ laid.filesIn (join root options.images), ∀ w ∈ writes root output options files,
      ∀ loc, laid.locationIn? (join root options.images) name = some loc → laid.location? w ≠ some loc := by
    intro name hn w hw loc hl
    rw [← FileTree.locationIn?_congr hsame] at hl
    rw [← FileTree.location?_congr hsame]
    exact hapart.image_ne (hc ▸ hn) hw loc hl
  obtain ⟨images, hnames, hread, hcopies⟩ := exists_images_of_on_copyFiles hcopy
    fun name hn name' hn' => hapart' name hn _ (mem_writes_image (hc ▸ hn'))
  obtain ⟨text, parts, page, htext, hparts, hrender, hlanding⟩ := on_writeLandingPage_eq_ok_iff.1 hpage
  have hcopied : images.map (·.1) = copiedImages root output options files := hnames.trans hc.symm
  have hwrites : ∀ w ∈ frontFiles output options images page, w.1 ∈ writes root output options files :=
    mem_writes_of_mem_frontFiles hcopied
  have hstatics : ∀ w ∈ textFiles (staticFiles output options), w.1 ∈ writes root output options files :=
    fun w hw => hwrites w (List.mem_append_left _ (List.mem_append_left _ hw))
  have hillustrated := FileTree.writeAll_append_eq_ok_iff.2 ⟨laid, hstatic, hcopies⟩
  refine ⟨images, text, page, ⟨?_, ?_, ?_, parts, hparts, hrender⟩, hcopied, by simp [← hnames], ?_⟩
  · rw [hnames]
    refine FileTree.filesIn_of_writeAll hstatic fun w hw name hn heq => ?_
    obtain ⟨-, loc, hl⟩ := FileTree.exists_location?_of_mem_writeAll hstatic w hw
    exact hapart.image_ne (hc ▸ hn) (hstatics w hw) loc (heq.trans hl) hl
  · intro i hi
    have hin : i.1 ∈ copiedImages root output options files := hcopied ▸ List.mem_map_of_mem hi
    exact (hapart.readIn_iff hstatic hstatics hin i.2).1 (hread i hi)
  · refine (hapart.readText_iff hillustrated (fun w hw => hwrites w ?_) ?_ text).1 htext
    · exact List.mem_append_left _ hw
    · simp [reads]
  · unfold frontFiles
    rw [FileTree.writeAll_append_eq_ok_iff]
    exact ⟨illustrated, hillustrated, by rwa [FileTree.writeAll_singleton]⟩

/-- A chapter that could be read is named by its file name without the extension. -/
theorem chapterPath_of_readText (output : String) {t : FileTree} {chapter text : String}
    (h : t.readText (join root chapter) = .ok text) :
    ∃ stem, FilePath.stem? chapter = some stem ∧ IsName (stem ++ ".md") ∧
      chapterPath output chapter = join output (stem ++ ".md") := by
  obtain ⟨name, hname, hfile⟩ := FileTree.exists_fileName?_of_read (FileTree.readText_eq_ok_iff.1 h)
  have hstem : FilePath.stem? chapter = some (splitName name).1 := by simp [stem?, hfile]
  exact ⟨_, hstem, isName_append_md (no_slash_splitName hname), by simp [chapterPath, hstem]⟩

example : chapterPath "out" "LanguageGuide/TheBasics.xhtml" = "out/TheBasics.md" := by decide +kernel

theorem addsDirectories_madeFrom (output : String) (options : BookOptions) (files : FileTree) :
    FileTree.AddsDirectories (directories output options) files (madeFrom output options files) := by
  have houter := FileTree.addsDirectories_makeDirectories output files
  have hassets := FileTree.addsDirectories_makeDirectories (join output options.assets)
    (files.makeDirectories output).2
  exact (houter.mono (by simp [directories])).trans (hassets.mono (by simp [directories]))

theorem isDirectory_of_mem_directories {laid : FileTree}
    (hset : (setUp output options).on files = (.ok (), laid)) :
    ∀ path ∈ directories output options,
      path = "" ∨ (madeFrom output options files).isDirectory path = true := by
  obtain ⟨outer, made, houter, hmade, -⟩ := on_setUp_eq_ok_iff.1 hset
  rw [madeFrom_eq houter hmade]
  intro path hpath
  simp only [directories, List.mem_cons, List.not_mem_nil, or_false] at hpath
  obtain rfl | rfl := hpath
  · refine (FileTree.isDirectory_makeDirectories houter).imp_right fun hd => ?_
    obtain ⟨loc, hp⟩ := FileTree.isDirectory_iff.1 hd
    have hadds := FileTree.addsDirectories_makeDirectories (join path options.assets) outer
    rw [hmade] at hadds
    exact FileTree.isDirectory_iff.2 ⟨loc, FileTree.find_directory_mono hadds.le hp⟩
  · exact FileTree.isDirectory_makeDirectories hmade

/-- When nothing is written over, the chapters are those of the book as it was. -/
theorem IsFront.heldBy {images : List (FileName × FileContent)} {page text : String} {tree : FileTree}
    {spine : List String} {sources : List (String × String)} {n : Nat}
    (hfront : IsFront root options (madeFrom output options files) images text page)
    (hapart : ReadsApart root output options files)
    (hcopied : images.map (·.1) = copiedImages root output options files)
    (hwrite : (madeFrom output options files).writeAll (frontFiles output options images page) = .ok tree)
    (hlay : (layOut root output options).on files = (.ok n, tree))
    (hspine : (readSpine root options).on tree = (.ok spine, tree))
    (hsources : (readChapters root spine).on tree = (.ok sources, tree)) :
    (BookFiles.mk images text sources).HeldBy root options (madeFrom output options files) := by
  have hsame {r : String} (hr : r ∈ reads root output options files) (s : String) :=
    hapart.readText_iff hwrite (mem_writes_of_mem_frontFiles hcopied) hr s
  obtain ⟨-, manifest, hmanifest, hof⟩ := on_readSpine_eq_ok_iff.1 hspine
  obtain ⟨-, hpaths, hchapters⟩ := on_readChapters_eq_ok_iff.1 hsources
  refine ⟨hfront.images_eq, hfront.read_image, hfront.read_contents,
    ⟨manifest, (hsame ?_ manifest).1 hmanifest, hpaths ▸ hof⟩, ?_⟩
  · exact mem_reads_manifest
  · intro c hc
    refine (hsame (mem_reads_chapter ?_) c.2).1 (hchapters c hc)
    rw [chaptersRead_eq hlay hspine, ← hpaths]
    exact List.mem_map_of_mem hc

end

/-! ## A small book -/

/-- The text of a chapter that is one paragraph. -/
def smallChapter (text : String) : String := "<div class='body'><p>" ++ text ++ "</p></div>"

/-- A book with an image and two chapters, which have one name. -/
def smallBook : FileTree := .ofList [
  (["book", "nav.xhtml"], .file (.text "<nav><ol></ol></nav>")),
  (["book", "content.opf"], .file (.text ("<package><manifest><item id='a' href='a/x.xhtml'/>" ++
    "<item id='b' href='b/x.xhtml'/></manifest><spine><itemref idref='a'/><itemref idref='b'/>" ++
    "</spine></package>"))),
  (["book", "a", "x.xhtml"], .file (.text (smallChapter "one"))),
  (["book", "b", "x.xhtml"], .file (.text (smallChapter "two"))),
  (["book", "_images", "i_2x.png"], .file (.bytes [137, 80]))] []

/-- What is made of the small book before its chapters are written. -/
def smallPrepared : Prepared where
  chapters := [("out/x.md", "one\n"), ("out/x.md", "two\n")]
  assetsCopied := 1
  anchorsCollected := 0

/-- The small book and a catalog with the files that do not depend on the book. -/
def smallLaid : FileTree := ((setUp "out" {}).on smallBook).2

/-- The small book and a catalog with the image. -/
def smallIllustrated : FileTree := ((copyFiles "book/_images" "out/Assets" [.text "i_2x.png"]).on smallLaid).2

/-- The small book and a catalog that lacks only the chapters. -/
def smallTree : FileTree := ((write "out/SwiftBook.md" "# ``Swift``\n\n## Topics\n").on smallIllustrated).2

/-- The small book and its catalog. -/
def smallFinal : FileTree := ((writeTexts smallPrepared.chapters).on smallTree).2

theorem paths_smallBook :
    join "book" ({} : BookOptions).images = "book/_images" ∧
      join "out" ({} : BookOptions).assets = "out/Assets" ∧
      join "out" ({} : BookOptions).landingPage = "out/SwiftBook.md" := by
  decide +kernel

theorem steps_smallBook :
    ((setUp "out" {}).on smallBook).1 = .ok () ∧
    ((copyFiles "book/_images" "out/Assets" [.text "i_2x.png"]).on smallLaid).1 = .ok () ∧
    smallIllustrated.readText (join "book" ({} : BookOptions).contents) = .ok "<nav><ol></ol></nav>" ∧
    ((write "out/SwiftBook.md" "# ``Swift``\n\n## Topics\n").on smallIllustrated).1 = .ok () ∧
    ((writeTexts smallPrepared.chapters).on smallTree).1 = .ok () := by
  decide +kernel

theorem on_setUp_smallBook : (setUp "out" {}).on smallBook = (.ok (), smallLaid) := by
  rw [smallLaid, ← steps_smallBook.1]

theorem filesIn_smallLaid :
    smallLaid.filesIn (join "book" ({} : BookOptions).images) = [.text "i_2x.png"] := by
  have hfind : smallLaid.find "book/_images" = .ok (.directory ["book", "_images"]) :=
    FileTree.find_eq_directory_iff.2 ⟨by decide +kernel, by decide +kernel⟩
  have hnames : smallLaid.namesAt ["book", "_images"] = [.text "i_2x.png"] := by decide +kernel
  rw [paths_smallBook.1, FileTree.filesIn_of_sorted hfind hnames (by decide +kernel)]
  decide +kernel

theorem parts_emptyContents : TableOfContents.parts "<nav><ol></ol></nav>" = .ok [] := by cbv

theorem render_emptyLandingPage :
    render (TableOfContents.landingPage [] "Swift") = .ok "# ``Swift``\n\n## Topics\n" := by
  decide +kernel

/-- What comes before the chapters of a book with an empty table of contents. -/
theorem on_layOut_of_emptyContents {root output : String} {options : BookOptions}
    {files laid illustrated tree : FileTree} {names : List FileName}
    (hset : (setUp output options).on files = (.ok (), laid))
    (hnames : laid.filesIn (join root options.images) = names)
    (hcopy : (copyFiles (join root options.images) (join output options.assets) names).on laid =
      (.ok (), illustrated))
    (hcontents : illustrated.readText (join root options.contents) = .ok "<nav><ol></ol></nav>")
    (hmodule : options.moduleName = "Swift")
    (hwrite : (write (join output options.landingPage) "# ``Swift``\n\n## Topics\n").on illustrated =
      (.ok (), tree)) :
    (layOut root output options).on files = (.ok names.length, tree) := by
  refine on_layOut_eq_ok_iff.2 ⟨laid, illustrated, hset, by rw [hnames], by rw [hnames, hcopy], ?_⟩
  rw [hmodule]
  exact on_writeLandingPage_eq_ok_iff.2
    ⟨_, _, _, hcontents, parts_emptyContents, render_emptyLandingPage, on_write_eq_ok_iff.1 hwrite⟩

theorem on_layOut_smallBook : (layOut "book" "out" {}).on smallBook = (.ok 1, smallTree) := by
  obtain ⟨himages, hassets, hlanding⟩ := paths_smallBook
  obtain ⟨-, hcopy, hcontents, hwrite, -⟩ := steps_smallBook
  refine on_layOut_of_emptyContents on_setUp_smallBook filesIn_smallLaid ?_ hcontents rfl ?_
  · rw [himages, hassets, smallIllustrated, ← hcopy]
  · rw [hlanding, smallTree, ← hwrite]

theorem on_readSpine_smallTree :
    (readSpine "book" {}).on smallTree = (.ok ["a/x.xhtml", "b/x.xhtml"], smallTree) := by
  have hread : smallTree.readText (join "book" ({} : BookOptions).manifest) =
      .ok ("<package><manifest><item id='a' href='a/x.xhtml'/>" ++
        "<item id='b' href='b/x.xhtml'/></manifest><spine><itemref idref='a'/><itemref idref='b'/>" ++
        "</spine></package>") := by decide +kernel
  exact on_readSpine_eq_ok_iff.2 ⟨rfl, _, hread, by decide +kernel⟩

theorem on_prepare_smallBook : (prepare "book" "out" {}).on smallBook = (.ok smallPrepared, smallTree) := by
  have hread : ∀ c ∈ [("a/x.xhtml", smallChapter "one"), ("b/x.xhtml", smallChapter "two")],
      smallTree.readText (join "book" c.1) = .ok c.2 := by decide +kernel
  refine on_prepare_eq_ok_iff.2 ⟨_, _, on_layOut_smallBook, on_readSpine_smallTree,
    on_readChapters_eq_ok_iff.2 ⟨rfl, rfl, hread⟩, ?_⟩
  decide +kernel

theorem run_smallBook : run "book" "out" {} smallBook = (.ok smallPrepared.report, smallFinal) := by
  obtain ⟨-, -, -, -, hwrite⟩ := steps_smallBook
  refine run_eq_ok_iff.2 ⟨smallPrepared, smallTree, on_prepare_smallBook, ?_, rfl⟩
  rw [← on_writeTexts_eq_ok_iff, smallFinal, ← hwrite]

theorem copiedImages_smallBook : copiedImages "book" "out" {} smallBook = [.text "i_2x.png"] := by
  rw [copiedImages_eq on_setUp_smallBook, filesIn_smallLaid]

theorem chaptersRead_smallBook : chaptersRead "book" "out" {} smallBook = ["a/x.xhtml", "b/x.xhtml"] :=
  chaptersRead_eq on_layOut_smallBook on_readSpine_smallTree

theorem readsApart_smallBook : ReadsApart "book" "out" {} smallBook := by
  have hdecide (a b : Option Location) : (∀ loc, a = some loc → b ≠ some loc) ↔ a = none ∨ a ≠ b := by
    cases a <;> simp [eq_comm]
  unfold ReadsApart reads writes
  rw [copiedImages_smallBook, chaptersRead_smallBook]
  simp only [hdecide]
  decide +kernel

/-! ## The catalog of a book -/

/-- **A conversion writes the catalog of its book.** When it succeeds and does not write what it reads,
the tree has gained the directories of the catalog and nothing else, and the files of the catalog have
been written into it in order. These files and the report depend on the files of the book alone, through
the conversion of its chapters in memory. -/
theorem run_writes_catalog {root output : String} {options : BookOptions} {files final : FileTree}
    {report : BookReport} (h : run root output options files = (.ok report, final))
    (hapart : ReadsApart root output options files) :
    ∃ (made : FileTree) (b : BookFiles) (written : List (String × FileContent)),
      FileTree.AddsDirectories (directories output options) files made ∧
      (∀ path ∈ directories output options, path = "" ∨ made.isDirectory path = true) ∧
      b.HeldBy root options made ∧ b.catalog output options = .ok written ∧
      made.writeAll written = .ok final ∧ report = b.report output ∧
      ∀ c ∈ b.chapters, ∃ stem, FilePath.stem? c.1 = some stem ∧
        chapterPath output c.1 = join output (stem ++ ".md") := by
  obtain ⟨p, tree, hprepare, hwrite, rfl⟩ := run_eq_ok_iff.1 h
  obtain ⟨spine, sources, hlay, hspine, hsources, hchapters⟩ := on_prepare_eq_ok_iff.1 hprepare
  obtain ⟨laid, illustrated, hset, -, -, -⟩ := on_layOut_eq_ok_iff.1 hlay
  obtain ⟨images, text, page, hfront, hcopied, hcount, hwritten⟩ := exists_front_of_on_layOut hlay hapart
  obtain ⟨parts, hparts, hpage⟩ := hfront.page_eq
  have hheld := hfront.heldBy hapart hcopied hwritten hlay hspine hsources
  obtain ⟨hsize, documents, hdocuments, hmap⟩ := renderChapters_eq_ok_iff.1 hchapters
  refine ⟨madeFrom output options files, ⟨images, text, sources⟩, _, addsDirectories_madeFrom _ _ _,
    isDirectory_of_mem_directories hset, hheld, ?_,
    FileTree.writeAll_append_eq_ok_iff.2 ⟨tree, hwritten, hwrite⟩, ?_, ?_⟩
  · simp only [BookFiles.catalog, bind_eq_ok_iff]
    exact ⟨parts, hparts, page, hpage, documents, hdocuments, p.chapters, hmap, rfl⟩
  · simp only [Prepared.report, BookFiles.report, map_fst_of_renderChapters hchapters, hcount, hsize,
      Chapters.size_bookTable]
  · intro c hc
    obtain ⟨stem, hstem, -, hpath⟩ := chapterPath_of_readText output (hheld.read_chapter c hc)
    exact ⟨stem, hstem, hpath⟩

/-- The catalog of the small book is written, its second chapter over the first one. -/
theorem run_smallBook_writes_catalog :
    ∃ (made : FileTree) (b : BookFiles) (written : List (String × FileContent)),
      FileTree.AddsDirectories (directories "out" {}) smallBook made ∧
      (∀ path ∈ directories "out" {}, path = "" ∨ made.isDirectory path = true) ∧
      b.HeldBy "book" {} made ∧ b.catalog "out" {} = .ok written ∧
      made.writeAll written = .ok smallFinal ∧ smallPrepared.report = b.report "out" ∧
      ∀ c ∈ b.chapters, ∃ stem, FilePath.stem? c.1 = some stem ∧
        chapterPath "out" c.1 = join "out" (stem ++ ".md") :=
  run_writes_catalog run_smallBook readsApart_smallBook

end Book

end BookCatalog
