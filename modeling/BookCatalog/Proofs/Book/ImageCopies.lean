import BookCatalog.Proofs.AssetCopies
import BookCatalog.Proofs.Book.Confinement
import BookCatalog.Proofs.Book.FrontReplacement
import BookCatalog.Proofs.Book.Outputs

/-!
# The images of a catalog

All files of the directory of the images are copied and counted, but two of them can go to one file, and then
the last one stays (`LastImagesKept`). The files that the images go to are different files, and as many as are
counted, exactly when no two images share a copy (`AssetName.SharesCopy`). Then each of them holds in the end
what its image held (`images_kept_iff`), unless it is an image or a page of the catalog as well
(`CopiesApart`). That cannot be when the directories of the images and of the assets have different names.
-/

namespace BookCatalog.Book

open BookCatalog.FilePath BookCatalog.AssetName Work

/-! ## Where images go -/

section
variable (root output : String) (options : BookOptions) (files : FileTree)

/-- Where the images of a book go, in the order in which they are copied. -/
def copyPaths : List String :=
  (copiedImages root output options files).map (assetPath (join output options.assets))

/-- The pages of a catalog: the landing page and the chapters. -/
def pagePaths : List String :=
  join output options.landingPage :: (chaptersRead root output options files).map (chapterPath output)

/-- Neither an image nor a page is where an image goes. -/
structure CopiesApart : Prop where
  image_ne : ∀ name ∈ copiedImages root output options files, ∀ path ∈ copyPaths root output options files,
    ∀ loc, (madeFrom output options files).locationIn? (join root options.images) name = some loc →
      (madeFrom output options files).location? path ≠ some loc
  page_ne : ∀ page ∈ pagePaths root output options files, ∀ path ∈ copyPaths root output options files,
    ∀ loc, (madeFrom output options files).location? page = some loc →
      (madeFrom output options files).location? path ≠ some loc

/-- Where an image goes there is in the end, of the images that share a copy with it, the last one as it was
when the images were about to be copied. -/
def LastImagesKept (final : FileTree) : Prop :=
  ∀ name ∈ copiedImages root output options files, ∃ before last after c,
    copiedImages root output options files = before ++ last :: after ∧ SharesCopy last name ∧
      (∀ later ∈ after, ¬SharesCopy later name) ∧
      ((setUp output options).on files).2.readIn (join root options.images) last = .ok c ∧
      final.read (assetPath (join output options.assets) name) = .ok c

/-- Each image is in the end where it goes, as it was when the images were about to be copied. -/
def ImagesKept (final : FileTree) : Prop :=
  ∀ name ∈ copiedImages root output options files, ∃ c,
    ((setUp output options).on files).2.readIn (join root options.images) name = .ok c ∧
      final.read (assetPath (join output options.assets) name) = .ok c

end

section
variable {root output : String} {options : BookOptions} {files : FileTree}

/-- Images have file names. -/
theorem isName_of_mem_copiedImages {laid : FileTree} (hnamed : files.WellNamed)
    (hset : (setUp output options).on files = (.ok (), laid)) :
    ∀ name ∈ copiedImages root output options files, name.IsName := by
  intro name hname
  obtain ⟨outer, made, houter, hmade, hstatic⟩ := on_setUp_eq_ok_iff.1 hset
  have hadds := addsDirectories_madeFrom output options files
  rw [madeFrom_eq houter hmade] at hadds
  rw [copiedImages_eq hset] at hname
  have hlaid := FileTree.wellNamed_of_writeAll hstatic (FileTree.wellNamed_of_addsDirectories hadds hnamed)
  exact FileTree.isName_of_mem_filesIn hlaid hname

/-- An image goes to a file in the directory of the assets. -/
theorem isOutput_of_mem_copyPaths {tree : FileTree} {n : Nat} (hnamed : files.WellNamed)
    (hlay : (layOut root output options).on files = (.ok n, tree)) :
    ∀ path ∈ copyPaths root output options files, IsOutput (join output options.assets) path := by
  intro path hpath
  obtain ⟨ws, hpaths, hws⟩ := exists_writeAll_of_on_layOut hlay
  obtain ⟨laid, -, hset, -⟩ := on_layOut_eq_ok_iff.1 hlay
  have hmem : path ∈ ws.map (·.1) := by
    rw [hpaths]
    exact List.mem_append_left _ (List.mem_append_right _ hpath)
  -- the copy has been written, so what its path ends with is a file name
  obtain ⟨w, hw, rfl⟩ := List.mem_map.1 hmem
  obtain ⟨m, hwrite⟩ := FileTree.exists_writeAll_iff.1 ⟨tree, hws⟩ w hw
  obtain ⟨name, hname, heq⟩ := List.mem_map.1 hpath
  rw [← heq] at hwrite
  have hslash := no_slash_copyName (isName_of_mem_copiedImages hnamed hset name hname)
  exact ⟨copyName name, FileTree.isName_of_write_join hslash hwrite, heq.symm⟩

/-- Images go to different paths when no two of them share a copy. -/
theorem nodup_copyPaths_iff (h : ∀ name ∈ copiedImages root output options files, name.IsName) :
    (copyPaths root output options files).Nodup ↔
      (copiedImages root output options files).Pairwise fun name name' => ¬SharesCopy name name' := by
  unfold copyPaths List.Nodup
  rw [List.pairwise_map]
  exact List.Pairwise.iff_of_mem fun hname hname' => not_congr (assetPath_eq_iff (h _ hname) (h _ hname'))

/-! ## Copies that stay apart -/

/-- A file in the directory of the assets does not stand in the directory of the catalog. -/
theorem location?_ne_of_isOutput {t : FileTree} {path page : String} {loc : Location}
    (hassets : IsName options.assets) (hpath : IsOutput (join output options.assets) path)
    (hpage : IsOutput output page) (hl : t.location? page = some loc) : t.location? path ≠ some loc := by
  intro hl'
  obtain ⟨name, hname, rfl⟩ := hpage
  obtain ⟨name', hname', rfl⟩ := hpath
  obtain ⟨dir, hdir, rfl⟩ := FileTree.exists_directory_of_location?_join hname hl
  obtain ⟨dir', hdir', hloc⟩ := FileTree.exists_directory_of_location?_join_join hassets hname' hl'
  rw [hdir] at hdir'
  cases hdir'
  have hlength := congrArg List.length hloc
  simp at hlength

/-- Images and their copies are apart when their directories have different names, and pages when their
names lead into no directory. -/
theorem copiesApart_of_isName {p : Prepared} {tree : FileTree} (hnamed : files.WellNamed)
    (hprepare : (prepare root output options).on files = (.ok p, tree)) (himages : IsName options.images)
    (hassets : IsName options.assets) (hlanding : IsName options.landingPage)
    (hne : options.images ≠ options.assets) : CopiesApart root output options files := by
  obtain ⟨_, _, hlay, -⟩ := on_prepare_eq_ok_iff.1 hprepare
  obtain ⟨laid, -, hset, -⟩ := on_layOut_eq_ok_iff.1 hlay
  have hcopies := isOutput_of_mem_copyPaths hnamed hlay
  constructor
  · intro name hname path hpath loc hl hl'
    obtain ⟨name', hname', rfl⟩ := hcopies path hpath
    obtain ⟨image, rfl, hl⟩ := FileTree.exists_text_of_locationIn? hl
    have hname : IsName image := isName_of_mem_copiedImages hnamed hset _ hname
    obtain ⟨dir, -, rfl⟩ := FileTree.exists_directory_of_location?_join_join himages hname hl
    obtain ⟨dir', -, hloc⟩ := FileTree.exists_directory_of_location?_join_join hassets hname' hl'
    obtain ⟨-, hlast⟩ := List.append_inj' hloc rfl
    exact hne (List.cons.inj hlast).1
  · intro page hpage path hpath loc hl
    refine location?_ne_of_isOutput hassets (hcopies path hpath) ?_ hl
    rcases List.mem_cons.1 hpage with rfl | hpage
    · exact ⟨_, hlanding, rfl⟩
    · obtain ⟨chapter, hchapter, rfl⟩ := List.mem_map.1 hpage
      obtain ⟨-, hstems⟩ := chapterPaths_of_prepare hprepare
      obtain ⟨stem, -, hname, hpath⟩ := hstems chapter hchapter
      exact ⟨_, hname, hpath⟩

/-! ## What copies hold in the end -/

/-- The copies of the images of a book. -/
def copies (output : String) (options : BookOptions) (held : List (FileName × FileContent)) :
    List (String × FileContent) :=
  held.map fun i => (assetPath (join output options.assets) i.1, i.2)

/-- After the directories and the files that do not depend on the book, a conversion writes copies of the
images and then the pages. -/
theorem exists_copies_of_prepare {p : Prepared} {tree final : FileTree}
    (hprepare : (prepare root output options).on files = (.ok p, tree))
    (hwrite : tree.writeAll (textFiles p.chapters) = .ok final)
    (hapart : CopiesApart root output options files) :
    ∃ (laid illustrated : FileTree) (held : List (FileName × FileContent))
        (pages : List (String × FileContent)),
      (setUp output options).on files = (.ok (), laid) ∧
      held.map (·.1) = copiedImages root output options files ∧
      (∀ i ∈ held, laid.readIn (join root options.images) i.1 = .ok i.2) ∧
      laid.writeAll (copies output options held) = .ok illustrated ∧
      pages.map (·.1) = pagePaths root output options files ∧ illustrated.writeAll pages = .ok final := by
  obtain ⟨_, _, hlay, -⟩ := on_prepare_eq_ok_iff.1 hprepare
  obtain ⟨laid, illustrated, hset, -, hcopy, hpage⟩ := on_layOut_eq_ok_iff.1 hlay
  obtain ⟨_, _, page, -, -, -, hlanding⟩ := on_writeLandingPage_eq_ok_iff.1 hpage
  obtain ⟨hpaths, -⟩ := chapterPaths_of_prepare hprepare
  rw [← copiedImages_eq hset] at hcopy
  obtain ⟨held, hnames, hread, hcopies⟩ := exists_images_of_on_copyFiles hcopy
    fun name hname name' hname' loc hl => by
      rw [locationIn?_of_on_setUp hset] at hl
      rw [location?_of_on_setUp hset]
      exact hapart.image_ne name hname _ (List.mem_map_of_mem hname') loc hl
  have hpages : ((join output options.landingPage, FileContent.text page) :: textFiles p.chapters).map (·.1) =
      pagePaths root output options files := by
    simp only [pagePaths, ← hpaths, textFiles, List.map_cons, List.map_map, Function.comp_def]
  exact ⟨laid, illustrated, held, _, hset, hnames, hread, hcopies, hpages,
    FileTree.writeAll_cons_eq_ok_iff.2 ⟨tree, hlanding, hwrite⟩⟩

/-- The paths that two images are copied to have one location when the images share a copy. -/
theorem location?_assetPath_eq_iff {n : Nat} {tree laid illustrated : FileTree} (hnamed : files.WellNamed)
    (hlay : (layOut root output options).on files = (.ok n, tree))
    (hset : (setUp output options).on files = (.ok (), laid)) {held : List (FileName × FileContent)}
    (hnames : held.map (·.1) = copiedImages root output options files)
    (hcopies : laid.writeAll (copies output options held) = .ok illustrated) {i i' : FileName × FileContent}
    (hi : i ∈ held) (hi' : i' ∈ held) :
    laid.location? (assetPath (join output options.assets) i.1) =
      laid.location? (assetPath (join output options.assets) i'.1) ↔ SharesCopy i.1 i'.1 := by
  have hcopied {j : FileName × FileContent} (hj : j ∈ held) :
      j.1 ∈ copiedImages root output options files := hnames ▸ List.mem_map_of_mem hj
  have houtput {j : FileName × FileContent} (hj : j ∈ held) :
      IsOutput (join output options.assets) (assetPath (join output options.assets) j.1) :=
    isOutput_of_mem_copyPaths hnamed hlay _ (List.mem_map_of_mem (hcopied hj))
  have himage {j : FileName × FileContent} (hj : j ∈ held) : j.1.IsName :=
    isName_of_mem_copiedImages hnamed hset _ (hcopied hj)
  have hpath : assetPath (join output options.assets) i.1 = assetPath (join output options.assets) i'.1 ↔
      SharesCopy i.1 i'.1 := assetPath_eq_iff (himage hi) (himage hi')
  rw [← hpath]
  constructor
  · intro heq
    have hmem : (assetPath (join output options.assets) i'.1, i'.2) ∈ copies output options held :=
      List.mem_map_of_mem hi'
    obtain ⟨-, loc, hl⟩ := FileTree.exists_location?_of_mem_writeAll hcopies _ hmem
    dsimp only at hl
    exact eq_of_location?_eq (houtput hi) (houtput hi') (heq.trans hl) hl
  · intro heq
    rw [heq]

/-- Of the images that share a copy the last one is kept, if the copies are apart. -/
theorem lastImagesKept_of_prepare {p : Prepared} {tree final : FileTree} (hnamed : files.WellNamed)
    (hprepare : (prepare root output options).on files = (.ok p, tree))
    (hwrite : tree.writeAll (textFiles p.chapters) = .ok final)
    (hapart : CopiesApart root output options files) : LastImagesKept root output options files final := by
  obtain ⟨_, _, hlay, -⟩ := on_prepare_eq_ok_iff.1 hprepare
  obtain ⟨laid, illustrated, held, pages, hset, hnames, hread, hcopies, hpages, hwritten⟩ :=
    exists_copies_of_prepare hprepare hwrite hapart
  have hloc (path : String) : illustrated.location? path = (madeFrom output options files).location? path := by
    rw [← FileTree.location?_congr (FileTree.sameDirectories_of_writeAll hcopies), location?_of_on_setUp hset]
  intro name hname
  have hmem : assetPath (join output options.assets) name ∈ copyPaths root output options files :=
    List.mem_map_of_mem hname
  rw [← hnames] at hname
  obtain ⟨i, hi, rfl⟩ := List.mem_map.1 hname
  obtain ⟨before, last, after, rfl, hl, hafter, hcopied⟩ := FileTree.exists_last_of_mem_put hcopies hi
  have hshares {i' : FileName × FileContent} (hi' : i' ∈ before ++ last :: after) :=
    location?_assetPath_eq_iff hnamed hlay hset hnames hcopies hi' hi
  refine ⟨before.map (·.1), last.1, after.map (·.1), last.2, by simp [← hnames],
    (hshares (by simp)).1 hl, ?_, ?_, ?_⟩
  · intro name' hname' hcopy
    obtain ⟨i', hi', rfl⟩ := List.mem_map.1 hname'
    exact hafter i' hi' ((hshares (by simp [hi'])).2 hcopy)
  · rw [hset]
    exact hread last (by simp)
  · -- the pages come later, and none of them is written over the copy
    refine (FileTree.read_of_writeAll_ne hwritten (fun w hw loc hl hl' => ?_) last.2).2 hcopied
    rw [hloc] at hl hl'
    have hpage : w.1 ∈ pagePaths root output options files := hpages ▸ List.mem_map_of_mem hw
    exact hapart.page_ne w.1 hpage _ hmem loc hl' hl

/-- Images that share no copy are all kept when the last ones are. -/
theorem LastImagesKept.imagesKept {final : FileTree} (h : LastImagesKept root output options files final)
    (hnames : ∀ name ∈ copiedImages root output options files, name.IsName)
    (hnodup : (copyPaths root output options files).Nodup) : ImagesKept root output options files final := by
  intro name hname
  obtain ⟨before, last, after, c, hsplit, hshares, -, hread, hkept⟩ := h name hname
  have hlast : last ∈ copiedImages root output options files := by simp [hsplit]
  have hpath : assetPath (join output options.assets) last = assetPath (join output options.assets) name :=
    (assetPath_eq_iff (hnames last hlast) (hnames name hname)).2 hshares
  have hsame : last = name := List.inj_on_of_nodup_map hnodup hlast hname hpath
  exact ⟨c, hsame ▸ hread, hkept⟩

end

/-! ## Books of images -/

/-- A conversion of a book that has images and no chapters. -/
structure ImageRun where
  output : String
  /-- The name of the directory of the images. -/
  images : String
  /-- The names of the images, in order. -/
  names : List String

namespace ImageRun

/-- An image and its high-resolution form. -/
def forms : ImageRun := ⟨"out", "_images", ["a_b.png", "a_b_2x.png"]⟩

/-- Two images that share a copy. -/
def twins : ImageRun := ⟨"out", "_images", ["a__b.png", "a_b.png"]⟩

/-- An image that is copied onto itself. -/
def mirrored : ImageRun := ⟨"book", "Assets", ["a.png"]⟩

def all : List ImageRun := [forms, twins, mirrored]

section
variable (r : ImageRun)

/-- The book. Each image holds its own name. -/
def book : FileTree where
  entries := r.names.map (fun name => (["book", r.images, name], .file (.text name))) ++
    [(["book", "content.opf"], .file (.text "<package><manifest/><spine/></package>")),
      (["book", "nav.xhtml"], .file (.text "<nav><ol></ol></nav>")),
      (["book", r.images], .directory), (["book"], .directory)]

def options : BookOptions := { images := r.images, writeStaticFiles := false }

/-- The book and the directories of its catalog. -/
def laid : FileTree := ((setUp r.output r.options).on r.book).2

/-- The book and a catalog with the images. -/
def illustrated : FileTree :=
  ((copyFiles (join "book" r.options.images) (join r.output r.options.assets)
    (r.names.map .text)).on r.laid).2

/-- The book and its catalog. -/
def final : FileTree :=
  ((write (join r.output r.options.landingPage) "# ``Swift``\n\n## Topics\n").on r.illustrated).2

/-- What is made of the book. -/
def prepared : Prepared where
  chapters := []
  assetsCopied := r.names.length
  anchorsCollected := 0

/-- The steps of the run succeed. -/
def StepsSucceed : Prop :=
  ((setUp r.output r.options).on r.book).1 = .ok () ∧
  ((copyFiles (join "book" r.options.images) (join r.output r.options.assets)
    (r.names.map .text)).on r.laid).1 = .ok () ∧
  r.illustrated.readText (join "book" r.options.contents) = .ok "<nav><ol></ol></nav>" ∧
  ((write (join r.output r.options.landingPage) "# ``Swift``\n\n## Topics\n").on r.illustrated).1 = .ok () ∧
  r.final.readText (join "book" r.options.manifest) = .ok "<package><manifest/><spine/></package>"

/-- The images are found in their directory. -/
def ImagesListed : Prop :=
  FileTree.IsPath (join "book" r.options.images) ∧
  (FilePath.names (join "book" r.options.images)).foldlM r.laid.enter
    (r.laid.start (join "book" r.options.images)) = .ok ["book", r.images] ∧
  r.laid.namesAt ["book", r.images] = r.names.map .text ∧
  (r.names.map FileName.text).Pairwise (fun a b => decide (a ≤ b) = true) ∧
  (r.names.map FileName.text).filter (fun name => r.laid.isFileIn (join "book" r.options.images) name) =
    r.names.map .text

end

theorem evaluated : ∀ r ∈ all, r.book.WellNamed ∧ r.StepsSucceed ∧ r.ImagesListed := by
  unfold StepsSucceed ImagesListed
  decide +kernel

section
variable {r : ImageRun} (hr : r ∈ all)
include hr

theorem on_setUp : (setUp r.output r.options).on r.book = (.ok (), r.laid) := by
  obtain ⟨-, ⟨h, -⟩, -⟩ := evaluated r hr
  rw [laid, ← h]

theorem filesIn_laid : r.laid.filesIn (join "book" r.options.images) = r.names.map .text := by
  obtain ⟨-, -, hpath, henter, hnames, hsorted, hfiles⟩ := evaluated r hr
  rw [FileTree.filesIn_of_sorted (FileTree.find_eq_directory_iff.2 ⟨hpath, henter⟩) hnames hsorted]
  exact hfiles

theorem copiedImages_book : copiedImages "book" r.output r.options r.book = r.names.map .text := by
  rw [copiedImages_eq (on_setUp hr), filesIn_laid hr]

theorem copyPaths_book : copyPaths "book" r.output r.options r.book =
    (r.names.map FileName.text).map (assetPath (join r.output r.options.assets)) := by
  rw [copyPaths, copiedImages_book hr]

theorem on_layOut : (layOut "book" r.output r.options).on r.book = (.ok r.names.length, r.final) := by
  obtain ⟨-, ⟨-, hcopy, hcontents, hwrite, -⟩, -⟩ := evaluated r hr
  rw [← List.length_map FileName.text]
  refine on_layOut_of_emptyContents (on_setUp hr) (filesIn_laid hr) ?_ hcontents rfl ?_
  · rw [illustrated, ← hcopy]
  · rw [final, ← hwrite]

theorem run_book : run "book" r.output r.options r.book = (.ok r.prepared.report, r.final) := by
  obtain ⟨-, ⟨-, -, -, -, hmanifest⟩, -⟩ := evaluated r hr
  have hspine : Spine.ofText "<package><manifest/><spine/></package>" = .ok [] := by decide +kernel
  have hprepare : (prepare "book" r.output r.options).on r.book = (.ok r.prepared, r.final) :=
    on_prepare_eq_ok_iff.2 ⟨[], [], on_layOut hr, on_readSpine_eq_ok_iff.2 ⟨rfl, _, hmanifest, hspine⟩,
      rfl, rfl⟩
  exact run_eq_ok_iff.2 ⟨r.prepared, r.final, hprepare, rfl, rfl⟩

theorem not_imagesKept {name : String} (hname : name ∈ r.names)
    (h : r.final.read (assetPath (join r.output r.options.assets) name) ≠
      r.laid.readIn (join "book" r.options.images) name) :
    ¬ImagesKept "book" r.output r.options r.book r.final := by
  intro hkept
  have hcopied : .text name ∈ copiedImages "book" r.output r.options r.book := by
    rw [copiedImages_book hr]
    exact List.mem_map_of_mem hname
  obtain ⟨c, hread, hcopy⟩ := hkept name hcopied
  exact h (hcopy.trans hread.symm)

end

end ImageRun

/-! ## Images that are kept -/

/-- **Images go to different paths exactly when no two of them share a copy.** All images are counted, and the
paths that they go to are as many as are counted exactly when they are different. If neither an image nor a page
is where an image goes, then of the images that share a copy the last one is kept, and all images are kept when
their paths are different. This is so when the directories of the images and of the assets and the landing page
have plain names, and the directories different ones. -/
theorem images_kept_iff {root output : String} {options : BookOptions} {files final : FileTree}
    {report : BookReport} (hnamed : files.WellNamed)
    (h : run root output options files = (.ok report, final)) :
    report.assetsCopied = (copiedImages root output options files).length ∧
      ((copyPaths root output options files).Nodup ↔
        (copiedImages root output options files).Pairwise fun name name' => ¬SharesCopy name name') ∧
      ((copyPaths root output options files).dedup.length = report.assetsCopied ↔
        (copyPaths root output options files).Nodup) ∧
      (CopiesApart root output options files → LastImagesKept root output options files final ∧
        ((copyPaths root output options files).Nodup → ImagesKept root output options files final)) ∧
      (IsName options.images → IsName options.assets → IsName options.landingPage →
        options.images ≠ options.assets → CopiesApart root output options files) := by
  obtain ⟨p, tree, hprepare, hwrite, rfl⟩ := run_eq_ok_iff.1 h
  obtain ⟨_, _, hlay, -⟩ := on_prepare_eq_ok_iff.1 hprepare
  obtain ⟨laid, -, hset, hcount, -⟩ := on_layOut_eq_ok_iff.1 hlay
  have hcopied : p.report.assetsCopied = (copiedImages root output options files).length := by
    rw [copiedImages_eq hset]
    exact hcount
  have hlength : p.report.assetsCopied = (copyPaths root output options files).length := by
    rw [hcopied, copyPaths, List.length_map]
  have himages : ∀ name ∈ copiedImages root output options files, name.IsName :=
    isName_of_mem_copiedImages hnamed hset
  refine ⟨hcopied, nodup_copyPaths_iff himages, ?_, fun hapart => ?_, copiesApart_of_isName hnamed hprepare⟩
  · rw [hlength, (List.dedup_sublist _).length_eq, List.dedup_eq_self]
  · have hlast := lastImagesKept_of_prepare hnamed hprepare hwrite hapart
    exact ⟨hlast, hlast.imagesKept himages⟩

open ImageRun in
/-- An image and its high-resolution form are both kept. -/
theorem images_kept_forms :
    forms.book.WellNamed ∧
      run "book" forms.output forms.options forms.book = (.ok forms.prepared.report, forms.final) ∧
      (copyPaths "book" forms.output forms.options forms.book).Nodup ∧
      (copyPaths "book" forms.output forms.options forms.book).dedup.length =
        forms.prepared.report.assetsCopied ∧
      LastImagesKept "book" forms.output forms.options forms.book forms.final ∧
      ImagesKept "book" forms.output forms.options forms.book forms.final := by
  have hforms : forms ∈ all := by simp [all]
  have hnamed := (evaluated forms hforms).1
  have hrun := run_book hforms
  obtain ⟨-, hpaths, hnumber, hkept, hapart⟩ := images_kept_iff hnamed hrun
  have hnodup := hpaths.2 (by
    rw [copiedImages_book hforms]
    decide +kernel)
  obtain ⟨hlast, hall⟩ := hkept (hapart (by decide) (by decide) (by decide) (by decide))
  exact ⟨hnamed, hrun, hnodup, hnumber.2 hnodup, hlast, hall hnodup⟩

open ImageRun in
/-- Of two images that share a copy the first one is lost, and both are counted. An image that is copied onto
itself is lost as well. -/
theorem images_lost :
    (run "book" twins.output twins.options twins.book = (.ok twins.prepared.report, twins.final) ∧
      (copiedImages "book" twins.output twins.options twins.book).Nodup ∧
      ¬(copyPaths "book" twins.output twins.options twins.book).Nodup ∧
      (copyPaths "book" twins.output twins.options twins.book).dedup.length ≠
        twins.prepared.report.assetsCopied ∧
      ¬ImagesKept "book" twins.output twins.options twins.book twins.final) ∧
    run "book" mirrored.output mirrored.options mirrored.book =
        (.ok mirrored.prepared.report, mirrored.final) ∧
      ¬ImagesKept "book" mirrored.output mirrored.options mirrored.book mirrored.final := by
  have htwins : twins ∈ all := by simp [all]
  have hmirrored : mirrored ∈ all := by simp [all]
  rw [copiedImages_book htwins, copyPaths_book htwins]
  refine ⟨⟨run_book htwins, by decide, by decide +kernel, by decide +kernel, ?_⟩, run_book hmirrored, ?_⟩
  · have hfirst : "a__b.png" ∈ twins.names := by decide
    exact not_imagesKept htwins hfirst (by decide +kernel)
  · have honly : "a.png" ∈ mirrored.names := by decide
    exact not_imagesKept hmirrored honly (by decide +kernel)

end BookCatalog.Book
