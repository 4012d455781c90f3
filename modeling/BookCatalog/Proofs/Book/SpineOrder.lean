import BookCatalog.Proofs.Book.ChapterOrder
import BookCatalog.Proofs.Book.FrontReplacement
import BookCatalog.Proofs.Book.Outputs
import BookCatalog.Proofs.Spine

/-!
# The order of the spine

The spine gives the order in which chapters are read, reported and written. When its entries change places,
a conversion of the book succeeds as before, reports the same chapters in their new order, and leaves the same
files (`run_of_reordered_spine`). This needs three things: chapters go to different files, no two of them
have different slugs for one id, and the package document is read for its spine alone
(`ManifestReadOnce`). A book whose images stand beside the package document has it copied with the images,
and then the catalogs differ in the copies (`pairBook_copies_manifest`).
-/

namespace BookCatalog.Book

open BookCatalog.FilePath Work FileTree

section
variable {root output : String} {options : BookOptions} {spot : Location} {c c' : FileContent}

/-! ## The chapters -/

/-- The chapters of a spine are rendered as a tree holds them, and their files are written into it. -/
def WritesChapters (root output : String) (t : FileTree) (spine : List String)
    (chapters : List (String × String)) (anchors : Nat) (final : FileTree) : Prop :=
  ∃ sources, sources.map (·.1) = spine ∧ (∀ c ∈ sources, t.readText (join root c.1) = .ok c.2) ∧
    renderChapters output sources = .ok (chapters, anchors) ∧ t.writeAll (textFiles chapters) = .ok final

theorem WritesChapters.map_fst {t final : FileTree} {spine : List String} {chapters : List (String × String)}
    {anchors : Nat} (h : WritesChapters root output t spine chapters anchors final) :
    chapters.map (·.1) = spine.map (chapterPath output) := by
  obtain ⟨sources, rfl, -, hrender, -⟩ := h
  rw [map_fst_of_renderChapters hrender]
  simp only [List.map_map, Function.comp_def]

theorem WritesChapters.exists_of_mem {t final : FileTree} {spine : List String}
    {chapters : List (String × String)} {anchors : Nat}
    (h : WritesChapters root output t spine chapters anchors final) {w : String × FileContent}
    (hw : w ∈ textFiles chapters) :
    ∃ chapter ∈ spine, w.1 = chapterPath output chapter ∧
      ∃ text, t.readText (join root chapter) = .ok text := by
  obtain ⟨c, hc, rfl⟩ := List.mem_map.1 hw
  have hpath : c.1 ∈ chapters.map (·.1) := List.mem_map_of_mem hc
  rw [h.map_fst] at hpath
  obtain ⟨chapter, hchapter, heq⟩ := List.mem_map.1 hpath
  obtain ⟨sources, rfl, hread, -, -⟩ := h
  obtain ⟨source, hsource, rfl⟩ := List.mem_map.1 hchapter
  exact ⟨source.1, hchapter, heq.symm, source.2, hread source hsource⟩

/-- When everything but the chapters is there, a conversion goes on with the chapters of the spine. -/
theorem run_eq_ok_iff_of_readSpine {files tree final : FileTree} {n : Nat} {spine : List String}
    {report : BookReport} (hlay : (layOut root output options).on files = (.ok n, tree))
    (hspine : (readSpine root options).on tree = (.ok spine, tree)) :
    run root output options files = (.ok report, final) ↔ ∃ chapters anchors,
      WritesChapters root output tree spine chapters anchors final ∧
      report = ⟨chapters.map (·.1), n, anchors⟩ := by
  rw [run_eq_ok_iff]
  constructor
  · rintro ⟨p, t, hprepare, hwrite, rfl⟩
    obtain ⟨spine', sources, hlay', hspine', hsources, hrender⟩ := on_prepare_eq_ok_iff.1 hprepare
    rw [hlay] at hlay'
    cases hlay'
    rw [hspine] at hspine'
    cases hspine'
    obtain ⟨-, hpaths, hread⟩ := on_readChapters_eq_ok_iff.1 hsources
    exact ⟨p.chapters, p.anchorsCollected, ⟨sources, hpaths, hread, hrender, hwrite⟩, rfl⟩
  · rintro ⟨chapters, anchors, ⟨sources, hpaths, hread, hrender, hwrite⟩, rfl⟩
    refine ⟨⟨chapters, n, anchors⟩, tree, ?_, hwrite, rfl⟩
    exact on_prepare_eq_ok_iff.2
      ⟨spine, sources, hlay, hspine, on_readChapters_eq_ok_iff.2 ⟨rfl, hpaths, hread⟩, hrender⟩

/-- No two of the chapters at some paths have different slugs for one id. -/
def AnchorsAgree (root : String) (t : FileTree) (paths : List String) : Prop :=
  ∀ chapter ∈ paths, ∀ chapter' ∈ paths, ∀ text text', t.readText (join root chapter) = .ok text →
    t.readText (join root chapter') = .ok text' → ∀ id slug slug',
      Chapters.slug? text id = some slug → Chapters.slug? text' id = some slug' → slug = slug'

/-- The chapters of a spine may change places: they are not read from or written to `spot`, they go to
different files, and they agree on their slugs. -/
structure Reorderable (root output : String) (spot : Location) (t : FileTree) (spine : List String) :
    Prop where
  read_ne : ∀ chapter ∈ spine, t.location? (join root chapter) ≠ some spot
  write_ne : ∀ chapter ∈ spine, t.location? (chapterPath output chapter) ≠ some spot
  nodup : (spine.map (chapterPath output)).Nodup
  agree : AnchorsAgree root t spine

theorem Reorderable.of_differAt {t t' : FileTree} {spine spine' : List String}
    (h : Reorderable root output spot t spine) (hd : DifferAt spot c c' t t') (hperm : spine'.Perm spine) :
    Reorderable root output spot t' spine' := by
  have hmem {chapter : String} : chapter ∈ spine' → chapter ∈ spine := hperm.mem_iff.1
  refine ⟨fun chapter hc => ?_, fun chapter hc => ?_, (hperm.map _).nodup_iff.2 h.nodup, ?_⟩
  · rw [hd.location?_eq]
    exact h.read_ne chapter (hmem hc)
  · rw [hd.location?_eq]
    exact h.write_ne chapter (hmem hc)
  · intro chapter hc chapter' hc' text text' hr hr'
    rw [hd.readText_iff (h.read_ne chapter (hmem hc))] at hr
    rw [hd.readText_iff (h.read_ne chapter' (hmem hc'))] at hr'
    exact h.agree chapter (hmem hc) chapter' (hmem hc') text text' hr hr'

/-- Chapters that go to different files are at different locations. -/
theorem eq_of_location?_chapters {t final : FileTree} {spine : List String}
    {chapters : List (String × String)} {anchors : Nat}
    (h : WritesChapters root output t spine chapters anchors final)
    (hnodup : (spine.map (chapterPath output)).Nodup) :
    ∀ w ∈ textFiles chapters, ∀ w' ∈ textFiles chapters, ∀ loc,
      t.location? w.1 = some loc → t.location? w'.1 = some loc → w = w' := by
  have houtput : ∀ w ∈ textFiles chapters, IsOutput output w.1 := by
    intro w hw
    obtain ⟨chapter, -, hpath, text, hread⟩ := h.exists_of_mem hw
    rw [hpath]
    exact isOutput_chapterPath hread
  have hfst : (textFiles chapters).map (·.1) = spine.map (chapterPath output) := by
    rw [← h.map_fst, textFiles]
    simp only [List.map_map, Function.comp_def]
  rw [← hfst] at hnodup
  intro w hw w' hw' loc hl hl'
  have hpath : w.1 = w'.1 := eq_of_location?_eq (houtput w hw) (houtput w' hw') hl hl'
  exact List.inj_on_of_nodup_map hnodup hw hw' hpath

/-- **Chapters in another order leave the same files.** -/
theorem WritesChapters.exists_of_perm {t t' final : FileTree} {spine spine' : List String}
    {chapters : List (String × String)} {anchors : Nat}
    (h : WritesChapters root output t spine chapters anchors final)
    (hreorder : Reorderable root output spot t spine) (hd : DifferAt spot c c' t t')
    (hperm : spine'.Perm spine) :
    ∃ chapters' final', WritesChapters root output t' spine' chapters' anchors final' ∧
      final'.toSurroundings = final.toSurroundings ∧
      final.get? spot = some (.file c) ∧ final'.get? spot = some (.file c') ∧
      ∀ loc, loc ≠ spot → final'.get? loc = final.get? loc := by
  have hdifferent := eq_of_location?_chapters h hreorder.nodup
  have hwritten : ∀ w ∈ textFiles chapters, t.location? w.1 ≠ some spot := by
    intro w hw
    obtain ⟨chapter, hchapter, hpath, -⟩ := h.exists_of_mem hw
    rw [hpath]
    exact hreorder.write_ne chapter hchapter
  obtain ⟨sources, rfl, hread, hrender, hwrite⟩ := h
  obtain ⟨sources', rfl, hsources⟩ : ∃ sources' : List (String × String),
      spine' = sources'.map (·.1) ∧ sources'.Perm sources :=
    (congrFun₂ (List.eq_map_comp_perm Prod.fst) spine' sources).mpr hperm
  have hagree : Chapters.SlugsAgree sources := fun c hc c' hc' =>
    hreorder.agree c.1 (List.mem_map_of_mem hc) c'.1 (List.mem_map_of_mem hc') c.2 c'.2
      (hread c hc) (hread c' hc')
  obtain ⟨chapters', hrender', hchapters⟩ := exists_renderChapters_of_perm hagree hsources hrender
  have hfiles : (textFiles chapters').Perm (textFiles chapters) := hchapters.map _
  obtain ⟨mid, hmid, hget⟩ := exists_writeAll_of_perm hfiles hwrite hdifferent
  obtain ⟨final', hfinal, hdiffer⟩ :=
    hd.exists_writeAll (fun w hw => hwritten w (hfiles.mem_iff.1 hw)) hmid
  refine ⟨chapters', final', ⟨sources', rfl, fun c hc => ?_, hrender', hfinal⟩, ?_, ?_, hdiffer.there, ?_⟩
  · have hc := hsources.mem_iff.1 hc
    exact (hd.readText_iff (hreorder.read_ne c.1 (List.mem_map_of_mem hc)) c.2).2 (hread c hc)
  · calc final'.toSurroundings = mid.toSurroundings := hdiffer.surroundings_eq
      _ = t.toSurroundings := (sameDirectories_of_writeAll hmid).surroundings_eq
      _ = final.toSurroundings := (sameDirectories_of_writeAll hwrite).surroundings_eq.symm
  · rw [← hget, hdiffer.here]
  · intro loc hloc
    rw [hdiffer.get?_eq loc hloc, hget]

/-! ## Books that differ in their spine -/

section
variable (root output : String) (options : BookOptions) (files : FileTree)

/-- The package document is not read as anything else. -/
def ManifestReadOnce : Prop :=
  ∀ r ∈ (copiedImages root output options files).filterMap (FileName.pathIn? (join root options.images)) ++
      join root options.contents :: (chaptersRead root output options files).map (join root),
    ∀ loc, (madeFrom output options files).location? (join root options.manifest) = some loc →
      (madeFrom output options files).location? r ≠ some loc

end

/-- Two conversions differ in the order of the chapters that they report and in nothing else. Each of them
leaves its package document at `spot` as it was. -/
structure OrderOnly (output : String) (spot : Location) (manifest manifest' : String)
    (report report' : BookReport) (final final' : FileTree) : Prop where
  chapters_eq : ∃ spine spine', Spine.ofText manifest = .ok spine ∧ Spine.ofText manifest' = .ok spine' ∧
    spine'.Perm spine ∧ report.chapters = spine.map (chapterPath output) ∧
    report'.chapters = spine'.map (chapterPath output)
  assetsCopied_eq : report'.assetsCopied = report.assetsCopied
  anchorsCollected_eq : report'.anchorsCollected = report.anchorsCollected
  surroundings_eq : final'.toSurroundings = final.toSurroundings
  manifest_kept : final.get? spot = some (.file (.text manifest))
  manifest_kept' : final'.get? spot = some (.file (.text manifest'))
  get?_eq : ∀ loc, loc ≠ spot → final'.get? loc = final.get? loc

section
variable {files files' : FileTree} {manifest manifest' : String}

theorem frontApart_of_readsApart (hapart : ReadsApart root output options files)
    (honce : ManifestReadOnce root output options files)
    (hspot : (madeFrom output options files).location? (join root options.manifest) = some spot) :
    FrontApart root output options spot files := by
  have hwrites : ∀ w ∈ writes root output options files,
      (madeFrom output options files).location? w ≠ some spot := fun w hw =>
    hapart _ mem_reads_manifest w hw spot hspot
  have hreads := fun r hr => honce r hr spot hspot
  constructor
  · intro name hn hl
    obtain ⟨path, hpath, hl⟩ := Option.bind_eq_some_iff.1 hl
    exact hreads path (List.mem_append_left _ (List.mem_filterMap.2 ⟨name, hn, hpath⟩)) hl
  · intro name hn
    exact hwrites _ (mem_writes_image hn)
  · intro file hfile
    exact hwrites _ (List.mem_append_left _ (List.mem_append_left _ (List.mem_map_of_mem hfile)))
  · exact hreads _ (List.mem_append_right _ List.mem_cons_self)
  · exact hwrites _ (List.mem_append_right _ List.mem_cons_self)

/-- What holds of the chapters at first holds of them when everything but the chapters is there. -/
theorem reorderable_of_readsApart {tree : FileTree} {n : Nat} {spine : List String}
    (hapart : ReadsApart root output options files) (honce : ManifestReadOnce root output options files)
    (hspot : (madeFrom output options files).location? (join root options.manifest) = some spot)
    (hnodup : ((chaptersRead root output options files).map (chapterPath output)).Nodup)
    (hagree : AnchorsAgree root (madeFrom output options files) (chaptersRead root output options files))
    (hlay : (layOut root output options).on files = (.ok n, tree))
    (hspine : (readSpine root options).on tree = (.ok spine, tree)) :
    Reorderable root output spot tree spine := by
  obtain ⟨images, -, page, -, hcopied, -, hwrite⟩ := exists_front_of_on_layOut hlay hapart
  have hloc := location?_congr (sameDirectories_of_writeAll hwrite)
  have hread {chapter : String} (hc : chapter ∈ chaptersRead root output options files) (text : String) :=
    hapart.readText_iff hwrite (mem_writes_of_mem_frontFiles hcopied) (mem_reads_chapter hc) text
  rw [← chaptersRead_eq hlay hspine]
  refine ⟨fun chapter hc => ?_, fun chapter hc => ?_, hnodup, ?_⟩
  · rw [← hloc]
    exact honce _ (List.mem_append_right _ (List.mem_cons_of_mem _ (List.mem_map_of_mem hc))) spot hspot
  · rw [← hloc]
    exact hapart _ mem_reads_manifest _ (mem_writes_chapter hc) spot hspot
  · intro chapter hc chapter' hc' text text' hr hr'
    exact hagree chapter hc chapter' hc' text text' ((hread hc text).1 hr) ((hread hc' text').1 hr')

/-- Two books differ in the order of their spines, and nothing is read from or written to the package document
before the spine. -/
structure DifferInOrder (root output : String) (options : BookOptions) (spot : Location)
    (manifest manifest' : String) (files files' : FileTree) : Prop where
  differAt : DifferAt spot (.text manifest) (.text manifest') files files'
  location?_eq : (madeFrom output options files).location? (join root options.manifest) = some spot
  front : FrontApart root output options spot files
  reordered : Spine.Reordered manifest manifest'

/-- The chapters that a conversion finds may change places. -/
def FindsReorderable (root output : String) (options : BookOptions) (spot : Location) (files : FileTree) :
    Prop :=
  ∀ n tree spine, (layOut root output options).on files = (.ok n, tree) →
    (readSpine root options).on tree = (.ok spine, tree) → Reorderable root output spot tree spine

namespace DifferInOrder

/-- The books may be taken in the other order when the catalog of the second one can be set up. -/
theorem symm {laid' : FileTree} (h : DifferInOrder root output options spot manifest manifest' files files')
    (hset' : (setUp output options).on files' = (.ok (), laid')) :
    DifferInOrder root output options spot manifest' manifest files' files := by
  have hloc := (differAt_madeFrom h.differAt output options).location?_eq
  obtain ⟨laid, hset, -⟩ := exists_on_setUp h.differAt.symm (fun file hfile => by
    rw [hloc]
    exact h.front.static_ne file hfile) hset'
  exact ⟨h.differAt.symm, (hloc _).trans h.location?_eq, h.front.of_differAt h.differAt h.location?_eq hset,
    h.reordered.symm⟩

/-- When the spine of the first book can be read, so can that of the second one. -/
theorem exists_on_readSpine {n : Nat} {tree : FileTree} {spine : List String}
    (h : DifferInOrder root output options spot manifest manifest' files files')
    (hlay : (layOut root output options).on files = (.ok n, tree))
    (hspine : (readSpine root options).on tree = (.ok spine, tree)) :
    ∃ tree' spine', DifferAt spot (.text manifest) (.text manifest') tree tree' ∧
      (layOut root output options).on files' = (.ok n, tree') ∧
      (readSpine root options).on tree' = (.ok spine', tree') ∧
      Spine.ofText manifest = .ok spine ∧ Spine.ofText manifest' = .ok spine' ∧ spine'.Perm spine := by
  obtain ⟨tree', hlay', htree⟩ := exists_on_layOut h.differAt h.front h.location?_eq hlay
  obtain ⟨-, read, hread, hof⟩ := on_readSpine_eq_ok_iff.1 hspine
  obtain ⟨rfl, hread'⟩ :=
    htree.readText_of_location? ((location?_of_on_layOut hlay _).trans h.location?_eq) hread
  obtain ⟨spine', hof', hperm⟩ := h.reordered.exists_ofText hof
  have hspine' := on_readSpine_eq_ok_iff.2 ⟨rfl, manifest', hread', hof'⟩
  exact ⟨tree', spine', htree, hlay', hspine', hof, hof', hperm⟩

theorem findsReorderable {laid' : FileTree}
    (h : DifferInOrder root output options spot manifest manifest' files files')
    (hset' : (setUp output options).on files' = (.ok (), laid'))
    (hchapters : FindsReorderable root output options spot files) :
    FindsReorderable root output options spot files' := by
  intro n tree' spine' hlay' hspine'
  obtain ⟨tree, spine, htree, hlay, hspine, -, -, hperm⟩ := (h.symm hset').exists_on_readSpine hlay' hspine'
  exact (hchapters n tree spine hlay hspine).of_differAt htree.symm hperm.symm

/-- A conversion goes on with the book in which the entries of the spine have changed places. -/
theorem exists_run {report : BookReport} {final : FileTree}
    (h : DifferInOrder root output options spot manifest manifest' files files')
    (hchapters : FindsReorderable root output options spot files)
    (hrun : run root output options files = (.ok report, final)) :
    ∃ report' final', run root output options files' = (.ok report', final') ∧
      OrderOnly output spot manifest manifest' report report' final final' := by
  obtain ⟨p, tree, hprepare, -, -⟩ := run_eq_ok_iff.1 hrun
  obtain ⟨spine, -, hlay, hspine, -⟩ := on_prepare_eq_ok_iff.1 hprepare
  obtain ⟨tree', spine', htree, hlay', hspine', hof, hof', hperm⟩ := h.exists_on_readSpine hlay hspine
  obtain ⟨chapters, anchors, hwritten, rfl⟩ := (run_eq_ok_iff_of_readSpine hlay hspine).1 hrun
  obtain ⟨chapters', final', hwritten', haround, hkept, hkept', hget⟩ :=
    hwritten.exists_of_perm (hchapters _ tree spine hlay hspine) htree hperm
  have hrun' := (run_eq_ok_iff_of_readSpine hlay' hspine').2 ⟨chapters', anchors, hwritten', rfl⟩
  exact ⟨_, final', hrun', ⟨spine, spine', hof, hof', hperm, hwritten.map_fst, hwritten'.map_fst⟩, rfl, rfl,
    haround, hkept, hkept', hget⟩

end DifferInOrder

end

end

/-! ## A book of two chapters -/

/-- A conversion of a book of two chapters, which stand in a directory of their own. -/
structure PairRun where
  /-- The directory of the images. -/
  images : String
  /-- The files in the directory of the images. -/
  names : List String
  /-- The ids of the chapters, in reading order. -/
  order : String × String

namespace PairRun

/-- The book has no directory of images. -/
def plain : PairRun := ⟨"_images", [], ("a", "b")⟩

/-- The images stand beside the package document. -/
def flat (order : String × String) : PairRun := ⟨".", ["content.opf", "nav.xhtml"], order⟩

def orders : List (String × String) := [("a", "b"), ("b", "a")]

def all : List PairRun := [plain, flat ("a", "b"), flat ("b", "a")]

/-- A chapter with a section that both chapters have, and a text. -/
def chapter (text : String) : String :=
  "<div class='body'><div class='section' id='s'><h2>S</h2></div><p>" ++ text ++ "</p></div>"

/-- The package document for an order of the chapters. -/
def manifest (order : String × String) : String :=
  "<package><manifest><item id='a' href='text/a.xhtml'/><item id='b' href='text/b.xhtml'/></manifest>" ++
    "<spine><itemref idref='" ++ order.1 ++ "'/><itemref idref='" ++ order.2 ++ "'/></spine></package>"

section
variable (r : PairRun)

def book : FileTree where
  entries := [
    (["book", "content.opf"], .file (.text (manifest r.order))),
    (["book", "nav.xhtml"], .file (.text "<nav><ol></ol></nav>")),
    (["book", "text", "a.xhtml"], .file (.text (chapter "a"))),
    (["book", "text", "b.xhtml"], .file (.text (chapter "b"))),
    (["book", "text"], .directory),
    (["book"], .directory)]

def options : BookOptions := { images := r.images, writeStaticFiles := false }

/-- The chapters with their paths, in reading order. -/
def sources : List (String × String) :=
  [("text/" ++ r.order.1 ++ ".xhtml", chapter r.order.1),
    ("text/" ++ r.order.2 ++ ".xhtml", chapter r.order.2)]

/-- What is made of the book before its chapters are written. -/
def prepared : Prepared where
  chapters := [("out/" ++ r.order.1 ++ ".md", "## S\n\n" ++ r.order.1 ++ "\n"),
    ("out/" ++ r.order.2 ++ ".md", "## S\n\n" ++ r.order.2 ++ "\n")]
  assetsCopied := r.names.length
  anchorsCollected := 1

/-- The book and the directories of its catalog. -/
def laid : FileTree := ((setUp "out" r.options).on r.book).2

/-- The book and a catalog with the images. -/
def illustrated : FileTree :=
  ((copyFiles (join "book" r.options.images) (join "out" r.options.assets) (r.names.map .text)).on r.laid).2

/-- The book and a catalog that lacks only the chapters. -/
def tree : FileTree :=
  ((write (join "out" r.options.landingPage) "# ``Swift``\n\n## Topics\n").on r.illustrated).2

/-- The book and its catalog. -/
def final : FileTree := ((writeTexts r.prepared.chapters).on r.tree).2

/-- The steps of the run succeed. -/
def StepsSucceed : Prop :=
  ((setUp "out" r.options).on r.book).1 = .ok () ∧
  ((copyFiles (join "book" r.options.images) (join "out" r.options.assets)
    (r.names.map .text)).on r.laid).1 = .ok () ∧
  r.illustrated.readText (join "book" r.options.contents) = .ok "<nav><ol></ol></nav>" ∧
  ((write (join "out" r.options.landingPage) "# ``Swift``\n\n## Topics\n").on r.illustrated).1 = .ok () ∧
  ((writeTexts r.prepared.chapters).on r.tree).1 = .ok ()

/-- The paths that are read. -/
def readPaths : List String :=
  (r.names.map FileName.text).filterMap (FileName.pathIn? (join "book" r.options.images)) ++
    join "book" r.options.contents :: join "book" r.options.manifest :: (r.sources.map (·.1)).map (join "book")

/-- The paths that are written. -/
def writePaths : List String :=
  (staticFiles "out" r.options).map (·.1) ++
    (r.names.map FileName.text).map (assetPath (join "out" r.options.assets)) ++
    join "out" r.options.landingPage :: (r.sources.map (·.1)).map (chapterPath "out")

/-- The location of a path. -/
def location? (path : String) : Option Location := (madeFrom "out" r.options r.book).location? path

/-- The files from which the chapters are made, with their locations. -/
def locations : List (String × Location) :=
  [("content.opf", ["book", "content.opf"]), ("text/a.xhtml", ["book", "text", "a.xhtml"]),
    ("text/b.xhtml", ["book", "text", "b.xhtml"])]

/-- The paths of the run lead where they should: what is read is not written, all that is written goes to
different places, and the files from which the chapters are made are found. -/
def PathsLeadApart : Prop :=
  (∀ path ∈ r.readPaths, ∀ path' ∈ r.writePaths,
    r.location? path = none ∨ r.location? path' ≠ r.location? path) ∧
  (r.writePaths.map r.location?).Nodup ∧
  ∀ f ∈ locations, endsInSlash (join "book" f.1) = false ∧ r.location? (join "book" f.1) = some f.2 ∧
    join "book" f.1 ∈ r.readPaths

end

-- decided on paths and results alone, since the texts of the book are long
theorem evaluated : ∀ r ∈ all, r.order ∈ orders ∧ r.StepsSucceed ∧ r.PathsLeadApart := by
  unfold StepsSucceed PathsLeadApart
  decide +kernel

theorem parts?_manifest : ∀ order ∈ orders, Spine.parts? (manifest order) =
    some (some [("a", "text/a.xhtml"), ("b", "text/b.xhtml")], some [order.1, order.2]) := by
  decide +kernel

theorem reordered_manifest : Spine.Reordered (manifest ("a", "b")) (manifest ("b", "a")) :=
  ⟨_, _, _, parts?_manifest ("a", "b") (by decide), parts?_manifest ("b", "a") (by decide),
    .some (.swap "a" "b" [])⟩

section
variable {r : PairRun} (hr : r ∈ all)
include hr

theorem order_eq : r.order = ("a", "b") ∨ r.order = ("b", "a") := by
  simpa [orders] using (evaluated r hr).1

theorem on_setUp : (setUp "out" r.options).on r.book = (.ok (), r.laid) := by
  obtain ⟨-, ⟨h, -⟩, -⟩ := evaluated r hr
  rw [laid, ← h]

theorem filesIn_laid : r.laid.filesIn (join "book" r.options.images) = r.names.map .text := by
  obtain rfl | ⟨order, horder, rfl⟩ : r = plain ∨ ∃ order ∈ orders, r = flat order := by
    simpa [all, orders] using hr
  · have hnone : plain.laid.isDirectory (join "book" plain.options.images) = false := by decide +kernel
    exact filesIn_of_not_isDirectory hnone
  · have hnames : ∀ order ∈ orders, IsPath (join "book" ".") ∧
        (FilePath.names (join "book" ".")).foldlM (flat order).laid.enter
          ((flat order).laid.start (join "book" ".")) = .ok ["book"] ∧
        (flat order).laid.namesAt ["book"] = [.text "content.opf", .text "nav.xhtml", .text "text"] ∧
        [FileName.text "content.opf", .text "nav.xhtml", .text "text"].filter
          (fun name => (flat order).laid.isFileIn (join "book" ".") name) =
            [.text "content.opf", .text "nav.xhtml"] := by
      decide +kernel
    obtain ⟨hpath, henter, hnames, hfiles⟩ := hnames order horder
    show (flat order).laid.filesIn (join "book" ".") = _
    rw [filesIn_of_sorted (find_eq_directory_iff.2 ⟨hpath, henter⟩) hnames (by decide +kernel)]
    exact hfiles

theorem on_layOut : (layOut "book" "out" r.options).on r.book = (.ok r.names.length, r.tree) := by
  obtain ⟨-, ⟨-, hcopy, hcontents, hwrite, -⟩, -⟩ := evaluated r hr
  rw [← List.length_map FileName.text]
  refine on_layOut_of_emptyContents (on_setUp hr) (filesIn_laid hr) ?_ hcontents rfl ?_
  · rw [illustrated, ← hcopy]
  · rw [tree, ← hwrite]

theorem copiedImages_book : copiedImages "book" "out" r.options r.book = r.names.map .text := by
  rw [copiedImages_eq (on_setUp hr), filesIn_laid hr]

theorem exists_location_of_mem {f : String × String}
    (hf : f ∈ ("content.opf", manifest r.order) :: r.sources) :
    ∃ loc, (f.1, loc) ∈ locations ∧ r.book.get? loc = some (.file (.text f.2)) := by
  obtain horder | horder := order_eq hr
  all_goals
    simp only [sources, horder, List.mem_cons, List.not_mem_nil, or_false] at hf
    obtain rfl | rfl | rfl := hf <;> simp [locations, book, get?, List.lookup_cons, horder]

/-- The files from which the chapters are made stay as they are. -/
theorem readText_book : ∀ f ∈ ("content.opf", manifest r.order) :: r.sources,
    (madeFrom "out" r.options r.book).readText (join "book" f.1) = .ok f.2 ∧
      r.tree.readText (join "book" f.1) = .ok f.2 := by
  intro f hf
  obtain ⟨loc, hloc, hget⟩ := exists_location_of_mem hr hf
  obtain ⟨-, -, hapart, -, hlocations⟩ := evaluated r hr
  obtain ⟨hslash, hl, hread⟩ := hlocations _ hloc
  have hmade : (madeFrom "out" r.options r.book).readText (join "book" f.1) = .ok f.2 := by
    refine readText_eq_ok_iff.2 (read_eq_ok_iff.2 ⟨hslash, loc, hl, ?_⟩)
    obtain heq | ⟨hnone, -⟩ := (addsDirectories_madeFrom "out" r.options r.book).get?_eq_or loc
    · rw [heq, hget]
    · rw [hget] at hnone
      cases hnone
  refine ⟨hmade, ?_⟩
  obtain ⟨ws, hws, hwrite⟩ := exists_writeAll_of_on_layOut (on_layOut hr)
  rw [copiedImages_book hr] at hws
  rw [readText_eq_ok_iff] at hmade ⊢
  refine (read_of_writeAll_ne hwrite (fun w hw l hl' hw' => ?_) _).2 hmade
  have hmem : w.1 ∈ r.writePaths := by
    have hmem : w.1 ∈ ws.map (·.1) := List.mem_map_of_mem hw
    rw [hws] at hmem
    simp only [writePaths, List.mem_append, List.mem_cons, List.not_mem_nil, or_false] at hmem ⊢
    exact hmem.imp_right .inl
  obtain hnone | hne := hapart _ hread _ hmem
  · rw [hl] at hnone
    cases hnone
  · exact hne (hw'.trans hl'.symm)

theorem on_readSpine : (readSpine "book" r.options).on r.tree = (.ok (r.sources.map (·.1)), r.tree) := by
  have hids : ∀ order ∈ orders, (sources ⟨"", [], order⟩).map (·.1) = [order.1, order.2].filterMap
      (Spine.path? [("a", "text/a.xhtml"), ("b", "text/b.xhtml")]) := by decide
  exact on_readSpine_eq_ok_iff.2 ⟨rfl, _, (readText_book hr _ List.mem_cons_self).2,
    Spine.ofText_eq_ok_iff.2 ⟨_, _, parts?_manifest _ (evaluated r hr).1, hids _ (evaluated r hr).1⟩⟩

theorem on_prepare : (prepare "book" "out" r.options).on r.book = (.ok r.prepared, r.tree) := by
  have hrender : ∀ order ∈ orders, renderChapters "out" (sources ⟨"", [], order⟩) =
      .ok ((prepared ⟨"", [], order⟩).chapters, 1) := by decide +kernel
  exact on_prepare_eq_ok_iff.2 ⟨_, _, on_layOut hr, on_readSpine hr,
    on_readChapters_eq_ok_iff.2 ⟨rfl, rfl, fun c hc => (readText_book hr c (List.mem_cons_of_mem _ hc)).2⟩,
    hrender r.order (evaluated r hr).1⟩

theorem run_book : run "book" "out" r.options r.book = (.ok r.prepared.report, r.final) := by
  obtain ⟨-, ⟨-, -, -, -, hwrite⟩, -⟩ := evaluated r hr
  refine run_eq_ok_iff.2 ⟨r.prepared, r.tree, on_prepare hr, ?_, rfl⟩
  rw [← on_writeTexts_eq_ok_iff, final, ← hwrite]

theorem chaptersRead_book : chaptersRead "book" "out" r.options r.book = r.sources.map (·.1) :=
  chaptersRead_eq (on_layOut hr) (on_readSpine hr)

theorem reads_book : reads "book" "out" r.options r.book = r.readPaths := by
  rw [reads, copiedImages_book hr, chaptersRead_book hr, readPaths]

theorem writes_book : writes "book" "out" r.options r.book = r.writePaths := by
  rw [writes, copiedImages_book hr, chaptersRead_book hr, writePaths]

theorem readsApart_book : ReadsApart "book" "out" r.options r.book := by
  obtain ⟨-, -, hapart, -⟩ := evaluated r hr
  unfold ReadsApart
  rw [reads_book hr, writes_book hr]
  intro path hpath path' hpath' loc hl hl'
  obtain hnone | hne := hapart path hpath path' hpath'
  · exact absurd (hl.symm.trans hnone) (by simp)
  · exact hne (hl'.trans hl.symm)

theorem anchorsAgree_book :
    AnchorsAgree "book" (madeFrom "out" r.options r.book) (chaptersRead "book" "out" r.options r.book) := by
  have hanchors : ∀ c ∈ plain.sources, (Chapter.anchors c.2).map (·.entries) = .ok [("s", "S")] := by
    decide +kernel
  have hsame : ∀ c ∈ r.sources, c ∈ plain.sources := by
    obtain horder | horder := order_eq hr <;> simp [sources, plain, horder]
  have hslug : ∀ c ∈ r.sources, ∀ id, Chapters.slug? c.2 id = [("s", "S")].lookup id := by
    intro c hc id
    have hentries := hanchors c (hsame c hc)
    unfold Chapters.slug?
    cases htable : Chapter.anchors c.2 with
    | error e =>
      rw [htable] at hentries
      cases hentries
    | ok table =>
      rw [htable] at hentries
      exact congrArg (List.lookup id) (Except.ok.inj hentries)
  rw [chaptersRead_book hr]
  intro path hpath path' hpath' text text' htext htext' id slug slug' hs hs'
  obtain ⟨c, hc, rfl⟩ := List.mem_map.1 hpath
  obtain ⟨c', hc', rfl⟩ := List.mem_map.1 hpath'
  rw [(readText_book hr c (List.mem_cons_of_mem _ hc)).1] at htext
  cases htext
  rw [(readText_book hr c' (List.mem_cons_of_mem _ hc')).1] at htext'
  cases htext'
  rw [hslug c hc] at hs
  rw [hslug c' hc', hs] at hs'
  exact Option.some.inj hs'

end

end PairRun

/-! ## Chapters in another order -/

section
variable {root output : String} {options : BookOptions} {spot : Location} {files : FileTree}
  {manifest manifest' : String}

/-- **The order of the spine decides the order of the report and nothing else.** Let the entries of the spine
change places in a book whose package document is read for the spine alone, that a conversion does not write
to, whose chapters go to different files, and in which no two chapters have different slugs for one id. Then
the conversion succeeds as before, it reports the same chapters in their new order, and it leaves the same
files. -/
theorem run_of_reordered_spine (hfile : files.get? spot = some (.file (.text manifest)))
    (hspot : (madeFrom output options files).location? (join root options.manifest) = some spot)
    (hreorder : Spine.Reordered manifest manifest') (honce : ManifestReadOnce root output options files)
    (hapart : ReadsApart root output options files)
    (hnodup : ((chaptersRead root output options files).map (chapterPath output)).Nodup)
    (hagree : AnchorsAgree root (madeFrom output options files) (chaptersRead root output options files)) :
    ((∃ report final, run root output options files = (.ok report, final)) ↔
      ∃ report' final', run root output options (files.put spot (.file (.text manifest'))) =
        (.ok report', final')) ∧
    ∀ report final report' final', run root output options files = (.ok report, final) →
      run root output options (files.put spot (.file (.text manifest'))) = (.ok report', final') →
        OrderOnly output spot manifest manifest' report report' final final' := by
  have h : DifferInOrder root output options spot manifest manifest' files
      (files.put spot (.file (.text manifest'))) :=
    ⟨differAt_put hfile _, hspot, frontApart_of_readsApart hapart honce hspot, hreorder⟩
  have hchapters : FindsReorderable root output options spot files := fun n tree spine hlay hspine =>
    reorderable_of_readsApart hapart honce hspot hnodup hagree hlay hspine
  refine ⟨⟨?_, ?_⟩, ?_⟩
  · rintro ⟨report, final, hrun⟩
    obtain ⟨report', final', hrun', -⟩ := h.exists_run hchapters hrun
    exact ⟨report', final', hrun'⟩
  · rintro ⟨report', final', hrun'⟩
    obtain ⟨p, tree', hprepare', -, -⟩ := run_eq_ok_iff.1 hrun'
    obtain ⟨-, -, hlay', -⟩ := on_prepare_eq_ok_iff.1 hprepare'
    obtain ⟨laid', -, hset', -⟩ := on_layOut_eq_ok_iff.1 hlay'
    obtain ⟨report, final, hrun, -⟩ := (h.symm hset').exists_run (h.findsReorderable hset' hchapters) hrun'
    exact ⟨report, final, hrun⟩
  · intro report final report' final' hrun hrun'
    obtain ⟨_, _, heq, horder⟩ := h.exists_run hchapters hrun
    rw [hrun'] at heq
    cases heq
    exact horder

end

/-- The book is converted in both orders of its chapters. -/
theorem run_of_reordered_pair :
    let options := PairRun.plain.options
    let manifest := PairRun.manifest ("a", "b")
    let manifest' := PairRun.manifest ("b", "a")
    let files := PairRun.plain.book
    let files' := files.put ["book", "content.opf"] (.file (.text manifest'))
    ∃ report final report' final', run "book" "out" options files = (.ok report, final) ∧
      run "book" "out" options files' = (.ok report', final') ∧
      OrderOnly "out" ["book", "content.opf"] manifest manifest' report report' final final' := by
  have hr : PairRun.plain ∈ PairRun.all := by simp [PairRun.all]
  have hfile : PairRun.plain.book.get? ["book", "content.opf"] =
      some (.file (.text (PairRun.manifest ("a", "b")))) := by simp [PairRun.book, PairRun.plain, get?]
  have honce : ManifestReadOnce "book" "out" PairRun.plain.options PairRun.plain.book := by
    have hne : ∀ path ∈ (PairRun.plain.names.map FileName.text).filterMap
          (FileName.pathIn? (join "book" PairRun.plain.options.images)) ++
        join "book" PairRun.plain.options.contents :: (PairRun.plain.sources.map (·.1)).map (join "book"),
        PairRun.plain.location? (join "book" PairRun.plain.options.manifest) ≠
          PairRun.plain.location? path := by decide +kernel
    unfold ManifestReadOnce
    rw [PairRun.copiedImages_book hr, PairRun.chaptersRead_book hr]
    intro path hpath loc hl hl'
    exact hne path hpath (hl.trans hl'.symm)
  have hnodup : ((chaptersRead "book" "out" PairRun.plain.options PairRun.plain.book).map
      (chapterPath "out")).Nodup := by
    rw [PairRun.chaptersRead_book hr]
    decide +kernel
  obtain ⟨-, -, -, -, hlocations⟩ := PairRun.evaluated _ hr
  obtain ⟨-, hspot, -⟩ := hlocations _ List.mem_cons_self
  obtain ⟨hsuccess, horder⟩ := run_of_reordered_spine hfile hspot PairRun.reordered_manifest honce
    (PairRun.readsApart_book hr) hnodup (PairRun.anchorsAgree_book hr)
  have hrun := PairRun.run_book hr
  obtain ⟨report', final', hrun'⟩ := hsuccess.1 ⟨_, _, hrun⟩
  exact ⟨_, _, report', final', hrun, hrun', horder _ _ _ _ hrun hrun'⟩

/-- A book whose images stand beside the package document has this document in its catalog, where it shows
the order of the spine. The chapters of the book go to different files, apart from all else that is written,
nothing that is read is written, and the chapters agree on their slugs; and yet the catalogs differ when its
chapters change places. -/
theorem pairBook_copies_manifest :
    let options := (PairRun.flat ("a", "b")).options
    let files := (PairRun.flat ("a", "b")).book
    let files' := files.put ["book", "content.opf"] (.file (.text (PairRun.manifest ("b", "a"))))
    Spine.Reordered (PairRun.manifest ("a", "b")) (PairRun.manifest ("b", "a")) ∧
    (∀ t ∈ [files, files'],
      ((writes "book" "out" options t).map (madeFrom "out" options t).location?).Nodup ∧
      ReadsApart "book" "out" options t ∧
      AnchorsAgree "book" (madeFrom "out" options t) (chaptersRead "book" "out" options t)) ∧
    ∃ report final report' final', run "book" "out" options files = (.ok report, final) ∧
      run "book" "out" options files' = (.ok report', final') ∧
      final.get? ["out", "Assets", "content.opf"] ≠ final'.get? ["out", "Assets", "content.opf"] := by
  have hfiles' : (PairRun.flat ("a", "b")).book.put ["book", "content.opf"]
      (.file (.text (PairRun.manifest ("b", "a")))) = (PairRun.flat ("b", "a")).book := by
    simp [PairRun.book, PairRun.flat, FileTree.put]
  have hr : PairRun.flat ("a", "b") ∈ PairRun.all := by simp [PairRun.all]
  have hr' : PairRun.flat ("b", "a") ∈ PairRun.all := by simp [PairRun.all]
  have hconditions : ∀ r ∈ PairRun.all,
      ((writes "book" "out" r.options r.book).map (madeFrom "out" r.options r.book).location?).Nodup ∧
      ReadsApart "book" "out" r.options r.book ∧
      AnchorsAgree "book" (madeFrom "out" r.options r.book) (chaptersRead "book" "out" r.options r.book) := by
    intro r hr
    obtain ⟨-, -, -, hnodup, -⟩ := PairRun.evaluated r hr
    exact ⟨PairRun.writes_book hr ▸ hnodup, PairRun.readsApart_book hr, PairRun.anchorsAgree_book hr⟩
  have hoptions : (PairRun.flat ("a", "b")).options = (PairRun.flat ("b", "a")).options := rfl
  have hrun' : run "book" "out" (PairRun.flat ("a", "b")).options (PairRun.flat ("b", "a")).book =
      (.ok (PairRun.flat ("b", "a")).prepared.report, (PairRun.flat ("b", "a")).final) := by
    rw [hoptions]
    exact PairRun.run_book hr'
  dsimp only
  rw [hfiles']
  refine ⟨PairRun.reordered_manifest, ?_, _, _, _, _, PairRun.run_book hr, hrun', ?_⟩
  · intro t ht
    obtain rfl | rfl : t = (PairRun.flat ("a", "b")).book ∨ t = (PairRun.flat ("b", "a")).book := by
      simpa using ht
    · exact hconditions _ hr
    · rw [hoptions]
      exact hconditions _ hr'
  · decide +kernel

end BookCatalog.Book
